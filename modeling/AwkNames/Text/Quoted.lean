import AwkNames.Text.Unprintable

/-!
# Quoted names

Diagnostics show a name between double quotes. Inside the quotes a backslash, a double quote,
NUL, tab, carriage return and line feed are written `\\`, `\"`, `\0`, `\t`, `\r`, `\n`; any
other character that does not print on its own (`Text.isUnprintable`) is written `\u` followed
by its code point in lowercase hexadecimal between braces. Every other character stands for
itself.

* `Text.quote` writes a name this way;
* `Text.escapeChar` is the rule for one character.
-/

namespace AwkNames

namespace Text

/-- A number in lowercase hexadecimal, without leading zeros. -/
def hex (n : Nat) : String := String.ofList (Nat.toDigits 16 n)

/-- How one character is written between the quotes. -/
def escapeChar (c : Char) : String :=
  match c with
  | '\x00' => "\\0"
  | '\t' => "\\t"
  | '\r' => "\\r"
  | '\n' => "\\n"
  | '\\' => "\\\\"
  | '"' => "\\\""
  | c => if isUnprintable c then "\\u\x7b" ++ hex c.toNat ++ "\x7d" else c.toString

/-- A name between double quotes, with the escapes above. -/
def quote (s : String) : String :=
  "\"" ++ String.join (s.toList.map escapeChar) ++ "\""

theorem escapeChar_of_plain (c : Char) (h : isUnprintable c = false) (h0 : c ≠ '\x00')
    (ht : c ≠ '\t') (hr : c ≠ '\r') (hn : c ≠ '\n') (hb : c ≠ '\\') (hq : c ≠ '"') :
    escapeChar c = c.toString := by
  unfold escapeChar
  split <;> simp_all

end Text

end AwkNames
