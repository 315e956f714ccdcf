/-!
# Special variables

The variables that the language itself sets or reads (`NR`, `FS`, ...) live in a table of
their own, each at a fixed slot from `1`. Every other name has slot `0`, which is how a name is
told to be special.
-/

namespace AwkNames

namespace Special

/-- The special variables with their fixed slots, in slot order. -/
def table : List (String × Nat) :=
  [("ARGC", 1), ("CONVFMT", 2), ("FILENAME", 3), ("FNR", 4), ("FS", 5), ("NF", 6), ("NR", 7),
   ("OFMT", 8), ("OFS", 9), ("ORS", 10), ("RLENGTH", 11), ("RS", 12), ("RSTART", 13),
   ("RT", 14), ("SUBSEP", 15)]

/-- The fixed slot of a special variable, and `0` for any other name. -/
def slot (name : String) : Nat := (table.lookup name).getD 0

/-- Whether a name is a special variable. -/
def isSpecial (name : String) : Bool := 0 < slot name

theorem slot_of_not_special (name : String) (h : isSpecial name = false) : slot name = 0 := by
  simpa [isSpecial] using h

end Special

end AwkNames
