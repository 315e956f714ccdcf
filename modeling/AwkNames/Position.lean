/-!
# Source positions

A `Position` names a line of a source file. Diagnostics carry one; `Position.null` stands for
"no position", for faults found after the whole program has been read.
-/

namespace AwkNames

/-- A line of a source file. -/
structure Position where
  /-- The line number, from `1`. -/
  line : Nat
  /-- The file name. -/
  file : String
deriving DecidableEq, Repr, Inhabited

namespace Position

/-- The position of a fault that belongs to no line: line `0` of the file `<null>`. -/
def null : Position := ⟨0, "<null>"⟩

/-- Whether a position is `Position.null`. -/
def isNull (p : Position) : Bool := p.line == 0 && p.file == "<null>"

theorem isNull_iff (p : Position) : p.isNull = true ↔ p = null := by
  cases p
  simp [isNull, null]

end Position

end AwkNames
