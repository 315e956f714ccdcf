import AwkNames.Syntax.Node

/-!
# Symbols

What the resolver knows about one name in one table: its kind, the node where it was first
used as a scalar, its scope, its slot, and, while its kind is open, the parameter of a called
function whose kind it will take.

* `Kind` is unknown, scalar or array;
* `Deferral` names a parameter by function and position;
* `Symbol.describe` is the one-line text of a symbol in a table dump.
-/

namespace AwkNames

/-- What a variable holds. -/
inductive Kind where
  /-- Not known yet. -/
  | unknown
  /-- A scalar. -/
  | scalar
  /-- An array. -/
  | array
deriving DecidableEq, Repr, Inhabited

/-- The word for a kind. -/
def Kind.word : Kind → String
  | .unknown => "Unknown"
  | .scalar => "Scalar"
  | .array => "Array"

/-- A parameter of a user function, by function name and position from `0`. -/
structure Deferral where
  /-- The function. -/
  callee : String
  /-- The position of the parameter. -/
  arg : Nat
deriving DecidableEq, Repr, Inhabited

/-- What the resolver knows about one name. -/
structure Symbol where
  /-- Its kind. -/
  kind : Kind
  /-- The node where it was first used as a scalar. -/
  firstUse : Option NodeId := none
  /-- Its scope. -/
  scope : Scope
  /-- Its slot; `0` until slots are given. -/
  slot : Nat := 0
  /-- The parameter whose kind it waits for. -/
  waitsOn : Option Deferral := none
deriving DecidableEq, Repr, Inhabited

namespace Symbol

/-- A symbol waits for a parameter's kind: its kind is unknown and it names a parameter. -/
def isPending (s : Symbol) : Bool := s.kind == .unknown && s.waitsOn.isSome

/-- The text of a symbol in a table dump. -/
def describe (s : Symbol) : String :=
  let first := match s.firstUse with
    | some id => "ExprId(" ++ toString id.val ++ ")"
    | none => "none"
  let waits := match s.waitsOn with
    | some d => d.callee ++ "[" ++ toString d.arg ++ "]"
    | none => "none"
  "kind=" ++ s.kind.word ++ " scope=" ++ s.scope.word ++ " index=" ++ toString s.slot ++
    " first_ref=" ++ first ++ " deferred=" ++ waits

theorem isPending_iff (s : Symbol) :
    s.isPending = true ↔ s.kind = .unknown ∧ s.waitsOn.isSome = true := by
  simp [isPending]

end Symbol

end AwkNames
