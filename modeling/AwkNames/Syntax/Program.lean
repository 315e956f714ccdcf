import AwkNames.Syntax.Node
import AwkNames.NameMap

/-!
# Programs

A `Program` is what the builder assembles: the `BEGIN` blocks, the pattern-action pairs, the
`END` blocks and the user functions, each with its statements, plus the slot tables that
resolution fills: each global scalar's and each global array's slot.
-/

namespace AwkNames

/-- A statement. Expressions are node ids in the arena. -/
inductive Stmt where
  /-- An expression evaluated for its effect. -/
  | expr (e : NodeId)
  /-- `print` with its arguments. -/
  | print (args : List NodeId)
  /-- `delete a[i, j]`, or `delete a` with no subscripts. -/
  | delete (array : NodeId) (subs : List NodeId)
  /-- `return`, with or without a value. -/
  | ret (value : Option NodeId)
deriving DecidableEq, Repr, Inhabited

/-- A pattern with its action; no pattern matches every record. -/
structure Action where
  /-- The pattern. -/
  pattern : Option NodeId
  /-- The statements of the action. -/
  body : List Stmt
deriving DecidableEq, Repr, Inhabited

/-- A user function. -/
structure UserFunction where
  /-- Its name. -/
  name : String
  /-- Its parameter names, in order. -/
  params : List String
  /-- Which parameters are arrays, one flag per parameter; all `false` until resolution. -/
  arrays : List Bool
  /-- The statements of its body. -/
  body : List Stmt
deriving DecidableEq, Repr, Inhabited

/-- A program. -/
structure Program where
  /-- The `BEGIN` blocks, in order. -/
  begins : List (List Stmt) := []
  /-- The pattern-action pairs, in order. -/
  actions : List Action := []
  /-- The `END` blocks, in order. -/
  ends : List (List Stmt) := []
  /-- The user functions, in declaration order; a function's ordinal is its index here. -/
  functions : List UserFunction := []
  /-- The slot of each global scalar. -/
  scalars : NameMap Nat := ∅
  /-- The slot of each global array. -/
  arrays : NameMap Nat := ∅
deriving Repr, Inhabited

namespace Program

/-- The number of parameters of the function with an ordinal, and `0` past the list. -/
def arity (p : Program) (k : Nat) : Nat := (p.functions[k]?.map (·.params.length)).getD 0

/-- The name of the `i`-th parameter of the function with an ordinal. -/
def param? (p : Program) (k i : Nat) : Option String := p.functions[k]?.bind (·.params[i]?)

/-- Whether the slot tables number the scalars `0, 1, ...` and the arrays `0, 1, ...`, each
slot used once. -/
def isDense (p : Program) : Bool :=
  let dense (m : NameMap Nat) : Bool :=
    (List.range m.size).all fun i => (m.entries.filter (·.2 == i)).length == 1
  dense p.scalars && dense p.arrays

end Program

end AwkNames
