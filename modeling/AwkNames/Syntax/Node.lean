/-!
# Expression nodes

A program's expressions live in one arena (`AwkNames.Ast`); a `NodeId` is a 32-bit handle
of a position in it, and a node refers to its children by their ids.

* `NodeId.ofNat` cuts a position to 32 bits; it is a position's own id only below `2 ^ 32`
  (`NodeId.val_ofNat_of_lt`);
* `Scope` says where a name lives: a global variable, a special variable, or a parameter of
  a function;
* `Use` is a name as written at one place of the tree, with the slot that resolution gives it;
* `Expr` is one node.
-/

namespace AwkNames

/-- The handle of a node: a 32-bit number that names a position in the arena. -/
structure NodeId where
  /-- The 32-bit number. -/
  raw : UInt32
deriving DecidableEq, Repr, Inhabited

namespace NodeId

/-- The position an id names. -/
def val (i : NodeId) : Nat := i.raw.toNat

/-- The id of a position, cut to its low 32 bits. -/
def ofNat (n : Nat) : NodeId := ⟨UInt32.ofNat n⟩

theorem val_lt (i : NodeId) : i.val < UInt32.size := i.raw.toNat_lt

@[simp] theorem val_mk (r : UInt32) : (NodeId.mk r).val = r.toNat := rfl

@[simp] theorem val_ofNat (n : Nat) : (ofNat n).val = n % UInt32.size := UInt32.toNat_ofNat'

theorem val_ofNat_of_lt {n : Nat} (h : n < UInt32.size) : (ofNat n).val = n :=
  UInt32.toNat_ofNat_of_lt' h

/-- Two ids are equal exactly when they name one position. -/
theorem val_inj {i j : NodeId} : i.val = j.val ↔ i = j := by
  cases i
  cases j
  simp [val, UInt32.toNat_inj]

end NodeId

/-- A binary64 floating-point number, as its bit pattern. -/
structure Double where
  /-- The IEEE 754 encoding. -/
  bits : UInt64
deriving DecidableEq, Repr, Inhabited

/-- Where a name lives. -/
inductive Scope where
  /-- A global variable. -/
  | global
  /-- A special variable such as `NR`. -/
  | special
  /-- A parameter of the named function. -/
  | param (function : String)
deriving DecidableEq, Repr, Inhabited

namespace Scope

/-- The function whose table holds the name; `none` for the table of globals. -/
def owner : Scope → Option String
  | .param f => some f
  | _ => none

/-- The word a symbol dump writes for a scope. -/
def word : Scope → String
  | .global => "Global"
  | .special => "Special"
  | .param _ => "Local"

@[simp] theorem owner_param (f : String) : (param f).owner = some f := rfl

@[simp] theorem owner_global : global.owner = none := rfl

@[simp] theorem owner_special : special.owner = none := rfl

end Scope

/-- The binary operators. -/
inductive BinOp where
  | add | sub | mul | div | mod | concat
  | equals | notEquals | less | lessEquals | greater | greaterEquals
  | and | or
deriving DecidableEq, Repr, Inhabited

/-- A name as written at one place of the tree. -/
structure Use where
  /-- The name. -/
  name : String
  /-- The scope the name had where it was written. -/
  scope : Scope
  /-- The slot resolution gives it; `0` until then. -/
  slot : Nat := 0
deriving DecidableEq, Repr, Inhabited

/-- A call of a user function. -/
structure CallNode where
  /-- The function called. -/
  callee : String
  /-- The argument nodes. -/
  args : List NodeId
  /-- The ordinal of the callee among the declared functions, once resolution binds it. -/
  ordinal : Option Nat := none
deriving DecidableEq, Repr, Inhabited

/-- One node of the arena. -/
inductive Expr where
  /-- A number literal. -/
  | num (value : Double)
  /-- A string literal. -/
  | str (value : String)
  /-- A field reference `$e`. -/
  | field (arg : NodeId)
  /-- A scalar variable. -/
  | var (use : Use)
  /-- An array variable. -/
  | array (use : Use)
  /-- An element `a[i, j]` of an array. -/
  | subscript (array : NodeId) (subs : List NodeId)
  /-- A membership test `(i, j) in a`. -/
  | member (subs : List NodeId) (array : NodeId)
  /-- An assignment. -/
  | assign (left right : NodeId)
  /-- A binary operation. -/
  | binary (op : BinOp) (left right : NodeId)
  /-- A call of a user function. -/
  | call (call : CallNode)
deriving DecidableEq, Repr, Inhabited

end AwkNames
