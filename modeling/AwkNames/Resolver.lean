import AwkNames.Config
import AwkNames.Position
import AwkNames.SymbolTable

/-!
# What the resolver records

While a program is built, the resolver records every scalar use, every array use and every
call of a user function, keeps the symbol table, the ordinal of each declared function, and
the function whose body is open.

* `Resolver.scopeOf` is the scope a name gets where it is written: a parameter of the open
  function first, then a special variable, then a global;
* resolution (`AwkNames.Resolution`) reads these records once the program is complete.
-/

namespace AwkNames

/-- A recorded use of a name: the owner of the table it was looked up in, and its node. -/
structure Ref where
  /-- The function whose table holds the name; `none` for the globals. -/
  owner : Option String
  /-- The node of the use. -/
  node : NodeId
deriving DecidableEq, Repr, Inhabited

/-- A recorded call of a user function. -/
structure CallSite where
  /-- The function called. -/
  callee : String
  /-- The number of arguments. -/
  argCount : Nat
  /-- Where the call is written. -/
  position : Position
  /-- The call node. -/
  node : NodeId
deriving DecidableEq, Repr, Inhabited

/-- The function whose body is being built, with its parameter names. -/
structure Frame where
  /-- The function. -/
  function : String
  /-- Its parameter names. -/
  params : List String
deriving DecidableEq, Repr, Inhabited

/-- The resolver's records for one program. -/
structure Resolver where
  /-- Its settings. -/
  config : Config
  /-- The symbol table. -/
  symbols : SymbolTable := {}
  /-- The ordinal of each declared function. -/
  functions : NameMap Nat := ∅
  /-- The scalar uses, in the order they were written. -/
  scalarRefs : List Ref := []
  /-- The array uses, in the order they were written. -/
  arrayRefs : List Ref := []
  /-- The calls of user functions, in the order they were written. -/
  calls : List CallSite := []
  /-- Each checked call node with the ordinal of its callee. -/
  bindings : List (NodeId × Nat) := []
  /-- The function whose body is open. -/
  frame : Option Frame := none
deriving Inhabited

namespace Resolver

/-- The scope of a name outside any parameter list. -/
def outerScope (r : Resolver) (name : String) : Scope :=
  if 0 < r.config.specialSlot name then .special else .global

/-- The scope of a name where it is written now. -/
def scopeOf (r : Resolver) (name : String) : Scope :=
  match r.frame with
  | some fr => if name ∈ fr.params then .param fr.function else r.outerScope name
  | none => r.outerScope name

/-- Whether a function with this name is declared. -/
def hasFunction (r : Resolver) (name : String) : Bool := r.functions.contains name

/-- The function whose body is open. -/
def currentFunction (r : Resolver) : Option String := r.frame.map (·.function)

@[simp]
theorem scopeOf_of_closed (r : Resolver) (name : String) (h : r.frame = none) :
    r.scopeOf name = r.outerScope name := by
  simp [scopeOf, h]

theorem scopeOf_param (r : Resolver) (fr : Frame) (name : String) (h : r.frame = some fr)
    (hp : name ∈ fr.params) : r.scopeOf name = .param fr.function := by
  simp [scopeOf, h, hp]

end Resolver

end AwkNames
