import AwkNames.Builder

/-!
# Slots

After kinds are inferred every variable gets a slot.

* Globals, in a given order (table order when the builder resolves): a special variable keeps
  its fixed slot; an array takes the next
  slot of the array table; anything else becomes a scalar and takes the next slot of the
  scalar table. The program's two tables are replaced by the new ones.
* Parameters, function by function in declaration order: a parameter never used is added as
  unknown; arrays and scalars are numbered separately in parameter order, anything but an
  array becoming a scalar, and the function's array flags are set.
* Finally every recorded use is given the slot of its symbol (`Builder.patch`).
-/

namespace AwkNames

/-- The slot tables of the globals while they are filled. -/
structure GlobalSlots where
  /-- The slot of each global scalar. -/
  scalars : NameMap Nat := ∅
  /-- The slot of each global array. -/
  arrays : NameMap Nat := ∅

namespace GlobalSlots

/-- Gives one global its slot. -/
def place (special : String → Nat) (acc : GlobalSlots) (name : String) (s : Symbol) :
    Symbol × GlobalSlots :=
  if s.scope = .special then ({ s with slot := special name }, acc)
  else if s.kind = .array then
    ({ s with slot := acc.arrays.size }, { acc with arrays := acc.arrays.insert name acc.arrays.size })
  else
    ({ s with kind := .scalar, slot := acc.scalars.size },
      { acc with scalars := acc.scalars.insert name acc.scalars.size })

end GlobalSlots

/-- Numbers the parameters of a function from the next free scalar and array slots; the
updated table and one flag per parameter, `true` for an array. -/
def placeParams (function : String) :
    List String → NameMap Symbol → Nat → Nat → NameMap Symbol × List Bool
  | [], t, _, _ => (t, [])
  | p :: ps, t, ns, na =>
    let s := t.getD p { kind := .unknown, scope := .param function }
    if s.kind = .array then
      let (t', flags) := placeParams function ps (t.insert p { s with slot := na }) ns (na + 1)
      (t', true :: flags)
    else
      let (t', flags) :=
        placeParams function ps (t.insert p { s with kind := .scalar, slot := ns }) (ns + 1) na
      (t', false :: flags)

namespace Builder

/-- Gives each global of a list of names its slot, in order; a name with no symbol is
skipped. -/
def placeGlobals (special : String → Nat) :
    List String → NameMap Symbol → GlobalSlots → NameMap Symbol × GlobalSlots
  | [], t, acc => (t, acc)
  | n :: ns, t, acc =>
    match t.get? n with
    | some s =>
      let (s', acc') := GlobalSlots.place special acc n s
      placeGlobals special ns (t.insert n s') acc'
    | none => placeGlobals special ns t acc

/-- Gives the globals their slots, visiting the names of `order`, and replaces the program's
slot tables. -/
def assignGlobalSlotsIn (order : List String) (b : Builder) : Builder :=
  let (globals, acc) :=
    placeGlobals b.resolver.config.specialSlot order b.resolver.symbols.globals {}
  { b with
    program := { b.program with scalars := acc.scalars, arrays := acc.arrays }
    resolver := { b.resolver with symbols := { b.resolver.symbols with globals } } }

/-- Gives every global its slot, in table order, and replaces the program's slot tables. -/
def assignGlobalSlots (b : Builder) : Builder :=
  b.assignGlobalSlotsIn b.resolver.symbols.globals.keys

/-- Numbers the parameters of each function of a list, threading the symbol table; the
functions come back with their array flags set. -/
def placeFunctions :
    List UserFunction → SymbolTable → List UserFunction × SymbolTable
  | [], t => ([], t)
  | f :: fs, t =>
    let (scope, flags) := placeParams f.name f.params (t.scopes.getD f.name ∅) 0 0
    let (fs', t') := placeFunctions fs { t with scopes := t.scopes.insert f.name scope }
    ({ f with arrays := flags } :: fs', t')

/-- Numbers the parameters of every function and sets its array flags. -/
def assignLocalSlots (b : Builder) : Builder :=
  let (functions, symbols) := placeFunctions b.program.functions b.resolver.symbols
  { b with
    program := { b.program with functions }
    resolver := { b.resolver with symbols } }

/-- Gives a recorded scalar use the slot of its symbol, while its node is still a scalar use
and the symbol exists. -/
def patchVar (b : Builder) (ref : Ref) : Builder :=
  match b.ast.get? ref.node with
  | some (.var u) =>
    match b.resolver.symbols.get? ref.owner u.name with
    | some s => { b with ast := b.ast.set ref.node (.var { u with slot := s.slot }) }
    | none => b
  | _ => b

/-- Gives a recorded array use the slot of its symbol, while its node is still an array use
and the symbol exists. -/
def patchArray (b : Builder) (ref : Ref) : Builder :=
  match b.ast.get? ref.node with
  | some (.array u) =>
    match b.resolver.symbols.get? ref.owner u.name with
    | some s => { b with ast := b.ast.set ref.node (.array { u with slot := s.slot }) }
    | none => b
  | _ => b

/-- Writes the slots into every recorded use: scalars first, then arrays. -/
def patch (b : Builder) : Builder :=
  b.resolver.arrayRefs.foldl patchArray (b.resolver.scalarRefs.foldl patchVar b)

end Builder

end AwkNames
