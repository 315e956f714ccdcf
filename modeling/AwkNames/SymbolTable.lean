import AwkNames.Symbol
import AwkNames.NameMap

/-!
# The symbol table

One table holds the global and special variables; each declared function has a table of its
own for its parameters. A table is named by its owner: `none` for the globals, `some f` for
function `f`.

* `SymbolTable.get?`, `insert` and `kind` read and write one name of one table;
* `SymbolTable.pending` lists the names whose kind waits on a parameter, globals first, then
  function by function, each in name order;
* `SymbolTable.dump` is the text of the whole table.
-/

namespace AwkNames

/-- The symbols of a program. -/
structure SymbolTable where
  /-- The global and special variables. -/
  globals : NameMap Symbol := ∅
  /-- The table of each function. -/
  scopes : NameMap (NameMap Symbol) := ∅
deriving Repr, Inhabited

namespace SymbolTable

/-- The table of a function, if it has one. -/
def scope? (t : SymbolTable) (function : String) : Option (NameMap Symbol) :=
  t.scopes.get? function

/-- The symbol of a name in the table of an owner. -/
def get? (t : SymbolTable) (owner : Option String) (name : String) : Option Symbol :=
  match owner with
  | none => t.globals.get? name
  | some f => (t.scopes.get? f).bind (·.get? name)

/-- The kind of a name; an absent name is unknown. -/
def kind (t : SymbolTable) (owner : Option String) (name : String) : Kind :=
  ((t.get? owner name).map (·.kind)).getD .unknown

/-- Sets the symbol of a name, making the owner's table if it has none. -/
def insert (t : SymbolTable) (owner : Option String) (name : String) (s : Symbol) :
    SymbolTable :=
  match owner with
  | none => { t with globals := t.globals.insert name s }
  | some f => { t with scopes := t.scopes.insert f ((t.scopes.getD f ∅).insert name s) }

/-- Gives a function an empty table, dropping any it had. -/
def addFunction (t : SymbolTable) (function : String) : SymbolTable :=
  { t with scopes := t.scopes.insert function ∅ }

/-- Gives a function an empty table unless it has one. -/
def ensureScope (t : SymbolTable) (function : String) : SymbolTable :=
  if t.scopes.contains function then t else t.addFunction function

/-- Sets the kind of a name that is present; `none` when it is absent. -/
def setKind? (t : SymbolTable) (owner : Option String) (name : String) (k : Kind) :
    Option SymbolTable :=
  (t.get? owner name).map fun s => t.insert owner name { s with kind := k }

/-- The pending names of one table, tagged with its owner. -/
def pendingIn (owner : Option String) (m : NameMap Symbol) : List (Option String × String) :=
  m.entries.filterMap fun e => if e.2.isPending then some (owner, e.1) else none

/-- The names whose kind waits on a parameter: the globals, then each function's table. -/
def pending (t : SymbolTable) : List (Option String × String) :=
  pendingIn none t.globals ++ t.scopes.entries.flatMap fun e => pendingIn (some e.1) e.2

/-- The line of one name in a table dump. -/
def entryLine (e : String × Symbol) : String := "  " ++ e.1 ++ ": " ++ e.2.describe ++ "\n"

/-- The text of the table: a `globals` line and a line per global, then for each function a
`function` line and a line per name of its table, each line ended by a newline. Names are
written as they are, so a name that holds a newline breaks its line in two. -/
def dump (t : SymbolTable) : String :=
  "globals\n" ++ String.join (t.globals.entries.map entryLine) ++
    String.join (t.scopes.entries.map fun f =>
      "function " ++ f.1 ++ "\n" ++ String.join (f.2.entries.map entryLine))

theorem mem_pendingIn (owner : Option String) (m : NameMap Symbol) (o : Option String)
    (n : String) :
    (o, n) ∈ pendingIn owner m ↔ o = owner ∧ ∃ s, (n, s) ∈ m.entries ∧ s.isPending = true := by
  simp only [pendingIn, List.mem_filterMap]
  constructor
  · rintro ⟨⟨k, s⟩, hmem, hp⟩
    by_cases h : s.isPending = true
    · simp only [h, if_true, Option.some.injEq, Prod.mk.injEq] at hp
      obtain ⟨rfl, rfl⟩ := hp
      exact ⟨rfl, s, hmem, h⟩
    · simp [h] at hp
  · rintro ⟨rfl, s, hmem, hp⟩
    exact ⟨(n, s), hmem, by simp [hp]⟩

@[simp]
theorem get?_insert (t : SymbolTable) (o o' : Option String) (n n' : String) (s : Symbol) :
    (t.insert o n s).get? o' n' = if o = o' ∧ n = n' then some s else t.get? o' n' := by
  cases o <;> cases o' <;> simp [insert, get?, NameMap.getD]
  rename_i f f'
  by_cases h : f = f'
  · subst h
    cases t.scopes.get? f <;> simp
  · simp [h]

end SymbolTable

end AwkNames
