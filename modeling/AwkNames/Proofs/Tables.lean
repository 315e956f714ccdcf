import AwkNames.SymbolTable
import AwkNames.Proofs.NameMap

/-!
# The symbol table as a set of entries

A symbol table is a table of globals and a table of tables, one per function. Here it is seen
as one collection of entries `(owner, name, symbol)` (`SymbolTable.allEntries`), which is how
the passes of resolution treat it: each visits entries and changes symbols in place.

* `SymbolTable.mem_allEntries` : `get?` reads exactly the entries, since every table in it is
  sorted;
* `SymbolTable.mapEntries` : changes every symbol by its owner and name; inserting at a name
  that is present is such a change (`SymbolTable.insert_eq_mapEntries`);
* `SymbolTable.mem_pending` : the pending list holds exactly the pending entries, and
  `length_pending_mapEntries_lt` counts them down when a change settles one.
-/

namespace AwkNames

namespace SymbolTable

variable {t : SymbolTable}

@[simp]
theorem get?_addFunction (t : SymbolTable) (f : String) (o : Option String) (n : String) :
    (t.addFunction f).get? o n = if o = some f then none else t.get? o n := by
  cases o with
  | none => simp [addFunction, get?]
  | some g =>
    by_cases h : f = g
    · subst h; simp [addFunction, get?]
    · simp [addFunction, get?, h, Ne.symm h]

/-! ### Changing symbols in place -/

/-- Changes every symbol, each by its owner and name; no entry is added or removed. -/
def mapEntries (g : Option String → String → Symbol → Symbol) (t : SymbolTable) : SymbolTable :=
  { globals := t.globals.mapValues (g none)
    scopes := t.scopes.mapValues fun f m => m.mapValues (g (some f)) }

@[simp]
theorem get?_mapEntries (g : Option String → String → Symbol → Symbol) (t : SymbolTable)
    (o : Option String) (n : String) : (t.mapEntries g).get? o n = (t.get? o n).map (g o n) := by
  cases o with
  | none => simp [mapEntries, get?]
  | some f =>
    simp only [mapEntries, get?, NameMap.get?_mapValues]
    cases t.scopes.get? f <;> simp

@[simp]
theorem mapEntries_id (t : SymbolTable) : t.mapEntries (fun _ _ s => s) = t := by
  simp [mapEntries]

theorem kind_of_get? {o : Option String} {n : String} {s : Symbol} (h : t.get? o n = some s) :
    t.kind o n = s.kind := by
  simp [kind, h]

theorem kind_of_get?_none {o : Option String} {n : String} (h : t.get? o n = none) :
    t.kind o n = .unknown := by
  simp [kind, h]

/-- A function's table, or an empty one, holds what the symbol table holds for it. -/
theorem get?_scopes_getD (t : SymbolTable) (f n : String) :
    (t.scopes.getD f ∅).get? n = t.get? (some f) n := by
  simp only [NameMap.getD, get?]
  cases t.scopes.get? f <;> rfl

/-- A rewrite that leaves every function's table alone rewrites only the globals. -/
theorem mapEntries_of_scopes (t : SymbolTable) {g : Option String → String → Symbol → Symbol}
    (hg : ∀ f n s, g (some f) n s = s) :
    t.mapEntries g = { t with globals := t.globals.mapValues (g none) } := by
  have hid : ∀ f, g (some f) = fun _ s => s := fun f => funext₂ (hg f)
  simp [SymbolTable.mapEntries, hid]

theorem mapEntries_mapEntries (g g' : Option String → String → Symbol → Symbol)
    (t : SymbolTable) :
    (t.mapEntries g).mapEntries g' = t.mapEntries fun o n s => g' o n (g o n s) := by
  simp [mapEntries, NameMap.mapValues_mapValues]

theorem mapEntries_congr (t : SymbolTable) {g g' : Option String → String → Symbol → Symbol}
    (h : ∀ o n s, t.get? o n = some s → g o n s = g' o n s) :
    t.mapEntries g = t.mapEntries g' := by
  simp only [SymbolTable.mapEntries, mk.injEq]
  refine ⟨t.globals.mapValues_congr fun n s hn => h none n s hn,
    t.scopes.mapValues_congr fun f m hf => ?_⟩
  exact m.mapValues_congr fun n s hn => h (some f) n s (by simp [get?, hf, hn])

/-- Inserting at a name that is present changes that one symbol in place. -/
theorem insert_eq_mapEntries (t : SymbolTable) {o : Option String} {n : String}
    (hn : (t.get? o n).isSome) (s : Symbol) :
    t.insert o n s = t.mapEntries fun o' n' s' => if o' = o ∧ n' = n then s else s' := by
  cases o with
  | none =>
    have hglobals : t.globals.insert n s =
        t.globals.mapValues fun n' s' => if n' = n then s else s' :=
      t.globals.insert_eq_mapValues hn s
    simp [SymbolTable.insert, SymbolTable.mapEntries, hglobals]
  | some f =>
    obtain ⟨m, hf, hmn⟩ : ∃ m, t.scopes.get? f = some m ∧ (m.get? n).isSome := by
      simp only [get?] at hn
      cases hf : t.scopes.get? f with
      | none => simp [hf] at hn
      | some m => exact ⟨m, rfl, by simpa [hf] using hn⟩
    have hscope : m.insert n s = m.mapValues fun n' s' => if n' = n then s else s' :=
      m.insert_eq_mapValues hmn s
    have hscopes : t.scopes.insert f (m.insert n s) =
        t.scopes.mapValues fun f' m' => if f' = f then m.insert n s else m' :=
      t.scopes.insert_eq_mapValues (by simp [hf]) _
    simp only [SymbolTable.insert, SymbolTable.mapEntries, NameMap.getD, hf, Option.getD_some,
      hscopes, reduceCtorEq, false_and, if_false, NameMap.mapValues_id, Option.some.injEq]
    congr 1
    refine t.scopes.mapValues_congr fun f' m' hf' => ?_
    by_cases h : f' = f
    · subst h
      rw [hf] at hf'
      cases hf'
      simp [hscope]
    · simp [h]

/-! ### All entries -/

/-- Every entry of the table with its owner: the globals, then each function's table. -/
def allEntries (t : SymbolTable) : List (Option String × String × Symbol) :=
  t.globals.entries.map (fun e => (none, e.1, e.2)) ++
    t.scopes.entries.flatMap fun f => f.2.entries.map fun e => (some f.1, e.1, e.2)

theorem mem_allEntries (t : SymbolTable) {o : Option String} {n : String} {s : Symbol} :
    (o, n, s) ∈ t.allEntries ↔ t.get? o n = some s := by
  cases o with
  | none =>
    constructor
    · intro h
      rcases List.mem_append.1 h with h | h
      · obtain ⟨⟨n', s'⟩, he, heq⟩ := List.mem_map.1 h
        simp only [Prod.mk.injEq, true_and] at heq
        obtain ⟨rfl, rfl⟩ := heq
        exact t.globals.mem_iff_get?.1 he
      · obtain ⟨f, -, h'⟩ := List.mem_flatMap.1 h
        obtain ⟨e, -, heq⟩ := List.mem_map.1 h'
        simp at heq
    · intro h
      exact List.mem_append_left _ (List.mem_map.2 ⟨(n, s), t.globals.mem_iff_get?.2 h, rfl⟩)
  | some f =>
    constructor
    · intro h
      rcases List.mem_append.1 h with h | h
      · obtain ⟨e, -, heq⟩ := List.mem_map.1 h
        simp at heq
      · obtain ⟨⟨f', m⟩, hfm, h'⟩ := List.mem_flatMap.1 h
        obtain ⟨⟨n', s'⟩, he, heq⟩ := List.mem_map.1 h'
        simp only [Prod.mk.injEq, Option.some.injEq] at heq
        obtain ⟨rfl, rfl, rfl⟩ := heq
        have hf : t.scopes.get? f' = some m := t.scopes.mem_iff_get?.1 hfm
        simp [get?, hf, m.mem_iff_get?.1 he]
    · intro h
      simp only [get?] at h
      cases hf : t.scopes.get? f with
      | none => simp [hf] at h
      | some m =>
        simp only [hf, Option.bind_some] at h
        refine List.mem_append_right _
          (List.mem_flatMap.2 ⟨(f, m), t.scopes.mem_iff_get?.2 hf, ?_⟩)
        exact List.mem_map.2 ⟨(n, s), m.mem_iff_get?.2 h, rfl⟩

theorem allEntries_mapEntries (g : Option String → String → Symbol → Symbol) (t : SymbolTable) :
    (t.mapEntries g).allEntries = t.allEntries.map fun e => (e.1, e.2.1, g e.1 e.2.1 e.2.2) := by
  simp [allEntries, mapEntries, NameMap.mapValues, List.map_flatMap, List.flatMap_map,
    Function.comp_def]

/-! ### Pending entries -/

theorem pending_eq_filterMap (t : SymbolTable) :
    t.pending = t.allEntries.filterMap fun e =>
      if e.2.2.isPending then some (e.1, e.2.1) else none := by
  simp only [pending, pendingIn, allEntries, List.filterMap_append, List.filterMap_map,
    List.filterMap_flatMap, Function.comp_def]

theorem mem_pending (t : SymbolTable) {o : Option String} {n : String} :
    (o, n) ∈ t.pending ↔ ∃ s, t.get? o n = some s ∧ s.isPending = true := by
  rw [pending_eq_filterMap, List.mem_filterMap]
  constructor
  · rintro ⟨⟨o', n', s⟩, he, hp⟩
    by_cases h : s.isPending = true
    · simp only [h, if_true, Option.some.injEq, Prod.mk.injEq] at hp
      obtain ⟨rfl, rfl⟩ := hp
      exact ⟨s, t.mem_allEntries.1 he, h⟩
    · simp [h] at hp
  · rintro ⟨s, hs, hp⟩
    exact ⟨(o, n, s), t.mem_allEntries.2 hs, by simp [hp]⟩

theorem length_pending (t : SymbolTable) :
    t.pending.length = t.allEntries.countP fun e => e.2.2.isPending := by
  rw [pending_eq_filterMap, List.length_filterMap_eq_countP]
  congr 1
  funext e
  split <;> simp_all

theorem countP_lt_countP {α : Type} {p q : α → Bool} {l : List α}
    (hpq : ∀ x ∈ l, p x = true → q x = true) (hx : ∃ x ∈ l, q x = true ∧ p x = false) :
    l.countP p < l.countP q := by
  induction l with
  | nil => simp at hx
  | cons y l ih =>
    obtain ⟨x, hxl, hqx, hpx⟩ := hx
    have hle : l.countP p ≤ l.countP q :=
      List.countP_mono_left fun z hz => hpq z (List.mem_cons_of_mem _ hz)
    rw [List.countP_cons, List.countP_cons]
    rcases List.mem_cons.1 hxl with rfl | hxl
    · simp only [hpx, hqx, Bool.false_eq_true, if_false, if_true]
      omega
    · have hlt := ih (fun z hz => hpq z (List.mem_cons_of_mem _ hz)) ⟨x, hxl, hqx, hpx⟩
      by_cases h : p y = true
      · simp only [h, hpq y List.mem_cons_self h, if_true]
        omega
      · have h' : p y = false := by simpa using h
        simp only [h', Bool.false_eq_true, if_false]
        split <;> omega

/-- A change that never makes an entry pending, and settles one, leaves fewer pending
entries. -/
theorem length_pending_mapEntries_lt (g : Option String → String → Symbol → Symbol)
    (hg : ∀ o n s, (g o n s).isPending = true → s.isPending = true) {o : Option String}
    {n : String} {s : Symbol} (hs : t.get? o n = some s) (hp : s.isPending = true)
    (hq : (g o n s).isPending = false) :
    (t.mapEntries g).pending.length < t.pending.length := by
  rw [length_pending, length_pending, allEntries_mapEntries, List.countP_map]
  exact countP_lt_countP (fun e _ he => hg _ _ _ he)
    ⟨(o, n, s), t.mem_allEntries.2 hs, hp, hq⟩

end SymbolTable

end AwkNames
