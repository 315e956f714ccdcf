import AwkNames.Proofs.SlotPhases
import AwkNames.Proofs.Idempotence

/-!
# Numbering twice

Giving the globals their slots and then numbering the parameters, once more straight after a
first time, changes nothing: not the program's slot tables, not a function's array flags, not an
entry of the symbol table. This holds for every table and every program, with functions that
share a name (they share one table, and each numbering overwrites what an earlier one wrote) and
with parameters that repeat.

The first time both phases rewrite kinds (an unknown global or parameter becomes a scalar, a
missing parameter gets an entry), so the second time starts from other tables. It comes out the
same because each phase reads of a symbol little more than whether it is an array: the global
phase only `GlobalSlots.source`, the parameter phase only `Symbol.numbered`, the form a
parameter's entry is written back in.

* `Builder.placeGlobals_placeGlobals` : the global phase over its own result fills the same slot
  tables and leaves every global as it was;
* `Builder.placeFunctions_congr` : the parameter phase on two tables that read alike
  (`SymbolTable.ParamsAlike`) gives the same flags and the same entry for every parameter it
  numbers; `Builder.placeFunctions_paramsAlike` : its result reads as the table it started from;
* `Builder.assignSlots_idempotent` : both phases again leave the program and every lookup of the
  symbol table as the first time left them.
-/

namespace AwkNames

/-- A symbol as the parameter phase sees it: its kind as it will end, an array or a scalar, and
no slot. Numbering a parameter writes this back with the slot it takes. -/
def Symbol.numbered (s : Symbol) : Symbol := { s with kind := s.kind.orScalar, slot := 0 }

theorem Kind.orScalar_orScalar (k : Kind) : k.orScalar.orScalar = k.orScalar := by
  cases k <;> rfl

@[simp]
theorem Symbol.numbered_withSlot (s : Symbol) (n : Nat) :
    ({ s.numbered with slot := n } : Symbol).numbered = s.numbered := by
  simp [Symbol.numbered, Kind.orScalar_orScalar]

namespace GlobalSlots

variable {special : String → Nat}

/-- Settling a settled global changes nothing. -/
theorem settled_settled (acc : GlobalSlots) (n : String) (s : Symbol) :
    settled special acc n (settled special acc n s) = settled special acc n s := by
  rcases special_or_takes s with hs | hs | hs
  · simp [settled, hs]
  · simp [settled, hs.1, hs.2]
  · simp [settled, hs.1, hs.2]

end GlobalSlots

namespace Builder

open GlobalSlots

variable {special : String → Nat}

/-! ### The global phase again -/

/-- The global phase keeps where each global takes its slot from. -/
theorem placeGlobals_source (l : List String) (t : NameMap Symbol) (acc : GlobalSlots)
    (n : String) :
    ((placeGlobals special l t acc).1.get? n).map source = (t.get? n).map source := by
  rw [placeGlobals_get?, Option.map_map]
  congr 1
  funext s
  simp only [Function.comp_apply]
  split
  · exact source_settled
  · rfl

/-- **The global phase again**, over the same names in the same order, fills the slot tables
as the first time and leaves every global as the first time left it. -/
theorem placeGlobals_placeGlobals (l : List String) (t : NameMap Symbol) (acc : GlobalSlots) :
    (placeGlobals special l (placeGlobals special l t acc).1 acc).2 =
        (placeGlobals special l t acc).2 ∧
      ∀ n, (placeGlobals special l (placeGlobals special l t acc).1 acc).1.get? n =
        (placeGlobals special l t acc).1.get? n := by
  have hacc : (placeGlobals special l (placeGlobals special l t acc).1 acc).2 =
      (placeGlobals special l t acc).2 :=
    placeGlobals_snd_congr l (@placeGlobals_source special l t acc)
  refine ⟨hacc, fun n => ?_⟩
  rw [placeGlobals_get?, hacc, placeGlobals_get?, Option.map_map]
  congr 1
  funext s
  simp only [Function.comp_apply]
  split
  · exact settled_settled _ n s
  · rfl

end Builder

/-! ### The parameter phase again -/

section Params

variable {function : String}

theorem paramIsArray_eq_numbered (t : NameMap Symbol) (p : String) :
    paramIsArray function t p = ((paramSymbol function t p).numbered.kind == .array) := by
  simp only [paramIsArray, Symbol.numbered, Kind.orScalar_beq_array]

/-- Numbering a parameter writes back its numbered form with the slot it takes. -/
theorem placeParams_cons_numbered (p : String) (ps : List String) (t : NameMap Symbol)
    (ns na : Nat) :
    placeParams function (p :: ps) t ns na =
      if paramIsArray function t p then
        let r := placeParams function ps
          (t.insert p { (paramSymbol function t p).numbered with slot := na }) ns (na + 1)
        (r.1, true :: r.2)
      else
        let r := placeParams function ps
          (t.insert p { (paramSymbol function t p).numbered with slot := ns }) (ns + 1) na
        (r.1, false :: r.2) := by
  rw [placeParams_cons]
  split
  · rename_i ha
    have hk : (paramSymbol function t p).kind = .array := by simpa [paramIsArray] using ha
    simp [Symbol.numbered, Kind.orScalar, hk]
  · rename_i ha
    have hk : (paramSymbol function t p).kind ≠ .array := by simpa [paramIsArray] using ha
    simp [Symbol.numbered, Kind.orScalar, hk]

/-- Writing one entry into two tables whose parameters read alike keeps them alike. -/
theorem numbered_paramSymbol_insert_congr {t t' : NameMap Symbol}
    (h : ∀ q, (paramSymbol function t q).numbered = (paramSymbol function t' q).numbered)
    (p : String) (s : Symbol) (q : String) :
    (paramSymbol function (t.insert p s) q).numbered =
      (paramSymbol function (t'.insert p s) q).numbered := by
  by_cases hpq : p = q
  · simp [paramSymbol, NameMap.getD, hpq]
  · rw [paramSymbol_insert_of_ne function hpq, paramSymbol_insert_of_ne function hpq]
    exact h q

/-- Numbering keeps what each name reads as. -/
theorem numbered_paramSymbol_placeParams :
    ∀ (ps : List String) (t : NameMap Symbol) (ns na : Nat) (q : String),
      (paramSymbol function (placeParams function ps t ns na).1 q).numbered =
        (paramSymbol function t q).numbered
  | [], _, _, _, _ => rfl
  | p :: ps, t, ns, na, q => by
    have hins : ∀ k, (paramSymbol function
        (t.insert p { (paramSymbol function t p).numbered with slot := k }) q).numbered =
        (paramSymbol function t q).numbered := fun k => by
      by_cases hpq : p = q
      · subst hpq
        simp [paramSymbol, NameMap.getD]
      · rw [paramSymbol_insert_of_ne function hpq]
    rw [placeParams_cons_numbered]
    split <;> simp only [numbered_paramSymbol_placeParams ps _ _ _ q, hins]

/-- Numbering reads a table only through the numbered forms of its names: two tables that
read alike get the same flags and the same entries for the parameters. -/
theorem placeParams_congr :
    ∀ {ps : List String} {t t' : NameMap Symbol} {ns na : Nat},
      (∀ q, (paramSymbol function t q).numbered = (paramSymbol function t' q).numbered) →
      (placeParams function ps t ns na).2 = (placeParams function ps t' ns na).2 ∧
        ∀ q ∈ ps, (placeParams function ps t ns na).1.get? q =
          (placeParams function ps t' ns na).1.get? q
  | [], _, _, _, _, _ => ⟨rfl, fun _ h => absurd h List.not_mem_nil⟩
  | p :: ps, t, t', ns, na, h => by
    have harr : paramIsArray function t p = paramIsArray function t' p := by
      rw [paramIsArray_eq_numbered, paramIsArray_eq_numbered, h p]
    rw [placeParams_cons_numbered, placeParams_cons_numbered, harr, h p]
    split <;>
    · dsimp only
      refine ⟨congrArg _ (placeParams_congr (numbered_paramSymbol_insert_congr h p _)).1,
        fun q hq => ?_⟩
      by_cases hq' : q ∈ ps
      · exact (placeParams_congr (numbered_paramSymbol_insert_congr h p _)).2 q hq'
      · obtain rfl : q = p := by simpa [hq'] using hq
        simp [placeParams_get?_of_not_mem hq']

end Params

namespace SymbolTable

/-- Two tables that read alike to the parameter phase: each name of each function's table has
the same numbered form in both. -/
def ParamsAlike (T T' : SymbolTable) : Prop :=
  ∀ f q, (paramSymbol f (T.scopes.getD f ∅) q).numbered =
    (paramSymbol f (T'.scopes.getD f ∅) q).numbered

theorem ParamsAlike.trans {T T' T'' : SymbolTable} (h : T.ParamsAlike T')
    (h' : T'.ParamsAlike T'') : T.ParamsAlike T'' := fun f q => (h f q).trans (h' f q)

/-- Giving a function of two alike tables tables that read alike keeps them alike. -/
theorem ParamsAlike.insert {T T' : SymbolTable} (h : T.ParamsAlike T') (f : String)
    {s s' : NameMap Symbol} (hs : ∀ q, (paramSymbol f s q).numbered = (paramSymbol f s' q).numbered) :
    ParamsAlike { T with scopes := T.scopes.insert f s } { T' with scopes := T'.scopes.insert f s' } := by
  intro g q
  by_cases hfg : f = g
  · subst hfg
    simpa [NameMap.getD] using hs q
  · simpa [NameMap.getD, hfg] using h g q

/-- Giving a function a table that reads as its old one keeps the table alike. -/
theorem paramsAlike_insert (T : SymbolTable) (f : String) {s : NameMap Symbol}
    (hs : ∀ q, (paramSymbol f s q).numbered = (paramSymbol f (T.scopes.getD f ∅) q).numbered) :
    ParamsAlike { T with scopes := T.scopes.insert f s } T := by
  intro g q
  by_cases hfg : f = g
  · subst hfg
    simpa [NameMap.getD] using hs q
  · simp [NameMap.getD, hfg]

end SymbolTable

namespace Builder

/-- An entry that no function of the list has as a parameter keeps its value. -/
theorem placeFunctions_get?_of_not_param {g q : String} :
    ∀ {fs : List UserFunction} {T : SymbolTable}, (∀ f ∈ fs, f.name = g → q ∉ f.params) →
      (placeFunctions fs T).2.get? (some g) q = T.get? (some g) q
  | [], _, _ => rfl
  | f :: fs, T, h => by
    rw [placeFunctions_cons]
    dsimp only
    rw [placeFunctions_get?_of_not_param fun f' hf' => h f' (List.mem_cons_of_mem _ hf'),
      ← SymbolTable.get?_scopes_getD, ← SymbolTable.get?_scopes_getD]
    by_cases hfg : f.name = g
    · subst hfg
      simp [NameMap.getD, placeParams_get?_of_not_mem (h f List.mem_cons_self rfl)]
    · simp [NameMap.getD, hfg]

/-- Numbering keeps how every table reads. -/
theorem placeFunctions_paramsAlike :
    ∀ (fs : List UserFunction) (T : SymbolTable), (placeFunctions fs T).2.ParamsAlike T
  | [], _ => fun _ _ => rfl
  | f :: fs, T => by
    rw [placeFunctions_cons]
    exact (placeFunctions_paramsAlike fs _).trans
      (SymbolTable.paramsAlike_insert T f.name (numbered_paramSymbol_placeParams _ _ _ _))

/-- Numbering reads the tables only through how they read: from alike tables it gives the same
flags and the same entries for every parameter it numbers. -/
theorem placeFunctions_congr :
    ∀ {fs : List UserFunction} {T T' : SymbolTable}, T.ParamsAlike T' →
      (placeFunctions fs T).1 = (placeFunctions fs T').1 ∧
        ∀ f ∈ fs, ∀ q ∈ f.params, (placeFunctions fs T).2.get? (some f.name) q =
          (placeFunctions fs T').2.get? (some f.name) q
  | [], _, _, _ => ⟨rfl, fun _ h => absurd h List.not_mem_nil⟩
  | f :: fs, T, T', h => by
    have hp := @placeParams_congr f.name f.params _ _ 0 0 (h f.name)
    have hs : ∀ q,
        (paramSymbol f.name (placeParams f.name f.params (T.scopes.getD f.name ∅) 0 0).1 q).numbered =
          (paramSymbol f.name
            (placeParams f.name f.params (T'.scopes.getD f.name ∅) 0 0).1 q).numbered := fun q => by
      rw [numbered_paramSymbol_placeParams, numbered_paramSymbol_placeParams]
      exact h f.name q
    have ih := @placeFunctions_congr fs _ _ (h.insert f.name hs)
    rw [placeFunctions_cons, placeFunctions_cons]
    dsimp only
    refine ⟨by rw [hp.1, ih.1], fun g hg q hq => ?_⟩
    by_cases hlater : ∃ g' ∈ fs, g'.name = g.name ∧ q ∈ g'.params
    · obtain ⟨g', hg', hname, hq'⟩ := hlater
      rw [← hname]
      exact ih.2 g' hg' q hq'
    · -- no later function numbers `q` in this table, so it keeps what `f` wrote
      push Not at hlater
      have hgf : g = f := by
        rcases List.mem_cons.1 hg with hgf | hg'
        · exact hgf
        · exact absurd hq (hlater g hg' rfl)
      subst hgf
      rw [placeFunctions_get?_of_not_param hlater, placeFunctions_get?_of_not_param hlater,
        ← SymbolTable.get?_scopes_getD, ← SymbolTable.get?_scopes_getD]
      simpa [NameMap.getD] using hp.2 q hq

/-- Numbering reads of a function only its name and parameters, so numbering the functions a
numbering returned is numbering the functions it was given. -/
theorem placeFunctions_placeFunctions_fst :
    ∀ (fs : List UserFunction) (T U : SymbolTable),
      placeFunctions (placeFunctions fs T).1 U = placeFunctions fs U
  | [], _, _ => rfl
  | f :: fs, T, U => by
    simp only [placeFunctions_cons, placeFunctions_placeFunctions_fst fs]

/-- **Numbering is idempotent.** Giving the globals their slots in the same order and numbering
the parameters again, straight after a first time, leaves the program (its slot tables and every
function's array flags) and every entry of the symbol table as the first time left them, for any
table and any functions, names and parameters repeated or not. -/
theorem assignSlots_idempotent (b : Builder) (order : List String) :
    let b₁ := (b.assignGlobalSlotsIn order).assignLocalSlots
    let b₂ := (b₁.assignGlobalSlotsIn order).assignLocalSlots
    b₂.program = b₁.program ∧
      ∀ o n, b₂.resolver.symbols.get? o n = b₁.resolver.symbols.get? o n := by
  intro b₁ b₂
  obtain ⟨hacc, hglob⟩ :=
    @placeGlobals_placeGlobals b.resolver.config.specialSlot order b.resolver.symbols.globals {}
  -- the second run places the globals the first left and numbers the functions it returned
  simp only [b₁, b₂, assignGlobalSlotsIn_eq, assignLocalSlots_eq, placeFunctions_globals,
    placeFunctions_placeFunctions_fst, hacc]
  set G := placeGlobals b.resolver.config.specialSlot order b.resolver.symbols.globals {}
  set T₁ : SymbolTable := { globals := G.1, scopes := b.resolver.symbols.scopes }
  set G₂ := placeGlobals b.resolver.config.specialSlot order G.1 {}
  set T₂ : SymbolTable :=
    { globals := G₂.1, scopes := (placeFunctions b.program.functions T₁).2.scopes }
  have halike : T₂.ParamsAlike T₁ := placeFunctions_paramsAlike b.program.functions T₁
  obtain ⟨hfun, hpar⟩ := @placeFunctions_congr b.program.functions _ _ halike
  refine ⟨by rw [hfun], fun o n => ?_⟩
  cases o with
  | none =>
    simp only [SymbolTable.get?, placeFunctions_globals]
    exact hglob n
  | some g =>
    by_cases hnum : ∃ f ∈ b.program.functions, f.name = g ∧ n ∈ f.params
    · obtain ⟨f, hf, rfl, hn⟩ := hnum
      exact hpar f hf n hn
    · push Not at hnum
      exact placeFunctions_get?_of_not_param hnum

end Builder

end AwkNames
