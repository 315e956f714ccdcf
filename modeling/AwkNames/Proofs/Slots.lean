import AwkNames.Resolution.Slots
import AwkNames.Proofs.Tables

/-!
# Slot numbering

What the slot phases of resolution leave behind. Globals may be visited in any order that
lists each name once; the results below hold for every such order.

* `Builder.placeGlobals_fst` : each visited global ends with its settled symbol
  (`GlobalSlots.settled`): a special keeps its fixed slot, an array or a scalar takes the slot
  its table holds for it;
* `Builder.placeGlobals_scalars_isSome`, `Builder.placeGlobals_arrays_isSome` : a visited
  name lands in the table its kind says, a special in neither;
* `Builder.placeGlobals_dense` : both tables stay dense, their slots `0, …, size - 1`;
* `placeParams_get?` : the `i`-th parameter of a function ends with the number of earlier
  parameters of its class as its slot; `placeParams_snd` gives one array flag per parameter;
* `Builder.placeFunctions_scopes` : functions with distinct names are numbered each in its
  own table;
* `Builder.patch_get?_patched` : patching leaves every node as it was but for the slot of a
  use, which the last record of its kind at the use's id writes (`Expr.patched`), whatever
  node and table the records name;
* `Builder.patch_get?` : when every record names a node of its kind and owner and every use
  is recorded, every use ends with the slot of its symbol.
-/

namespace AwkNames

namespace NameMap

/-- A table of slots is dense: its slots are exactly `0, …, size - 1`, each held by one
name. -/
structure Dense (m : NameMap Nat) : Prop where
  lt_size : ∀ n k, m.get? n = some k → k < m.size
  exists_of_lt : ∀ k < m.size, ∃ n, m.get? n = some k
  injective : ∀ n₁ n₂ k, m.get? n₁ = some k → m.get? n₂ = some k → n₁ = n₂

theorem dense_empty : (∅ : NameMap Nat).Dense where
  lt_size := by simp
  exists_of_lt := by simp [size, EmptyCollection.emptyCollection, empty]
  injective := by simp

/-- Giving a new name the next slot keeps a table dense. -/
theorem Dense.insert {m : NameMap Nat} (hm : m.Dense) {n : String} (hn : m.get? n = none) :
    (m.insert n m.size).Dense := by
  have hsize : (m.insert n m.size).size = m.size + 1 := by
    rw [size_insert, hn]
    rfl
  refine ⟨?_, ?_, ?_⟩
  · intro n' k hk
    rw [hsize]
    rw [get?_insert] at hk
    split at hk
    · cases hk
      omega
    · have := hm.lt_size n' k hk
      omega
  · intro k hk
    rw [hsize] at hk
    rcases Nat.lt_succ_iff_lt_or_eq.1 hk with hk | rfl
    · obtain ⟨n', hn'⟩ := hm.exists_of_lt k hk
      have hne : n ≠ n' := by
        rintro rfl
        rw [hn] at hn'
        cases hn'
      exact ⟨n', by rw [get?_insert, if_neg hne, hn']⟩
    · exact ⟨n, by rw [get?_insert, if_pos rfl]⟩
  · -- the new slot is the size, above every old slot, so only the new name holds it
    intro n₁ n₂ k h₁ h₂
    rw [get?_insert] at h₁ h₂
    split at h₁ <;> split at h₂
    · subst_vars
      rfl
    · cases h₁
      exact absurd (hm.lt_size n₂ _ h₂) (lt_irrefl _)
    · cases h₂
      exact absurd (hm.lt_size n₁ _ h₁) (lt_irrefl _)
    · exact hm.injective n₁ n₂ k h₁ h₂

end NameMap

namespace GlobalSlots

/-- The symbol a global ends with once `acc` holds every slot: a special keeps its fixed
slot, an array takes its array slot, and anything else becomes a scalar with its scalar slot. -/
def settled (special : String → Nat) (acc : GlobalSlots) (n : String) (s : Symbol) : Symbol :=
  if s.scope = .special then { s with slot := special n }
  else if s.kind = .array then { s with slot := (acc.arrays.get? n).getD 0 }
  else { s with kind := .scalar, slot := (acc.scalars.get? n).getD 0 }

/-- A symbol that takes a scalar slot: not special, and not an array. -/
def TakesScalar (s : Symbol) : Prop := s.scope ≠ .special ∧ s.kind ≠ .array

/-- A symbol that takes an array slot: not special, and an array. -/
def TakesArray (s : Symbol) : Prop := s.scope ≠ .special ∧ s.kind = .array

theorem place_special {special : String → Nat} {acc : GlobalSlots} {n : String} {s : Symbol}
    (h : s.scope = .special) : place special acc n s = ({ s with slot := special n }, acc) := by
  simp [place, h]

theorem place_array {special : String → Nat} {acc : GlobalSlots} {n : String} {s : Symbol}
    (h : TakesArray s) :
    place special acc n s = ({ s with slot := acc.arrays.size },
      { acc with arrays := acc.arrays.insert n acc.arrays.size }) := by
  simp [place, h.1, h.2]

theorem place_scalar {special : String → Nat} {acc : GlobalSlots} {n : String} {s : Symbol}
    (h : TakesScalar s) :
    place special acc n s = ({ s with kind := .scalar, slot := acc.scalars.size },
      { acc with scalars := acc.scalars.insert n acc.scalars.size }) := by
  simp [place, h.1, h.2]

/-- Every symbol is special, or takes one of the two kinds of slot. -/
theorem special_or_takes (s : Symbol) : s.scope = .special ∨ TakesArray s ∨ TakesScalar s := by
  by_cases hs : s.scope = .special
  · exact .inl hs
  · by_cases ha : s.kind = .array
    · exact .inr (.inl ⟨hs, ha⟩)
    · exact .inr (.inr ⟨hs, ha⟩)

end GlobalSlots

namespace Builder

open GlobalSlots

variable {special : String → Nat}

theorem placeGlobals_cons_some {n : String} {ns : List String} {t : NameMap Symbol}
    {acc : GlobalSlots} {s : Symbol} (h : t.get? n = some s) :
    placeGlobals special (n :: ns) t acc =
      placeGlobals special ns (t.insert n (place special acc n s).1) (place special acc n s).2 := by
  simp [placeGlobals, h]

theorem placeGlobals_cons_none {n : String} {ns : List String} {t : NameMap Symbol}
    {acc : GlobalSlots} (h : t.get? n = none) :
    placeGlobals special (n :: ns) t acc = placeGlobals special ns t acc := by
  simp [placeGlobals, h]

/-- A name the list does not visit keeps its slots. -/
theorem placeGlobals_snd_of_not_mem {n : String} :
    ∀ {l : List String} {t : NameMap Symbol} {acc : GlobalSlots}, n ∉ l →
      (placeGlobals special l t acc).2.scalars.get? n = acc.scalars.get? n ∧
        (placeGlobals special l t acc).2.arrays.get? n = acc.arrays.get? n
  | [], _, _, _ => ⟨rfl, rfl⟩
  | m :: rest, t, acc, hn => by
    have hm : m ≠ n := fun h => hn (h ▸ List.mem_cons_self)
    have hrest : n ∉ rest := fun h => hn (List.mem_cons_of_mem _ h)
    cases ht : t.get? m with
    | none =>
      rw [placeGlobals_cons_none ht]
      exact placeGlobals_snd_of_not_mem hrest
    | some s =>
      rw [placeGlobals_cons_some ht]
      obtain ⟨h₁, h₂⟩ := @placeGlobals_snd_of_not_mem n rest
        (t.insert m (place special acc m s).1) (place special acc m s).2 hrest
      rw [h₁, h₂]
      rcases special_or_takes s with hs | hs | hs
      · simp [place_special hs]
      · simp [place_array hs, hm]
      · simp [place_scalar hs, hm]

/-- A visited name ends with its settled symbol; the rest of the table is unchanged. -/
theorem placeGlobals_fst :
    ∀ {l : List String} {t : NameMap Symbol} {acc : GlobalSlots}, l.Nodup →
      (placeGlobals special l t acc).1 = t.mapValues fun n s =>
        if n ∈ l then settled special (placeGlobals special l t acc).2 n s else s
  | [], t, acc, _ => by simp [placeGlobals]
  | m :: rest, t, acc, hl => by
    obtain ⟨hm, hrest⟩ := List.nodup_cons.1 hl
    cases hget : t.get? m with
    | none =>
      rw [placeGlobals_cons_none hget, placeGlobals_fst hrest]
      refine t.mapValues_congr fun k v hk => ?_
      have hkm : k ≠ m := by
        rintro rfl
        rw [hget] at hk
        cases hk
      simp [hkm]
    | some s =>
      rw [placeGlobals_cons_some hget]
      have hin : (t.get? m).isSome := by simp [hget]
      -- the visited name keeps the slots it was just given: later visits skip it
      obtain ⟨hsc, har⟩ := @placeGlobals_snd_of_not_mem special m rest
        (t.insert m (place special acc m s).1) (place special acc m s).2 hm
      rw [placeGlobals_fst hrest]
      generalize placeGlobals special rest (t.insert m (place special acc m s).1)
        (place special acc m s).2 = out at hsc har ⊢
      rw [t.insert_eq_mapValues hin, NameMap.mapValues_mapValues]
      refine t.mapValues_congr fun k v hk => ?_
      by_cases hkm : k = m
      · subst hkm
        rw [hget] at hk
        cases hk
        simp only [if_true, hm, if_false, List.mem_cons_self]
        rcases special_or_takes s with hv | hv | hv
        · simp [settled, place_special hv, hv]
        · rw [place_array hv] at har ⊢
          simp [settled, hv.1, hv.2, har]
        · rw [place_scalar hv] at hsc ⊢
          simp [settled, hv.1, hv.2, hsc]
      · simp [hkm]

/-- A name is in the scalar table after a visit when it was before, or it was visited with a
symbol that takes a scalar slot. -/
theorem placeGlobals_scalars_isSome {n : String} :
    ∀ {l : List String} {t : NameMap Symbol} {acc : GlobalSlots}, l.Nodup →
      (((placeGlobals special l t acc).2.scalars.get? n).isSome ↔
        (acc.scalars.get? n).isSome ∨ (n ∈ l ∧ ∃ s, t.get? n = some s ∧ TakesScalar s))
  | [], t, acc, _ => by simp [placeGlobals]
  | m :: rest, t, acc, hl => by
    obtain ⟨hm, hrest⟩ := List.nodup_cons.1 hl
    cases hget : t.get? m with
    | none =>
      rw [placeGlobals_cons_none hget, placeGlobals_scalars_isSome hrest]
      by_cases hnm : n = m
      · subst hnm
        simp [hget, hm]
      · simp [hnm]
    | some s =>
      rw [placeGlobals_cons_some hget, placeGlobals_scalars_isSome hrest]
      by_cases hnm : n = m
      · subst hnm
        rcases special_or_takes s with hs | hs | hs
        · simp [place_special hs, hget, hm, TakesScalar, hs]
        · simp [place_array hs, hget, hm, TakesScalar, hs.2]
        · simp [place_scalar hs, hget, hm, hs]
      · have hmn : m ≠ n := Ne.symm hnm
        rcases special_or_takes s with hs | hs | hs
        · simp [place_special hs, hnm, hmn]
        · simp [place_array hs, hnm, hmn]
        · simp [place_scalar hs, hnm, hmn]

/-- A name is in the array table after a visit when it was before, or it was visited with a
symbol that takes an array slot. -/
theorem placeGlobals_arrays_isSome {n : String} :
    ∀ {l : List String} {t : NameMap Symbol} {acc : GlobalSlots}, l.Nodup →
      (((placeGlobals special l t acc).2.arrays.get? n).isSome ↔
        (acc.arrays.get? n).isSome ∨ (n ∈ l ∧ ∃ s, t.get? n = some s ∧ TakesArray s))
  | [], t, acc, _ => by simp [placeGlobals]
  | m :: rest, t, acc, hl => by
    obtain ⟨hm, hrest⟩ := List.nodup_cons.1 hl
    cases hget : t.get? m with
    | none =>
      rw [placeGlobals_cons_none hget, placeGlobals_arrays_isSome hrest]
      by_cases hnm : n = m
      · subst hnm
        simp [hget, hm]
      · simp [hnm]
    | some s =>
      rw [placeGlobals_cons_some hget, placeGlobals_arrays_isSome hrest]
      by_cases hnm : n = m
      · subst hnm
        rcases special_or_takes s with hs | hs | hs
        · simp [place_special hs, hget, hm, TakesArray, hs]
        · simp [place_array hs, hget, hm, hs]
        · simp [place_scalar hs, hget, hm, TakesArray, hs.2]
      · have hmn : m ≠ n := Ne.symm hnm
        rcases special_or_takes s with hs | hs | hs
        · simp [place_special hs, hnm, hmn]
        · simp [place_array hs, hnm, hmn]
        · simp [place_scalar hs, hnm, hmn]

/-- Visiting names that hold no slot yet keeps both tables dense. -/
theorem placeGlobals_dense :
    ∀ {l : List String} {t : NameMap Symbol} {acc : GlobalSlots}, l.Nodup →
      acc.scalars.Dense → acc.arrays.Dense →
      (∀ n ∈ l, acc.scalars.get? n = none ∧ acc.arrays.get? n = none) →
      (placeGlobals special l t acc).2.scalars.Dense ∧ (placeGlobals special l t acc).2.arrays.Dense
  | [], t, acc, _, hs, ha, _ => ⟨hs, ha⟩
  | m :: rest, t, acc, hl, hs, ha, hfresh => by
    obtain ⟨hm, hrest⟩ := List.nodup_cons.1 hl
    have hfresh' : ∀ n ∈ rest, acc.scalars.get? n = none ∧ acc.arrays.get? n = none :=
      fun n hn => hfresh n (List.mem_cons_of_mem _ hn)
    cases hget : t.get? m with
    | none =>
      rw [placeGlobals_cons_none hget]
      exact placeGlobals_dense hrest hs ha hfresh'
    | some s =>
      rw [placeGlobals_cons_some hget]
      obtain ⟨hms, hma⟩ := hfresh m List.mem_cons_self
      have hne : ∀ n ∈ rest, m ≠ n := fun n hn h => hm (h ▸ hn)
      rcases special_or_takes s with hsp | hsp | hsp
      · rw [place_special hsp]
        exact placeGlobals_dense hrest hs ha hfresh'
      · rw [place_array hsp]
        exact placeGlobals_dense hrest hs (ha.insert hma) fun n hn => by
          simpa [hne n hn] using hfresh' n hn
      · rw [place_scalar hsp]
        exact placeGlobals_dense hrest (hs.insert hms) ha fun n hn => by
          simpa [hne n hn] using hfresh' n hn

end Builder

section Params

variable (function : String)

/-- The symbol a parameter is numbered from: its entry, or a new unknown one. -/
def paramSymbol (t : NameMap Symbol) (p : String) : Symbol :=
  t.getD p { kind := .unknown, scope := .param function }

/-- Whether a parameter is numbered as an array. -/
def paramIsArray (t : NameMap Symbol) (p : String) : Bool :=
  (paramSymbol function t p).kind == .array

theorem paramSymbol_insert_of_ne {t : NameMap Symbol} {p q : String} {s : Symbol} (h : p ≠ q) :
    paramSymbol function (t.insert p s) q = paramSymbol function t q := by
  simp [paramSymbol, NameMap.getD, h]

theorem paramIsArray_insert_of_ne {t : NameMap Symbol} {p q : String} {s : Symbol} (h : p ≠ q) :
    paramIsArray function (t.insert p s) q = paramIsArray function t q := by
  simp only [paramIsArray, paramSymbol_insert_of_ne function h]

theorem placeParams_cons (p : String) (ps : List String) (t : NameMap Symbol) (ns na : Nat) :
    placeParams function (p :: ps) t ns na =
      if paramIsArray function t p then
        let r := placeParams function ps
          (t.insert p { paramSymbol function t p with slot := na }) ns (na + 1)
        (r.1, true :: r.2)
      else
        let r := placeParams function ps
          (t.insert p { paramSymbol function t p with kind := .scalar, slot := ns }) (ns + 1) na
        (r.1, false :: r.2) := by
  simp only [placeParams, paramIsArray, paramSymbol, beq_iff_eq]

variable {function}

/-- A name that is not a parameter keeps its entry. -/
theorem placeParams_get?_of_not_mem {n : String} :
    ∀ {ps : List String} {t : NameMap Symbol} {ns na : Nat}, n ∉ ps →
      (placeParams function ps t ns na).1.get? n = t.get? n
  | [], _, _, _, _ => rfl
  | p :: ps, t, ns, na, hn => by
    have hp : p ≠ n := fun h => hn (h ▸ List.mem_cons_self)
    have hps : n ∉ ps := fun h => hn (List.mem_cons_of_mem _ h)
    rw [placeParams_cons]
    split <;> simp [placeParams_get?_of_not_mem hps, hp]

/-- One flag per parameter, `true` for an array. -/
theorem placeParams_snd :
    ∀ {ps : List String} {t : NameMap Symbol} {ns na : Nat}, ps.Nodup →
      (placeParams function ps t ns na).2 = ps.map (paramIsArray function t)
  | [], _, _, _, _ => rfl
  | p :: ps, t, ns, na, hl => by
    obtain ⟨hp, hps⟩ := List.nodup_cons.1 hl
    have hne : ∀ q ∈ ps, p ≠ q := fun q hq h => hp (h ▸ hq)
    rw [placeParams_cons]
    split
    · rename_i ha
      simp only [placeParams_snd hps, List.map_cons, ha, List.cons.injEq, true_and]
      exact List.map_congr_left fun q hq => paramIsArray_insert_of_ne function (hne q hq)
    · rename_i ha
      simp only [placeParams_snd hps, List.map_cons, Bool.not_eq_true] at ha ⊢
      simp only [ha, List.cons.injEq, true_and]
      exact List.map_congr_left fun q hq => paramIsArray_insert_of_ne function (hne q hq)

/-- The `i`-th parameter ends as an array or a scalar, and its slot is the next free slot of
its class plus the number of earlier parameters of that class. -/
theorem placeParams_get? :
    ∀ {ps : List String} {t : NameMap Symbol} {ns na : Nat}, ps.Nodup →
      ∀ i (hi : i < ps.length), (placeParams function ps t ns na).1.get? ps[i] = some
        { paramSymbol function t ps[i] with
          kind := if paramIsArray function t ps[i] then .array else .scalar
          slot := (if paramIsArray function t ps[i] then na else ns) +
            (ps.take i).countP fun q => paramIsArray function t q == paramIsArray function t ps[i] }
  | [], _, _, _, _, i, hi => absurd hi (Nat.not_lt_zero _)
  | p :: ps, t, ns, na, hl, i, hi => by
    obtain ⟨hp, hps⟩ := List.nodup_cons.1 hl
    have hne : ∀ q ∈ ps, p ≠ q := fun q hq h => hp (h ▸ hq)
    cases i with
    | zero =>
      -- the first parameter is numbered at once and no later step touches it
      simp only [List.getElem_cons_zero, List.take_zero, List.countP_nil, Nat.add_zero]
      rw [placeParams_cons]
      split
      · rename_i ha
        have hk : (paramSymbol function t p).kind = .array := by
          simpa [paramIsArray] using ha
        simp only [placeParams_get?_of_not_mem hp, NameMap.get?_insert, if_true]
        rw [← hk]
      · simp [placeParams_get?_of_not_mem hp]
    | succ i =>
      have hi' : i < ps.length := Nat.lt_of_succ_lt_succ hi
      have hq : ps[i] ∈ ps := List.getElem_mem hi'
      have hcount : ∀ (s : Symbol) (c : Bool), (ps.take i).countP (fun q =>
          paramIsArray function (t.insert p s) q == c) =
          (ps.take i).countP fun q => paramIsArray function t q == c :=
        fun s c => List.countP_congr fun q hq' => by
          rw [paramIsArray_insert_of_ne function (hne q (List.mem_of_mem_take hq'))]
      simp only [List.getElem_cons_succ, List.take_succ_cons, List.countP_cons]
      rw [placeParams_cons]
      split
      · rename_i ha
        simp only [placeParams_get? hps i hi', paramSymbol_insert_of_ne function (hne _ hq),
          paramIsArray_insert_of_ne function (hne _ hq), hcount, ha]
        rcases Bool.eq_false_or_eq_true (paramIsArray function t ps[i]) with hc | hc
        · simp [hc]
          omega
        · simp [hc]
      · rename_i ha
        simp only [Bool.not_eq_true] at ha
        simp only [placeParams_get? hps i hi', paramSymbol_insert_of_ne function (hne _ hq),
          paramIsArray_insert_of_ne function (hne _ hq), hcount, ha]
        rcases Bool.eq_false_or_eq_true (paramIsArray function t ps[i]) with hc | hc
        · simp [hc]
        · simp [hc]
          omega

/-- Every parameter ends a scalar or an array, as `paramIsArray` says. -/
theorem placeParams_kind {ps : List String} {t : NameMap Symbol} {ns na : Nat} (hl : ps.Nodup)
    {q : String} (hq : q ∈ ps) :
    ((placeParams function ps t ns na).1.get? q).map (·.kind) =
      some (if paramIsArray function t q then .array else .scalar) := by
  obtain ⟨i, hi, rfl⟩ := List.getElem_of_mem hq
  rw [placeParams_get? hl i hi]
  rfl

/-- A parameter's entry is the symbol it is numbered from, with its kind filled in. -/
theorem placeParams_get?_of_mem {ps : List String} {t : NameMap Symbol} {ns na : Nat}
    (hl : ps.Nodup) {q : String} (hq : q ∈ ps) :
    ∃ slot, (placeParams function ps t ns na).1.get? q = some
      { paramSymbol function t q with
        kind := if paramIsArray function t q then .array else .scalar, slot } := by
  obtain ⟨i, hi, rfl⟩ := List.getElem_of_mem hq
  exact ⟨_, placeParams_get? hl i hi⟩

end Params

namespace Builder

/-! ### Parameters of every function -/

theorem placeFunctions_cons (f : UserFunction) (fs : List UserFunction) (T : SymbolTable) :
    placeFunctions (f :: fs) T =
      let scope := (placeParams f.name f.params (T.scopes.getD f.name ∅) 0 0).1
      let r := placeFunctions fs { T with scopes := T.scopes.insert f.name scope }
      ({ f with arrays := (placeParams f.name f.params (T.scopes.getD f.name ∅) 0 0).2 } :: r.1,
        r.2) := by
  simp only [placeFunctions]

theorem placeFunctions_globals :
    ∀ (fs : List UserFunction) (T : SymbolTable), (placeFunctions fs T).2.globals = T.globals
  | [], _ => rfl
  | f :: fs, T => by
    rw [placeFunctions_cons]
    exact placeFunctions_globals fs _

/-- The table of a name that no function of the list has is unchanged. -/
theorem placeFunctions_scopes_of_not_mem {g : String} :
    ∀ {fs : List UserFunction} {T : SymbolTable}, g ∉ fs.map (·.name) →
      (placeFunctions fs T).2.scopes.get? g = T.scopes.get? g
  | [], _, _ => rfl
  | f :: fs, T, hg => by
    have hf : f.name ≠ g := fun h => hg (h ▸ List.mem_map_of_mem List.mem_cons_self)
    have hfs : g ∉ fs.map (·.name) := fun h => hg (List.mem_cons_of_mem _ h)
    rw [placeFunctions_cons]
    simp only
    rw [placeFunctions_scopes_of_not_mem hfs, NameMap.get?_insert, if_neg hf]

/-- With distinct names, each function's table is its old table with the parameters
numbered. -/
theorem placeFunctions_scopes :
    ∀ {fs : List UserFunction} {T : SymbolTable}, (fs.map (·.name)).Nodup → ∀ f ∈ fs,
      (placeFunctions fs T).2.scopes.get? f.name =
        some (placeParams f.name f.params (T.scopes.getD f.name ∅) 0 0).1
  | [], _, _, _, hf => absurd hf List.not_mem_nil
  | f :: fs, T, hl, g, hg => by
    rw [List.map_cons, List.nodup_cons] at hl
    rw [placeFunctions_cons]
    simp only
    rcases List.mem_cons.1 hg with rfl | hg
    · rw [placeFunctions_scopes_of_not_mem hl.1, NameMap.get?_insert, if_pos rfl]
    · have hne : f.name ≠ g.name := fun h => hl.1 (h ▸ List.mem_map_of_mem hg)
      rw [placeFunctions_scopes hl.2 g hg]
      simp [NameMap.getD, hne]

/-- With distinct names, each function comes back with one array flag per parameter. -/
theorem placeFunctions_fst :
    ∀ {fs : List UserFunction} {T : SymbolTable}, (fs.map (·.name)).Nodup →
      (placeFunctions fs T).1 = fs.map fun f =>
        { f with arrays := (placeParams f.name f.params (T.scopes.getD f.name ∅) 0 0).2 }
  | [], _, _ => rfl
  | f :: fs, T, hl => by
    rw [List.map_cons, List.nodup_cons] at hl
    rw [placeFunctions_cons]
    simp only [List.map_cons, List.cons.injEq, true_and]
    rw [placeFunctions_fst hl.2]
    refine List.map_congr_left fun g hg => ?_
    have hne : f.name ≠ g.name := fun h => hl.1 (h ▸ List.mem_map_of_mem hg)
    simp [NameMap.getD, hne]

end Builder

/-! ### Writing slots into the tree -/

/-- A scalar or array use with the slot of its symbol written in; any other node, and a use
whose symbol is missing, stay as they are. -/
def Expr.withSlot (t : SymbolTable) : Expr → Expr
  | .var u =>
    match t.get? u.scope.owner u.name with
    | some s => .var { u with slot := s.slot }
    | none => .var u
  | .array u =>
    match t.get? u.scope.owner u.name with
    | some s => .array { u with slot := s.slot }
    | none => .array u
  | e => e

/-- The slot that the last of `refs` recorded at node `i` writes into a use of `name` there,
reading table `t`: a recorded use whose name has no symbol in its owner's table writes
nothing. -/
def Ref.lastSlot (t : SymbolTable) (i : NodeId) (name : String) (refs : List Ref) : Option Nat :=
  refs.foldl (fun o r => if r.node = i then ((t.get? r.owner name).map (·.slot)).or o else o) none

/-- A use at node `i` with the slot the last of `refs` recorded there writes, if any. -/
def Use.patchedBy (t : SymbolTable) (i : NodeId) (refs : List Ref) (u : Use) : Use :=
  { u with slot := (Ref.lastSlot t i u.name refs).getD u.slot }

/-- The node at `i` once the scalar uses `vars` and the array uses `arrays` are patched from
`t`, in order: a use takes the slot its last writer writes; any other node stays. -/
def Expr.patched (t : SymbolTable) (i : NodeId) (vars arrays : List Ref) : Expr → Expr
  | .var u => .var (u.patchedBy t i vars)
  | .array u => .array (u.patchedBy t i arrays)
  | e => e

namespace Ref

variable {t : SymbolTable} {i : NodeId} {n : String}

/-- The fold behind `Ref.lastSlot`, from any start: later writers win over the start. -/
theorem foldl_lastSlot (refs : List Ref) (o : Option Nat) :
    refs.foldl (fun o r => if r.node = i then ((t.get? r.owner n).map (·.slot)).or o else o) o =
      (lastSlot t i n refs).or o := by
  induction refs generalizing o with
  | nil => simp [lastSlot]
  | cons r rest ih =>
    have hcons : lastSlot t i n (r :: rest) = (lastSlot t i n rest).or
        (if r.node = i then ((t.get? r.owner n).map (·.slot)).or none else none) := ih _
    rw [List.foldl_cons, ih, hcons]
    split <;> simp [Option.or_assoc]

theorem lastSlot_nil : lastSlot t i n [] = none := rfl

theorem lastSlot_cons (r : Ref) (rest : List Ref) :
    lastSlot t i n (r :: rest) =
      (lastSlot t i n rest).or (if r.node = i then (t.get? r.owner n).map (·.slot) else none) := by
  rw [lastSlot, List.foldl_cons, foldl_lastSlot]
  split <;> simp

/-- No use recorded at `i` writes nothing there. -/
theorem lastSlot_of_not_mem {refs : List Ref} (h : ∀ r ∈ refs, r.node ≠ i) :
    lastSlot t i n refs = none := by
  induction refs with
  | nil => rfl
  | cons r rest ih =>
    rw [lastSlot_cons, ih fun r' hr' => h r' (List.mem_cons_of_mem _ hr'),
      if_neg (h r List.mem_cons_self)]
    rfl

/-- When every use recorded at `i` belongs to the table of `o`, and one does, they write the
slot of the name's symbol there. -/
theorem lastSlot_of_owner {refs : List Ref} {o : Option String}
    (h : ∀ r ∈ refs, r.node = i → r.owner = o) (hex : ∃ r ∈ refs, r.node = i) :
    lastSlot t i n refs = (t.get? o n).map (·.slot) := by
  induction refs with
  | nil => obtain ⟨r, hr, -⟩ := hex; cases hr
  | cons r rest ih =>
    have hrest : ∀ r' ∈ rest, r'.node = i → r'.owner = o :=
      fun r' hr' => h r' (List.mem_cons_of_mem _ hr')
    rw [lastSlot_cons]
    by_cases hin : ∃ r' ∈ rest, r'.node = i
    · rw [ih hrest hin]
      split
      · rename_i hr
        rw [h r List.mem_cons_self hr]
        cases (t.get? o n).map (·.slot) <;> rfl
      · cases (t.get? o n).map (·.slot) <;> rfl
    · have hr : r.node = i := by
        obtain ⟨r', hr', hi⟩ := hex
        rcases List.mem_cons.1 hr' with rfl | hr'
        · exact hi
        · exact absurd ⟨r', hr', hi⟩ hin
      rw [lastSlot_of_not_mem fun r' hr' hi => hin ⟨r', hr', hi⟩, if_pos hr,
        h r List.mem_cons_self hr]
      rfl

end Ref

namespace Use

@[simp] theorem name_patchedBy (t : SymbolTable) (i : NodeId) (refs : List Ref) (u : Use) :
    (u.patchedBy t i refs).name = u.name := rfl

@[simp] theorem scope_patchedBy (t : SymbolTable) (i : NodeId) (refs : List Ref) (u : Use) :
    (u.patchedBy t i refs).scope = u.scope := rfl

theorem patchedBy_nil (t : SymbolTable) (i : NodeId) (u : Use) : u.patchedBy t i [] = u := rfl

/-- Writing the slots of `rest` after that of `r` is writing those of `r :: rest`. -/
theorem patchedBy_patchedBy (t : SymbolTable) (i : NodeId) (r : Ref) (rest : List Ref)
    (u : Use) : (u.patchedBy t i [r]).patchedBy t i rest = u.patchedBy t i (r :: rest) := by
  simp only [patchedBy, Ref.lastSlot_cons, Ref.lastSlot_nil]
  cases Ref.lastSlot t i u.name rest <;> split <;> simp

/-- Patching again from the same table and records changes nothing. -/
@[simp] theorem patchedBy_idem (t : SymbolTable) (i : NodeId) (refs : List Ref) (u : Use) :
    (u.patchedBy t i refs).patchedBy t i refs = u.patchedBy t i refs := by
  simp only [patchedBy]
  cases Ref.lastSlot t i u.name refs <;> rfl

/-- Two tables with the same slots patch alike. -/
theorem patchedBy_congr {t t' : SymbolTable}
    (h : ∀ o n, (t'.get? o n).map (·.slot) = (t.get? o n).map (·.slot)) (i : NodeId)
    (refs : List Ref) (u : Use) : u.patchedBy t' i refs = u.patchedBy t i refs := by
  have hl : Ref.lastSlot t' i u.name refs = Ref.lastSlot t i u.name refs := by
    simp only [Ref.lastSlot, h]
  simp only [patchedBy, hl]

end Use

/-- With no records nothing is written. -/
@[simp] theorem Expr.patched_nil (t : SymbolTable) (i : NodeId) : Expr.patched t i [] [] = id := by
  funext e
  cases e <;> rfl

/-- Patching again, from a table with the same slots and the same records, changes nothing. -/
theorem Expr.patched_patched {t t' : SymbolTable}
    (h : ∀ o n, (t'.get? o n).map (·.slot) = (t.get? o n).map (·.slot)) (i : NodeId)
    (vars arrays : List Ref) (e : Expr) :
    (e.patched t i vars arrays).patched t' i vars arrays = e.patched t i vars arrays := by
  cases e <;> simp [Expr.patched, Use.patchedBy_congr h]

namespace Builder

@[simp]
theorem patchVar_resolver (b : Builder) (r : Ref) : (b.patchVar r).resolver = b.resolver := by
  unfold patchVar
  split
  · split <;> rfl
  · rfl

@[simp]
theorem patchVar_program (b : Builder) (r : Ref) : (b.patchVar r).program = b.program := by
  unfold patchVar
  split
  · split <;> rfl
  · rfl

@[simp]
theorem patchArray_resolver (b : Builder) (r : Ref) : (b.patchArray r).resolver = b.resolver := by
  unfold patchArray
  split
  · split <;> rfl
  · rfl

@[simp]
theorem patchArray_program (b : Builder) (r : Ref) : (b.patchArray r).program = b.program := by
  unfold patchArray
  split
  · split <;> rfl
  · rfl

@[simp]
theorem patchVar_size (b : Builder) (r : Ref) : (b.patchVar r).ast.size = b.ast.size := by
  unfold patchVar
  split
  · split
    · exact Ast.size_set _ _ _
    · rfl
  · rfl

@[simp]
theorem patchArray_size (b : Builder) (r : Ref) : (b.patchArray r).ast.size = b.ast.size := by
  unfold patchArray
  split
  · split
    · exact Ast.size_set _ _ _
    · rfl
  · rfl

theorem patchVar_nodes_of_le (b : Builder) (r : Ref) {n : Nat} (h : UInt32.size ≤ n) :
    (b.patchVar r).ast.nodes[n]? = b.ast.nodes[n]? := by
  unfold patchVar
  split
  · split
    · exact Ast.nodes_set_of_le _ _ _ h
    · rfl
  · rfl

theorem patchArray_nodes_of_le (b : Builder) (r : Ref) {n : Nat} (h : UInt32.size ≤ n) :
    (b.patchArray r).ast.nodes[n]? = b.ast.nodes[n]? := by
  unfold patchArray
  split
  · split
    · exact Ast.nodes_set_of_le _ _ _ h
    · rfl
  · rfl

/-- Patching one recorded scalar use writes into the node at its id, if that node is a scalar
use, the slot of its name's symbol in the table the record names. -/
theorem patchVar_get? (b : Builder) (r : Ref) (i : NodeId) :
    (b.patchVar r).ast.get? i = (b.ast.get? i).map (Expr.patched b.resolver.symbols i [r] []) := by
  unfold patchVar
  split
  · rename_i u hu
    split
    · rename_i s hs
      rw [Ast.get?_set]
      by_cases hri : r.node = i
      · subst hri
        simp [hu, hs, Ast.lt_size_of_get? hu, Expr.patched, Use.patchedBy, Ref.lastSlot]
      · simp only [hri, false_and, if_false]
        cases b.ast.get? i with
        | none => rfl
        | some e =>
          cases e <;> simp [Expr.patched, Use.patchedBy, Ref.lastSlot, hri]
    · rename_i hs
      cases he : b.ast.get? i with
      | none => rfl
      | some e =>
        by_cases hri : r.node = i
        · subst hri
          rw [hu] at he
          cases he
          simp [Expr.patched, Use.patchedBy, Ref.lastSlot, hs]
        · cases e <;> simp [Expr.patched, Use.patchedBy, Ref.lastSlot, hri]
  · rename_i hnot
    cases he : b.ast.get? i with
    | none => rfl
    | some e =>
      by_cases hri : r.node = i
      · subst hri
        cases e with
        | var u => exact absurd he (hnot u)
        | _ => simp [Expr.patched, Use.patchedBy, Ref.lastSlot]
      · cases e <;> simp [Expr.patched, Use.patchedBy, Ref.lastSlot, hri]

/-- Patching one recorded array use writes into the node at its id, if that node is an array
use, the slot of its name's symbol in the table the record names. -/
theorem patchArray_get? (b : Builder) (r : Ref) (i : NodeId) :
    (b.patchArray r).ast.get? i = (b.ast.get? i).map (Expr.patched b.resolver.symbols i [] [r]) := by
  unfold patchArray
  split
  · rename_i u hu
    split
    · rename_i s hs
      rw [Ast.get?_set]
      by_cases hri : r.node = i
      · subst hri
        simp [hu, hs, Ast.lt_size_of_get? hu, Expr.patched, Use.patchedBy, Ref.lastSlot]
      · simp only [hri, false_and, if_false]
        cases b.ast.get? i with
        | none => rfl
        | some e =>
          cases e <;> simp [Expr.patched, Use.patchedBy, Ref.lastSlot, hri]
    · rename_i hs
      cases he : b.ast.get? i with
      | none => rfl
      | some e =>
        by_cases hri : r.node = i
        · subst hri
          rw [hu] at he
          cases he
          simp [Expr.patched, Use.patchedBy, Ref.lastSlot, hs]
        · cases e <;> simp [Expr.patched, Use.patchedBy, Ref.lastSlot, hri]
  · rename_i hnot
    cases he : b.ast.get? i with
    | none => rfl
    | some e =>
      by_cases hri : r.node = i
      · subst hri
        cases e with
        | array u => exact absurd he (hnot u)
        | _ => simp [Expr.patched, Use.patchedBy, Ref.lastSlot]
      · cases e <;> simp [Expr.patched, Use.patchedBy, Ref.lastSlot, hri]

theorem foldl_patchVar_get? (i : NodeId) :
    ∀ (refs : List Ref) (b : Builder), (refs.foldl patchVar b).ast.get? i =
      (b.ast.get? i).map (Expr.patched b.resolver.symbols i refs [])
  | [], b => by simp
  | r :: rest, b => by
    rw [List.foldl_cons, foldl_patchVar_get? i rest, patchVar_get?, patchVar_resolver,
      Option.map_map]
    congr 1
    funext e
    cases e <;> simp [Expr.patched, Use.patchedBy_patchedBy]

theorem foldl_patchArray_get? (i : NodeId) :
    ∀ (refs : List Ref) (b : Builder), (refs.foldl patchArray b).ast.get? i =
      (b.ast.get? i).map (Expr.patched b.resolver.symbols i [] refs)
  | [], b => by simp
  | r :: rest, b => by
    rw [List.foldl_cons, foldl_patchArray_get? i rest, patchArray_get?, patchArray_resolver,
      Option.map_map]
    congr 1
    funext e
    cases e <;> simp [Expr.patched, Use.patchedBy_patchedBy]

@[simp]
theorem foldl_patchVar_resolver :
    ∀ (refs : List Ref) (b : Builder), (refs.foldl patchVar b).resolver = b.resolver
  | [], _ => rfl
  | r :: rest, b => by simp [foldl_patchVar_resolver rest]

@[simp]
theorem foldl_patchVar_program :
    ∀ (refs : List Ref) (b : Builder), (refs.foldl patchVar b).program = b.program
  | [], _ => rfl
  | r :: rest, b => by simp [foldl_patchVar_program rest]

@[simp]
theorem foldl_patchArray_resolver :
    ∀ (refs : List Ref) (b : Builder), (refs.foldl patchArray b).resolver = b.resolver
  | [], _ => rfl
  | r :: rest, b => by simp [foldl_patchArray_resolver rest]

@[simp]
theorem foldl_patchArray_program :
    ∀ (refs : List Ref) (b : Builder), (refs.foldl patchArray b).program = b.program
  | [], _ => rfl
  | r :: rest, b => by simp [foldl_patchArray_program rest]

@[simp]
theorem foldl_patchVar_size :
    ∀ (refs : List Ref) (b : Builder), (refs.foldl patchVar b).ast.size = b.ast.size
  | [], _ => rfl
  | r :: rest, b => by simp [foldl_patchVar_size rest]

@[simp]
theorem foldl_patchArray_size :
    ∀ (refs : List Ref) (b : Builder), (refs.foldl patchArray b).ast.size = b.ast.size
  | [], _ => rfl
  | r :: rest, b => by simp [foldl_patchArray_size rest]

@[simp]
theorem patch_size (b : Builder) : b.patch.ast.size = b.ast.size := by
  simp [patch]

theorem foldl_patchVar_nodes_of_le {n : Nat} (h : UInt32.size ≤ n) :
    ∀ (refs : List Ref) (b : Builder), (refs.foldl patchVar b).ast.nodes[n]? = b.ast.nodes[n]?
  | [], _ => rfl
  | r :: rest, b => by
    rw [List.foldl_cons, foldl_patchVar_nodes_of_le h rest, patchVar_nodes_of_le _ _ h]

theorem foldl_patchArray_nodes_of_le {n : Nat} (h : UInt32.size ≤ n) :
    ∀ (refs : List Ref) (b : Builder), (refs.foldl patchArray b).ast.nodes[n]? = b.ast.nodes[n]?
  | [], _ => rfl
  | r :: rest, b => by
    rw [List.foldl_cons, foldl_patchArray_nodes_of_le h rest, patchArray_nodes_of_le _ _ h]

/-- Patching writes through ids, so it leaves alone every position past them. -/
theorem patch_nodes_of_le (b : Builder) {n : Nat} (h : UInt32.size ≤ n) :
    b.patch.ast.nodes[n]? = b.ast.nodes[n]? := by
  change (b.resolver.arrayRefs.foldl patchArray (b.resolver.scalarRefs.foldl patchVar b)).ast.nodes[n]? = _
  rw [foldl_patchArray_nodes_of_le h, foldl_patchVar_nodes_of_le h]

@[simp]
theorem patch_resolver (b : Builder) : b.patch.resolver = b.resolver := by
  simp [patch]

@[simp]
theorem patch_program (b : Builder) : b.patch.program = b.program := by
  simp [patch]

/-- **What patching writes.** Every node ends as it was, a use with the slot that the last
record of its kind at its id writes, whatever the records name. -/
theorem patch_get?_patched (b : Builder) (i : NodeId) :
    b.patch.ast.get? i =
      (b.ast.get? i).map (Expr.patched b.resolver.symbols i b.resolver.scalarRefs b.resolver.arrayRefs) := by
  change (b.resolver.arrayRefs.foldl patchArray (b.resolver.scalarRefs.foldl patchVar b)).ast.get? i = _
  rw [foldl_patchArray_get?, foldl_patchVar_get?, foldl_patchVar_resolver, Option.map_map]
  congr 1
  funext e
  cases e <;> rfl

/-- **Every use gets the slot of its symbol.** When each recorded use names a node of its kind
and owner and every use node is recorded, patching writes into each use the slot of its
symbol and changes no other node. -/
theorem patch_get? {b : Builder}
    (hs : ∀ r ∈ b.resolver.scalarRefs,
      ∃ u, b.ast.get? r.node = some (.var u) ∧ r.owner = u.scope.owner)
    (ha : ∀ r ∈ b.resolver.arrayRefs,
      ∃ u, b.ast.get? r.node = some (.array u) ∧ r.owner = u.scope.owner)
    (hcs : ∀ i u, b.ast.get? i = some (.var u) → ∃ r ∈ b.resolver.scalarRefs, r.node = i)
    (hca : ∀ i u, b.ast.get? i = some (.array u) → ∃ r ∈ b.resolver.arrayRefs, r.node = i)
    (i : NodeId) : b.patch.ast.get? i = (b.ast.get? i).map (Expr.withSlot b.resolver.symbols) := by
  rw [patch_get?_patched]
  cases he : b.ast.get? i with
  | none => rfl
  | some e =>
    simp only [Option.map_some, Option.some.injEq]
    cases e with
    | var u =>
      have hown : ∀ r ∈ b.resolver.scalarRefs, r.node = i → r.owner = u.scope.owner := by
        rintro r hr rfl
        obtain ⟨u', hu', ho⟩ := hs r hr
        rw [he] at hu'
        cases hu'
        exact ho
      simp only [Expr.patched, Use.patchedBy, Ref.lastSlot_of_owner hown (hcs i u he), Expr.withSlot]
      cases b.resolver.symbols.get? u.scope.owner u.name <;> rfl
    | array u =>
      have hown : ∀ r ∈ b.resolver.arrayRefs, r.node = i → r.owner = u.scope.owner := by
        rintro r hr rfl
        obtain ⟨u', hu', ho⟩ := ha r hr
        rw [he] at hu'
        cases hu'
        exact ho
      simp only [Expr.patched, Use.patchedBy, Ref.lastSlot_of_owner hown (hca i u he), Expr.withSlot]
      cases b.resolver.symbols.get? u.scope.owner u.name <;> rfl
    | _ => rfl

end Builder

end AwkNames
