import AwkNames.Proofs.Resolution

/-!
# The slot phases on any table

The two slot phases of resolution read and write the symbol table and the program, whatever
came before them. Here each is described on its own, for every table and program, not only
those a run of the builder reaches: tables are read through lookups, and globals may be visited
in any order that lists each once, as iterating over a hash map does.

* `Builder.placeGlobals_get?` : after the global phase every visited global holds its settled
  symbol, for any list of names, repeated or not;
* `Builder.assignGlobalSlotsIn_given` : the global phase fills two disjoint dense slot tables
  with exactly the globals that are not special, and gives every global its slot
  (`Builder.GlobalSlotsGiven`);
* `Builder.assignLocalSlots_numbersParams` : the parameter phase numbers the parameters of each
  function whose parameters are distinct and whose name no other function has, scalars and
  arrays apart, and changes nothing outside the functions' tables
  (`Builder.ParamsNumbered`).
-/

namespace AwkNames

/-- The kind a parameter ends with once numbered: an array stays one, anything else becomes a
scalar. -/
def Kind.orScalar (k : Kind) : Kind := if k = .array then .array else .scalar

theorem Kind.ite_beq_array (k : Kind) :
    (if (k == .array) = true then Kind.array else .scalar) = k.orScalar := by
  cases k <;> rfl

theorem Kind.orScalar_beq_array (k : Kind) : (k.orScalar == .array) = (k == .array) := by
  cases k <;> rfl

/-- Two kinds end alike exactly when both or neither are arrays. -/
theorem Kind.beq_array_beq (k k' : Kind) :
    ((k == .array) == (k' == .array)) = (k.orScalar == k'.orScalar) := by
  cases k <;> cases k' <;> rfl

/-- A list splits at any position into what comes before, the element there and the rest. -/
theorem List.eq_take_append_getElem_cons_drop {α : Type} (l : List α) {i : Nat}
    (hi : i < l.length) : l = l.take i ++ l[i] :: l.drop (i + 1) := by
  rw [List.getElem_cons_drop, List.take_append_drop]

namespace GlobalSlots

variable {special : String → Nat}

/-- A global settles the same way whatever slot an earlier visit gave it. -/
theorem settled_place (acc acc' : GlobalSlots) (n : String) (s : Symbol) :
    settled special acc n (place special acc' n s).1 = settled special acc n s := by
  rcases special_or_takes s with hs | hs | hs
  · simp [place_special hs, settled, hs]
  · simp [place_array hs, settled, hs.1, hs.2]
  · simp [place_scalar hs, settled, hs.1, hs.2]

end GlobalSlots

namespace Builder

open GlobalSlots

variable {special : String → Nat}

/-- **Each visited global ends settled**, in any table and for any list of names, repeated
or not: a visited name has its symbol settled against the final slot tables, any other keeps
its symbol. -/
theorem placeGlobals_get? (n : String) :
    ∀ (l : List String) (t : NameMap Symbol) (acc : GlobalSlots),
      (placeGlobals special l t acc).1.get? n = (t.get? n).map fun s =>
        if n ∈ l then settled special (placeGlobals special l t acc).2 n s else s
  | [], t, acc => by simp [placeGlobals]
  | m :: rest, t, acc => by
    cases hget : t.get? m with
    | none =>
      rw [placeGlobals_cons_none hget, placeGlobals_get? n rest]
      by_cases hnm : n = m
      · subst hnm
        simp [hget]
      · simp [hnm]
    | some s =>
      rw [placeGlobals_cons_some hget, placeGlobals_get? n rest]
      by_cases hnm : n = m
      · subst hnm
        simp only [NameMap.get?_insert, if_true, hget, Option.map_some, List.mem_cons_self]
        by_cases hrest : n ∈ rest
        · -- a later visit settles it again, the same way
          rw [if_pos hrest, settled_place]
        · -- its last visit is this one, and the slot it took stays in the tables
          obtain ⟨hsc, har⟩ := @placeGlobals_snd_of_not_mem special n rest
            (t.insert n (place special acc n s).1) (place special acc n s).2 hrest
          rw [if_neg hrest]
          generalize placeGlobals special rest (t.insert n (place special acc n s).1)
            (place special acc n s).2 = out at hsc har ⊢
          rcases special_or_takes s with hv | hv | hv
          · simp [settled, place_special hv, hv]
          · rw [place_array hv] at har ⊢
            simp [settled, hv.1, hv.2, har]
          · rw [place_scalar hv] at hsc ⊢
            simp [settled, hv.1, hv.2, hsc]
      · simp [hnm, Ne.symm hnm]

/-- What giving the globals their slots leaves in `b'`, against the builder `b` it started
from. -/
structure GlobalSlotsGiven (b b' : Builder) : Prop where
  /-- No name is in both slot tables. -/
  disjoint : ∀ n, ¬ ((b'.program.scalars.get? n).isSome ∧ (b'.program.arrays.get? n).isSome)
  /-- The two tables hold exactly the globals that are not special. -/
  mem_iff : ∀ n, ((b'.program.scalars.get? n).isSome ∨ (b'.program.arrays.get? n).isSome) ↔
    ∃ s, b.resolver.symbols.globals.get? n = some s ∧ s.scope ≠ .special
  /-- Each table numbers its names `0, …, size - 1`, each slot held by one name. -/
  dense : b'.program.scalars.Dense ∧ b'.program.arrays.Dense
  /-- A global that is not special becomes an array if it was one and a scalar otherwise, and
  its slot is its value in the table of that kind. -/
  global : ∀ n s, b.resolver.symbols.globals.get? n = some s → s.scope ≠ .special →
    ∃ slot, b'.resolver.symbols.globals.get? n =
        some { s with kind := if s.kind = .array then .array else .scalar, slot } ∧
      (if s.kind = .array then b'.program.arrays else b'.program.scalars).get? n = some slot
  /-- A special variable keeps its kind and takes its fixed slot. -/
  special : ∀ n s, b.resolver.symbols.globals.get? n = some s → s.scope = .special →
    b'.resolver.symbols.globals.get? n = some { s with slot := b.resolver.config.specialSlot n }
  /-- No global appears or disappears. -/
  isSome_iff : ∀ n,
    (b'.resolver.symbols.globals.get? n).isSome ↔ (b.resolver.symbols.globals.get? n).isSome
  /-- The tables of the functions are untouched. -/
  scopes : b'.resolver.symbols.scopes = b.resolver.symbols.scopes

/-- When the order visits every global, a global was visited with a property exactly when it
has it. -/
theorem mem_and_exists_iff {order : List String} {t : NameMap Symbol}
    (hcov : ∀ n, n ∈ order ↔ (t.get? n).isSome) {P : Symbol → Prop} (n : String) :
    (n ∈ order ∧ ∃ s, t.get? n = some s ∧ P s) ↔ ∃ s, t.get? n = some s ∧ P s :=
  and_iff_right_of_imp fun ⟨_, hs, _⟩ => (hcov n).2 (by simp [hs])

/-- A global is in the scalar table after the global phase exactly when it takes a scalar
slot. -/
theorem assignGlobalSlotsIn_scalars_isSome (b : Builder) {order : List String} (hnd : order.Nodup)
    (hcov : ∀ n, n ∈ order ↔ (b.resolver.symbols.globals.get? n).isSome) (n : String) :
    ((b.assignGlobalSlotsIn order).program.scalars.get? n).isSome ↔
      ∃ s, b.resolver.symbols.globals.get? n = some s ∧ TakesScalar s := by
  rw [assignGlobalSlotsIn_eq]
  simp only
  rw [placeGlobals_scalars_isSome hnd, mem_and_exists_iff hcov]
  simp

/-- A global is in the array table after the global phase exactly when it takes an array
slot. -/
theorem assignGlobalSlotsIn_arrays_isSome (b : Builder) {order : List String} (hnd : order.Nodup)
    (hcov : ∀ n, n ∈ order ↔ (b.resolver.symbols.globals.get? n).isSome) (n : String) :
    ((b.assignGlobalSlotsIn order).program.arrays.get? n).isSome ↔
      ∃ s, b.resolver.symbols.globals.get? n = some s ∧ TakesArray s := by
  rw [assignGlobalSlotsIn_eq]
  simp only
  rw [placeGlobals_arrays_isSome hnd, mem_and_exists_iff hcov]
  simp

/-- **The global phase on any table.** Visiting each global once, in any order, fills two
disjoint dense slot tables with exactly the globals that are not special, makes every such
global an array or a scalar holding its value in the table of its kind, gives every special
variable its fixed slot, and leaves the tables of the functions alone. -/
theorem assignGlobalSlotsIn_given (b : Builder) {order : List String} (hnd : order.Nodup)
    (hcov : ∀ n, n ∈ order ↔ (b.resolver.symbols.globals.get? n).isSome) :
    GlobalSlotsGiven b (b.assignGlobalSlotsIn order) := by
  have hsc := assignGlobalSlotsIn_scalars_isSome b hnd hcov
  have har := assignGlobalSlotsIn_arrays_isSome b hnd hcov
  have hget : ∀ n, (b.assignGlobalSlotsIn order).resolver.symbols.globals.get? n =
      (b.resolver.symbols.globals.get? n).map fun s =>
        if n ∈ order then settled b.resolver.config.specialSlot
          (b.assignGlobalSlotsIn order).globalSlots n s else s :=
    fun n => placeGlobals_get? n order _ {}
  refine ⟨fun n ⟨hs, ha⟩ => ?_, fun n => ?_, assignGlobalSlotsIn_dense hnd,
    fun n s hs hns => ?_, fun n s hs hsp => ?_, fun n => ?_, rfl⟩
  · -- a name in both tables would be an array and not an array
    obtain ⟨s, h₁, -, hk₁⟩ := (hsc n).1 hs
    obtain ⟨s', h₂, -, hk₂⟩ := (har n).1 ha
    rw [h₁] at h₂
    cases h₂
    exact hk₁ hk₂
  · rw [hsc, har]
    constructor
    · rintro (⟨s, hs, ht, -⟩ | ⟨s, hs, ht, -⟩) <;> exact ⟨s, hs, ht⟩
    · rintro ⟨s, hs, ht⟩
      by_cases ha : s.kind = .array
      · exact .inr ⟨s, hs, ht, ha⟩
      · exact .inl ⟨s, hs, ht, ha⟩
  · have hmem : n ∈ order := (hcov n).2 (by simp [hs])
    by_cases ha : s.kind = .array
    · obtain ⟨a, hA⟩ := Option.isSome_iff_exists.1 ((har n).2 ⟨s, hs, hns, ha⟩)
      refine ⟨a, ?_, by simpa [ha] using hA⟩
      rw [hget, hs]
      simp only [Option.map_some, hmem, if_true, settled, hns, if_false, ha]
      congr
      simp [globalSlots, hA]
    · obtain ⟨a, hA⟩ := Option.isSome_iff_exists.1 ((hsc n).2 ⟨s, hs, hns, ha⟩)
      refine ⟨a, ?_, by simpa [ha] using hA⟩
      rw [hget, hs]
      simp [settled, hns, ha, hmem, globalSlots, hA]
  · have hmem : n ∈ order := (hcov n).2 (by simp [hs])
    rw [hget, hs]
    simp [settled, hsp, hmem]
  · rw [hget, Option.isSome_map]

/-- The global phase, in table order, on the table that `BEGIN { NR; x }` builds: `NR` is
special, `x` a scalar and `ARGV` an array. -/
theorem assignGlobalSlotsIn_given_specials :
    let b := ((Builder.new {}).stepsIn .sorted [.begin [.expr (.var "NR"), .expr (.var "x")]]).2
    b.resolver.symbols.globals.keys.Nodup ∧
      (∀ n, n ∈ b.resolver.symbols.globals.keys ↔ (b.resolver.symbols.globals.get? n).isSome) ∧
      GlobalSlotsGiven b (b.assignGlobalSlotsIn b.resolver.symbols.globals.keys) :=
  ⟨NameMap.nodup_keys _, fun _ => NameMap.mem_keys,
    assignGlobalSlotsIn_given _ (NameMap.nodup_keys _) fun _ => NameMap.mem_keys⟩

/-! ### The parameter phase on any program -/

theorem placeFunctions_append (fs gs : List UserFunction) (T : SymbolTable) :
    placeFunctions (fs ++ gs) T =
      ((placeFunctions fs T).1 ++ (placeFunctions gs (placeFunctions fs T).2).1,
        (placeFunctions gs (placeFunctions fs T).2).2) := by
  induction fs generalizing T with
  | nil => rfl
  | cons f fs ih =>
    rw [List.cons_append, placeFunctions_cons, placeFunctions_cons]
    simp only [ih, List.cons_append]

theorem length_placeFunctions_fst (fs : List UserFunction) (T : SymbolTable) :
    (placeFunctions fs T).1.length = fs.length := by
  induction fs generalizing T with
  | nil => rfl
  | cons f fs ih =>
    rw [placeFunctions_cons]
    simp [ih]

/-- **A function whose name no other function has** is numbered from its own table as it
was, wherever it stands in the list, and its numbered table is the one the phase leaves. -/
theorem placeFunctions_of_unique {fs pre post : List UserFunction} {F : UserFunction}
    (hfs : fs = pre ++ F :: post) (hname : F.name ∉ (pre ++ post).map (·.name))
    (T : SymbolTable) :
    (placeFunctions fs T).1[pre.length]? = some { F with arrays :=
        (placeParams F.name F.params (T.scopes.getD F.name ∅) 0 0).2 } ∧
      (placeFunctions fs T).2.scopes.get? F.name =
        some (placeParams F.name F.params (T.scopes.getD F.name ∅) 0 0).1 := by
  have hpre : F.name ∉ pre.map (·.name) := fun h => hname (by simp_all)
  have hpost : F.name ∉ post.map (·.name) := fun h => hname (by simp_all)
  -- the functions before it leave its table as it was
  have hT : ((placeFunctions pre T).2.scopes.getD F.name ∅) = T.scopes.getD F.name ∅ := by
    simp only [NameMap.getD, placeFunctions_scopes_of_not_mem hpre]
  subst hfs
  rw [placeFunctions_append, placeFunctions_cons, hT]
  refine ⟨?_, ?_⟩
  · rw [List.getElem?_append_right (by rw [length_placeFunctions_fst]),
      length_placeFunctions_fst, Nat.sub_self]
    rfl
  · -- and the functions after it do not touch it again
    simp only
    rw [placeFunctions_scopes_of_not_mem hpost, NameMap.get?_insert, if_pos rfl]

/-- A name that only the `i`-th function has is the name of no function before or after it. -/
theorem name_not_mem_of_unique {fs : List UserFunction} {i : Nat} (hi : i < fs.length)
    (hname : ∀ j (hj : j < fs.length), fs[j].name = fs[i].name → j = i) :
    fs[i].name ∉ (fs.take i ++ fs.drop (i + 1)).map (·.name) := by
  intro hmem
  obtain ⟨G, hG, hGname⟩ := List.mem_map.1 hmem
  rcases List.mem_append.1 hG with hG | hG
  · obtain ⟨j, hj, rfl⟩ := List.getElem_of_mem hG
    rw [List.length_take] at hj
    rw [List.getElem_take] at hGname
    have := hname j (by omega) hGname
    omega
  · obtain ⟨j, hj, rfl⟩ := List.getElem_of_mem hG
    rw [List.length_drop] at hj
    rw [List.getElem_drop] at hGname
    have := hname (i + 1 + j) (by omega) hGname
    omega

/-- What numbering the parameters leaves in `b'` for the function `F` at position `i`, against
the builder `b` it started from. `K q` is the kind parameter `q` ends with. -/
structure ParamsNumbered (b b' : Builder) (i : Nat) (F : UserFunction) : Prop where
  /-- The function keeps its place, with one flag per parameter, set for an array. -/
  function : b'.program.functions[i]? = some { F with arrays := F.params.map fun q =>
    (b.resolver.symbols.kind (some F.name) q).orScalar == .array }
  /-- Its `j`-th parameter has an entry, made with its function's scope if it had none, that is
  an array if it was one and a scalar otherwise, numbered by the earlier parameters of that
  kind. -/
  param : ∀ j (hj : j < F.params.length), b'.resolver.symbols.get? (some F.name) F.params[j] =
    some { (b.resolver.symbols.get? (some F.name) F.params[j]).getD
        { kind := .unknown, scope := .param F.name } with
      kind := (b.resolver.symbols.kind (some F.name) F.params[j]).orScalar
      slot := (F.params.take j).countP fun q =>
        (b.resolver.symbols.kind (some F.name) q).orScalar ==
          (b.resolver.symbols.kind (some F.name) F.params[j]).orScalar }
  /-- The other entries of its table are unchanged. -/
  other : ∀ n ∉ F.params,
    b'.resolver.symbols.get? (some F.name) n = b.resolver.symbols.get? (some F.name) n
  /-- The globals are unchanged. -/
  globals : b'.resolver.symbols.globals = b.resolver.symbols.globals
  /-- So is the table of every name that no function of the program has. -/
  scopes : ∀ g ∉ b.program.functions.map (·.name),
    b'.resolver.symbols.scopes.get? g = b.resolver.symbols.scopes.get? g
  /-- And so are the slot tables of the globals. -/
  scalars : b'.program.scalars = b.program.scalars
  arrays : b'.program.arrays = b.program.arrays

/-- A function whose parameters are distinct and whose name no other function has, wherever
it stands in the program, has its parameters numbered in its own table. -/
theorem assignLocalSlots_paramsNumbered (b : Builder) {pre post : List UserFunction}
    {F : UserFunction} (hfs : b.program.functions = pre ++ F :: post)
    (hname : F.name ∉ (pre ++ post).map (·.name)) (hparams : F.params.Nodup) :
    ParamsNumbered b b.assignLocalSlots pre.length F := by
  obtain ⟨hfun, hscope⟩ := placeFunctions_of_unique hfs hname b.resolver.symbols
  have hget : ∀ n, b.assignLocalSlots.resolver.symbols.get? (some F.name) n =
      (placeParams F.name F.params (b.resolver.symbols.scopes.getD F.name ∅) 0 0).1.get? n := by
    intro n
    rw [assignLocalSlots_eq]
    simp [SymbolTable.get?, hscope]
  have harr : paramIsArray F.name (b.resolver.symbols.scopes.getD F.name ∅) =
      fun q => b.resolver.symbols.kind (some F.name) q == .array :=
    funext (paramIsArray_scopes b.resolver.symbols F.name)
  refine ⟨?_, fun j hj => ?_, fun n hn => ?_, assignLocalSlots_globals b, fun g hg => ?_, rfl, rfl⟩
  · rw [assignLocalSlots_eq]
    simp only
    rw [hfun, placeParams_snd hparams, harr]
    simp only [Kind.orScalar_beq_array]
  · rw [hget, placeParams_get? hparams j hj, paramSymbol_scopes, harr]
    simp only [Kind.ite_beq_array, Kind.beq_array_beq, Nat.zero_add, ite_self]
  · rw [hget, placeParams_get?_of_not_mem hn, SymbolTable.get?_scopes_getD]
  · rw [assignLocalSlots_eq]
    exact placeFunctions_scopes_of_not_mem hg

/-- **The parameter phase on any program.** Each function whose parameters are distinct and
whose name no other function has gets one flag per parameter, and its parameters are numbered
in order, scalars and arrays apart, in its own table; nothing else but the functions' tables
changes. -/
theorem assignLocalSlots_numbersParams (b : Builder) {i : Nat}
    (hi : i < b.program.functions.length) (hparams : b.program.functions[i].params.Nodup)
    (hname : ∀ j (hj : j < b.program.functions.length),
      b.program.functions[j].name = b.program.functions[i].name → j = i) :
    ParamsNumbered b b.assignLocalSlots i b.program.functions[i] := by
  have h := assignLocalSlots_paramsNumbered b
    (List.eq_take_append_getElem_cons_drop b.program.functions hi)
    (name_not_mem_of_unique hi hname) hparams
  rwa [List.length_take, Nat.min_eq_left hi.le] at h

/-- The parameter phase on `function f(s, a, t, b, unused) { b[0]; t; a[0]; s }`: the arrays
`a` and `b` are numbered `0` and `1`, the scalars `s`, `t` and `unused` `0`, `1` and `2`. -/
theorem assignLocalSlots_numbersParams_mixed :
    let b := ((Builder.new {}).stepsIn .sorted
      [.declare "f" ["s", "a", "t", "b", "unused"] .null
        [.expr (.array "b"), .expr (.var "t"), .expr (.array "a"), .expr (.var "s")]]).2
    ∃ hi : 0 < b.program.functions.length, b.program.functions[0].params.Nodup ∧
      (∀ j (hj : j < b.program.functions.length),
        b.program.functions[j].name = b.program.functions[0].name → j = 0) ∧
      ParamsNumbered b b.assignLocalSlots 0 b.program.functions[0] := by
  intro b
  have hlen : b.program.functions.length = 1 := rfl
  have hi : 0 < b.program.functions.length := by omega
  have hparams : b.program.functions[0].params.Nodup := by
    have hp : b.program.functions[0].params = ["s", "a", "t", "b", "unused"] := rfl
    rw [hp]
    decide
  have hname : ∀ j (hj : j < b.program.functions.length),
      b.program.functions[j].name = b.program.functions[0].name → j = 0 :=
    fun j hj _ => by omega
  exact ⟨hi, hparams, hname, assignLocalSlots_numbersParams b hi hparams hname⟩

end Builder

end AwkNames
