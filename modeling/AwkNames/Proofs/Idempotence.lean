import AwkNames.Proofs.CallLog
import AwkNames.Proofs.Coherence

/-!
# Resolving a resolved builder

Resolution can be asked for again once it has succeeded. The second time every call is bound
and every parameter of a declared function is already a scalar or an array, so inference has
little left to do: the entries still pending wait on a parameter that is missing, or on a
parameter whose kind is now known, and one pass settles all of the latter. What it settles is a
special variable, or a name of a body that failed to declare, and neither takes a slot of its
own kind; so the slots come out as before, and the tree and the program do not change.

* `Resolver.ParamsKnown.inferIn` : when every parameter a deferral can name has a known kind,
  inference takes one pass, and fails only if the configuration allows no pass that sets
  something;
* `GlobalSlots.source` : whether a global takes its fixed slot, an array slot or a scalar slot;
  placing the globals reads nothing else of their symbols (`Builder.placeGlobals_snd_congr`);
* `Builder.runs_resolve_resolve` : after any run of operations and a resolution that succeeds,
  resolving again keeps the tree and the program; it succeeds unless the configuration allows
  no pass of inference that sets something, and then it may stop at that limit;
* `Builder.stepsIn_resolve_resolve_diverges` : with no pass allowed, a name of a body that failed
  to declare, passed to a parameter that the first resolution made a scalar, makes the second
  resolution stop at the limit.
-/

namespace AwkNames

theorem SymbolTable.kind_insert (t : SymbolTable) (o o' : Option String) (n n' : String)
    (s : Symbol) :
    (t.insert o n s).kind o' n' = if o = o' ∧ n = n' then s.kind else t.kind o' n' := by
  simp only [SymbolTable.kind, SymbolTable.get?_insert]
  split <;> rfl

/-- `s'` is `s` with its kind set, and kept where it was known: what inference may do to an
entry. -/
def Symbol.KeepsKind (s s' : Symbol) : Prop :=
  ∃ k, s' = { s with kind := k } ∧ (s.kind ≠ .unknown → k = s.kind)

theorem Symbol.KeepsKind.slot {s s' : Symbol} (h : s.KeepsKind s') : s'.slot = s.slot := by
  obtain ⟨k, rfl, -⟩ := h
  rfl

/-- An entry related to a present one is present, with its kind set and kept if known. -/
theorem Symbol.KeepsKind.of_rel_some {s : Symbol} {y : Option Symbol}
    (h : Option.Rel Symbol.KeepsKind (some s) y) :
    ∃ k, y = some { s with kind := k } ∧ (s.kind ≠ .unknown → k = s.kind) := by
  cases y with
  | none => exact absurd h Option.not_rel_some_none
  | some s' =>
    obtain ⟨k, rfl, hk⟩ := Option.rel_some_some.1 h
    exact ⟨k, rfl, hk⟩

theorem Symbol.KeepsKind.of_rel_none {y : Option Symbol} (h : Option.Rel Symbol.KeepsKind none y) :
    y = none := by
  cases y with
  | none => rfl
  | some s => exact absurd h Option.not_rel_none_some

/-- Entries related entry by entry keep their slots. -/
theorem Symbol.KeepsKind.map_slot {x y : Option Symbol} (h : Option.Rel Symbol.KeepsKind x y) :
    y.map (·.slot) = x.map (·.slot) := by
  cases h with
  | some h => exact congrArg some h.slot
  | none => rfl

/-- Reading entries related entry by entry to those a map gives: a reading that sees through
the kind an entry is given, as far as the relation allows, agrees with one of the entries the
map was given. -/
theorem Symbol.KeepsKind.map_of_rel_map {α : Type} {F : Symbol → Symbol} {G H : Symbol → α}
    {x y : Option Symbol} (h : Option.Rel Symbol.KeepsKind (x.map F) y)
    (hGH : ∀ s k, ((F s).kind ≠ .unknown → k = (F s).kind) → G { F s with kind := k } = H s) :
    y.map G = x.map H := by
  cases x with
  | none => simp only [Symbol.KeepsKind.of_rel_none h, Option.map_none]
  | some s =>
    obtain ⟨k, rfl, hk⟩ := Symbol.KeepsKind.of_rel_some h
    exact congrArg some (hGH s k hk)

/-- An order of the globals fixed by which names are global, as iterating over a hash map is
while no name is added to it or removed. -/
def VisitOrder.Keyed (v : VisitOrder) : Prop :=
  ∀ t t' : SymbolTable, t.globals.keys = t'.globals.keys → v.globals t = v.globals t'

/-! ### Inference when every parameter is known -/

namespace Resolver

variable {p : Program} {r : Resolver}

/-- Every parameter a deferral can name has a known kind. A successful resolution leaves its
resolver so: each parameter of a declared function ends a scalar or an array. -/
def ParamsKnown (r : Resolver) (p : Program) : Prop :=
  ∀ d q, r.paramName? p d = some q → r.symbols.kind (some d.callee) q ≠ .unknown

/-- An entry that no pass can settle: it is absent, known, waits on nothing, or waits on a
parameter that does not exist. -/
def Stuck (r : Resolver) (p : Program) (e : Option String × String) : Prop :=
  ∀ s d, r.symbols.get? e.1 e.2 = some s → s.kind = .unknown → s.waitsOn = some d →
    r.paramName? p d = none

/-- Settling keeps a known kind known. -/
theorem kind_settle_ne (e : Option String × String) {o : Option String} {n : String}
    (h : r.symbols.kind o n ≠ .unknown) : (r.settle p e).symbols.kind o n ≠ .unknown := by
  rcases settle_cases r p e with hs | ⟨s, k, -, hk, hs⟩
  · rw [hs]
    exact h
  · rw [hs]
    change (r.symbols.insert e.1 e.2 { s with kind := k }).kind o n ≠ .unknown
    rw [SymbolTable.kind_insert]
    split
    · exact hk
    · exact h

theorem ParamsKnown.settle (h : r.ParamsKnown p) (e : Option String × String) :
    (r.settle p e).ParamsKnown p := by
  intro d q hq
  have hq' : r.paramName? p d = some q := by
    rcases settle_cases r p e with hs | ⟨s, k, -, -, hs⟩ <;> rw [hs] at hq <;> exact hq
  exact kind_settle_ne e (h d q hq')

/-- A deferral to an unknown parameter names none. -/
theorem ParamsKnown.paramName?_eq_none (h : r.ParamsKnown p) {d : Deferral}
    (hd : r.paramKind p d = .unknown) : r.paramName? p d = none := by
  cases hq : r.paramName? p d with
  | none => rfl
  | some q =>
    rw [paramKind_eq, hq] at hd
    exact absurd hd (h d q hq)

theorem Stuck.settle {e' : Option String × String} (h : r.Stuck p e')
    (e : Option String × String) : (r.settle p e).Stuck p e' := by
  intro s d hs hu hw
  rcases settle_cases r p e with heq | ⟨s₀, k, -, hk, heq⟩
  · rw [heq] at hs ⊢
    exact h s d hs hu hw
  · rw [heq] at hs ⊢
    change (r.symbols.insert e.1 e.2 { s₀ with kind := k }).get? e'.1 e'.2 = some s at hs
    rw [SymbolTable.get?_insert] at hs
    split at hs
    · cases hs
      exact absurd hu hk
    · exact h s d hs hu hw

/-- Settling an entry whose parameter, if any, is known leaves it stuck. -/
theorem ParamsKnown.stuck_settle (h : r.ParamsKnown p) (e : Option String × String) :
    (r.settle p e).Stuck p e := by
  obtain ⟨o, n⟩ := e
  intro s d hs hu hw
  cases hget : r.symbols.get? o n with
  | none =>
    have hset : r.settle p (o, n) = r := by simp [Resolver.settle, hget]
    rw [hset, hget] at hs
    cases hs
  | some s₀ =>
    cases hw₀ : s₀.waitsOn with
    | none =>
      have hset : r.settle p (o, n) = r := by simp [Resolver.settle, hget, hw₀]
      rw [hset, hget] at hs
      cases hs
      rw [hw₀] at hw
      cases hw
    | some d₀ =>
      rw [settle_of_waits hget hw₀] at hs ⊢
      by_cases hK : r.paramKind p d₀ = .unknown
      · rw [if_pos hK] at hs ⊢
        rw [hget] at hs
        cases hs
        rw [hw₀] at hw
        cases hw
        exact h.paramName?_eq_none hK
      · rw [if_neg hK] at hs
        change (r.symbols.insert o n { s₀ with kind := r.paramKind p d₀ }).get? o n = some s at hs
        rw [SymbolTable.get?_insert, if_pos ⟨rfl, rfl⟩] at hs
        cases hs
        exact absurd hu hK

/-- A pass over a list, from known parameters, leaves stuck every entry on the list and every
entry that was stuck; the parameters stay known. -/
theorem ParamsKnown.passOver (h : r.ParamsKnown p) (W : List (Option String × String))
    (hW : ∀ e, e ∉ W → r.Stuck p e) :
    (r.passOver p W).ParamsKnown p ∧ ∀ e, (r.passOver p W).Stuck p e := by
  induction W generalizing r with
  | nil => exact ⟨h, fun e => hW e List.not_mem_nil⟩
  | cons e W ih =>
    refine ih (h.settle e) fun e' he' => ?_
    by_cases hee : e' = e
    · subst hee
      exact h.stuck_settle e'
    · exact (hW e' (by simp [hee, he'])).settle e

/-- A pass over pending entries that are all stuck changes nothing. -/
theorem passOver_of_stuck (hs : ∀ e, r.Stuck p e) :
    ∀ W : List (Option String × String), (∀ e ∈ W, e ∈ r.symbols.pending) → r.passOver p W = r
  | [], _ => rfl
  | (o, n) :: W, hW => by
    obtain ⟨s, hget, hp⟩ := r.symbols.mem_pending.1 (hW _ List.mem_cons_self)
    obtain ⟨hu, hw⟩ := (Symbol.isPending_iff s).1 hp
    obtain ⟨d, hd⟩ := Option.isSome_iff_exists.1 hw
    have hset : r.settle p (o, n) = r := by
      rw [settle_of_waits hget hd, if_pos]
      rw [paramKind_eq, hs (o, n) s d hget hu hd]
    show (r.settle p (o, n)).passOver p W = r
    rw [hset]
    exact passOver_of_stuck hs W fun e he => hW e (List.mem_cons_of_mem _ he)

/-- With every entry stuck, inference sets nothing and succeeds. -/
theorem inferIn_of_stuck (hs : ∀ e, r.Stuck p e) {v : VisitOrder} (hv : v.Lawful)
    (done : Nat) : r.inferIn v p done = (.ok (), r) := by
  have hpass := passOver_of_stuck hs (v.worklist r.symbols) fun e he => (hv _).1.subset he
  rw [inferIn]
  simp only [hpass, lt_irrefl, if_false]

/-- **Inference from known parameters takes one pass.** When every parameter a deferral can
name has a known kind, the first pass settles every pending entry that can be settled and the
next one sets nothing; so inference succeeds unless its limit allows no pass that sets
something. -/
theorem ParamsKnown.inferIn (h : r.ParamsKnown p) {v : VisitOrder} (hv : v.Lawful)
    (done : Nat) :
    r.inferIn v p done = (.ok (), r.passOver p (v.worklist r.symbols)) ∨
      (r.config.maxPasses < done + 1 ∧
        r.inferIn v p done = (.error ⟨.divergence r.config.maxPasses, .null⟩,
          r.passOver p (v.worklist r.symbols))) := by
  -- an entry off the worklist is not pending, so no pass can settle it
  have hoff : ∀ e, e ∉ v.worklist r.symbols → r.Stuck p e := by
    rintro ⟨o, n⟩ he s d hs hu hw
    refine absurd ((hv _).1.symm.subset ?_) he
    exact r.symbols.mem_pending.2 ⟨s, hs, (Symbol.isPending_iff s).2 ⟨hu, by simp [hw]⟩⟩
  obtain ⟨-, hstuck⟩ := h.passOver (v.worklist r.symbols) hoff
  have hsecond := inferIn_of_stuck hstuck hv (done + 1)
  rw [Resolver.inferIn]
  split
  · split
    · exact .inr ⟨‹_›, rfl⟩
    · exact .inl hsecond
  · exact .inl rfl

/-- Part way through inference every entry is there, with its kind set and kept if known. -/
theorem Settles.keepsKind {r₀ : Resolver} (h : Settles r₀ r p) (o : Option String) (n : String) :
    Option.Rel Symbol.KeepsKind (r₀.symbols.get? o n) (r.symbols.get? o n) := by
  obtain ⟨κ, rfl, hκ⟩ := h
  rw [get?_withKinds]
  cases hs : r₀.symbols.get? o n with
  | none => exact .none
  | some s =>
    refine .some ⟨κ o n, rfl, fun hk => ?_⟩
    rcases hκ o n s hs with heq | ⟨hp, -⟩
    · exact heq
    · exact absurd ((Symbol.isPending_iff s).1 hp).1 hk

end Resolver

/-! ### Which slot a global takes -/

namespace GlobalSlots

/-- Where a global takes its slot from: its fixed slot (`none`), the array table (`some true`)
or the scalar table (`some false`). -/
def source (s : Symbol) : Option Bool := if s.scope = .special then none else some (s.kind == .array)

variable {special : String → Nat} {acc : GlobalSlots} {n : String} {s s' : Symbol}

theorem source_place : source (place special acc n s).1 = source s := by
  rcases special_or_takes s with hs | hs | hs
  · simp [place_special hs, source, hs]
  · simp [place_array hs, source, hs.1]
  · simp [place_scalar hs, source, hs.1, hs.2]

theorem source_settled : source (settled special acc n s) = source s := by
  unfold settled source
  split_ifs <;> simp_all

/-- Two globals that take their slots from the same place leave the tables alike. -/
theorem place_snd_congr (h : source s = source s') :
    (place special acc n s).2 = (place special acc n s').2 := by
  unfold source at h
  unfold place
  split_ifs at h ⊢ <;> simp_all

/-- Two globals that take their slots from the same place settle to the same slot. -/
theorem settled_slot_congr (h : source s = source s') :
    (settled special acc n s).slot = (settled special acc n s').slot := by
  unfold source at h
  unfold settled
  split_ifs at h ⊢ <;> simp_all

/-- A settled global that keeps its kind once known keeps where it takes its slot from. -/
theorem source_withKind_settled {k : Kind}
    (h : (settled special acc n s).kind ≠ .unknown → k = (settled special acc n s).kind) :
    source { settled special acc n s with kind := k } = source s := by
  unfold settled source at *
  split_ifs at h ⊢ <;> simp_all

end GlobalSlots

/-! ### Which slot a parameter takes -/

section Params

variable {function : String} {ps : List String} {t t' : NameMap Symbol} {ns na : Nat}

/-- Numbering the parameters reads only which of them are arrays: the flags come out alike. -/
theorem placeParams_snd_congr (hl : ps.Nodup)
    (h : ∀ q ∈ ps, paramIsArray function t q = paramIsArray function t' q) :
    (placeParams function ps t ns na).2 = (placeParams function ps t' ns na).2 := by
  rw [placeParams_snd hl, placeParams_snd hl]
  exact List.map_congr_left h

/-- Numbering the parameters reads only which of them are arrays: the slots come out alike. -/
theorem placeParams_slot_congr (hl : ps.Nodup)
    (h : ∀ q ∈ ps, paramIsArray function t q = paramIsArray function t' q) {q : String}
    (hq : q ∈ ps) :
    ((placeParams function ps t ns na).1.get? q).map (·.slot) =
      ((placeParams function ps t' ns na).1.get? q).map (·.slot) := by
  obtain ⟨i, hi, rfl⟩ := List.getElem_of_mem hq
  have hcount : (ps.take i).countP (fun q => paramIsArray function t q ==
      paramIsArray function t' ps[i]) = (ps.take i).countP fun q =>
        paramIsArray function t' q == paramIsArray function t' ps[i] :=
    List.countP_congr fun q hq' => by rw [h q (List.mem_of_mem_take hq')]
  rw [placeParams_get? hl i hi, placeParams_get? hl i hi]
  simp only [Option.map_some, h _ hq, hcount]

end Params

namespace Builder

open GlobalSlots

/-- **Placing the globals reads only where each takes its slot from.** Two tables whose
globals take their slots from the same places fill the slot tables alike. -/
theorem placeGlobals_snd_congr {special : String → Nat} :
    ∀ (l : List String) {t t' : NameMap Symbol} {acc : GlobalSlots},
      (∀ n, (t.get? n).map source = (t'.get? n).map source) →
      (placeGlobals special l t acc).2 = (placeGlobals special l t' acc).2
  | [], _, _, _, _ => rfl
  | m :: rest, t, t', acc, h => by
    have hm := h m
    cases ht : t.get? m with
    | none =>
      rw [ht, Option.map_none, eq_comm, Option.map_eq_none_iff] at hm
      rw [placeGlobals_cons_none ht, placeGlobals_cons_none hm]
      exact placeGlobals_snd_congr rest h
    | some s =>
      rw [ht, Option.map_some, eq_comm, Option.map_eq_some_iff] at hm
      obtain ⟨s', ht', hs⟩ := hm
      rw [placeGlobals_cons_some ht, placeGlobals_cons_some ht', place_snd_congr hs.symm]
      refine placeGlobals_snd_congr rest fun k => ?_
      simp only [NameMap.get?_insert]
      split
      · simp [source_place, hs]
      · exact h k

/-! ### What a successful resolution leaves -/

variable {b : Builder}

/-- Binding writes nothing when every binding is written already. -/
theorem bindCalls_of_bound
    (h : ∀ e ∈ b.resolver.bindings, ∃ c, b.ast.get? e.1 = some (.call c) ∧ c.ordinal = some e.2) :
    b.bindCalls = b := by
  have hset : ∀ e ∈ b.resolver.bindings, b.setOrdinal e.1 e.2 = b := by
    rintro ⟨i, k⟩ he
    obtain ⟨c, hc, hk⟩ := h _ he
    have hc' : ({ c with ordinal := some k } : CallNode) = c := by
      rw [← hk]
    simp only [setOrdinal, hc, hc', Ast.set_of_get? hc]
  have hfold : ∀ l : List (NodeId × Nat), (∀ e ∈ l, b.setOrdinal e.1 e.2 = b) →
      l.foldl (fun b e => b.setOrdinal e.1 e.2) b = b := by
    intro l hl
    induction l with
    | nil => rfl
    | cons e rest ih =>
      rw [List.foldl_cons, hl e List.mem_cons_self]
      exact ih fun e' he' => hl e' (List.mem_cons_of_mem _ he')
  exact hfold _ hset

/-- After a successful resolution every logged call of a declared function holds its ordinal. -/
theorem Wf.resolveIn_bound (hb : b.Wf) (hc : b.CallsLogged) {v : VisitOrder} (hv : v.Lawful)
    {b' : Builder} (h : b.resolveIn v = (.ok (), b')) {cs : CallSite}
    (hcs : cs ∈ b'.resolver.calls) {k : Nat} (hk : b'.resolver.functions.get? cs.callee = some k) :
    ∃ c, b'.ast.get? cs.node = some (.call c) ∧ c.ordinal = some k := by
  have hb' := hb.resolveIn hv
  have hc' := hc.resolveIn hb hv
  rw [h] at hb' hc'
  dsimp only at hb' hc'
  obtain ⟨c, hget, hcallee⟩ := Ast.exists_of_callAt? (hc'.logged cs hcs)
  obtain ⟨k', fn, hord, hfn, hname, -⟩ := hb.resolveIn_ordinal hc hv h hget
  have hk' := (hb'.registry _ k').2 ⟨fn, hfn, hname⟩
  have hcal : c.callee = cs.callee := congrArg Prod.fst hcallee
  rw [hcal, hk] at hk'
  cases hk'
  exact ⟨c, hget, hord⟩

/-- After a successful resolution every call passes its check again, and each binding the check
gives is written already. -/
theorem Wf.resolveIn_checkCalls (hb : b.Wf) (hc : b.CallsLogged) {v : VisitOrder}
    (hv : v.Lawful) {b' : Builder} (h : b.resolveIn v = (.ok (), b')) :
    ∃ bs, b'.resolver.checkCalls b'.program = .ok bs ∧
      ∀ e ∈ bs, ∃ c, b'.ast.get? e.1 = some (.call c) ∧ c.ordinal = some e.2 := by
  cases hcheck : b'.resolver.checkCalls b'.program with
  | error e =>
    exfalso
    obtain ⟨pre, cs, post, hl, -, hx⟩ := List.mapM_eq_error_iff.1 hcheck
    have hcs : cs ∈ b'.resolver.calls := by
      rw [hl]
      exact List.mem_append_right _ List.mem_cons_self
    obtain ⟨k, hk, harity⟩ := hb.resolveIn_calls hv h cs hcs
    simp [Resolver.checkCall, hk, Nat.not_lt.2 harity] at hx
  | ok bs =>
    refine ⟨bs, rfl, fun e he => ?_⟩
    obtain ⟨cs, hcs, hx⟩ := (List.mapM_eq_ok hcheck).2 e he
    obtain ⟨hnode, hk, -⟩ := Resolver.checkCall_eq_ok hx
    rw [hnode]
    exact hb.resolveIn_bound hc hv h hcs hk

/-- After a successful resolution every parameter a deferral can name has a known kind. -/
theorem Wf.resolveIn_paramsKnown (hb : b.Wf) {v : VisitOrder} (hv : v.Lawful) {b' : Builder}
    (h : b.resolveIn v = (.ok (), b')) : b'.resolver.ParamsKnown b'.program := by
  intro d q hq
  obtain ⟨k, hk, hparam⟩ := Option.bind_eq_some_iff.1 hq
  obtain ⟨fn, hfn, hq'⟩ := Option.bind_eq_some_iff.1 hparam
  obtain ⟨hj, rfl⟩ := List.getElem?_eq_some_iff.1 hq'
  obtain ⟨s, hs, hkind, -⟩ := hb.resolveIn_param hv h hk hfn hj
  rw [SymbolTable.kind_of_get? hs]
  rcases hkind with hk' | hk' <;> simp [hk']

/-! ### The slot phases again -/

/-- **The global phase again.** Placing, in the same order, globals whose entries are those a
first placement gave, each with only an unknown kind changed, fills the slot tables alike and
gives every global its slot again. -/
theorem Wf.assignGlobalSlotsIn_again {b₃ c : Builder} (hb₃ : b₃.Wf) (hc : c.Wf)
    {l : List String} (hl : l.Perm b₃.resolver.symbols.globals.keys)
    (hl' : l.Perm c.resolver.symbols.globals.keys)
    (hcfg : c.resolver.config.specialSlot = b₃.resolver.config.specialSlot)
    (hkeep : ∀ x, Option.Rel Symbol.KeepsKind
      ((b₃.assignGlobalSlotsIn l).resolver.symbols.globals.get? x) (c.resolver.symbols.globals.get? x)) :
    (c.assignGlobalSlotsIn l).globalSlots = (b₃.assignGlobalSlotsIn l).globalSlots ∧
      ∀ x, ((c.assignGlobalSlotsIn l).resolver.symbols.globals.get? x).map (·.slot) =
        ((b₃.assignGlobalSlotsIn l).resolver.symbols.globals.get? x).map (·.slot) := by
  have hg := assignGlobalSlotsIn_globals hl
  -- each global of `c` is the one the first numbering settled, with at most its kind set
  rw [hg] at hkeep
  simp only [NameMap.get?_mapValues] at hkeep
  have hsource : ∀ x, (c.resolver.symbols.globals.get? x).map source =
      (b₃.resolver.symbols.globals.get? x).map source := fun x =>
    Symbol.KeepsKind.map_of_rel_map (hkeep x) fun _ _ hk => source_withKind_settled hk
  have hacc : (c.assignGlobalSlotsIn l).globalSlots = (b₃.assignGlobalSlotsIn l).globalSlots := by
    simp only [globalSlots, assignGlobalSlotsIn_eq, hcfg, placeGlobals_snd_congr l hsource]
  refine ⟨hacc, fun x => ?_⟩
  rw [assignGlobalSlotsIn_globals hl', hg, NameMap.get?_mapValues,
    NameMap.get?_mapValues, hacc, hcfg, Option.map_map, Option.map_map]
  exact Symbol.KeepsKind.map_of_rel_map (hkeep x) fun _ _ hk =>
    settled_slot_congr (source_withKind_settled hk)

/-- **The parameter phase again.** Numbering the parameters of the same functions in a table
whose entries are those a first numbering gave, each with only an unknown kind changed, gives
the functions the same flags and every entry of a function's table its slot again. -/
theorem Wf.assignLocalSlots_again {g₁ g₂ : Builder} (hg₁ : g₁.Wf) (hg₂ : g₂.Wf)
    (hfun : g₂.resolver.functions = g₁.resolver.functions)
    (hprog : g₂.program.functions = g₁.assignLocalSlots.program.functions)
    (hkeep : ∀ f n, Option.Rel Symbol.KeepsKind
      (g₁.assignLocalSlots.resolver.symbols.get? (some f) n) (g₂.resolver.symbols.get? (some f) n)) :
    g₂.assignLocalSlots.program.functions = g₁.assignLocalSlots.program.functions ∧
      ∀ f n, (g₂.assignLocalSlots.resolver.symbols.get? (some f) n).map (·.slot) =
        (g₁.assignLocalSlots.resolver.symbols.get? (some f) n).map (·.slot) := by
  have harray : ∀ fn ∈ g₁.program.functions, ∀ q ∈ fn.params,
      paramIsArray fn.name (g₂.resolver.symbols.scopes.getD fn.name ∅) q =
        paramIsArray fn.name (g₁.resolver.symbols.scopes.getD fn.name ∅) q := by
    intro fn hfn q hq
    obtain ⟨k, hk⟩ := List.getElem?_of_mem hfn
    have hreg := (hg₁.registry fn.name k).2 ⟨fn, hk, rfl⟩
    obtain ⟨slot, hs⟩ := hg₁.assignLocalSlots_get?_of_param hreg hk hq
    have hx := hkeep fn.name q
    rw [hs] at hx
    obtain ⟨k', hk', hkind⟩ := Symbol.KeepsKind.of_rel_some hx
    rw [paramIsArray_scopes, paramIsArray_scopes, SymbolTable.kind_of_get? hk',
      hkind (by split <;> simp)]
    split <;> simp_all
  refine ⟨?functions, fun f n => ?_⟩
  case functions =>
    rw [hg₂.assignLocalSlots_functions, hprog, hg₁.assignLocalSlots_functions, List.map_map]
    refine List.map_congr_left fun fn hfn => ?_
    simp only [Function.comp_apply]
    rw [placeParams_snd_congr (hg₁.params_nodup fn hfn) (harray fn hfn)]
  by_cases hparam : ∃ k fn, g₁.resolver.functions.get? f = some k ∧
      g₁.program.functions[k]? = some fn ∧ n ∈ fn.params
  · obtain ⟨k, fn, hk, hfn, hn⟩ := hparam
    obtain ⟨fn', hfn', hname⟩ := (hg₁.registry f k).1 hk
    rw [hfn] at hfn'
    cases hfn'
    subst hname
    have hfn₂ : g₂.program.functions[k]? = some { fn with arrays :=
        (placeParams fn.name fn.params (g₁.resolver.symbols.scopes.getD fn.name ∅) 0 0).2 } := by
      rw [hprog, hg₁.assignLocalSlots_functions, List.getElem?_map, hfn]
      rfl
    have hmem := List.mem_of_getElem? hfn
    rw [hg₂.assignLocalSlots_get?_of_declared (hfun ▸ hk) hfn₂,
      hg₁.assignLocalSlots_get?_of_declared hk hfn]
    exact placeParams_slot_congr (hg₁.params_nodup fn hmem) (harray fn hmem) hn
  · have hnot : ∀ f' k fn, some f = some f' → g₂.resolver.functions.get? f' = some k →
        g₂.program.functions[k]? = some fn → n ∉ fn.params := by
      rintro f' k fn ⟨⟩ hk hfn hn
      rw [hfun] at hk
      rw [hprog, hg₁.assignLocalSlots_functions, List.getElem?_map] at hfn
      obtain ⟨fn₀, hfn₀, rfl⟩ := Option.map_eq_some_iff.1 hfn
      exact hparam ⟨k, fn₀, hk, hfn₀, hn⟩
    rw [hg₂.assignLocalSlots_get?_of_not_param hnot]
    exact Symbol.KeepsKind.map_slot (hkeep f n)

/-- Patching again, from a table with the slots the first patching read and the same records,
changes no node. -/
theorem patch_again {d₁ d₂ : Builder} (hast : d₂.ast = d₁.patch.ast)
    (hvars : d₂.resolver.scalarRefs = d₁.resolver.scalarRefs)
    (harrays : d₂.resolver.arrayRefs = d₁.resolver.arrayRefs)
    (hslot : ∀ o n, (d₂.resolver.symbols.get? o n).map (·.slot) =
      (d₁.resolver.symbols.get? o n).map (·.slot)) :
    d₂.patch.ast = d₁.patch.ast := by
  refine Ast.ext_get? (fun i => ?_) fun n hn => ?_
  · rw [patch_get?_patched, hast, patch_get?_patched, Option.map_map, hvars, harrays]
    congr 1
    funext e
    exact Expr.patched_patched hslot i _ _ e
  · rw [patch_nodes_of_le _ hn, hast]

/-- **The later phases again.** After a successful resolution, whatever a second inference
sets, binding the calls the check passes again, giving slots and patching give back the tree
and the program, when the globals come in an order their names fix. -/
theorem Wf.phases_again (hb : b.Wf) {v : VisitOrder} (hv : v.Lawful) (hkey : v.Keyed)
    {b₁ : Builder} (h : b.resolveIn v = (.ok (), b₁)) {bs : List (NodeId × Nat)}
    (hbs : ∀ e ∈ bs, ∃ c, b₁.ast.get? e.1 = some (.call c) ∧ c.ordinal = some e.2)
    {r : Resolver} (hr : Resolver.Settles { b₁.resolver with bindings := bs } r b₁.program) :
    let c := ({ b₁ with resolver := r } : Builder).bindCalls
    let b₂ := (c.assignGlobalSlotsIn (v.globals c.resolver.symbols)).assignLocalSlots.patch
    b₂.ast = b₁.ast ∧ b₂.program = b₁.program := by
  intro c b₂
  have hb₁ := hb.resolveIn hv
  rw [h] at hb₁
  have hkeep : ∀ o n, Option.Rel Symbol.KeepsKind (b₁.resolver.symbols.get? o n)
      (r.symbols.get? o n) := hr.keepsKind
  obtain ⟨κ, hrκ, -⟩ := hr
  -- inference sets kinds only, and binding again writes nothing
  have hc₀ : ({ b₁ with resolver := r } : Builder).Wf := by
    rw [hrκ]
    exact (hb₁.bindings bs).mapEntries _ (fun _ _ _ => rfl) (fun _ _ _ _ => rfl)
  have hbind : c = { b₁ with resolver := r } := by
    apply bindCalls_of_bound
    rw [hrκ]
    exact hbs
  obtain ⟨b₃, hb₃, hb₁eq⟩ := hb.resolveIn_eq_ok hv h
  set l := v.globals b₃.resolver.symbols
  have hl := (hv b₃.resolver.symbols).2
  set g₁ := b₃.assignGlobalSlotsIn l
  set d₁ := g₁.assignLocalSlots
  have hg₁ : g₁.Wf := hb₃.assignGlobalSlotsIn hl
  have hd₁ : d₁.Wf := hg₁.assignLocalSlots
  have hres₁ : b₁.resolver = d₁.resolver := by rw [hb₁eq, patch_resolver]
  rw [hres₁] at hkeep
  have hkeys : r.symbols.globals.keys = b₃.resolver.symbols.globals.keys := by
    rw [hrκ]
    change (b₁.resolver.symbols.globals.mapValues _).keys = _
    rw [NameMap.keys_mapValues, hres₁, assignLocalSlots_globals,
      assignGlobalSlotsIn_globals hl, NameMap.keys_mapValues]
  have hb₂ : b₂ = ((({ b₁ with resolver := r } : Builder).assignGlobalSlotsIn l).assignLocalSlots).patch := by
    change ((c.assignGlobalSlotsIn (v.globals c.resolver.symbols)).assignLocalSlots).patch = _
    rw [hbind, hkey _ _ hkeys]
  have hl' : l.Perm r.symbols.globals.keys := hkeys ▸ hl
  rw [hb₂]
  set c₀ : Builder := { b₁ with resolver := r }
  set g₂ := c₀.assignGlobalSlotsIn l
  set d₂ := g₂.assignLocalSlots
  have hg₂ : g₂.Wf := hc₀.assignGlobalSlotsIn hl'
  have hd₂ : d₂.Wf := hg₂.assignLocalSlots
  obtain ⟨hacc, hgslot⟩ := hb₃.assignGlobalSlotsIn_again hc₀ hl hl'
    (by
      show r.config.specialSlot = _
      rw [hrκ]
      show b₁.resolver.config.specialSlot = _
      rw [hres₁]
      rfl)
    (fun x => by
      have hx := hkeep none x
      change Option.Rel _ (d₁.resolver.symbols.globals.get? x) _ at hx
      rwa [assignLocalSlots_globals] at hx)
  obtain ⟨hfn, hlslot⟩ := hg₁.assignLocalSlots_again hg₂
    (by
      show r.functions = _
      rw [hrκ]
      show b₁.resolver.functions = _
      rw [hres₁]
      rfl)
    (by
      show b₁.program.functions = _
      rw [hb₁eq, patch_program])
    (fun f n => hkeep (some f) n)
  have hslot : ∀ o n, (d₂.resolver.symbols.get? o n).map (·.slot) =
      (d₁.resolver.symbols.get? o n).map (·.slot) := by
    intro o n
    cases o with
    | none =>
      change (d₂.resolver.symbols.globals.get? n).map _ = (d₁.resolver.symbols.globals.get? n).map _
      rw [assignLocalSlots_globals, assignLocalSlots_globals]
      exact hgslot n
    | some f => exact hlslot f n
  have hvars : d₂.resolver.scalarRefs = d₁.resolver.scalarRefs := by
    change r.scalarRefs = _
    rw [hrκ, ← hres₁]
    rfl
  have harrays : d₂.resolver.arrayRefs = d₁.resolver.arrayRefs := by
    change r.arrayRefs = _
    rw [hrκ, ← hres₁]
    rfl
  refine ⟨?ast, ?program⟩
  case ast =>
    rw [hb₁eq]
    exact patch_again (by rw [← hb₁eq]; rfl) hvars harrays hslot
  case program =>
    have hsc : g₂.program.scalars = g₁.program.scalars := congrArg GlobalSlots.scalars hacc
    have har : g₂.program.arrays = g₁.program.arrays := congrArg GlobalSlots.arrays hacc
    have hform : d₂.program =
        { b₁.program with
          scalars := g₂.program.scalars
          arrays := g₂.program.arrays
          functions := d₂.program.functions } := rfl
    rw [patch_program, hform, hsc, har, hfn, hb₁eq, patch_program]
    rfl

/-- **Resolving again.** After a successful resolution of a checked builder, resolving again in
the same lawful order, with the globals in an order their names fix, keeps the tree and the
program; it succeeds, unless the configuration allows no pass of inference that sets
something, and then it may stop at that limit. -/
theorem Wf.resolveIn_resolveIn (hb : b.Wf) (hc : b.CallsLogged) {v : VisitOrder} (hv : v.Lawful)
    (hkey : v.Keyed) {b₁ : Builder} (h : b.resolveIn v = (.ok (), b₁)) :
    (b₁.resolveIn v).2.ast = b₁.ast ∧ (b₁.resolveIn v).2.program = b₁.program ∧
      ((b₁.resolveIn v).1 = .ok () ∨
        b₁.resolver.config.maxPasses = 0 ∧ (b₁.resolveIn v).1 = .error ⟨.divergence 0, .null⟩) := by
  have hb₁ := hb.resolveIn hv
  rw [h] at hb₁
  obtain ⟨bs, hcheck, hbs⟩ := hb.resolveIn_checkCalls hc hv h
  set r₀ : Resolver := { b₁.resolver with bindings := bs }
  have hknown : r₀.ParamsKnown b₁.program := hb.resolveIn_paramsKnown hv h
  set r := r₀.passOver b₁.program (v.worklist r₀.symbols)
  have hset : Resolver.Settles r₀ r b₁.program :=
    (Resolver.Settles.passOver_worklist hv (Resolver.Settles.refl r₀)).1
  obtain ⟨hast, hprog⟩ := hb.phases_again hv hkey h hbs hset
  -- the calls pass again, and inference takes at most one pass
  have hcalls : b₁.resolveCalls = (.ok (), { b₁ with resolver := r₀ }) := by
    simp [Builder.resolveCalls, hcheck, r₀]
  rcases hknown.inferIn hv 0 with hi | ⟨hmax, hi⟩
  · have hinfer : ({ b₁ with resolver := r₀ } : Builder).inferKindsIn v =
        (.ok (), { b₁ with resolver := r }) := by
      simp only [Builder.inferKindsIn, hi]
      rfl
    have hres : b₁.resolveIn v = (.ok (), (((({ b₁ with resolver := r } : Builder).bindCalls).assignGlobalSlotsIn
        (v.globals ({ b₁ with resolver := r } : Builder).bindCalls.resolver.symbols)).assignLocalSlots.patch)) := by
      simp only [Builder.resolveIn, hcalls, hinfer]
    rw [hres]
    exact ⟨hast, hprog, .inl rfl⟩
  · have hinfer : ({ b₁ with resolver := r₀ } : Builder).inferKindsIn v =
        (.error ⟨.divergence r₀.config.maxPasses, .null⟩, { b₁ with resolver := r }) := by
      simp only [Builder.inferKindsIn, hi]
      rfl
    have h0 : r₀.config.maxPasses = 0 := by omega
    have hres : b₁.resolveIn v =
        (.error ⟨.divergence r₀.config.maxPasses, .null⟩, { b₁ with resolver := r }) := by
      simp only [Builder.resolveIn, hcalls, hinfer]
    rw [hres]
    exact ⟨rfl, rfl, .inr ⟨h0, by rw [h0]⟩⟩

/-- **Resolving a resolved program again.** After any run of operations from a fresh builder,
with resolutions at any point and bodies left open or closed, whose resolution succeeds, in a
lawful order that gives the globals in an order their names fix, resolving again changes
neither the tree nor the program. It succeeds, unless the configuration allows no pass of
inference that sets something: then it may stop at that limit. -/
theorem runs_resolve_resolve (config : Config) {v : VisitOrder} (hv : v.Lawful)
    (hkey : v.Keyed) {b : Builder} (hr : (Builder.new config).Runs (fun _ => True) b) :
    (b.resolveIn v).1 = .ok () →
      ((b.resolveIn v).2.resolveIn v).2.ast = (b.resolveIn v).2.ast ∧
      ((b.resolveIn v).2.resolveIn v).2.program = (b.resolveIn v).2.program ∧
      (((b.resolveIn v).2.resolveIn v).1 = .ok () ∨
        config.maxPasses = 0 ∧
          ((b.resolveIn v).2.resolveIn v).1 = .error ⟨.divergence 0, .null⟩) := by
  intro hok
  have hb : b.Wf := hr.wf (wf_new config)
  have hc : b.CallsLogged := hr.callsLogged (wf_new config) (callsLogged_new config)
  have hcfg : (b.resolveIn v).2.resolver.config = config :=
    (hb.resolveIn_config hv).trans (hr.config (wf_new config))
  rw [← hcfg]
  exact hb.resolveIn_resolveIn hc hv hkey (Prod.ext hok rfl)

/-- Resolving again the program of `function f(a) { }` and `BEGIN { f(x) }`. -/
theorem runs_resolve_resolve_call :
    VisitOrder.sorted.Lawful ∧ VisitOrder.sorted.Keyed ∧
      let b := ((Builder.new {}).stepsIn .sorted
        [Step.declare "f" ["a"] .null [], .begin [.expr (.call "f" [.var "x"] .null)]]).2
      (Builder.new {}).Runs (fun _ => True) b ∧ (b.resolveIn .sorted).1 = .ok () ∧
        ((b.resolveIn .sorted).2.resolveIn .sorted).2.ast = (b.resolveIn .sorted).2.ast ∧
        ((b.resolveIn .sorted).2.resolveIn .sorted).2.program = (b.resolveIn .sorted).2.program ∧
        (((b.resolveIn .sorted).2.resolveIn .sorted).1 = .ok () ∨
          ({} : Config).maxPasses = 0 ∧
            ((b.resolveIn .sorted).2.resolveIn .sorted).1 = .error ⟨.divergence 0, .null⟩) := by
  have hr := runs_stepsIn VisitOrder.sorted_lawful (Builder.new {})
  refine ⟨VisitOrder.sorted_lawful, fun _ _ h => h, hr _, ?ok,
    runs_resolve_resolve {} VisitOrder.sorted_lawful (fun _ _ h => h) (hr _) ?ok⟩
  case ok => cbv

/-- With no pass allowed, resolving again stops at the limit. The body of `g` declares `h`, so
`g` is not declared, but its parameter `b` was passed to `f`; the first resolution makes the
parameter of `f` a scalar, and the second settles `b` from it in a pass it does not allow. -/
theorem stepsIn_resolve_resolve_diverges :
    ((Builder.new { maxPasses := 0 }).stepsIn .sorted
      [Step.declare "f" ["a"] .null [],
        .declare "g" ["b"] .null [.expr (.call "f" [.var "b"] .null), .declare "h" [] .null []],
        .resolve, .resolve]).1.drop 2 =
      [.resolved (.ok ()), .resolved (.error ⟨.divergence 0, .null⟩)] := by
  cbv

end Builder

end AwkNames
