import AwkNames.Proofs.Chains
import AwkNames.Proofs.Idempotence

/-!
# Inference, pass by pass

Inference runs passes over the pending names until a pass sets nothing, and gives up when more
passes set something than the configuration allows. Here the passes are laid out one after
another, whatever the limit (`Resolver.pass`, iterated), and inference is read off them.

* `Resolver.progressCount` : how many passes in a row, from the start, leave fewer pending
  names;
* `Resolver.inferIn_eq_iterate` : inference returns the state after `min k m + 1` passes, and
  fails exactly when those `k` passes are more than the limit `m`;
* `Resolver.kind_iterate_pass_of_walk` : an entry whose chain of waits reaches a known kind after
  `d` waits has that kind after `d` passes, in any lawful order; so no more passes set something
  than the longest such chain has waits (`Resolver.progressCount_le_of_walk`);
* `Resolver.inferIn_passBounds` : all of this for every table and lawful order, with what
  it means for the limit (`Resolver.PassBounds`).
-/

namespace AwkNames

namespace Resolver

variable {p : Program} {v : VisitOrder}

/-- One pass of inference: the names pending at its start, visited in the order `v` gives. -/
def pass (v : VisitOrder) (p : Program) (r : Resolver) : Resolver :=
  r.passOver p (v.worklist r.symbols)

/-- The number of passes in a row, from `r`, that each leave fewer pending names. -/
def progressCount (v : VisitOrder) (p : Program) (r : Resolver) : Nat :=
  if (r.pass v p).pendingCount < r.pendingCount then (r.pass v p).progressCount v p + 1 else 0
termination_by r.pendingCount

/-- The resolver with another limit on inference passes. -/
def withMaxPasses (r : Resolver) (m : Nat) : Resolver :=
  { r with config := { r.config with maxPasses := m } }

/-! ### What a pass changes -/

/-- A pass changes only the symbol table. -/
theorem passOver_eq_withSymbols (r : Resolver) (W : List (Option String × String)) :
    ∃ T, r.passOver p W = { r with symbols := T } := by
  induction W generalizing r with
  | nil => exact ⟨r.symbols, rfl⟩
  | cons e W ih =>
    obtain ⟨T, hT⟩ := ih (r.settle p e)
    refine ⟨T, ?_⟩
    change (r.settle p e).passOver p W = _
    rw [hT]
    rcases settle_cases r p e with h | ⟨s, k, -, -, h⟩ <;> rw [h]

@[simp]
theorem pass_config (r : Resolver) : (r.pass v p).config = r.config := by
  obtain ⟨T, hT⟩ := passOver_eq_withSymbols (p := p) r (v.worklist r.symbols)
  rw [pass, hT]

theorem settle_withMaxPasses (r : Resolver) (m : Nat) (e : Option String × String) :
    (r.withMaxPasses m).settle p e = (r.settle p e).withMaxPasses m := by
  obtain ⟨o, n⟩ := e
  have hk : ∀ d, (r.withMaxPasses m).paramKind p d = r.paramKind p d :=
    paramKind_congr rfl rfl rfl
  cases hs : r.symbols.get? o n with
  | none => simp [settle, withMaxPasses, hs]
  | some s =>
    cases hw : s.waitsOn with
    | none => simp [settle, withMaxPasses, hs, hw]
    | some d =>
      rw [settle_of_waits hs hw, settle_of_waits (r := r.withMaxPasses m) hs hw, hk]
      split <;> rfl

theorem passOver_withMaxPasses (W : List (Option String × String)) (r : Resolver) (m : Nat) :
    (r.withMaxPasses m).passOver p W = (r.passOver p W).withMaxPasses m := by
  induction W generalizing r with
  | nil => rfl
  | cons e W ih =>
    change ((r.withMaxPasses m).settle p e).passOver p W = _
    rw [settle_withMaxPasses, ih]
    rfl

theorem pass_withMaxPasses (r : Resolver) (m : Nat) :
    (r.withMaxPasses m).pass v p = (r.pass v p).withMaxPasses m :=
  passOver_withMaxPasses _ r m

theorem iterate_pass_withMaxPasses (r : Resolver) (m j : Nat) :
    (pass v p)^[j] (r.withMaxPasses m) = ((pass v p)^[j] r).withMaxPasses m :=
  -- the limit is never read by a pass, so changing it commutes with every pass
  Function.Commute.iterate_left (fun r => pass_withMaxPasses r m) j r

theorem progressCount_of_lt {r : Resolver} (h : (r.pass v p).pendingCount < r.pendingCount) :
    r.progressCount v p = (r.pass v p).progressCount v p + 1 := by
  rw [progressCount, if_pos h]

theorem progressCount_of_not_lt {r : Resolver} (h : ¬ (r.pass v p).pendingCount < r.pendingCount) :
    r.progressCount v p = 0 := by
  rw [progressCount, if_neg h]

@[simp]
theorem pendingCount_withMaxPasses (r : Resolver) (m : Nat) :
    (r.withMaxPasses m).pendingCount = r.pendingCount := rfl

theorem progressCount_withMaxPasses (r : Resolver) (m : Nat) :
    (r.withMaxPasses m).progressCount v p = r.progressCount v p := by
  fun_induction progressCount v p r with
  | case1 r hlt ih =>
    rw [progressCount_of_lt (by simpa [pass_withMaxPasses] using hlt), pass_withMaxPasses, ih]
  | case2 r hnlt =>
    rw [progressCount_of_not_lt (by simpa [pass_withMaxPasses] using hnlt)]

/-! ### Inference read off the passes -/

/-- **Inference is a number of passes.** From `done` passes already counted, inference runs one
pass more than it counts passes that set something, up to the limit: it returns the state after
`min k (m - done) + 1` passes, where `k` counts the passes in a row that set something, and it
fails exactly when `done + k` exceeds the limit `m`. -/
theorem inferIn_eq_iterate (r : Resolver) (done : Nat) (h : done ≤ r.config.maxPasses) :
    r.inferIn v p done =
      (if done + r.progressCount v p ≤ r.config.maxPasses then .ok ()
        else .error ⟨.divergence r.config.maxPasses, .null⟩,
       (pass v p)^[min (r.progressCount v p) (r.config.maxPasses - done) + 1] r) := by
  revert h
  fun_induction Resolver.inferIn v r p done with
  | case1 r done r' hlt hmax =>
    intro h
    rw [progressCount_of_lt hlt, if_neg (by omega), show r.config.maxPasses - done = 0 by omega]
    rfl
  | case2 r done r' hlt hmax ih =>
    intro h
    have hcfg : r'.config = r.config := pass_config r
    have hk : r.progressCount v p = r'.progressCount v p + 1 := progressCount_of_lt hlt
    rw [ih (by rw [hcfg]; omega), hk, hcfg,
      show done + 1 + r'.progressCount v p = done + (r'.progressCount v p + 1) by omega,
      show min (r'.progressCount v p + 1) (r.config.maxPasses - done) + 1 =
        (min (r'.progressCount v p) (r.config.maxPasses - (done + 1)) + 1) + 1 by omega,
      Function.iterate_succ_apply]
    rfl
  | case3 r done r' hnlt =>
    intro h
    rw [progressCount_of_not_lt hnlt, if_pos (by omega)]
    rfl

/-! ### Passes that set something -/

/-- Each of the first `progressCount` passes leaves fewer pending names. -/
theorem pendingCount_iterate_pass_lt (r : Resolver) :
    ∀ j < r.progressCount v p,
      ((pass v p)^[j + 1] r).pendingCount < ((pass v p)^[j] r).pendingCount := by
  fun_induction progressCount v p r with
  | case1 r hlt ih =>
    intro j hj
    cases j with
    | zero => exact hlt
    | succ j =>
      rw [Function.iterate_succ_apply, Function.iterate_succ_apply (n := j)]
      exact ih j (by omega)
  | case2 r hnlt => intro j hj; omega

/-- Passes that set something are no more than the pending names: each settles one at least. -/
theorem progressCount_le_pendingCount (r : Resolver) : r.progressCount v p ≤ r.pendingCount := by
  fun_induction progressCount v p r with
  | case1 r hlt ih => omega
  | case2 r hnlt => omega

/-- A pass keeps a known kind known. -/
theorem kind_passOver_ne {r : Resolver} (W : List (Option String × String)) {o : Option String}
    {n : String} (h : r.symbols.kind o n ≠ .unknown) :
    (r.passOver p W).symbols.kind o n ≠ .unknown := by
  induction W generalizing r with
  | nil => exact h
  | cons e W ih => exact ih (kind_settle_ne e h)

theorem kind_iterate_pass_ne {r : Resolver} (j : Nat) {o : Option String} {n : String}
    (h : r.symbols.kind o n ≠ .unknown) : ((pass v p)^[j] r).symbols.kind o n ≠ .unknown := by
  induction j with
  | zero => exact h
  | succ j ih =>
    rw [Function.iterate_succ_apply']
    exact kind_passOver_ne _ ih

/-- Settling keeps a parameter's known kind known. -/
theorem paramKind_settle_ne {r : Resolver} (e : Option String × String) {d : Deferral}
    (h : r.paramKind p d ≠ .unknown) : (r.settle p e).paramKind p d ≠ .unknown := by
  have hq : (r.settle p e).paramName? p d = r.paramName? p d := by
    rcases settle_cases r p e with hs | ⟨s, k, -, -, hs⟩
    · rw [hs]
    · rw [hs]
      rfl
  rw [paramKind_eq] at h ⊢
  rw [hq]
  cases hname : r.paramName? p d with
  | none => simp [hname] at h
  | some q =>
    simp only [hname] at h ⊢
    exact kind_settle_ne e h

/-- Settling one entry leaves every other entry alone. -/
theorem get?_settle_of_ne (r : Resolver) {e : Option String × String} {o : Option String}
    {n : String} (he : e ≠ (o, n)) : (r.settle p e).symbols.get? o n = r.symbols.get? o n := by
  rcases settle_cases r p e with h | ⟨s', k, -, -, h⟩
  · rw [h]
  · rw [h]
    change (r.symbols.insert e.1 e.2 { s' with kind := k }).get? o n = _
    rw [SymbolTable.get?_insert, if_neg fun hc => he (Prod.ext hc.1 hc.2)]

/-- An entry on a pass's list that waits on a parameter of known kind ends the pass with a
known kind: the parameter's kind stays known until the entry's turn comes. -/
theorem kind_passOver_ne_of_mem {r : Resolver} {W : List (Option String × String)}
    {o : Option String} {n : String} {s : Symbol} {d : Deferral} (hW : (o, n) ∈ W)
    (hs : r.symbols.get? o n = some s) (hd : s.waitsOn = some d)
    (hk : r.paramKind p d ≠ .unknown) : (r.passOver p W).symbols.kind o n ≠ .unknown := by
  induction W generalizing r s with
  | nil => exact absurd hW List.not_mem_nil
  | cons e W ih =>
    change ((r.settle p e).passOver p W).symbols.kind o n ≠ .unknown
    by_cases he : e = (o, n)
    · -- the entry's own turn: it takes its parameter's kind
      subst he
      refine kind_passOver_ne _ ?_
      rw [settle_of_waits hs hd, if_neg hk]
      change (r.symbols.insert o n { s with kind := r.paramKind p d }).kind o n ≠ .unknown
      rw [SymbolTable.kind_insert, if_pos ⟨rfl, rfl⟩]
      exact hk
    · -- another entry's turn: this one keeps its wait, and the parameter its kind
      have hW' : (o, n) ∈ W := (List.mem_cons.1 hW).resolve_left fun h => he h.symm
      exact ih hW' ((get?_settle_of_ne r he).trans hs) hd (paramKind_settle_ne e hk)

section Lawful

variable {r : Resolver}

theorem get?_withKinds_of_get? {κ : Option String → String → Kind} {o : Option String}
    {n : String} {s : Symbol} (h : r.symbols.get? o n = some s) :
    (r.withKinds κ).symbols.get? o n = some { s with kind := κ o n } := by
  rw [get?_withKinds, h]
  rfl

/-- Every state the passes reach is `r` with some pending kinds set to what they resolve to. -/
theorem settles_iterate_pass (hv : v.Lawful) (j : Nat) :
    Settles r ((pass v p)^[j] r) p := by
  induction j with
  | zero => exact Settles.refl r
  | succ j ih =>
    rw [Function.iterate_succ_apply']
    exact (ih.passOver_worklist hv).1

/-- A pass that sets nothing changes nothing. -/
theorem pass_eq_of_not_lt (hv : v.Lawful)
    (h : ¬ (r.pass v p).pendingCount < r.pendingCount) : r.pass v p = r := by
  rcases ((Settles.refl (p := p) r).passOver_worklist hv).2 with ⟨heq, -⟩ | hlt
  · exact heq
  · exact absurd hlt h

/-- After the passes that set something, the next pass changes nothing. -/
theorem pass_iterate_progressCount (hv : v.Lawful) :
    ∀ r : Resolver,
      pass v p ((pass v p)^[r.progressCount v p] r) = (pass v p)^[r.progressCount v p] r := by
  intro r
  fun_induction progressCount v p r with
  | case1 r hlt ih =>
    rw [Function.iterate_succ_apply]
    exact ih
  | case2 r hnlt => exact pass_eq_of_not_lt hv hnlt

/-- No pass after the passes that set something changes anything. -/
theorem iterate_pass_of_le (hv : v.Lawful) {j : Nat}
    (hj : r.progressCount v p ≤ j) : (pass v p)^[j] r = (pass v p)^[r.progressCount v p] r := by
  obtain ⟨i, rfl⟩ := Nat.exists_eq_add_of_le hj
  rw [Nat.add_comm, Function.iterate_add_apply,
    Function.iterate_fixed (pass_iterate_progressCount hv r)]

/-- An entry that waits for another one is pending, and is on the worklist of every pass that
starts with its kind still unknown. -/
theorem mem_worklist_of_next? (hv : v.Lawful) {r' : Resolver}
    (hs : Settles r r' p) {e e' : Option String × String} (hn : r.next? p e = some e')
    (hu : r'.symbols.kind e.1 e.2 = .unknown) :
    e ∈ v.worklist r'.symbols ∧ ∃ s d, r'.symbols.get? e.1 e.2 = some s ∧ s.waitsOn = some d ∧
      r'.paramKind p d = r'.symbols.kind e'.1 e'.2 := by
  obtain ⟨s, d, q, hget, -, hd, hq, rfl⟩ := next?_eq_some_iff.1 hn
  obtain ⟨κ, rfl, -⟩ := hs
  have hget' := get?_withKinds_of_get? (κ := κ) hget
  have hpend : e ∈ (r.withKinds κ).symbols.pending := by
    refine SymbolTable.mem_pending _ |>.2 ⟨_, hget', ?_⟩
    rw [SymbolTable.kind_of_get? hget'] at hu
    exact (Symbol.isPending_iff _).2 ⟨hu, by simp [hd]⟩
  refine ⟨((hv _).1.symm.subset hpend), _, d, hget', hd, ?_⟩
  rw [paramKind_eq, paramName?_withKinds, hq]

/-- An entry whose chain reaches a known kind after `d` waits has a known kind after `d`
passes. -/
theorem kind_iterate_pass_ne_of_walk (hv : v.Lawful) :
    ∀ {d : Nat} {e x : Option String × String}, r.walk p d e = some x →
      r.symbols.kind x.1 x.2 ≠ .unknown → ((pass v p)^[d] r).symbols.kind e.1 e.2 ≠ .unknown
  | 0, e, x, hw, hx => by
    cases hw
    exact hx
  | d + 1, e, x, hw, hx => by
    obtain ⟨e', hn, hw'⟩ := Option.bind_eq_some_iff.1 hw
    -- the entry it waits for is known after `d` passes
    have ih := kind_iterate_pass_ne_of_walk hv hw' hx
    rw [Function.iterate_succ_apply']
    by_cases hk : ((pass v p)^[d] r).symbols.kind e.1 e.2 = .unknown
    · -- so when pass `d + 1` reaches the entry it copies that kind
      obtain ⟨hmem, s, dd, hget, hdd, hK⟩ :=
        mem_worklist_of_next? hv (settles_iterate_pass hv d) hn hk
      exact kind_passOver_ne_of_mem hmem hget hdd (hK ▸ ih)
    · exact kind_passOver_ne _ hk

/-- **An entry is settled by the pass its chain's length names.** An entry whose chain of waits
reaches an entry of known kind after `d` waits has that entry's kind after `d` passes. -/
theorem kind_iterate_pass_of_walk (hv : v.Lawful) {d : Nat}
    {e x : Option String × String} (hw : r.walk p d e = some x)
    (hx : r.symbols.kind x.1 x.2 ≠ .unknown) :
    ((pass v p)^[d] r).symbols.kind e.1 e.2 = r.symbols.kind x.1 x.2 := by
  have hk := kind_iterate_pass_ne_of_walk hv hw hx
  obtain ⟨y, hy, hget⟩ := walk_isSome_get? hw hx (Nat.zero_le d)
  cases hy
  obtain ⟨s, hs⟩ := Option.isSome_iff_exists.1 hget
  have h₁ := (settles_iterate_pass hv d).resolvesTo_kind hs hk
  have h₂ : r.ResolvesTo p e (r.symbols.kind x.1 x.2) := by
    rw [← chainKind_of_walk hw hx (Nat.lt_succ_self d)]
    exact resolvesTo_chainKind (by rwa [chainKind_of_walk hw hx (Nat.lt_succ_self d)])
  exact h₁.unique h₂

/-- Part way through inference an entry is pending exactly when it was pending at the start and
its kind is still unknown. -/
theorem Settles.mem_pending_iff {r' : Resolver} (hs : Settles r r' p)
    {e : Option String × String} :
    e ∈ r'.symbols.pending ↔ e ∈ r.symbols.pending ∧ r'.symbols.kind e.1 e.2 = .unknown := by
  obtain ⟨κ, rfl, hκ⟩ := hs
  rw [SymbolTable.mem_pending, SymbolTable.mem_pending]
  constructor
  · rintro ⟨s', hget', hp'⟩
    obtain ⟨s, hget, rfl⟩ := get?_withKinds_eq_some hget'
    obtain ⟨hu, hw⟩ := (Symbol.isPending_iff _).1 hp'
    refine ⟨⟨s, hget, ?_⟩, by rw [SymbolTable.kind_of_get? hget']; exact hu⟩
    rcases hκ _ _ _ hget with heq | ⟨hp, -⟩
    · exact (Symbol.isPending_iff _).2 ⟨heq ▸ hu, hw⟩
    · exact hp
  · rintro ⟨⟨s, hget, hp⟩, hu⟩
    have hget' := get?_withKinds_of_get? (κ := κ) hget
    rw [SymbolTable.kind_of_get? hget'] at hu
    exact ⟨_, hget', (Symbol.isPending_iff _).2 ⟨hu, ((Symbol.isPending_iff _).1 hp).2⟩⟩

/-- A pass that sets something settles an entry whose chain takes more waits than there were
passes before it. -/
theorem exists_walk_of_pendingCount_lt (hv : v.Lawful) {j : Nat}
    (h : ((pass v p)^[j + 1] r).pendingCount < ((pass v p)^[j] r).pendingCount) :
    ∃ e x d, j < d ∧ r.walk p d e = some x ∧ r.symbols.kind x.1 x.2 ≠ .unknown := by
  have hs₁ := settles_iterate_pass hv (p := p) (r := r) j
  have hs₂ := settles_iterate_pass hv (p := p) (r := r) (j + 1)
  -- the pending list only shrinks, so some entry pending before the pass is settled by it
  obtain ⟨e, he₁, he₂⟩ : ∃ e ∈ ((pass v p)^[j] r).symbols.pending,
      e ∉ ((pass v p)^[j + 1] r).symbols.pending := by
    by_contra hall
    simp only [not_exists, not_and, not_not] at hall
    have := (SymbolTable.nodup_pending _).length_le_of_subset hall
    exact absurd h (by unfold pendingCount; omega)
  obtain ⟨hp, hu₁⟩ := hs₁.mem_pending_iff.1 he₁
  have hk₂ : ((pass v p)^[j + 1] r).symbols.kind e.1 e.2 ≠ .unknown :=
    fun hu₂ => he₂ (hs₂.mem_pending_iff.2 ⟨hp, hu₂⟩)
  obtain ⟨s, hget, -⟩ := r.symbols.mem_pending.1 hp
  obtain ⟨d, x, hw, hx⟩ := exists_walk_of_resolvesTo (hs₂.resolvesTo_kind hget hk₂)
  refine ⟨e, x, d, ?_, hw, hx ▸ hk₂⟩
  -- a chain of at most `j` waits would have settled the entry before the pass
  by_contra hdj
  have hd := kind_iterate_pass_ne_of_walk hv hw (hx ▸ hk₂)
  have hj := kind_iterate_pass_ne (v := v) (p := p) (j - d) hd
  rw [← Function.iterate_add_apply, Nat.sub_add_cancel (by omega)] at hj
  exact hj hu₁

/-- **No more passes set something than the longest chain has waits.** -/
theorem progressCount_le_of_walk (hv : v.Lawful) {D : Nat}
    (hD : ∀ e x d, r.walk p d e = some x → r.symbols.kind x.1 x.2 ≠ .unknown → d ≤ D) :
    r.progressCount v p ≤ D := by
  by_contra hlt
  obtain ⟨e, x, d, hd, hw, hx⟩ :=
    exists_walk_of_pendingCount_lt hv (pendingCount_iterate_pass_lt (p := p) r D (by omega))
  have := hD e x d hw hx
  omega

/-! ### The limit on passes -/

@[simp]
theorem withMaxPasses_maxPasses (r : Resolver) (m : Nat) :
    (r.withMaxPasses m).config.maxPasses = m := rfl

/-- Inference succeeds exactly when no more passes set something than the limit allows. -/
theorem inferIn_fst_eq_ok_iff (r : Resolver) :
    (r.inferIn v p 0).1 = .ok () ↔ r.progressCount v p ≤ r.config.maxPasses := by
  rw [inferIn_eq_iterate r 0 (Nat.zero_le _), Nat.zero_add]
  split <;> simp_all

/-- **Raising the limit keeps a success.** A successful inference succeeds under any higher
limit, ending in the same state. -/
theorem inferIn_withMaxPasses_of_ok {r : Resolver} (h : (r.inferIn v p 0).1 = .ok ()) {m : Nat}
    (hm : r.config.maxPasses ≤ m) :
    (r.withMaxPasses m).inferIn v p 0 = (.ok (), (r.inferIn v p 0).2.withMaxPasses m) := by
  have hk := (inferIn_fst_eq_ok_iff r).1 h
  rw [inferIn_eq_iterate _ 0 (Nat.zero_le _), inferIn_eq_iterate r 0 (Nat.zero_le _),
    progressCount_withMaxPasses, iterate_pass_withMaxPasses, withMaxPasses_maxPasses,
    Nat.zero_add, if_pos (by omega), Nat.sub_zero, Nat.sub_zero, Nat.min_eq_left hk,
    Nat.min_eq_left (by omega)]

/-- What inference does pass by pass, for a resolver `r` whose passes visit names in the order
`v`. Here `k` is `r.progressCount v p`, `m` the limit and `P` the number of pending names. -/
structure PassBounds (v : VisitOrder) (p : Program) (r : Resolver) : Prop where
  /-- Each of the first `k` passes leaves fewer pending names. -/
  progress : ∀ j < r.progressCount v p,
    ((pass v p)^[j + 1] r).pendingCount < ((pass v p)^[j] r).pendingCount
  /-- Every later pass changes nothing. -/
  stable : ∀ j, r.progressCount v p ≤ j → (pass v p)^[j + 1] r = (pass v p)^[j] r
  /-- So `k ≤ P`, and inference runs at most `P + 1` passes. -/
  le_pendingCount : r.progressCount v p ≤ r.pendingCount
  /-- Inference runs `min k m + 1` passes and fails, with a divergence at no position, exactly
  when `k > m`. -/
  eq_iterate : r.inferIn v p 0 =
    (if r.progressCount v p ≤ r.config.maxPasses then .ok ()
      else .error ⟨.divergence r.config.maxPasses, .null⟩,
     (pass v p)^[min (r.progressCount v p) r.config.maxPasses + 1] r)
  /-- An entry whose chain reaches a known kind after `d` waits has that kind after `d`
  passes. -/
  kind_of_walk : ∀ e x d, r.walk p d e = some x → r.symbols.kind x.1 x.2 ≠ .unknown →
    ((pass v p)^[d] r).symbols.kind e.1 e.2 = r.symbols.kind x.1 x.2
  /-- So `k` is at most the longest chain that reaches a known kind. -/
  le_of_walk : ∀ D, (∀ e x d, r.walk p d e = some x → r.symbols.kind x.1 x.2 ≠ .unknown →
    d ≤ D) → r.progressCount v p ≤ D
  /-- A limit at least that long never fails. -/
  ok_of_walk : (∀ e x d, r.walk p d e = some x → r.symbols.kind x.1 x.2 ≠ .unknown →
    d ≤ r.config.maxPasses) → (r.inferIn v p 0).1 = .ok ()
  /-- Nor does a limit at least `P`. -/
  ok_of_pendingCount : r.pendingCount ≤ r.config.maxPasses → (r.inferIn v p 0).1 = .ok ()
  /-- A success stays the same success under any higher limit. -/
  withMaxPasses_of_ok : (r.inferIn v p 0).1 = .ok () → ∀ m, r.config.maxPasses ≤ m →
    (r.withMaxPasses m).inferIn v p 0 = (.ok (), (r.inferIn v p 0).2.withMaxPasses m)

/-- **How many passes inference runs.** In any lawful order: the passes that settle something
come first, no more of them than there are pending names and than the longest chain of waits;
inference stops one pass after them, or fails when they are more than the limit, and a success
does not depend on how much higher the limit is. -/
theorem inferIn_passBounds {r : Resolver} (hv : v.Lawful) :
    PassBounds v p r where
  progress := pendingCount_iterate_pass_lt r
  stable j hj := by
    rw [iterate_pass_of_le hv hj, iterate_pass_of_le hv (by omega)]
  le_pendingCount := progressCount_le_pendingCount r
  eq_iterate := by
    rw [inferIn_eq_iterate r 0 (Nat.zero_le _), Nat.zero_add, Nat.sub_zero]
  kind_of_walk _ _ _ hw hx := kind_iterate_pass_of_walk hv hw hx
  le_of_walk _ hD := progressCount_le_of_walk hv hD
  ok_of_walk hD := (inferIn_fst_eq_ok_iff r).2 (progressCount_le_of_walk hv hD)
  ok_of_pendingCount hP := (inferIn_fst_eq_ok_iff r).2 ((progressCount_le_pendingCount r).trans hP)
  withMaxPasses_of_ok h _ hm := inferIn_withMaxPasses_of_ok h hm

/-- Inference on the table that `BEGIN { f(x) }` builds, with `function g(b) { b[0] }` and
`function f(a) { g(a) }`: `x` waits on `a`, which waits on `b`. -/
theorem inferIn_passBounds_chain :
    let b := ((Builder.new {}).stepsIn .sorted
      [.declare "g" ["b"] .null [.expr (.array "b")],
        .declare "f" ["a"] .null [.expr (.call "g" [.var "a"] .null)],
        .begin [.expr (.call "f" [.var "x"] .null)]]).2
    VisitOrder.sorted.Lawful ∧ PassBounds .sorted b.program b.resolver :=
  ⟨VisitOrder.sorted_lawful, inferIn_passBounds VisitOrder.sorted_lawful⟩

end Lawful

end Resolver

end AwkNames
