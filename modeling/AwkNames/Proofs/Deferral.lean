import AwkNames.Proofs.Numbering
import AwkNames.Proofs.InPlace

/-!
# Deferred kinds agree with the parameters they wait on

A scalar use of a name passed straight to a call says nothing about the name's kind: the name
waits on the parameter it is bound to (`Builder.deferArg`), and inference later gives it that
parameter's kind. This module proves that what inference and slot numbering leave behind is
consistent: a name that waits on parameter `i` of `c` was passed to a call of `c` with more
than `i` arguments, and once it has a kind it has the kind that parameter has
(`Builder.Deferrals`).

A call can also be passed a node made earlier (`Source.node`), and then a use of a parameter of
a function that is already declared can be made to wait again, after its callers took its kind.
Both sides are stated below: the invariant holds along every run whose calls build their
arguments in place, and such a run classifies a deferred name exactly as the callee receives
the argument; a run that passes an earlier node can break that.

* `Resolver.Agrees.inferIn` : inference keeps every deferred name with a kind in agreement with
  its parameter, because a pass only gives kinds to names that have none;
* `Builder.Wf.resolveIn_deferrals` : resolution keeps `Builder.Deferrals`;
* `Builder.keepsInPlace_deferrals` : so does every primitive while the arena holds at most
  `2 ^ 32` nodes, a call when its arguments are uses in the global scope or in the open body
  (past that a call's node shares its id with an earlier node, and the call logged is that
  node's);
* `Builder.stepsIn_resolve_deferredAsReceived` : after a run of steps that build call
  arguments in place, make at most `2 ^ 32` nodes and end in a successful resolution, a
  deferred global or parameter of a
  declared function is a scalar or an array, the kind of the parameter it waits on, and passed
  by reference exactly when that is an array;
* `Builder.stepsIn_resolve_reused_not_deferredAsReceived` : a run that passes an earlier use of
  a parameter again leaves a caller's name a scalar while the callee takes it by reference.
-/

namespace AwkNames

namespace SymbolTable

/-- `t'` keeps every kind that `t` knows. -/
def KeepsKinds (t t' : SymbolTable) : Prop :=
  ∀ o n, t.kind o n ≠ .unknown → t'.kind o n = t.kind o n

theorem KeepsKinds.refl (t : SymbolTable) : t.KeepsKinds t := fun _ _ _ => rfl

theorem KeepsKinds.trans {t t' t'' : SymbolTable} (h : t.KeepsKinds t') (h' : t'.KeepsKinds t'') :
    t.KeepsKinds t'' := fun o n hk => by
  rw [h' o n (by rw [h o n hk]; exact hk), h o n hk]

/-- `t'` is `t` with kinds filled in: it keeps every known kind, and a name that waits on a
parameter in `t'` waited on it in `t`, and from an unknown kind became at most a scalar. -/
structure Fills (t t' : SymbolTable) : Prop where
  keeps : t.KeepsKinds t'
  waits : ∀ o n s' d, t'.get? o n = some s' → s'.waitsOn = some d →
    ∃ s, t.get? o n = some s ∧ s.waitsOn = some d ∧ (s.kind = .unknown → s'.kind ≠ .array)

theorem Fills.trans {t t' t'' : SymbolTable} (h : t.Fills t') (h' : t'.Fills t'') :
    t.Fills t'' where
  keeps := h.keeps.trans h'.keeps
  waits o n s'' d hs'' hw := by
    obtain ⟨s', hs', hw', hk'⟩ := h'.waits o n s'' d hs'' hw
    obtain ⟨s, hs, hw₀, hk⟩ := h.waits o n s' d hs' hw'
    refine ⟨s, hs, hw₀, fun hu => ?_⟩
    -- an unknown kind became at most a scalar, and a scalar stays one
    by_cases hu' : s'.kind = .unknown
    · exact hk' hu'
    · have hkeep := h'.keeps o n (by rw [kind_of_get? hs']; exact hu')
      rw [kind_of_get? hs'', kind_of_get? hs'] at hkeep
      rw [hkeep]
      exact hk hu

/-- A table whose every entry is the old one with its kind filled in, or a new entry that
waits on nothing, fills the old table in. -/
theorem Fills.of_entries {t t' : SymbolTable}
    (h : ∀ o n s', t'.get? o n = some s' →
      (∃ s, t.get? o n = some s ∧ s'.waitsOn = s.waitsOn ∧ (s.kind ≠ .unknown → s'.kind = s.kind) ∧
        (s.kind = .unknown → s'.kind ≠ .array)) ∨ (t.get? o n = none ∧ s'.waitsOn = none))
    (hkeep : ∀ o n s, t.get? o n = some s → s.kind ≠ .unknown → (t'.get? o n).isSome) :
    t.Fills t' where
  keeps o n hk := by
    obtain ⟨s, hs⟩ := Option.isSome_iff_exists.1 (Builder.isSome_of_kind_ne hk)
    rw [kind_of_get? hs] at hk ⊢
    obtain ⟨s', hs'⟩ := Option.isSome_iff_exists.1 (hkeep o n s hs hk)
    rw [kind_of_get? hs']
    rcases h o n s' hs' with ⟨s₀, hs₀, -, hkind, -⟩ | ⟨hnone, -⟩
    · rw [hs] at hs₀
      cases hs₀
      exact hkind hk
    · rw [hs] at hnone
      cases hnone
  waits o n s' d hs' hw := by
    rcases h o n s' hs' with ⟨s, hs, hws, -, hu⟩ | ⟨-, hnone⟩
    · exact ⟨s, hs, hws ▸ hw, hu⟩
    · rw [hnone] at hw
      cases hw

end SymbolTable

namespace Resolver

variable {p : Program}

/-- A name that waits on a parameter and has a kind has the kind of that parameter. -/
def Agrees (r : Resolver) (p : Program) : Prop :=
  ∀ o n s d, r.symbols.get? o n = some s → s.waitsOn = some d → s.kind ≠ .unknown →
    r.paramKind p d = s.kind

/-- A parameter kind that is known survives any change that keeps known kinds, the declared
functions and their parameters. -/
theorem paramKind_of_keepsKinds {r r' : Resolver} {p' : Program}
    (hf : r'.functions = r.functions) (hp : ∀ k i, p'.param? k i = p.param? k i)
    (ht : r.symbols.KeepsKinds r'.symbols) {d : Deferral} (hd : r.paramKind p d ≠ .unknown) :
    r'.paramKind p' d = r.paramKind p d := by
  have hname : r'.paramName? p' d = r.paramName? p d := by
    simp only [paramName?, hf, hp]
  rw [paramKind_eq] at hd
  rw [paramKind_eq, paramKind_eq, hname]
  cases hq : r.paramName? p d with
  | none => rfl
  | some q =>
    rw [hq] at hd
    exact ht _ _ hd

/-- Settling one name gives it its parameter's kind and changes no kind that was known. -/
theorem Agrees.settle {r : Resolver} (h : r.Agrees p) (e : Option String × String) :
    (r.settle p e).Agrees p := by
  obtain ⟨o, n⟩ := e
  cases hs : r.symbols.get? o n with
  | none =>
    have : r.settle p (o, n) = r := by simp [Resolver.settle, hs]
    rw [this]
    exact h
  | some s =>
    cases hd : s.waitsOn with
    | none =>
      have : r.settle p (o, n) = r := by simp [Resolver.settle, hs, hd]
      rw [this]
      exact h
    | some d =>
      rw [settle_of_waits hs hd]
      split
      · exact h
      · rename_i hk
        have hkeep : r.symbols.KeepsKinds
            (r.symbols.insert o n { s with kind := r.paramKind p d }) := by
          intro o' n' hkn
          simp only [SymbolTable.kind, SymbolTable.get?_insert]
          split
          · obtain ⟨rfl, rfl⟩ := ‹_ ∧ _›
            rw [SymbolTable.kind_of_get? hs] at hkn
            simpa [hs] using h _ _ s d hs hd hkn
          · rfl
        have hpk : ∀ d', r.paramKind p d' ≠ .unknown →
            ({ r with symbols := r.symbols.insert o n { s with kind := r.paramKind p d } }
              : Resolver).paramKind p d' = r.paramKind p d' := by
          intro d' hd'
          apply paramKind_of_keepsKinds _ (fun _ _ => rfl) hkeep hd'
          rfl
        intro o' n' s' d' hs' hw hk'
        simp only [SymbolTable.get?_insert] at hs'
        split at hs'
        · cases hs'
          rw [hd] at hw
          cases hw
          exact hpk d hk
        · rw [hpk d' (by rw [h o' n' s' d' hs' hw hk']; exact hk')]
          exact h o' n' s' d' hs' hw hk'

theorem Agrees.passOver {r : Resolver} (h : r.Agrees p) (work : List (Option String × String)) :
    (r.passOver p work).Agrees p := by
  induction work generalizing r with
  | nil => exact h
  | cons e rest ih => exact ih (h.settle e)

/-- **Inference keeps agreement**, whether it settles or gives up. -/
theorem Agrees.inferIn {r : Resolver} (h : r.Agrees p) (v : VisitOrder) (done : Nat) :
    (r.inferIn v p done).2.Agrees p := by
  fun_induction Resolver.inferIn v r p done with
  | case1 r done r' hlt hmax => exact h.passOver _
  | case2 r done r' hlt hmax ih => exact ih (h.passOver _)
  | case3 r done r' hnlt => exact h.passOver _

/-- Every name that waits on a parameter was passed to a recorded call of its function with
more arguments than the parameter's position. -/
def Called (r : Resolver) : Prop :=
  ∀ o n s d, r.symbols.get? o n = some s → s.waitsOn = some d →
    ∃ c ∈ r.calls, c.callee = d.callee ∧ d.arg < c.argCount

theorem Called.congr {r r' : Resolver} (h : r.Called) (hs : r'.symbols = r.symbols)
    (hc : r'.calls = r.calls) : r'.Called := by
  intro o n s d hs' hw
  rw [hc]
  exact h o n s d (hs ▸ hs') hw

theorem Called.insert_fresh {r : Resolver} (h : r.Called) {o : Option String} {n : String}
    {s : Symbol} (hw : s.waitsOn = none) :
    ({ r with symbols := r.symbols.insert o n s } : Resolver).Called := by
  intro o' n' s' d hs' hw'
  simp only [SymbolTable.get?_insert] at hs'
  split at hs'
  · cases hs'
    rw [hw] at hw'
    cases hw'
  · exact h o' n' s' d hs' hw'

theorem Agrees.congr {r r' : Resolver} {p' : Program} (h : r.Agrees p)
    (hs : r'.symbols = r.symbols) (hf : r'.functions = r.functions)
    (hp : p'.functions = p.functions) : r'.Agrees p' := by
  intro o n s d hs' hw hk
  rw [paramKind_congr hs hf hp]
  exact h o n s d (hs ▸ hs') hw hk

/-- **A change away from the declared functions keeps agreement**: one that changes no entry
of a declared function's table, and gives no waiting name a kind it did not have. -/
theorem Agrees.of_frame {r r' : Resolver} (h : r.Agrees p) (hf : r'.functions = r.functions)
    (hreg : ∀ g k n, r.functions.get? g = some k →
      r'.symbols.get? (some g) n = r.symbols.get? (some g) n)
    (hnew : ∀ o n s, r'.symbols.get? o n = some s → s.waitsOn.isSome → s.kind ≠ .unknown →
      r.symbols.get? o n = some s) :
    r'.Agrees p := by
  intro o n s d hs hw hk
  have hag := h o n s d (hnew o n s hs (by simp [hw]) hk) hw hk
  rw [paramKind_eq] at hag ⊢
  have hname : r'.paramName? p d = r.paramName? p d := by simp only [paramName?, hf]
  rw [hname]
  cases hq : r.paramName? p d with
  | none =>
    rw [hq] at hag
    exact absurd hag.symm hk
  | some q =>
    rw [hq] at hag
    simp only [paramName?, Option.bind_eq_some_iff] at hq
    obtain ⟨k, hk', -⟩ := hq
    change r'.symbols.kind (some d.callee) q = s.kind
    rw [← hag]
    unfold SymbolTable.kind
    rw [hreg _ k q hk']

/-- An entry that waits on nothing, written outside every declared function, keeps agreement. -/
theorem Agrees.insert_fresh {r : Resolver} (h : r.Agrees p) {o : Option String} {n : String}
    {s : Symbol} (ho : ∀ g, o = some g → r.functions.get? g = none) (hw : s.waitsOn = none) :
    ({ r with symbols := r.symbols.insert o n s } : Resolver).Agrees p := by
  refine h.of_frame rfl (fun g k m hk => ?_) (fun o' n' s' hs' hw' _ => ?_)
  · have hne : ¬(o = some g ∧ n = m) := by
      rintro ⟨rfl, -⟩
      rw [ho g rfl] at hk
      cases hk
    simp only [SymbolTable.get?_insert, hne, if_false]
  · simp only [SymbolTable.get?_insert] at hs'
    split at hs'
    · cases hs'
      simp [hw] at hw'
    · exact hs'

/-- **Defaults keep agreement.** Filling kinds in keeps every deferred name in agreement with
its parameter, when each deferred name waits on a parameter that exists, inference left nothing
it could still settle, and a parameter that inference left unknown ends a scalar, as every name
it left unknown does. -/
theorem Agrees.of_fills {r r' : Resolver} {p' : Program} (h : r.Agrees p) (hc : r.Closed p)
    (hf : r'.functions = r.functions) (hp : ∀ k i, p'.param? k i = p.param? k i)
    (ht : r.symbols.Fills r'.symbols)
    (hcalled : ∀ o n s d, r.symbols.get? o n = some s → s.waitsOn = some d →
      (r.paramName? p d).isSome)
    (hdefault : ∀ d q, r.paramName? p d = some q → r.symbols.kind (some d.callee) q = .unknown →
      r'.symbols.kind (some d.callee) q = .scalar) :
    r'.Agrees p' := by
  intro o n s' d hs' hw hk'
  obtain ⟨s, hs, hw₀, hunk⟩ := ht.waits o n s' d hs' hw
  have hname : r'.paramName? p' d = r.paramName? p d := by
    simp only [paramName?, hf, hp]
  by_cases hks : s.kind = .unknown
  · -- a name inference left unknown waits on a parameter it also left unknown
    have hscalar : s'.kind = .scalar := by
      cases hk : s'.kind with
      | unknown => exact absurd hk hk'
      | scalar => rfl
      | array => exact absurd hk (hunk hks)
    obtain ⟨q, hq⟩ := Option.isSome_iff_exists.1 (hcalled o n s d hs hw₀)
    have hclosed := hc o n s d hs hks hw₀
    rw [paramKind_eq, hq] at hclosed
    rw [paramKind_eq, hname, hq, hscalar]
    exact hdefault d q hq hclosed
  · have hagree := h o n s d hs hw₀ hks
    have hkind : s'.kind = s.kind := by
      have hkeep := ht.keeps o n (by rw [SymbolTable.kind_of_get? hs]; exact hks)
      rwa [SymbolTable.kind_of_get? hs', SymbolTable.kind_of_get? hs] at hkeep
    rw [hkind, paramKind_of_keepsKinds hf hp ht.keeps (by rw [hagree]; exact hks), hagree]

/-- A call that passes its check names a declared function with enough parameters, and binds
its node to that function's ordinal. -/
theorem checkCall_eq_ok {r : Resolver} {c : CallSite} {x : NodeId × Nat}
    (h : r.checkCall p c = .ok x) :
    x.1 = c.node ∧ r.functions.get? c.callee = some x.2 ∧ c.argCount ≤ p.arity x.2 := by
  unfold checkCall at h
  split at h
  · cases h
  · rename_i k hk
    split at h
    · cases h
    · cases h
      exact ⟨rfl, hk, by dsimp only; omega⟩

/-- When all calls pass their checks, each names a declared function with enough
parameters. -/
theorem checkCall_of_checkCalls {r : Resolver} {bs : List (NodeId × Nat)}
    (h : r.checkCalls p = .ok bs) {c : CallSite} (hc : c ∈ r.calls) :
    ∃ k, r.functions.get? c.callee = some k ∧ c.argCount ≤ p.arity k := by
  unfold checkCalls at h
  suffices hall : ∀ (l : List CallSite) (bs : List (NodeId × Nat)),
      l.mapM (r.checkCall p) = .ok bs → ∀ c ∈ l, ∃ x, r.checkCall p c = .ok x by
    obtain ⟨x, hx⟩ := hall _ _ h c hc
    exact ⟨x.2, (checkCall_eq_ok hx).2⟩
  intro l
  induction l with
  | nil => intro _ _ c hc; cases hc
  | cons c' rest ih =>
    intro bs h c hc
    rw [List.mapM_cons] at h
    cases hc' : r.checkCall p c' with
    | error e =>
      rw [hc'] at h
      cases h
    | ok x =>
      rw [hc'] at h
      cases hr : rest.mapM (r.checkCall p) with
      | error e =>
        rw [hr] at h
        cases h
      | ok ys =>
        rcases List.mem_cons.1 hc with rfl | hc
        · exact ⟨x, hc'⟩
        · exact ih ys hr c hc

end Resolver

namespace Builder

variable {b : Builder}

/-- Placing the globals fills their kinds in. -/
theorem assignGlobalSlotsIn_fills {l : List String}
    (hl : l.Perm b.resolver.symbols.globals.keys) :
    b.resolver.symbols.Fills (b.assignGlobalSlotsIn l).resolver.symbols := by
  have hg := assignGlobalSlotsIn_globals hl
  refine SymbolTable.Fills.of_entries (fun o n s' hs' => .inl ?_) (fun o n s hs' _ => ?_)
  · cases o with
    | none =>
      rw [SymbolTable.get?, hg, NameMap.get?_mapValues] at hs'
      obtain ⟨s, hs, rfl⟩ := Option.map_eq_some_iff.1 hs'
      exact ⟨s, hs, settled_waitsOn .., fun hk => settled_kind_of_ne _ _ _ hk,
        fun hk => settled_kind_ne_array _ _ _ (by rw [hk]; decide)⟩
    | some f => exact ⟨s', hs', rfl, fun _ => rfl, fun hk => by rw [hk]; decide⟩
  · cases o with
    | none =>
      simp only [SymbolTable.get?] at hs' ⊢
      rw [hg, NameMap.get?_mapValues, hs']
      rfl
    | some f =>
      change (b.resolver.symbols.get? (some f) n).isSome
      rw [hs']
      rfl

/-- Numbering the parameters fills their kinds in: a parameter keeps a known kind and becomes a
scalar otherwise, and a parameter that had no entry gets one that waits on nothing. -/
theorem Wf.assignLocalSlots_fills (hb : b.Wf) :
    b.resolver.symbols.Fills b.assignLocalSlots.resolver.symbols := by
  refine SymbolTable.Fills.of_entries (fun o n s' hs' => ?_) (fun o n s hs _ => ?_)
  · by_cases hpar : ∃ f k fn, o = some f ∧ b.resolver.functions.get? f = some k ∧
        b.program.functions[k]? = some fn ∧ n ∈ fn.params
    · obtain ⟨f, k, fn, rfl, hk, hfn, hq⟩ := hpar
      obtain ⟨slot, hslot⟩ := hb.assignLocalSlots_get?_of_param hk hfn hq
      rw [hslot] at hs'
      cases hs'
      rw [paramSymbol_scopes]
      cases ht : b.resolver.symbols.get? (some f) n with
      | none => exact .inr ⟨rfl, rfl⟩
      | some s =>
        refine .inl ⟨s, rfl, rfl, fun hk' => ?_, fun hk' => ?_⟩
        · rw [SymbolTable.kind_of_get? ht]
          cases hs : s.kind <;> simp_all
        · rw [SymbolTable.kind_of_get? ht, hk']
          simp
    · rw [hb.assignLocalSlots_get?_of_not_param fun f k fn hf hk hfn hq =>
        hpar ⟨f, k, fn, hf, hk, hfn, hq⟩] at hs'
      exact .inl ⟨s', hs', rfl, fun _ => rfl, fun hk => by rw [hk]; decide⟩
  · by_cases hpar : ∃ f k fn, o = some f ∧ b.resolver.functions.get? f = some k ∧
        b.program.functions[k]? = some fn ∧ n ∈ fn.params
    · obtain ⟨f, k, fn, rfl, hk, hfn, hq⟩ := hpar
      obtain ⟨slot, hslot⟩ := hb.assignLocalSlots_get?_of_param hk hfn hq
      rw [hslot]
      rfl
    · rw [hb.assignLocalSlots_get?_of_not_param fun f k fn hf hk hfn hq =>
        hpar ⟨f, k, fn, hf, hk, hfn, hq⟩, hs]
      rfl

/-- A parameter of a declared function ends an array if it was one, and a scalar otherwise. -/
theorem Wf.assignLocalSlots_kind (hb : b.Wf) {f : String} {k : Nat} {fn : UserFunction}
    (hk : b.resolver.functions.get? f = some k) (hfn : b.program.functions[k]? = some fn)
    {q : String} (hq : q ∈ fn.params) :
    b.assignLocalSlots.resolver.symbols.kind (some f) q =
      if b.resolver.symbols.kind (some f) q = .array then .array else .scalar := by
  obtain ⟨slot, hslot⟩ := hb.assignLocalSlots_get?_of_param hk hfn hq
  rw [SymbolTable.kind_of_get? hslot]

/-- Every deferral is backed by a recorded call, and agrees with its parameter once it has a
kind. -/
structure Deferrals (b : Builder) : Prop where
  /-- A name waits on parameter `i` of `f` only after a call of `f` with more than `i`
  arguments was recorded. -/
  called : b.resolver.Called
  /-- A deferred name with a kind has the kind of the parameter it waits on. -/
  agrees : b.resolver.Agrees b.program

theorem Deferrals.of_eq {b' : Builder} (hd : b.Deferrals) (hr : b'.resolver = b.resolver)
    (hp : b'.program = b.program) : b'.Deferrals := by
  obtain ⟨hc, ha⟩ := hd
  exact ⟨by rw [hr]; exact hc, by rw [hr, hp]; exact ha⟩

/-- Once the calls pass their checks, a name waits on a parameter that exists. -/
theorem Deferrals.declared (hd : b.Deferrals)
    (hcalls : ∀ c ∈ b.resolver.calls,
      ∃ k, b.resolver.functions.get? c.callee = some k ∧ c.argCount ≤ b.program.arity k)
    {o : Option String} {n : String} {s : Symbol} {d : Deferral}
    (hs : b.resolver.symbols.get? o n = some s) (hw : s.waitsOn = some d) :
    ∃ k fn, b.resolver.functions.get? d.callee = some k ∧ b.program.functions[k]? = some fn ∧
      d.arg < fn.params.length := by
  obtain ⟨c, hc, hcallee, hlt⟩ := hd.called o n s d hs hw
  obtain ⟨k, hk, harity⟩ := hcalls c hc
  rw [hcallee] at hk
  cases hfn : b.program.functions[k]? with
  | none =>
    simp only [Program.arity, hfn, Option.map_none, Option.getD_none] at harity
    omega
  | some fn =>
    simp only [Program.arity, hfn, Option.map_some, Option.getD_some] at harity
    exact ⟨k, fn, hk, hfn, by omega⟩

theorem Deferrals.paramName?_isSome (hd : b.Deferrals)
    (hcalls : ∀ c ∈ b.resolver.calls,
      ∃ k, b.resolver.functions.get? c.callee = some k ∧ c.argCount ≤ b.program.arity k)
    {o : Option String} {n : String} {s : Symbol} {d : Deferral}
    (hs : b.resolver.symbols.get? o n = some s) (hw : s.waitsOn = some d) :
    (b.resolver.paramName? b.program d).isSome := by
  obtain ⟨k, fn, hk, hfn, hlt⟩ := hd.declared hcalls hs hw
  simp [Resolver.paramName?, hk, Program.param?, hfn, hlt]

/-- Inference keeps the deferrals: it only gives kinds, and each agrees with its parameter. -/
theorem Wf.inferIn_deferrals (hb : b.Wf) {v : VisitOrder} (hv : v.Lawful) (hd : b.Deferrals)
    (bs : List (NodeId × Nat)) :
    ({ b with resolver := ({ b.resolver with bindings := bs }.inferIn v b.program 0).2 }
      : Builder).Deferrals := by
  obtain ⟨κ, hκ, -⟩ := hb.settles_inferIn hv bs
  have hagree : Resolver.Agrees { b.resolver with bindings := bs } b.program := hd.agrees
  refine ⟨fun o n s d hs hw => ?_, hagree.inferIn v 0⟩
  change (({ b.resolver with bindings := bs }.inferIn v b.program 0).2).symbols.get? o n = _ at hs
  change ∃ c ∈ (({ b.resolver with bindings := bs }.inferIn v b.program 0).2).calls, _
  rw [hκ] at hs ⊢
  obtain ⟨s₀, hs₀, rfl⟩ := Resolver.get?_withKinds_eq_some hs
  exact hd.called o n s₀ d hs₀ hw

/-- Giving slots keeps the deferrals, once inference left nothing it could settle and every
call names a declared function with enough parameters: the names it left unknown become
scalars, and so do the parameters they wait on. -/
theorem Wf.assignSlots_deferrals (hb : b.Wf) (hd : b.Deferrals)
    (hclosed : b.resolver.Closed b.program)
    (hcalls : ∀ c ∈ b.resolver.calls,
      ∃ k, b.resolver.functions.get? c.callee = some k ∧ c.argCount ≤ b.program.arity k)
    {l : List String} (hl : l.Perm b.resolver.symbols.globals.keys) :
    ((b.assignGlobalSlotsIn l).assignLocalSlots.patch).Deferrals := by
  have h₄ := hb.assignGlobalSlotsIn hl
  have hfills := (assignGlobalSlotsIn_fills hl).trans h₄.assignLocalSlots_fills
  refine Deferrals.of_eq ?_ (patch_resolver _) (patch_program _)
  refine ⟨fun o n s' d hs' hw => ?_, ?_⟩
  · obtain ⟨s, hs, hw₀, -⟩ := hfills.waits o n s' d hs' hw
    exact hd.called o n s d hs hw₀
  · refine hd.agrees.of_fills hclosed rfl (fun k i => ?_) hfills
      (fun o n s d hs hw => hd.paramName?_isSome hcalls hs hw) (fun d q hq hunk => ?_)
    · simp only [Program.param?, h₄.assignLocalSlots_functions, List.getElem?_map,
        Option.bind_map]
      rfl
    · simp only [Resolver.paramName?, Option.bind_eq_some_iff, Program.param?] at hq
      obtain ⟨k, hk, fn, hfn, hq⟩ := hq
      rw [h₄.assignLocalSlots_kind hk hfn (List.mem_of_getElem? hq)]
      change (if b.resolver.symbols.kind (some d.callee) q = .array then Kind.array else .scalar) = _
      rw [hunk]
      rfl

/-- A successful resolution gives slots to a checked builder: one that satisfies the invariant,
where inference left nothing it could settle, whose calls each name a declared function with
enough parameters, and which keeps the deferrals when they held before. -/
theorem Wf.resolveIn_eq_ok_checked (hb : b.Wf) {v : VisitOrder} (hv : v.Lawful) {b' : Builder}
    (h : b.resolveIn v = (.ok (), b')) :
    ∃ b₃ : Builder, b₃.Wf ∧ b₃.resolver.Closed b₃.program ∧
      (∀ c ∈ b₃.resolver.calls,
        ∃ k, b₃.resolver.functions.get? c.callee = some k ∧ c.argCount ≤ b₃.program.arity k) ∧
      (b.Deferrals → b₃.Deferrals) ∧
      b' = (b₃.assignGlobalSlotsIn (v.globals b₃.resolver.symbols)).assignLocalSlots.patch := by
  obtain ⟨bs, r, hcheck, hi, rfl⟩ := Builder.resolveIn_eq_ok h
  obtain ⟨κ, hκ, -⟩ := hb.settles_inferIn hv bs
  rw [hi] at hκ
  have hκ' : r = _ := hκ
  have h₂wf := hb.inferIn_of_eq hv hi
  have hr₃ := bindCalls_resolver ({ b with resolver := r } : Builder)
  have hp₃ := bindCalls_program ({ b with resolver := r } : Builder)
  refine ⟨_, h₂wf.bindCalls, ?_, ?_, fun hd => ?_, rfl⟩
  · have := (Resolver.inferIn_settles (p := b.program) hv { b.resolver with bindings := bs } 0).2
    rw [hi] at this
    rw [hr₃, hp₃]
    exact this rfl
  · rw [hr₃, hp₃, hκ']
    exact fun c hc => Resolver.checkCall_of_checkCalls hcheck hc
  · have h₂ := hb.inferIn_deferrals hv hd bs
    rw [hi] at h₂
    exact h₂.of_eq hr₃ hp₃

/-- **Resolution keeps the deferrals**, whether it succeeds or fails. -/
theorem Wf.resolveIn_deferrals (hb : b.Wf) {v : VisitOrder} (hv : v.Lawful) (hd : b.Deferrals) :
    (b.resolveIn v).2.Deferrals := by
  rcases h : b.resolveIn v with ⟨out, b'⟩
  cases out with
  | ok u =>
    obtain ⟨b₃, h₃, hclosed, hcalls, hd₃, rfl⟩ := hb.resolveIn_eq_ok_checked hv h
    exact h₃.assignSlots_deferrals (hd₃ hd) hclosed hcalls (hv _).2
  | error e =>
    rcases resolveIn_eq_error h with ⟨-, rfl⟩ | ⟨bs, -, hi, hb'⟩
    · exact hd
    · have := hb.inferIn_deferrals hv hd bs
      rw [hi] at this
      rw [hb']
      exact this

/-- Giving slots keeps the calls, the declared functions and every arity. -/
theorem Wf.assignSlots_calls (hb : b.Wf) {l : List String}
    (hl : l.Perm b.resolver.symbols.globals.keys)
    (hcalls : ∀ c ∈ b.resolver.calls,
      ∃ k, b.resolver.functions.get? c.callee = some k ∧ c.argCount ≤ b.program.arity k) :
    ∀ c ∈ ((b.assignGlobalSlotsIn l).assignLocalSlots.patch).resolver.calls,
      ∃ k, ((b.assignGlobalSlotsIn l).assignLocalSlots.patch).resolver.functions.get? c.callee =
          some k ∧
        c.argCount ≤ ((b.assignGlobalSlotsIn l).assignLocalSlots.patch).program.arity k := by
  have h₄ := hb.assignGlobalSlotsIn hl
  have hfuns : (b.assignGlobalSlotsIn l).program.functions = b.program.functions := rfl
  intro c hc
  rw [patch_resolver] at hc ⊢
  rw [patch_program]
  obtain ⟨k, hk, harity⟩ := hcalls c hc
  refine ⟨k, hk, ?_⟩
  simpa [Program.arity, h₄.assignLocalSlots_functions, hfuns, Function.comp_def] using harity

/-- After a successful resolution every call names a declared function with enough
parameters. -/
theorem Wf.resolveIn_calls (hb : b.Wf) {v : VisitOrder} (hv : v.Lawful) {b' : Builder}
    (h : b.resolveIn v = (.ok (), b')) :
    ∀ c ∈ b'.resolver.calls,
      ∃ k, b'.resolver.functions.get? c.callee = some k ∧ c.argCount ≤ b'.program.arity k := by
  obtain ⟨b₃, h₃, -, hcalls, -, rfl⟩ := hb.resolveIn_eq_ok_checked hv h
  exact h₃.assignSlots_calls (hv _).2 hcalls

/-- Numbering the parameters flags exactly the parameters that end arrays. -/
theorem Wf.assignLocalSlots_flags (hb : b.Wf) {f : String} {k : Nat} {fn : UserFunction}
    (hk : b.assignLocalSlots.resolver.functions.get? f = some k)
    (hfn : b.assignLocalSlots.program.functions[k]? = some fn) {j : Nat}
    (hj : j < fn.params.length) :
    fn.arrays[j]? =
      some (b.assignLocalSlots.resolver.symbols.kind (some f) fn.params[j] == .array) := by
  rw [hb.assignLocalSlots_functions, List.getElem?_map] at hfn
  obtain ⟨fn₀, hfn₀, rfl⟩ := Option.map_eq_some_iff.1 hfn
  obtain ⟨fn', hfn', rfl⟩ := (hb.registry f k).1 hk
  rw [hfn₀] at hfn'
  cases hfn'
  have hnd := hb.params_nodup fn₀ (List.mem_of_getElem? hfn₀)
  simp only [placeParams_snd hnd, List.getElem?_map, List.getElem?_eq_getElem hj,
    Option.map_some, paramIsArray_scopes]
  rw [hb.assignLocalSlots_kind hk hfn₀ (List.getElem_mem hj)]
  cases b.resolver.symbols.kind (some fn₀.name) fn₀.params[j] <;> rfl

/-- **The array flags after a successful resolution**: a parameter of a declared function is
passed by reference exactly when it ends an array. -/
theorem Wf.resolveIn_flags (hb : b.Wf) {v : VisitOrder} (hv : v.Lawful) {b' : Builder}
    (h : b.resolveIn v = (.ok (), b')) {f : String} {k : Nat} {fn : UserFunction}
    (hk : b'.resolver.functions.get? f = some k) (hfn : b'.program.functions[k]? = some fn)
    {j : Nat} (hj : j < fn.params.length) :
    fn.arrays[j]? = some (b'.resolver.symbols.kind (some f) fn.params[j] == .array) := by
  obtain ⟨b₃, h₃, rfl⟩ := hb.resolveIn_eq_ok hv h
  have h₄ := h₃.assignGlobalSlotsIn (hv _).2
  rw [patch_resolver] at hk ⊢
  rw [patch_program] at hfn
  exact h₄.assignLocalSlots_flags hk hfn hj

/-! ### Building keeps the deferrals -/

theorem Deferrals.of_symbols {b' : Builder} (hd : b.Deferrals)
    (hs : b'.resolver.symbols = b.resolver.symbols) (hc : b'.resolver.calls = b.resolver.calls)
    (hf : b'.resolver.functions = b.resolver.functions)
    (hp : b'.program.functions = b.program.functions) : b'.Deferrals :=
  ⟨hd.called.congr hs hc, hd.agrees.congr hs hf hp⟩

theorem Deferrals.of_insert {b' : Builder} (hd : b.Deferrals) {o : Option String} {n : String}
    {s : Symbol} (hs : b'.resolver.symbols = b.resolver.symbols.insert o n s)
    (hw : s.waitsOn = none) (ho : ∀ g, o = some g → b.resolver.functions.get? g = none)
    (hc : b'.resolver.calls = b.resolver.calls) (hf : b'.resolver.functions = b.resolver.functions)
    (hp : b'.program.functions = b.program.functions) : b'.Deferrals :=
  ⟨(hd.called.insert_fresh hw).congr hs hc, (hd.agrees.insert_fresh ho hw).congr hs hf hp⟩

/-- A name is written in the global scope or in the open body, never in a declared function. -/
theorem Wf.owner_undeclared (hb : b.Wf) (n : String) {g : String}
    (hg : (b.resolver.scopeOf n).owner = some g) : b.resolver.functions.get? g = none := by
  obtain ⟨fr, hfr, rfl, -⟩ := Resolver.scopeOf_eq_param (Resolver.scopeOf_owner_some hg)
  exact (hb.frame fr hfr).1

theorem Deferrals.varRef (hb : b.Wf) (hd : b.Deferrals) (n : String) :
    (b.varRef n).2.Deferrals := by
  by_cases hk : b.resolver.symbols.kind (b.resolver.scopeOf n).owner n = .unknown
  · exact hd.of_insert (if_pos hk) rfl (fun _ => hb.owner_undeclared n) rfl rfl rfl
  · exact hd.of_symbols (if_neg hk) rfl rfl rfl

theorem Deferrals.arrayRef (hb : b.Wf) (hd : b.Deferrals) (n : String) :
    (b.arrayRef n).2.Deferrals := by
  by_cases hk : b.resolver.symbols.kind (b.resolver.scopeOf n).owner n = .unknown
  · exact hd.of_insert (if_pos hk) rfl (fun _ => hb.owner_undeclared n) rfl rfl rfl
  · exact hd.of_symbols (if_neg hk) rfl rfl rfl

/-- Deferring one argument changes at most the entry of the argument's name, which then has no
kind and waits on the argument's position. -/
theorem deferArg_get?_of_ne (b : Builder) (f : String) (a : NodeId) (i : Nat)
    {o : Option String} {n : String}
    (h : (b.deferArg f a i).resolver.symbols.get? o n ≠ b.resolver.symbols.get? o n) :
    ∃ u, b.ast.get? a = some (.var u) ∧ o = u.scope.owner ∧ ∃ s,
      (b.deferArg f a i).resolver.symbols.get? o n = some s ∧ s.kind = .unknown ∧
        s.waitsOn = some ⟨f, i⟩ := by
  cases hx : b.ast.get? a with
  | none => simp [deferArg, hx] at h
  | some x =>
    cases x
    case var u =>
      cases hs : b.resolver.symbols.get? u.scope.owner u.name with
      | none => simp [deferArg, hx, hs] at h
      | some s =>
        by_cases hfu : s.firstUse = some a
        · have ht : (b.deferArg f a i).resolver.symbols = b.resolver.symbols.insert
              u.scope.owner u.name { s with kind := .unknown, waitsOn := some ⟨f, i⟩ } := by
            simp [deferArg, hx, hs, hfu]
          rw [ht, SymbolTable.get?_insert] at h ⊢
          by_cases he : u.scope.owner = o ∧ u.name = n
          · obtain ⟨rfl, rfl⟩ := he
            exact ⟨u, rfl, rfl, _, if_pos ⟨rfl, rfl⟩, rfl, rfl⟩
          · rw [if_neg he] at h
            exact absurd rfl h
        · simp [deferArg, hx, hs, hfu] at h
    all_goals simp [deferArg, hx] at h

/-- Deferring the arguments of a call changes only entries of argument names, each then with no
kind and waiting on one of the call's argument positions. -/
theorem deferArgs_get?_of_ne (f : String) : ∀ (b : Builder) (i : Nat) (args : List NodeId)
    {o : Option String} {n : String},
    (b.deferArgs f i args).resolver.symbols.get? o n ≠ b.resolver.symbols.get? o n →
    ∃ u, (∃ a ∈ args, b.ast.get? a = some (.var u)) ∧ o = u.scope.owner ∧ ∃ s,
      (b.deferArgs f i args).resolver.symbols.get? o n = some s ∧ s.kind = .unknown ∧
        ∃ j, s.waitsOn = some ⟨f, j⟩ ∧ j < i + args.length
  | _, _, [], _, _, h => absurd rfl h
  | b, i, a :: rest, o, n, h => by
    obtain ⟨t, ht⟩ := b.deferArg_eq f a i
    have hast : (b.deferArg f a i).ast = b.ast := by rw [ht]
    rw [deferArgs] at h ⊢
    by_cases h₁ : ((b.deferArg f a i).deferArgs f (i + 1) rest).resolver.symbols.get? o n =
        (b.deferArg f a i).resolver.symbols.get? o n
    · rw [h₁] at h
      obtain ⟨u, hu, ho, s, hs, hk, hw⟩ := deferArg_get?_of_ne b f a i h
      exact ⟨u, ⟨a, List.mem_cons_self, hu⟩, ho, s, h₁.trans hs, hk, i, hw, by simp⟩
    · obtain ⟨u, ⟨a', ha', hu⟩, ho, s, hs, hk, j, hw, hj⟩ := deferArgs_get?_of_ne f _ (i + 1) rest h₁
      rw [hast] at hu
      exact ⟨u, ⟨a', List.mem_cons_of_mem _ ha', hu⟩, ho, s, hs, hk, j, hw, by simp; omega⟩

/-- A call keeps the deferrals when its arguments are uses in the global scope or the open
body and its node gets an id of its own: the names it defers wait on its own argument
positions, it records itself, and it changes no entry of a declared function. -/
theorem Deferrals.call (hb : b.Wf) (hd : b.Deferrals) (f : String) (args : List NodeId)
    (pos : Position) (hlt : b.ast.size < UInt32.size) (hargs : b.ArgsOpen args) :
    (b.call f args pos).2.Deferrals := by
  -- an entry the call changes lies outside the declared functions and waits on the call
  have hchange : ∀ o n, (b.deferArgs f 0 args).resolver.symbols.get? o n ≠
      b.resolver.symbols.get? o n →
      (∀ g, o = some g → b.resolver.functions.get? g = none) ∧
        ∃ s, (b.deferArgs f 0 args).resolver.symbols.get? o n = some s ∧ s.kind = .unknown ∧
          ∃ j, s.waitsOn = some ⟨f, j⟩ ∧ j < args.length := by
    intro o n hne
    obtain ⟨u, ⟨a, ha, hu⟩, ho, s, hs, hk, j, hw, hj⟩ := deferArgs_get?_of_ne f b 0 args hne
    refine ⟨fun g hg => ?_, s, hs, hk, j, hw, by omega⟩
    obtain ⟨fr, hfr, rfl⟩ := hargs a ha u hu g (ho ▸ hg)
    exact (hb.frame fr hfr).1
  rw [call_eq_of_lt hlt]
  refine ⟨fun o n s d hs hw => ?_, hd.agrees.of_frame rfl (fun g k m hk => ?_)
    (fun o n s hs hw hk => ?_)⟩
  · change (b.deferArgs f 0 args).resolver.symbols.get? o n = some s at hs
    by_cases hne : (b.deferArgs f 0 args).resolver.symbols.get? o n = b.resolver.symbols.get? o n
    · obtain ⟨c, hc, h₁, h₂⟩ := hd.called o n s d (hne ▸ hs) hw
      exact ⟨c, List.mem_append_left _ hc, h₁, h₂⟩
    · obtain ⟨-, s', hs', -, j, hw', hj⟩ := hchange o n hne
      rw [hs] at hs'
      cases hs'
      rw [hw] at hw'
      cases hw'
      exact ⟨_, List.mem_append_right _ (List.mem_singleton_self _), rfl, hj⟩
  · by_contra hne
    exact absurd ((hchange _ _ hne).1 g rfl) (by rw [hk]; simp)
  · change (b.deferArgs f 0 args).resolver.symbols.get? o n = some s at hs
    by_contra hne
    obtain ⟨-, s', hs', hk', -⟩ := hchange o n fun heq => hne (heq ▸ hs)
    rw [hs] at hs'
    cases hs'
    exact hk hk'

/-- Opening a body keeps the deferrals: the function is undeclared, and its table starts
empty. -/
theorem Deferrals.openFunction (hd : b.Deferrals) {name : String} {params : List String}
    {pos : Position} (hf : b.declarationFault name params pos = none) :
    (b.openFunction name params).Deferrals := by
  obtain ⟨-, hname, -⟩ := declarationFault_eq_none hf
  have hget : ∀ o n s, (b.openFunction name params).resolver.symbols.get? o n = some s →
      b.resolver.symbols.get? o n = some s := by
    intro o n s hs
    simp only [Builder.openFunction, SymbolTable.get?_addFunction] at hs
    split at hs
    · cases hs
    · exact hs
  refine ⟨fun o n s d hs hw => hd.called o n s d (hget o n s hs) hw,
    hd.agrees.of_frame rfl (fun g k m hk => ?_) (fun o n s hs _ _ => hget o n s hs)⟩
  have hne : g ≠ name := by
    rintro rfl
    rw [hname] at hk
    cases hk
  simp [Builder.openFunction, SymbolTable.get?_addFunction, hne]

/-- Registering a body keeps the deferrals: a parameter a known kind points to belongs to a
function declared before, which keeps its ordinal and its parameters. -/
theorem Deferrals.register (hb : b.Wf) (hd : b.Deferrals) {name : String}
    {params : List String} (stmts : List Stmt) (hfr : b.resolver.frame = some ⟨name, params⟩) :
    (b.closeFunction.register name params stmts).Deferrals := by
  obtain ⟨hname, -⟩ := hb.frame _ hfr
  have hparam : ∀ d q, b.resolver.paramName? b.program d = some q →
      (b.closeFunction.register name params stmts).resolver.paramName?
        (b.closeFunction.register name params stmts).program d = some q := by
    intro d q hq
    simp only [Resolver.paramName?, Option.bind_eq_some_iff] at hq ⊢
    obtain ⟨k, hk, hp⟩ := hq
    have hne : name ≠ d.callee := by
      rintro rfl
      rw [hname] at hk
      cases hk
    obtain ⟨fn, hfn, -⟩ := (hb.registry _ _).1 hk
    have hlt : k < b.program.functions.length := (List.getElem?_eq_some_iff.1 hfn).1
    refine ⟨k, ?_, ?_⟩
    · simp [Builder.register, Builder.addFunction, Builder.pushFunction, Builder.closeFunction,
        NameMap.get?_insert, hne, hk]
    · simpa [Program.param?, Builder.register, Builder.addFunction, Builder.pushFunction,
        Builder.closeFunction, List.getElem?_append_left hlt] using hp
  refine ⟨hd.called, fun o n s d hs hw hk => ?_⟩
  have hag := hd.agrees o n s d hs hw hk
  rw [Resolver.paramKind_eq] at hag ⊢
  cases hq : b.resolver.paramName? b.program d with
  | none =>
    rw [hq] at hag
    exact absurd hag.symm hk
  | some q =>
    rw [hq] at hag
    rw [hparam d q hq]
    exact hag

/-- **Every primitive keeps the invariant, and the deferrals while the arena holds at most
`2 ^ 32` nodes**, a call when its arguments are uses in the global scope or the open body. -/
theorem keepsInPlace_deferrals :
    KeepsInPlace fun b => b.Wf ∧ (b.ast.size ≤ UInt32.size → b.Deferrals) where
  alloc _ e he h := ⟨h.1.alloc (e := e) (fun u h' => by subst h'; exact he)
    (fun u h' => by subst h'; exact he), fun hsz =>
      have hd := h.2 (Ast.size_lt_of_push hsz).le
      ⟨hd.called, hd.agrees⟩⟩
  varRef _ n h := ⟨h.1.varRef n, fun hsz => (h.2 (Ast.size_lt_of_push hsz).le).varRef h.1 n⟩
  arrayRef _ n h := ⟨h.1.arrayRef n, fun hsz => (h.2 (Ast.size_lt_of_push hsz).le).arrayRef h.1 n⟩
  call b f args pos h ha := ⟨h.1.call f args pos, fun hsz => by
    rw [call_ast] at hsz
    have hlt := Ast.size_lt_of_push hsz
    exact (h.2 hlt.le).call h.1 f args pos hlt (ha hlt)⟩
  openFunction _ _ _ _ h hf := ⟨h.1.openFunction hf, fun hsz => (h.2 hsz).openFunction hf⟩
  closeFunction _ h := ⟨h.1.closeFunction, fun hsz => ⟨(h.2 hsz).called, (h.2 hsz).agrees⟩⟩
  register _ _ _ stmts h hfr := ⟨h.1.register stmts hfr, fun hsz => (h.2 hsz).register h.1 stmts hfr⟩
  program _ _ hq h := ⟨h.1.program hq, fun hsz => ⟨(h.2 hsz).called, (h.2 hsz).agrees.congr rfl rfl hq⟩⟩

/-- A fresh builder has no deferred name. -/
theorem deferrals_new (config : Config) : (Builder.new config).Deferrals := by
  have hw : ∀ o n s, (Builder.new config).resolver.symbols.get? o n = some s →
      s.waitsOn = none := by
    intro o n s hs
    simp only [Builder.new, Builder.arrayRef] at hs
    split at hs
    · rw [SymbolTable.get?_insert] at hs
      split at hs
      · cases hs
        rfl
      · cases o <;> cases hs
    · cases o <;> cases hs
  exact ⟨fun o n s d hs hw' => by simp [hw o n s hs] at hw',
    fun o n s d hs hw' => by simp [hw o n s hs] at hw'⟩

/-- **Runs that build call arguments in place and make at most `2 ^ 32` nodes keep the
deferrals.** -/
theorem Wf.stepsIn_deferrals {v : VisitOrder} (hv : v.Lawful) :
    ∀ (ops : List Step), (∀ s ∈ ops, s.argsInPlace = true) → ∀ {b : Builder}, b.Wf →
      (b.ast.size ≤ UInt32.size → b.Deferrals) →
      (b.stepsIn v ops).2.ast.size ≤ UInt32.size → (b.stepsIn v ops).2.Deferrals
  | [], _, _, _, hd => hd
  | s :: rest, hin, b, hb, hd => by
    have hs : (b.stepIn v s).2.ast.size ≤ UInt32.size → (b.stepIn v s).2.Deferrals := by
      by_cases hr : s = .resolve
      · subst hr
        intro hsz
        exact hb.resolveIn_deferrals hv (hd ((resolveIn_size v b).symm.trans_le hsz))
      · exact (keepsInPlace_deferrals.stepIn v s hr (hin s List.mem_cons_self) ⟨hb, hd⟩).2
    exact Wf.stepsIn_deferrals hv rest (fun s' hs' => hin s' (List.mem_cons_of_mem _ hs'))
      (hb.stepIn hv s) hs

/-! ### Deferred names after a run -/

/-- What a resolved builder promises about its deferred names: a global, or a name in the
table of a declared function, that waits on parameter `i` of `c` is a scalar or an array, `c`
is declared with more than `i` parameters, and the name has the kind that parameter ends with,
so that the parameter is passed by reference exactly when the name is an array. -/
def DeferredAsReceived (b : Builder) : Prop :=
  ∀ o n s d, b.resolver.symbols.get? o n = some s → s.waitsOn = some d →
    (o = none ∧ s.scope = .global ∨ ∃ f, o = some f ∧ (b.resolver.functions.get? f).isSome) →
    (s.kind = .scalar ∨ s.kind = .array) ∧
      ∃ k fn, b.resolver.functions.get? d.callee = some k ∧ b.program.functions[k]? = some fn ∧
        ∃ _ : d.arg < fn.params.length,
          s.kind = b.resolver.symbols.kind (some d.callee) fn.params[d.arg] ∧
            fn.arrays[d.arg]? = some (s.kind == .array)

/-- A successful resolution of a builder that keeps the deferrals classifies every deferred
global and parameter as its callee receives it. -/
theorem Wf.resolveIn_deferredAsReceived (hb : b.Wf) {v : VisitOrder} (hv : v.Lawful)
    (hd : b.Deferrals) {b' : Builder} (h : b.resolveIn v = (.ok (), b')) :
    b'.DeferredAsReceived := by
  have hb' : b'.Wf := by
    have := hb.resolveIn hv
    rw [h] at this
    exact this
  have hd' : b'.Deferrals := by
    have := hb.resolveIn_deferrals hv hd
    rw [h] at this
    exact this
  intro o n s d hs hw hscope
  have hkind : s.kind = .scalar ∨ s.kind = .array := by
    rcases hscope with ⟨rfl, hg⟩ | ⟨f, rfl, hf⟩
    · rcases hb.resolveIn_global hv h hs (by rw [hg]; decide) with ⟨hk, -⟩ | ⟨hk, -⟩
      · exact .inr hk
      · exact .inl hk
    · obtain ⟨k, hk⟩ := Option.isSome_iff_exists.1 hf
      obtain ⟨fn, hfn, -⟩ := (hb'.registry f k).1 hk
      obtain ⟨j, hj, rfl⟩ := List.getElem_of_mem ((hb'.param_symbol f n s hs).2.2.1 k fn hk hfn)
      obtain ⟨s', hs', hk', -⟩ := hb.resolveIn_param hv h hk hfn hj
      rw [hs] at hs'
      cases hs'
      exact hk'
  obtain ⟨k, fn, hk, hfn, hlt⟩ := hd'.declared (hb.resolveIn_calls hv h) hs hw
  -- the name agrees with the parameter it waits on, which the callee flags by its kind
  have hagree : s.kind = b'.resolver.symbols.kind (some d.callee) fn.params[d.arg] := by
    have hag := hd'.agrees o n s d hs hw (by rcases hkind with hk | hk <;> rw [hk] <;> decide)
    have hq : b'.resolver.paramName? b'.program d = some fn.params[d.arg] := by
      simp [Resolver.paramName?, hk, Program.param?, hfn]
    rw [Resolver.paramKind_eq, hq] at hag
    exact hag.symm
  exact ⟨hkind, k, fn, hk, hfn, hlt, hagree, by rw [hb.resolveIn_flags hv h hk hfn hlt, ← hagree]⟩

/-- **Deferred names after a run.** When a run of steps from a fresh builder, whose calls build
their arguments in place, ends in a successful resolution, in any lawful visiting order, every
deferred global and every deferred parameter of a declared function is a scalar or an array,
the callee it waits on is declared with that parameter, the name has the parameter's kind, and
the callee takes the parameter by reference exactly when the name is an array. -/
theorem stepsIn_resolve_deferredAsReceived (config : Config) {v : VisitOrder} (hv : v.Lawful)
    (ops : List Step) (hin : ∀ s ∈ ops, s.argsInPlace = true)
    (hok : ((Builder.new config).stepsIn v (ops ++ [.resolve])).1.getLast? =
      some (.resolved (.ok ())))
    (hsz : ((Builder.new config).stepsIn v (ops ++ [.resolve])).2.ast.size ≤ UInt32.size) :
    ((Builder.new config).stepsIn v (ops ++ [.resolve])).2.DeferredAsReceived := by
  have hb := (wf_new config).stepsIn hv ops
  rw [(stepsIn_resolve v _ ops).2, resolveIn_size] at hsz
  have hd := Wf.stepsIn_deferrals hv ops hin (wf_new config) (fun _ => deferrals_new config) hsz
  exact hb.resolveIn_deferredAsReceived hv hd (stepsIn_resolve_eq_ok v _ ops hok)

/-- A name passed to a function declared after the call takes the kind of its parameter. -/
theorem stepsIn_resolve_deferredAsReceived_later :
    VisitOrder.sorted.Lawful ∧
      (∀ s ∈ [Step.begin [.expr (.call "f" [.var "x"] .null)],
        .declare "f" ["a"] .null [.expr (.assign (.subscript "a" [.num ⟨1⟩]) (.num ⟨1⟩))]],
        s.argsInPlace = true) ∧
      ((Builder.new {}).stepsIn .sorted
        ([Step.begin [.expr (.call "f" [.var "x"] .null)],
          .declare "f" ["a"] .null [.expr (.assign (.subscript "a" [.num ⟨1⟩]) (.num ⟨1⟩))]] ++
            [.resolve])).1.getLast? = some (.resolved (.ok ())) ∧
      ((Builder.new {}).stepsIn .sorted
        ([Step.begin [.expr (.call "f" [.var "x"] .null)],
          .declare "f" ["a"] .null [.expr (.assign (.subscript "a" [.num ⟨1⟩]) (.num ⟨1⟩))]] ++
            [.resolve])).2.ast.size ≤ UInt32.size ∧
      ((Builder.new {}).stepsIn .sorted
        ([Step.begin [.expr (.call "f" [.var "x"] .null)],
          .declare "f" ["a"] .null [.expr (.assign (.subscript "a" [.num ⟨1⟩]) (.num ⟨1⟩))]] ++
            [.resolve])).2.DeferredAsReceived := by
  refine ⟨VisitOrder.sorted_lawful, ?inPlace, ?ok, ?size,
    stepsIn_resolve_deferredAsReceived {} VisitOrder.sorted_lawful _ ?inPlace ?ok ?size⟩
  case inPlace => decide
  case ok => cbv
  case size => cbv

/-- Passing a node made earlier can re-defer a parameter of a declared function after its
callers took its kind: here `x` was given the scalar kind of parameter `p` of `c`, and a later
call of `g` passes the use of `p` again, to a parameter that is an array. -/
theorem stepsIn_resolve_reused_not_deferredAsReceived :
    ((Builder.new {}).stepsIn .sorted
      ([Step.declare "g" ["q"] .null [.expr (.subscript "q" [.num ⟨1⟩])],
        .declare "c" ["p"] .null [.expr (.var "p")],
        .begin [.expr (.call "c" [.var "x"] .null)], .resolve,
        .expr (.call "g" [.node ⟨4⟩] .null)] ++ [.resolve])).1.getLast? =
        some (.resolved (.ok ())) ∧
      ¬ ((Builder.new {}).stepsIn .sorted
        ([Step.declare "g" ["q"] .null [.expr (.subscript "q" [.num ⟨1⟩])],
          .declare "c" ["p"] .null [.expr (.var "p")],
          .begin [.expr (.call "c" [.var "x"] .null)], .resolve,
          .expr (.call "g" [.node ⟨4⟩] .null)] ++ [.resolve])).2.DeferredAsReceived := by
  refine ⟨by cbv, fun h => ?_⟩
  have hx : ((Builder.new {}).stepsIn .sorted
      ([Step.declare "g" ["q"] .null [.expr (.subscript "q" [.num ⟨1⟩])],
        .declare "c" ["p"] .null [.expr (.var "p")],
        .begin [.expr (.call "c" [.var "x"] .null)], .resolve,
        .expr (.call "g" [.node ⟨4⟩] .null)] ++ [.resolve])).2.resolver.symbols.get? none "x" =
      some ⟨.scalar, some ⟨5⟩, .global, 0, some ⟨"c", 0⟩⟩ := by cbv
  obtain ⟨-, k, fn, hk, hfn, -, -, hflag⟩ := h none "x" _ _ hx rfl (.inl ⟨rfl, rfl⟩)
  have hc : ((Builder.new {}).stepsIn .sorted
      ([Step.declare "g" ["q"] .null [.expr (.subscript "q" [.num ⟨1⟩])],
        .declare "c" ["p"] .null [.expr (.var "p")],
        .begin [.expr (.call "c" [.var "x"] .null)], .resolve,
        .expr (.call "g" [.node ⟨4⟩] .null)] ++ [.resolve])).2.resolver.functions.get? "c" =
      some 1 := by cbv
  have harr : (((Builder.new {}).stepsIn .sorted
      ([Step.declare "g" ["q"] .null [.expr (.subscript "q" [.num ⟨1⟩])],
        .declare "c" ["p"] .null [.expr (.var "p")],
        .begin [.expr (.call "c" [.var "x"] .null)], .resolve,
        .expr (.call "g" [.node ⟨4⟩] .null)] ++ [.resolve])).2.program.functions[1]?).map
        (·.arrays) = some [true] := by cbv
  -- the callee takes the parameter by reference, while the name stayed a scalar
  rw [show (⟨"c", 0⟩ : Deferral).callee = "c" from rfl, hc] at hk
  cases hk
  rw [hfn] at harr
  have htrue : fn.arrays = [true] := Option.some.inj harr
  rw [htrue] at hflag
  cases hflag

end Builder

end AwkNames
