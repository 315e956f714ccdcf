import AwkNames.Resolution.Kinds
import AwkNames.Proofs.Tables
import Mathlib.Data.List.Nodup

/-!
# Kind inference reaches one fixed point

A pending name waits for the kind of a parameter, which may itself wait for another parameter,
and so on. `Resolver.ResolvesTo r p e k` says that following these waits from the entry `e`
reaches an entry of known kind `k`; cycles and chains that end at an absent or unconstrained
entry resolve to nothing.

Each pass of inference visits the pending names in some order and copies a parameter's kind as
soon as it is known, so what a pass sets depends on the order. What the passes end with does
not: every pass only sets pending kinds to what they resolve to (`Resolver.Settles.inferIn`),
and a successful run stops where nothing more can be set, which fixes the table
(`Resolver.Settles.eq_of_closed`); so two runs that visit names in different orders end with
the same table (`Resolver.inferIn_ok_eq`).

* `VisitOrder.Lawful` : a visiting order lists each pending name once, and each global once;
* `Resolver.Settles r₀ r` : `r` is `r₀` with some pending kinds set to what they resolve to;
* `Resolver.Closed r` : no pending entry's parameter has a known kind.
-/

namespace AwkNames

/-- An order visits, in each pass, every pending name exactly once, and gives slots to every
global exactly once, as iterating over a hash map does. -/
def VisitOrder.Lawful (v : VisitOrder) : Prop :=
  ∀ t : SymbolTable, (v.worklist t).Perm t.pending ∧ (v.globals t).Perm t.globals.keys

namespace SymbolTable

theorem nodup_filterMap_of_key {α β : Type} {l : List α} {f : α → Option β} (key : α → β)
    (hf : ∀ x y, f x = some y → y = key x) (h : (l.map key).Nodup) : (l.filterMap f).Nodup := by
  induction l with
  | nil => simp
  | cons x l ih =>
    rw [List.map_cons, List.nodup_cons] at h
    rw [List.filterMap_cons]
    cases hx : f x with
    | none => exact ih h.2
    | some y =>
      refine List.nodup_cons.2 ⟨fun hy => h.1 ?_, ih h.2⟩
      obtain ⟨x', hx', hfx'⟩ := List.mem_filterMap.1 hy
      have hkey : key x = key x' := (hf x y hx).symm.trans (hf x' y hfx')
      rw [hkey]
      exact List.mem_map_of_mem hx'

theorem nodup_keys_allEntries (t : SymbolTable) :
    (t.allEntries.map fun e => (e.1, e.2.1)).Nodup := by
  simp only [allEntries, List.map_append, List.map_map, List.map_flatMap, Function.comp_def]
  rw [List.nodup_append]
  refine ⟨?_, ?_, ?_⟩
  · have h := List.Nodup.map (f := fun n => ((none : Option String), n))
      (fun a b hab => by cases hab; rfl) t.globals.nodup_keys
    simpa [NameMap.keys, Function.comp_def] using h
  · rw [List.nodup_flatMap]
    refine ⟨fun f hf => ?_, ?_⟩
    · have h := List.Nodup.map (f := fun n => (some f.1, n))
        (fun a b hab => by cases hab; rfl) f.2.nodup_keys
      simpa [NameMap.keys, Function.comp_def] using h
    · refine (t.scopes.sorted.imp fun {a b} hab => ?_)
      intro x hxa hxb
      obtain ⟨_, _, rfl⟩ := List.mem_map.1 hxa
      obtain ⟨_, _, heq⟩ := List.mem_map.1 hxb
      simp only [Prod.mk.injEq, Option.some.injEq] at heq
      exact absurd heq.1 (ne_of_gt hab)
  · intro a ha b hb hab
    obtain ⟨_, _, rfl⟩ := List.mem_map.1 ha
    obtain ⟨_, _, hb'⟩ := List.mem_flatMap.1 hb
    obtain ⟨_, _, rfl⟩ := List.mem_map.1 hb'
    simp at hab

theorem nodup_pending (t : SymbolTable) : t.pending.Nodup := by
  rw [pending_eq_filterMap]
  refine nodup_filterMap_of_key (fun e => (e.1, e.2.1)) (fun e y hy => ?_)
    t.nodup_keys_allEntries
  split at hy
  · cases hy; rfl
  · cases hy

end SymbolTable

theorem VisitOrder.sorted_lawful : VisitOrder.sorted.Lawful := fun _ =>
  ⟨List.Perm.refl _, List.Perm.refl _⟩

namespace Resolver

variable {p : Program}

/-- The parameter a deferral names: the callee must be declared and have a parameter at that
position. -/
def paramName? (r : Resolver) (p : Program) (d : Deferral) : Option String :=
  (r.functions.get? d.callee).bind (p.param? · d.arg)

theorem paramKind_eq (r : Resolver) (p : Program) (d : Deferral) :
    r.paramKind p d = match r.paramName? p d with
      | some q => r.symbols.kind (some d.callee) q
      | none => .unknown := rfl

/-- A parameter's kind reads only the table, the declared functions and their parameters. -/
theorem paramKind_congr {r r' : Resolver} {p' : Program} (hs : r'.symbols = r.symbols)
    (hf : r'.functions = r.functions) (hp : p'.functions = p.functions) (d : Deferral) :
    r'.paramKind p' d = r.paramKind p d := by
  simp only [paramKind, Program.param?, hs, hf, hp]

/-- Following the waits from an entry reaches an entry of known kind `k`. -/
inductive ResolvesTo (r : Resolver) (p : Program) : Option String × String → Kind → Prop where
  /-- An entry of known kind resolves to it. -/
  | known {o : Option String} {n : String} {s : Symbol} :
      r.symbols.get? o n = some s → s.kind ≠ .unknown → ResolvesTo r p (o, n) s.kind
  /-- An entry of unknown kind resolves to what the parameter it waits on resolves to. -/
  | follow {o : Option String} {n : String} {s : Symbol} {d : Deferral} {q : String} {k : Kind} :
      r.symbols.get? o n = some s → s.kind = .unknown → s.waitsOn = some d →
        r.paramName? p d = some q → ResolvesTo r p (some d.callee, q) k → ResolvesTo r p (o, n) k

theorem ResolvesTo.ne_unknown {r : Resolver} {e : Option String × String} {k : Kind}
    (h : r.ResolvesTo p e k) : k ≠ .unknown := by
  induction h with
  | known _ hk => exact hk
  | follow _ _ _ _ _ ih => exact ih

theorem ResolvesTo.unique {r : Resolver} {e : Option String × String} {k₁ k₂ : Kind}
    (h₁ : r.ResolvesTo p e k₁) (h₂ : r.ResolvesTo p e k₂) : k₁ = k₂ := by
  induction h₁ generalizing k₂ with
  | known hs hk =>
    cases h₂ with
    | known hs' _ => rw [hs] at hs'; cases hs'; rfl
    | follow hs' hu _ _ _ => rw [hs] at hs'; cases hs'; exact absurd hu hk
  | follow hs hu hw hq _ ih =>
    cases h₂ with
    | known hs' hk => rw [hs] at hs'; cases hs'; exact absurd hu hk
    | follow hs' _ hw' hq' h' =>
      rw [hs] at hs'; cases hs'
      rw [hw] at hw'; cases hw'
      rw [hq] at hq'; cases hq'
      exact ih h'

/-- The resolver with every symbol's kind replaced by `κ` at its owner and name. -/
def withKinds (r : Resolver) (κ : Option String → String → Kind) : Resolver :=
  { r with symbols := r.symbols.mapEntries fun o n s => { s with kind := κ o n } }

@[simp]
theorem withKinds_functions (r : Resolver) (κ : Option String → String → Kind) :
    (r.withKinds κ).functions = r.functions := rfl

@[simp]
theorem paramName?_withKinds (r : Resolver) (κ : Option String → String → Kind) (d : Deferral) :
    (r.withKinds κ).paramName? p d = r.paramName? p d := rfl

theorem get?_withKinds (r : Resolver) (κ : Option String → String → Kind) (o : Option String)
    (n : String) :
    (r.withKinds κ).symbols.get? o n = (r.symbols.get? o n).map fun s => { s with kind := κ o n } :=
  SymbolTable.get?_mapEntries _ _ _ _

/-- `r` is `r₀` part way through inference: only kinds differ, and each kind that differs is
what a pending entry of `r₀` resolves to. -/
def Settles (r₀ r : Resolver) (p : Program) : Prop :=
  ∃ κ : Option String → String → Kind, r = r₀.withKinds κ ∧
    ∀ o n s, r₀.symbols.get? o n = some s →
      κ o n = s.kind ∨ (s.isPending = true ∧ r₀.ResolvesTo p (o, n) (κ o n))

/-- No pending entry waits on a parameter whose kind is known. -/
def Closed (r : Resolver) (p : Program) : Prop :=
  ∀ o n s d, r.symbols.get? o n = some s → s.kind = .unknown → s.waitsOn = some d →
    r.paramKind p d = .unknown

theorem settle_of_waits {r : Resolver} {o : Option String} {n : String} {s : Symbol}
    {d : Deferral} (hs : r.symbols.get? o n = some s) (hw : s.waitsOn = some d) :
    r.settle p (o, n) = if r.paramKind p d = .unknown then r
      else { r with symbols := r.symbols.insert o n { s with kind := r.paramKind p d } } := by
  simp [settle, hs, hw]

theorem get?_withKinds_eq_some {r : Resolver} {κ : Option String → String → Kind}
    {o : Option String} {n : String} {s : Symbol} (h : (r.withKinds κ).symbols.get? o n = some s) :
    ∃ s₀, r.symbols.get? o n = some s₀ ∧ s = { s₀ with kind := κ o n } := by
  rw [get?_withKinds, Option.map_eq_some_iff] at h
  obtain ⟨s₀, hs₀, rfl⟩ := h
  exact ⟨s₀, hs₀, rfl⟩

theorem Settles.refl (r₀ : Resolver) : Settles r₀ r₀ p := by
  refine ⟨r₀.symbols.kind, ?_, fun o n s hs => .inl (SymbolTable.kind_of_get? hs)⟩
  have hsym : r₀.symbols.mapEntries (fun o n s => { s with kind := r₀.symbols.kind o n }) =
      r₀.symbols.mapEntries fun _ _ s => s :=
    r₀.symbols.mapEntries_congr fun o n s hs => by rw [SymbolTable.kind_of_get? hs]
  simp only [withKinds, hsym, SymbolTable.mapEntries_id]

/-- A chain that resolves part way through inference already resolved at its start. -/
theorem Settles.resolvesTo {r₀ r : Resolver} (h : Settles r₀ r p) {e : Option String × String}
    {k : Kind} (hk : r.ResolvesTo p e k) : r₀.ResolvesTo p e k := by
  obtain ⟨κ, rfl, hκ⟩ := h
  induction hk with
  | known hs hne =>
    obtain ⟨s₀, hs₀, rfl⟩ := get?_withKinds_eq_some hs
    rcases hκ _ _ _ hs₀ with heq | ⟨_, hres⟩
    · simp only [heq] at hne ⊢
      exact .known hs₀ hne
    · exact hres
  | follow hs hu hw hq _ ih =>
    obtain ⟨s₀, hs₀, rfl⟩ := get?_withKinds_eq_some hs
    have hu₀ : s₀.kind = .unknown := by
      rcases hκ _ _ _ hs₀ with heq | ⟨_, hres⟩
      · rw [← heq]; exact hu
      · exact absurd hu hres.ne_unknown
    exact .follow hs₀ hu₀ hw hq ih

/-- Settling a pending entry keeps the resolver part way through inference. -/
theorem Settles.settle {r₀ r : Resolver} (h : Settles r₀ r p)
    {o : Option String} {n : String} {s : Symbol} (hs : r.symbols.get? o n = some s)
    (hp : s.isPending = true) : Settles r₀ (r.settle p (o, n)) p := by
  have h' := h
  obtain ⟨κ, rfl, hκ⟩ := h
  obtain ⟨s₀, hs₀, rfl⟩ := get?_withKinds_eq_some hs
  obtain ⟨hu, hw⟩ := (Symbol.isPending_iff _).1 hp
  obtain ⟨d, hd⟩ := Option.isSome_iff_exists.1 hw
  simp only at hu hd
  rw [settle_of_waits hs hd]
  split_ifs with hK
  · exact h'
  set K := (r₀.withKinds κ).paramKind p d with hKdef
  refine ⟨fun o' n' => if o' = o ∧ n' = n then K else κ o' n', ?_, fun o' n' s' hs' => ?_⟩
  · have hin : ((r₀.withKinds κ).symbols.get? o n).isSome := by simp [hs]
    rw [SymbolTable.insert_eq_mapEntries _ hin]
    simp only [withKinds, SymbolTable.mapEntries_mapEntries]
    congr 1
    refine r₀.symbols.mapEntries_congr fun o' n' s' hs' => ?_
    by_cases he : o' = o ∧ n' = n
    · obtain ⟨rfl, rfl⟩ := he
      rw [hs₀] at hs'
      cases hs'
      simp
    · simp [he]
  · by_cases he : o' = o ∧ n' = n
    · obtain ⟨rfl, rfl⟩ := he
      rw [hs₀] at hs'
      cases hs'
      simp only [and_self, if_true]
      have hu₀ : s₀.kind = .unknown := by
        rcases hκ _ _ _ hs₀ with heq | ⟨_, hres⟩
        · rw [← heq]; exact hu
        · exact absurd hu hres.ne_unknown
      refine .inr ⟨(Symbol.isPending_iff _).2 ⟨hu₀, by simp [hd]⟩, ?_⟩
      rw [paramKind_eq] at hKdef
      cases hq : (r₀.withKinds κ).paramName? p d with
      | none => simp [hq] at hKdef; exact absurd hKdef hK
      | some q =>
        simp only [hq] at hKdef
        cases hqs : (r₀.withKinds κ).symbols.get? (some d.callee) q with
        | none => rw [SymbolTable.kind_of_get?_none hqs] at hKdef; exact absurd hKdef hK
        | some sq =>
          rw [SymbolTable.kind_of_get? hqs] at hKdef
          have hres : (r₀.withKinds κ).ResolvesTo p (some d.callee, q) K := by
            rw [hKdef]
            exact .known hqs (by rw [← hKdef]; exact hK)
          exact .follow hs₀ hu₀ hd hq (Settles.resolvesTo h' hres)
    · simp only [he, if_false]
      exact hκ o' n' s' hs'

/-- One pass over pending entries, each listed once, either sets nothing, and then every
parameter they wait on is still of unknown kind, or leaves fewer pending entries. -/
theorem Settles.passOver {r₀ : Resolver} :
    ∀ (W : List (Option String × String)) (r : Resolver), Settles r₀ r p → W.Nodup →
      (∀ e ∈ W, e ∈ r.symbols.pending) →
      Settles r₀ (r.passOver p W) p ∧
        ((r.passOver p W = r ∧ ∀ e ∈ W, ∀ s d, r.symbols.get? e.1 e.2 = some s →
            s.waitsOn = some d → r.paramKind p d = .unknown) ∨
          (r.passOver p W).pendingCount < r.pendingCount) := by
  intro W
  induction W with
  | nil => intro r h _ _; exact ⟨h, .inl ⟨rfl, by simp⟩⟩
  | cons e W ih =>
    intro r h hnd hpend
    obtain ⟨o, n⟩ := e
    rw [List.nodup_cons] at hnd
    obtain ⟨s, hs, hp⟩ := r.symbols.mem_pending.1 (hpend _ List.mem_cons_self)
    obtain ⟨hu, hw⟩ := (Symbol.isPending_iff _).1 hp
    obtain ⟨d, hd⟩ := Option.isSome_iff_exists.1 hw
    have hstep : r.passOver p ((o, n) :: W) = (r.settle p (o, n)).passOver p W := rfl
    by_cases hK : r.paramKind p d = .unknown
    · have hset : r.settle p (o, n) = r := by rw [settle_of_waits hs hd, if_pos hK]
      rw [hstep, hset]
      obtain ⟨h', hcase⟩ := ih r h hnd.2 fun e he => hpend e (List.mem_cons_of_mem _ he)
      refine ⟨h', ?_⟩
      rcases hcase with ⟨heq, hall⟩ | hlt
      · refine .inl ⟨heq, fun e he s' d' hs' hd' => ?_⟩
        rcases List.mem_cons.1 he with rfl | he
        · rw [hs] at hs'; cases hs'; rw [hd] at hd'; cases hd'; exact hK
        · exact hall e he s' d' hs' hd'
      · exact .inr hlt
    · set r₁ := r.settle p (o, n) with hr₁
      have h₁ : Settles r₀ r₁ p := h.settle hs hp
      have hsym : r₁.symbols = r.symbols.insert o n { s with kind := r.paramKind p d } := by
        rw [hr₁, settle_of_waits hs hd, if_neg hK]
      have hin : (r.symbols.get? o n).isSome := by simp [hs]
      have hlt₁ : r₁.pendingCount < r.pendingCount := by
        unfold pendingCount
        rw [hsym, SymbolTable.insert_eq_mapEntries _ hin]
        refine SymbolTable.length_pending_mapEntries_lt _ (fun o' n' s' hq => ?_) hs hp ?_
        · split at hq
          · simp [Symbol.isPending, hK] at hq
          · exact hq
        · simp [Symbol.isPending, hK]
      have hpend₁ : ∀ e ∈ W, e ∈ r₁.symbols.pending := by
        intro e he
        have hne : e ≠ (o, n) := fun heq => hnd.1 (heq ▸ he)
        obtain ⟨s', hs', hp'⟩ := r.symbols.mem_pending.1 (hpend e (List.mem_cons_of_mem _ he))
        refine r₁.symbols.mem_pending.2 ⟨s', ?_, hp'⟩
        rw [hsym, SymbolTable.get?_insert, if_neg fun hc => hne (Prod.ext hc.1.symm hc.2.symm)]
        exact hs'
      rw [hstep]
      obtain ⟨h', hcase⟩ := ih r₁ h₁ hnd.2 hpend₁
      refine ⟨h', .inr ?_⟩
      rcases hcase with ⟨heq, -⟩ | hlt
      · rw [heq]; exact hlt₁
      · exact lt_trans hlt hlt₁

/-- A pass over the worklist of a lawful order. -/
theorem Settles.passOver_worklist {r₀ r : Resolver} {v : VisitOrder}
    (hv : v.Lawful) (h : Settles r₀ r p) :
    Settles r₀ (r.passOver p (v.worklist r.symbols)) p ∧
      ((r.passOver p (v.worklist r.symbols) = r ∧ Closed r p) ∨
        (r.passOver p (v.worklist r.symbols)).pendingCount < r.pendingCount) := by
  have hperm := (hv r.symbols).1
  obtain ⟨h', hcase⟩ := h.passOver (v.worklist r.symbols) r
    (hperm.nodup_iff.2 r.symbols.nodup_pending) fun e he => hperm.subset he
  refine ⟨h', ?_⟩
  rcases hcase with ⟨heq, hall⟩ | hlt
  · refine .inl ⟨heq, fun o n s d hs hu hd => ?_⟩
    -- a pending entry is on the worklist, where its parameter was found unknown
    have hp : s.isPending = true := (Symbol.isPending_iff _).2 ⟨hu, by simp [hd]⟩
    exact hall (o, n) (hperm.symm.subset (r.symbols.mem_pending.2 ⟨s, hs, hp⟩)) s d hs hd
  · exact .inr hlt

/-- Inference keeps the resolver part way through, and when it succeeds no pending entry can
be settled any further. -/
theorem Settles.inferIn {r₀ : Resolver} {v : VisitOrder}
    (hv : v.Lawful) (r : Resolver) (done : Nat) (h : Settles r₀ r p) :
    Settles r₀ (r.inferIn v p done).2 p ∧
      ((r.inferIn v p done).1 = .ok () → Closed (r.inferIn v p done).2 p) := by
  fun_induction Resolver.inferIn v r p done with
  | case1 r done r' hlt hmax =>
    exact ⟨(h.passOver_worklist hv).1, by simp⟩
  | case2 r done r' hlt hmax ih =>
    exact ih (h.passOver_worklist hv).1
  | case3 r done r' hnlt =>
    obtain ⟨h', hcase⟩ := h.passOver_worklist hv
    refine ⟨h', fun _ => ?_⟩
    rcases hcase with ⟨heq, hclosed⟩ | hlt
    · change Closed (r.passOver p (v.worklist r.symbols)) p
      rw [heq]
      exact hclosed
    · exact absurd hlt hnlt

/-- Inference from a resolver only settles its kinds, and when it succeeds it stops where no
pending entry can be settled any further. -/
theorem inferIn_settles {v : VisitOrder} (hv : v.Lawful) (r : Resolver) (done : Nat) :
    Settles r (r.inferIn v p done).2 p ∧
      ((r.inferIn v p done).1 = .ok () → Closed (r.inferIn v p done).2 p) :=
  Settles.inferIn hv r done (Settles.refl r)

/-- At a fixed point, an entry has the kind it resolves to. -/
theorem Settles.kind_of_resolvesTo {r₀ r : Resolver} (h : Settles r₀ r p) (hc : Closed r p)
    {e : Option String × String} {k : Kind} (hk : r₀.ResolvesTo p e k) :
    r.symbols.kind e.1 e.2 = k := by
  obtain ⟨κ, rfl, hκ⟩ := h
  induction hk with
  | @known o n s hs hne =>
    have hκs : κ o n = s.kind := by
      rcases hκ _ _ _ hs with heq | ⟨hp, -⟩
      · exact heq
      · exact absurd ((Symbol.isPending_iff _).1 hp).1 hne
    simp [SymbolTable.kind, get?_withKinds, hs, hκs]
  | @follow o n s d q k hs hu hw hq _ ih =>
    have hget : (r₀.withKinds κ).symbols.get? o n = some { s with kind := κ o n } := by
      simp [get?_withKinds, hs]
    rcases hκ _ _ _ hs with heq | ⟨-, hres⟩
    · -- still unknown: then closure says its parameter is unknown, but it resolves to `k`
      exfalso
      have hclosed := hc o n _ d hget (by simp [heq, hu]) hw
      rw [paramKind_eq, paramName?_withKinds, hq] at hclosed
      simp only at hclosed ih
      rw [hclosed] at ih
      exact (ResolvesTo.ne_unknown (.follow hs hu hw hq ‹_›)) ih.symm
    · have := hres.unique (.follow hs hu hw hq ‹_›)
      simp [SymbolTable.kind, hget, this]

/-- A known kind part way through inference is what the entry resolves to. -/
theorem Settles.resolvesTo_kind {r₀ r : Resolver} (h : Settles r₀ r p) {o : Option String}
    {n : String} {s : Symbol} (hs : r₀.symbols.get? o n = some s)
    (hk : r.symbols.kind o n ≠ .unknown) : r₀.ResolvesTo p (o, n) (r.symbols.kind o n) := by
  obtain ⟨κ, rfl, hκ⟩ := h
  have hkind : (r₀.withKinds κ).symbols.kind o n = κ o n := by
    simp [SymbolTable.kind, get?_withKinds, hs]
  rw [hkind] at hk ⊢
  rcases hκ o n s hs with heq | ⟨-, hres⟩
  · rw [heq] at hk ⊢
    exact .known hs hk
  · exact hres

/-- Two resolvers part way through inference from the same start, at which nothing more can be
settled, are equal. -/
theorem Settles.eq_of_closed {r₀ r₁ r₂ : Resolver}
    (h₁ : Settles r₀ r₁ p) (h₂ : Settles r₀ r₂ p) (c₁ : Closed r₁ p) (c₂ : Closed r₂ p) :
    r₁ = r₂ := by
  have h₁' := h₁
  have h₂' := h₂
  obtain ⟨κ₁, rfl, -⟩ := h₁
  obtain ⟨κ₂, rfl, -⟩ := h₂
  simp only [withKinds]
  congr 1
  refine r₀.symbols.mapEntries_congr fun o n s hs => ?_
  have hk₁ : (r₀.withKinds κ₁).symbols.kind o n = κ₁ o n := by
    simp [SymbolTable.kind, get?_withKinds, hs]
  have hk₂ : (r₀.withKinds κ₂).symbols.kind o n = κ₂ o n := by
    simp [SymbolTable.kind, get?_withKinds, hs]
  -- a kind known on one side is what the entry resolves to, so the other side has it too
  have hkind : κ₁ o n = κ₂ o n := by
    by_cases hu₁ : κ₁ o n = .unknown
    · by_cases hu₂ : κ₂ o n = .unknown
      · rw [hu₁, hu₂]
      · have hres := h₂'.resolvesTo_kind hs (by rw [hk₂]; exact hu₂)
        have := h₁'.kind_of_resolvesTo c₁ hres
        rw [hk₁, hk₂] at this
        exact this
    · have hres := h₁'.resolvesTo_kind hs (by rw [hk₁]; exact hu₁)
      have := h₂'.kind_of_resolvesTo c₂ hres
      rw [hk₁, hk₂] at this
      exact this.symm
  rw [hkind]

/-- **Inference ends in the same resolver whatever the order.** Two runs from one resolver
that visit names in two lawful orders and both succeed end equal; only how many passes they
take may differ. -/
theorem inferIn_ok_eq {r : Resolver} {v w : VisitOrder}
    (hv : v.Lawful) (hw : w.Lawful) {m n : Nat} (h₁ : (r.inferIn v p m).1 = .ok ())
    (h₂ : (r.inferIn w p n).1 = .ok ()) : (r.inferIn v p m).2 = (r.inferIn w p n).2 := by
  obtain ⟨s₁, c₁⟩ := inferIn_settles (p := p) hv r m
  obtain ⟨s₂, c₂⟩ := inferIn_settles (p := p) hw r n
  exact Settles.eq_of_closed s₁ s₂ (c₁ h₁) (c₂ h₂)

end Resolver

end AwkNames
