import AwkNames.Proofs.Resolution

/-!
# The kind an entry resolves to, computed

`Resolver.ResolvesTo` says which known kind a chain of waits reaches. Here the chain is
followed by a program: `Resolver.next?` is the entry an entry of unknown kind waits for,
`Resolver.walk` follows `j` waits, and `Resolver.chainKind` returns the first known kind met
within a number of entries. A chain that reaches a known kind visits no entry twice (a chain
that came back to an entry would go round forever), so it visits at most as many entries as
the table has; `Resolver.resolvedKind` follows that many, and agrees with `ResolvesTo`
(`Resolver.resolvesTo_iff`).

With this, what inference does is read off the table it starts from: every kind it changes
becomes the entry's resolved kind, and when it succeeds every entry has its resolved kind
(`Resolver.inferIn_resolvedKinds`). The resolved kind depends on no visiting order.
-/

namespace AwkNames

namespace Resolver

variable {p : Program}

/-- The entry an entry of unknown kind waits for: the parameter its deferral names, in the
callee's table. An absent entry, one with a kind, and one whose deferral names no parameter
wait for nothing. -/
def next? (r : Resolver) (p : Program) (e : Option String × String) :
    Option (Option String × String) :=
  match r.symbols.get? e.1 e.2 with
  | some s =>
    if s.kind = .unknown then
      s.waitsOn.bind fun d => (r.paramName? p d).map fun q => (some d.callee, q)
    else none
  | none => none

/-- The entry reached from `e` after `j` waits, if the chain goes that far. -/
def walk (r : Resolver) (p : Program) : Nat → Option String × String →
    Option (Option String × String)
  | 0, e => some e
  | j + 1, e => (r.next? p e).bind (r.walk p j)

/-- The first known kind on the chain from `e` within `fuel` entries; unknown when the chain
breaks first or the fuel runs out. -/
def chainKind (r : Resolver) (p : Program) : Nat → Option String × String → Kind
  | 0, _ => .unknown
  | fuel + 1, e =>
    if r.symbols.kind e.1 e.2 = .unknown then
      match r.next? p e with
      | some e' => r.chainKind p fuel e'
      | none => .unknown
    else r.symbols.kind e.1 e.2

/-- The kind an entry resolves to: its own kind when it has one; otherwise the kind the
parameter it waits on resolves to; unknown when a lookup fails or the chain comes back to an
entry it has visited. A chain that visits no entry twice passes at most as many entries as the
table has, so following that many decides it. -/
def resolvedKind (r : Resolver) (p : Program) (e : Option String × String) : Kind :=
  r.chainKind p r.symbols.allEntries.length e

/-! ### One wait -/

theorem next?_eq_some_iff {r : Resolver} {e e' : Option String × String} :
    r.next? p e = some e' ↔ ∃ s d q, r.symbols.get? e.1 e.2 = some s ∧ s.kind = .unknown ∧
      s.waitsOn = some d ∧ r.paramName? p d = some q ∧ e' = (some d.callee, q) := by
  unfold next?
  constructor
  · intro h
    split at h
    · rename_i s hs
      split at h
      · rename_i hk
        obtain ⟨d, hd, hmap⟩ := Option.bind_eq_some_iff.1 h
        obtain ⟨q, hq, rfl⟩ := Option.map_eq_some_iff.1 hmap
        exact ⟨s, d, q, hs, hk, hd, hq, rfl⟩
      · cases h
    · cases h
  · rintro ⟨s, d, q, hs, hk, hd, hq, rfl⟩
    simp [hs, hk, hd, hq]

/-- An entry with a known kind waits for nothing. -/
theorem next?_of_kind_ne {r : Resolver} {e : Option String × String}
    (h : r.symbols.kind e.1 e.2 ≠ .unknown) : r.next? p e = none := by
  cases hn : r.next? p e with
  | none => rfl
  | some e' =>
    obtain ⟨s, -, -, hs, hk, -⟩ := next?_eq_some_iff.1 hn
    rw [SymbolTable.kind_of_get? hs] at h
    exact absurd hk h

/-- An entry that waits for another is present and of unknown kind. -/
theorem kind_of_next? {r : Resolver} {e e' : Option String × String}
    (h : r.next? p e = some e') :
    r.symbols.kind e.1 e.2 = .unknown ∧ (r.symbols.get? e.1 e.2).isSome := by
  obtain ⟨s, -, -, hs, hk, -⟩ := next?_eq_some_iff.1 h
  exact ⟨(SymbolTable.kind_of_get? hs).trans hk, by simp [hs]⟩

/-! ### Walking the chain -/

theorem walk_succ (r : Resolver) (j : Nat) (e : Option String × String) :
    r.walk p (j + 1) e = (r.next? p e).bind (r.walk p j) := rfl

/-- Following `i + j` waits is following `i`, then `j`. -/
theorem walk_add (r : Resolver) (i j : Nat) (e : Option String × String) :
    r.walk p (i + j) e = (r.walk p i e).bind (r.walk p j) := by
  induction i generalizing e with
  | zero => simp [walk]
  | succ i ih =>
    rw [Nat.add_right_comm, walk_succ, walk_succ, Option.bind_assoc]
    congr 1
    funext e'
    exact ih e'

/-- A chain that has ended stays ended. -/
theorem walk_eq_none_of_le {r : Resolver} {i j : Nat} {e : Option String × String}
    (h : r.walk p i e = none) (hij : i ≤ j) : r.walk p j e = none := by
  obtain ⟨k, rfl⟩ := Nat.exists_eq_add_of_le hij
  rw [walk_add, h, Option.bind_none]

/-- After `j` waits through entries of unknown kind, the chain goes on from where they led. -/
theorem chainKind_walk {r : Resolver} {j : Nat} {e x : Option String × String}
    (h : r.walk p j e = some x) (m : Nat) : r.chainKind p (j + m) e = r.chainKind p m x := by
  induction j generalizing e with
  | zero =>
    cases h
    simp
  | succ j ih =>
    obtain ⟨e', he', hw⟩ := Option.bind_eq_some_iff.1 h
    rw [Nat.add_right_comm, chainKind, if_pos (kind_of_next? he').1, he']
    exact ih hw

/-- A chain that reaches an entry of known kind within its fuel returns that kind. -/
theorem chainKind_of_walk {r : Resolver} {j m : Nat} {e x : Option String × String}
    (h : r.walk p j e = some x) (hx : r.symbols.kind x.1 x.2 ≠ .unknown) (hjm : j < m) :
    r.chainKind p m e = r.symbols.kind x.1 x.2 := by
  obtain ⟨k, rfl⟩ := Nat.exists_eq_add_of_lt hjm
  rw [Nat.add_assoc, chainKind_walk h, chainKind, if_neg hx]

/-- A known kind found within the fuel is the kind of an entry the chain reaches. -/
theorem exists_walk_of_chainKind {r : Resolver} :
    ∀ {m : Nat} {e : Option String × String}, r.chainKind p m e ≠ .unknown →
      ∃ j < m, ∃ x, r.walk p j e = some x ∧ r.symbols.kind x.1 x.2 = r.chainKind p m e
  | 0, _, h => absurd rfl h
  | m + 1, e, h => by
    by_cases hk : r.symbols.kind e.1 e.2 = .unknown
    · cases hn : r.next? p e with
      | none => simp [chainKind, hk, hn] at h
      | some e' =>
        have hc : r.chainKind p (m + 1) e = r.chainKind p m e' := by
          simp [chainKind, hk, hn]
        rw [hc] at h ⊢
        obtain ⟨j, hj, x, hw, hx⟩ := exists_walk_of_chainKind h
        exact ⟨j + 1, by omega, x, by rw [walk_succ, hn, Option.bind_some, hw], hx⟩
    · exact ⟨0, by omega, e, rfl, by simp [chainKind, hk]⟩

/-! ### The chain against `ResolvesTo` -/

/-- A known kind found along the chain is what the entry resolves to. -/
theorem resolvesTo_chainKind {r : Resolver} :
    ∀ {m : Nat} {e : Option String × String}, r.chainKind p m e ≠ .unknown →
      r.ResolvesTo p e (r.chainKind p m e)
  | 0, _, h => absurd rfl h
  | m + 1, (o, n), h => by
    by_cases hk : r.symbols.kind o n = .unknown
    · cases hn : r.next? p (o, n) with
      | none => simp [chainKind, hk, hn] at h
      | some e' =>
        have hc : r.chainKind p (m + 1) (o, n) = r.chainKind p m e' := by
          simp [chainKind, hk, hn]
        rw [hc] at h ⊢
        obtain ⟨s, d, q, hs, hu, hd, hq, rfl⟩ := next?_eq_some_iff.1 hn
        exact .follow hs hu hd hq (resolvesTo_chainKind h)
    · obtain ⟨s, hs⟩ := Option.isSome_iff_exists.1 (Builder.isSome_of_kind_ne hk)
      rw [SymbolTable.kind_of_get? hs] at hk
      have hc : r.chainKind p (m + 1) (o, n) = s.kind := by
        simp only [chainKind, SymbolTable.kind_of_get? hs, if_neg hk]
      rw [hc]
      exact .known hs hk

/-- An entry that resolves reaches, after some waits, an entry of that kind. -/
theorem exists_walk_of_resolvesTo {r : Resolver} {e : Option String × String} {k : Kind}
    (h : r.ResolvesTo p e k) : ∃ j x, r.walk p j e = some x ∧ r.symbols.kind x.1 x.2 = k := by
  induction h with
  | @known o n s hs _ => exact ⟨0, (o, n), rfl, SymbolTable.kind_of_get? hs⟩
  | @follow o n s d q _ hs hu hw hq _ ih =>
    obtain ⟨j, x, hwalk, hx⟩ := ih
    have hn : r.next? p (o, n) = some (some d.callee, q) :=
      next?_eq_some_iff.2 ⟨s, d, q, hs, hu, hw, hq, rfl⟩
    exact ⟨j + 1, x, by rw [walk_succ, hn, Option.bind_some, hwalk], hx⟩

/-! ### A chain that ends visits each entry once -/

/-- Up to an entry of known kind, the chain visits no entry twice: a chain that came back to
an entry would go round forever and never end, but an entry of known kind ends it. -/
theorem walk_ne_of_lt {r : Resolver} {d : Nat} {e x : Option String × String}
    (hd : r.walk p d e = some x) (hx : r.symbols.kind x.1 x.2 ≠ .unknown) {i j : Nat}
    (hij : i < j) (hjd : j ≤ d) : r.walk p i e ≠ r.walk p j e := by
  intro heq
  -- one step past the known entry the chain has ended
  have hend : r.walk p (d + 1) e = none := by
    rw [walk_add, hd, Option.bind_some, walk_succ, next?_of_kind_ne hx, Option.bind_none]
  -- but from `j` on it repeats what it did from `i`, which had not ended by then
  have hrep : r.walk p (d + 1) e = r.walk p (i + (d + 1 - j)) e := by
    rw [show d + 1 = j + (d + 1 - j) by omega, walk_add, ← heq, ← walk_add]
    congr 1
    omega
  have hlive : r.walk p (i + (d + 1 - j)) e ≠ none := fun hn => by
    have := walk_eq_none_of_le hn (show i + (d + 1 - j) ≤ d by omega)
    rw [hd] at this
    cases this
  exact hlive (hrep ▸ hend)

/-- Every entry the chain visits up to an entry of known kind is in the table. -/
theorem walk_isSome_get? {r : Resolver} {d : Nat} {e x : Option String × String}
    (hd : r.walk p d e = some x) (hx : r.symbols.kind x.1 x.2 ≠ .unknown) {i : Nat}
    (hid : i ≤ d) : ∃ y, r.walk p i e = some y ∧ (r.symbols.get? y.1 y.2).isSome := by
  cases hi : r.walk p i e with
  | none =>
    have := walk_eq_none_of_le hi hid
    rw [hd] at this
    cases this
  | some y =>
    refine ⟨y, rfl, ?_⟩
    rcases Nat.lt_or_eq_of_le hid with hlt | rfl
    · cases hn : r.next? p y with
      | none =>
        have hend : r.walk p (i + 1) e = none := by
          rw [walk_add, hi, Option.bind_some, walk_succ, hn, Option.bind_none]
        have := walk_eq_none_of_le hend hlt
        rw [hd] at this
        cases this
      | some y' => exact (kind_of_next? hn).2
    · rw [hd] at hi
      cases hi
      exact Builder.isSome_of_kind_ne hx

/-- **A chain that ends takes fewer waits than the table has entries.** -/
theorem lt_length_of_walk {r : Resolver} {d : Nat}
    {e x : Option String × String} (hd : r.walk p d e = some x)
    (hx : r.symbols.kind x.1 x.2 ≠ .unknown) : d < r.symbols.allEntries.length := by
  let visited := (List.range (d + 1)).map fun i => r.walk p i e
  have hnodup : visited.Nodup := by
    refine List.Nodup.map_on (fun i hi j hj hij => ?_) List.nodup_range
    rw [List.mem_range] at hi hj
    rcases Nat.lt_trichotomy i j with hlt | heq | hgt
    · exact absurd hij (walk_ne_of_lt hd hx hlt (by omega))
    · exact heq
    · exact absurd hij.symm (walk_ne_of_lt hd hx hgt (by omega))
  have hsub : visited ⊆ r.symbols.allEntries.map fun a => some (a.1, a.2.1) := by
    intro y hy
    obtain ⟨i, hi, rfl⟩ := List.mem_map.1 hy
    obtain ⟨z, hz, hget⟩ := walk_isSome_get? hd hx (Nat.lt_succ_iff.1 (List.mem_range.1 hi))
    obtain ⟨s, hs⟩ := Option.isSome_iff_exists.1 hget
    exact List.mem_map.2 ⟨(z.1, z.2, s), r.symbols.mem_allEntries.2 hs, by rw [hz]⟩
  have := hnodup.length_le_of_subset hsub
  simp only [visited, List.length_map, List.length_range] at this
  omega

/-- **The computed kind is the kind an entry resolves to.** An entry resolves to `k` exactly
when `k` is known and it is the entry's resolved kind. -/
theorem resolvesTo_iff {r : Resolver} {e : Option String × String}
    {k : Kind} : r.ResolvesTo p e k ↔ k ≠ .unknown ∧ r.resolvedKind p e = k := by
  constructor
  · intro h
    obtain ⟨d, x, hw, hx⟩ := exists_walk_of_resolvesTo h
    have hk : k ≠ .unknown := h.ne_unknown
    rw [← hx] at hk ⊢
    exact ⟨hk, chainKind_of_walk hw hk (lt_length_of_walk hw hk)⟩
  · rintro ⟨hk, rfl⟩
    exact resolvesTo_chainKind hk

/-- An entry that resolves to nothing has resolved kind unknown. -/
theorem resolvedKind_of_not_resolvesTo {r : Resolver} {e : Option String × String}
    (h : ∀ k, ¬ r.ResolvesTo p e k) : r.resolvedKind p e = .unknown := by
  by_contra hk
  exact h _ (resolvesTo_chainKind hk)

/-! ### What inference computes -/

/-- Part way through inference, each kind is the entry's own or its resolved kind. -/
theorem Settles.kind_eq {r₀ r : Resolver} (h : Settles r₀ r p) :
    ∃ κ : Option String → String → Kind, r = r₀.withKinds κ ∧
      ∀ o n s, r₀.symbols.get? o n = some s → κ o n = s.kind ∨ κ o n = r₀.resolvedKind p (o, n) := by
  obtain ⟨κ, rfl, hκ⟩ := h
  refine ⟨κ, rfl, fun o n s hs => ?_⟩
  rcases hκ o n s hs with heq | ⟨-, hres⟩
  · exact .inl heq
  · exact .inr (resolvesTo_iff.1 hres).2.symm

/-- At a fixed point, every entry has its resolved kind. -/
theorem Settles.eq_withKinds_resolvedKind {r₀ r : Resolver} (h : Settles r₀ r p) (hc : Closed r p) : r = r₀.withKinds fun o n => r₀.resolvedKind p (o, n) := by
  have h' := h
  obtain ⟨κ, rfl, hκ⟩ := h
  simp only [withKinds]
  congr 1
  refine r₀.symbols.mapEntries_congr fun o n s hs => ?_
  congr 1
  by_cases hres : ∃ k, r₀.ResolvesTo p (o, n) k
  · obtain ⟨k, hk⟩ := hres
    have hend := h'.kind_of_resolvesTo hc hk
    simp only [SymbolTable.kind, get?_withKinds, hs, Option.map_some, Option.getD_some] at hend
    rw [hend, (resolvesTo_iff.1 hk).2]
  · have hno : ∀ k, ¬ r₀.ResolvesTo p (o, n) k := fun k hk => hres ⟨k, hk⟩
    rw [resolvedKind_of_not_resolvesTo hno]
    rcases hκ o n s hs with heq | ⟨-, hk⟩
    · rw [heq]
      by_contra hne
      exact hno _ (.known hs hne)
    · exact absurd hk (hno _)

/-- **Inference computes the resolved kinds.** In any lawful order and whatever the pass
limit, inference changes nothing but kinds, and every kind it changes becomes the entry's
resolved kind; when it succeeds, every entry has its resolved kind. So the kinds do not depend
on the order in which the pending names are visited. -/
theorem inferIn_resolvedKinds {r : Resolver} {v : VisitOrder} (hv : v.Lawful) (done : Nat) :
    (∃ κ : Option String → String → Kind, (r.inferIn v p done).2 = r.withKinds κ ∧
      ∀ o n s, r.symbols.get? o n = some s → κ o n = s.kind ∨ κ o n = r.resolvedKind p (o, n)) ∧
    ((r.inferIn v p done).1 = .ok () →
      (r.inferIn v p done).2 = r.withKinds fun o n => r.resolvedKind p (o, n)) := by
  obtain ⟨hs, hc⟩ := inferIn_settles (p := p) hv r done
  exact ⟨hs.kind_eq, fun hok => hs.eq_withKinds_resolvedKind (hc hok)⟩

/-- Inference on the table that `BEGIN { f(x) }` builds, with `function g(b) { b }` used as an
array and `function f(a) { g(a) }`: `x` waits on `a`, which waits on `b`. -/
theorem inferIn_resolvedKinds_chain :
    let b := ((Builder.new {}).stepsIn .sorted
      [.declare "g" ["b"] .null [.expr (.array "b")],
        .declare "f" ["a"] .null [.expr (.call "g" [.var "a"] .null)],
        .begin [.expr (.call "f" [.var "x"] .null)]]).2
    VisitOrder.sorted.Lawful ∧
      (∃ κ : Option String → String → Kind, (b.resolver.inferIn .sorted b.program 0).2 =
          b.resolver.withKinds κ ∧
        ∀ o n s, b.resolver.symbols.get? o n = some s →
          κ o n = s.kind ∨ κ o n = b.resolver.resolvedKind b.program (o, n)) ∧
      ((b.resolver.inferIn .sorted b.program 0).1 = .ok () →
        (b.resolver.inferIn .sorted b.program 0).2 =
          b.resolver.withKinds fun o n => b.resolver.resolvedKind b.program (o, n)) :=
  ⟨VisitOrder.sorted_lawful, inferIn_resolvedKinds VisitOrder.sorted_lawful 0⟩

end Resolver

end AwkNames
