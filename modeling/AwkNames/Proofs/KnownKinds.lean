import AwkNames.Proofs.Resolution
import Mathlib

/-!
# Which variables end with a kind

Kind inference leaves unknown every name whose waits lead to no known kind: a cycle of
parameters passed to one another, or a parameter that is never used. The slot phases then
make every parameter of a declared function, and every global that is not special, a scalar
unless it is an array. A special variable is passed over: it keeps its fixed slot and the kind
inference left it, so one passed bare to a parameter that is never used stays unknown.

* `Resolver.ResolvesTo.congr` : following waits reads only the table and the ordinals;
* `Builder.Wf.resolveIn_special_kind` : after a successful resolution a special variable is
  unknown exactly when its waits, as they stood before, lead to no known kind;
* `Builder.runs_resolve_kinds` : after any run of operations and a successful resolution,
  every global that is not special and every entry of a declared function's table is a scalar
  or an array, and a special variable is unknown exactly when its waits lead to no known kind;
* `Builder.stepsIn_resolve_specialUnknown` : `BEGIN { f(NR) }` with `function f(a) {}`
  resolves and leaves `NR` unknown.
-/

namespace AwkNames

/-- Following waits reads only the table and the ordinals of the functions. -/
theorem Resolver.ResolvesTo.congr {r r' : Resolver} {p : Program} (hs : r'.symbols = r.symbols)
    (hf : r'.functions = r.functions) {e : Option String × String} {k : Kind}
    (h : r.ResolvesTo p e k) : r'.ResolvesTo p e k := by
  induction h with
  | known hget hk => exact .known (hs ▸ hget) hk
  | follow hget hu hw hq _ ih =>
    refine .follow (hs ▸ hget) hu hw ?_ ih
    rwa [Resolver.paramName?, hf]

namespace Builder

variable {b : Builder}

/-- **A special variable after a successful resolution** is unknown exactly when following its
waits, as they stood before resolution, reaches no known kind. -/
theorem Wf.resolveIn_special_kind (hb : b.Wf) {v : VisitOrder} (hv : v.Lawful) {b' : Builder}
    (h : b.resolveIn v = (.ok (), b')) {x : String} {s : Symbol}
    (hx : b'.resolver.symbols.get? none x = some s) (hs : s.scope = .special) :
    s.kind = .unknown ↔ ∀ k, ¬ b.resolver.ResolvesTo b.program (none, x) k := by
  obtain ⟨bs, r, -, hi, rfl⟩ := Builder.resolveIn_eq_ok h
  have h₃ := (hb.inferIn_of_eq hv hi).bindCalls
  -- the globals are settled by the global phase, which keeps a special variable's kind
  rw [patch_resolver, SymbolTable.get?, assignLocalSlots_globals,
    assignGlobalSlotsIn_globals (hv _).2, NameMap.get?_mapValues] at hx
  obtain ⟨s₁, hs₁, rfl⟩ := Option.map_eq_some_iff.1 hx
  rw [settled_scope] at hs
  have hkind : ∀ special acc, (GlobalSlots.settled special acc x s₁).kind = s₁.kind := by
    simp [GlobalSlots.settled, hs]
  have hr : r.symbols.get? none x = some s₁ := by
    rw [bindCalls_resolver] at hs₁
    exact hs₁
  rw [hkind, ← SymbolTable.kind_of_get? hr]
  have hinf := Resolver.inferIn_settles (p := b.program) hv { b.resolver with bindings := bs } 0
  rw [hi] at hinf
  obtain ⟨hset, hclosed⟩ := hinf
  have hc : r.Closed b.program := hclosed rfl
  obtain ⟨s₀, hs₀⟩ : ∃ s₀, b.resolver.symbols.get? none x = some s₀ := by
    obtain ⟨κ, rfl, -⟩ := hset
    obtain ⟨s₀, hs₀, -⟩ := Resolver.get?_withKinds_eq_some hr
    exact ⟨s₀, hs₀⟩
  -- a chain reads only the table and the ordinals, which checking the calls left alone
  constructor
  · intro hu k hk
    have hk₀ : Resolver.ResolvesTo { b.resolver with bindings := bs } b.program (none, x) k := by
      refine hk.congr ?_ ?_ <;> rfl
    have := hset.kind_of_resolvesTo hc hk₀
    rw [hu] at this
    exact hk.ne_unknown this.symm
  · intro hno
    by_contra hne
    have hres : b.resolver.ResolvesTo b.program (none, x) (r.symbols.kind none x) := by
      refine (hset.resolvesTo_kind hs₀ hne).congr ?_ ?_ <;> rfl
    exact hno _ hres

/-- **Kinds after a successful resolution**: every global that is not special is a scalar or
an array, so is every entry of a declared function's table, and a special variable is unknown
exactly when its waits lead to no known kind. -/
theorem Wf.resolveIn_kinds (hb : b.Wf) {v : VisitOrder} (hv : v.Lawful) {b' : Builder}
    (h : b.resolveIn v = (.ok (), b')) :
    (∀ x s, b'.resolver.symbols.get? none x = some s → s.scope ≠ .special →
      s.kind = .scalar ∨ s.kind = .array) ∧
    (∀ f k x s, b'.resolver.functions.get? f = some k →
      b'.resolver.symbols.get? (some f) x = some s → s.kind = .scalar ∨ s.kind = .array) ∧
    (∀ x s, b'.resolver.symbols.get? none x = some s → s.scope = .special →
      (s.kind = .unknown ↔ ∀ k, ¬ b.resolver.ResolvesTo b.program (none, x) k)) := by
  have hb' : b'.Wf := by
    have := hb.resolveIn hv
    rwa [h] at this
  refine ⟨fun x s hx hs => ?global, fun f k x s hk hx => ?param,
    fun x s hx hs => hb.resolveIn_special_kind hv h hx hs⟩
  case global =>
    rcases hb.resolveIn_global hv h hx hs with ⟨hk, -⟩ | ⟨hk, -⟩
    · exact .inr hk
    · exact .inl hk
  case param =>
    obtain ⟨fn, hfn, -⟩ := (hb'.registry f k).1 hk
    obtain ⟨-, -, hmem, -⟩ := hb'.param_symbol f x s hx
    obtain ⟨j, hj, rfl⟩ := List.getElem_of_mem (hmem k fn hk hfn)
    obtain ⟨s', hs', hkind, -⟩ := hb.resolveIn_param hv h hk hfn hj
    rw [hx] at hs'
    cases hs'
    exact hkind

/-- **Kinds after a run.** When a run of operations from a fresh builder, with resolutions at
any point and bodies left open or closed, is followed by a successful resolution in any lawful
visiting order, every global that is not special and every entry of a declared function's
table is a scalar or an array; a special variable is unknown exactly when its waits, as the run
left them, lead to no known kind. -/
theorem runs_resolve_kinds (config : Config) {v : VisitOrder} (hv : v.Lawful) {b : Builder}
    (hr : (Builder.new config).Runs (fun _ => True) b) (hok : (b.resolveIn v).1 = .ok ()) :
    let b' := (b.resolveIn v).2
    (∀ x s, b'.resolver.symbols.get? none x = some s → s.scope ≠ .special →
      s.kind = .scalar ∨ s.kind = .array) ∧
    (∀ f k x s, b'.resolver.functions.get? f = some k →
      b'.resolver.symbols.get? (some f) x = some s → s.kind = .scalar ∨ s.kind = .array) ∧
    (∀ x s, b'.resolver.symbols.get? none x = some s → s.scope = .special →
      (s.kind = .unknown ↔ ∀ k, ¬ b.resolver.ResolvesTo b.program (none, x) k)) :=
  (hr.wf (wf_new config)).resolveIn_kinds hv (Prod.ext hok rfl)

/-- Parameters that only pass each other along resolve, and end scalars. -/
theorem runs_resolve_kinds_cycle :
    VisitOrder.sorted.Lawful ∧
      let b := ((Builder.new {}).stepsIn .sorted
        [Step.declare "f" ["a"] .null [.expr (.call "g" [.var "a"] .null)],
          .declare "g" ["b"] .null [.expr (.call "f" [.var "b"] .null)],
          .begin [.expr (.call "f" [.var "x"] .null)]]).2
      (Builder.new {}).Runs (fun _ => True) b ∧ (b.resolveIn .sorted).1 = .ok () ∧
        let b' := (b.resolveIn .sorted).2
        (∀ x s, b'.resolver.symbols.get? none x = some s → s.scope ≠ .special →
          s.kind = .scalar ∨ s.kind = .array) ∧
        (∀ f k x s, b'.resolver.functions.get? f = some k →
          b'.resolver.symbols.get? (some f) x = some s → s.kind = .scalar ∨ s.kind = .array) ∧
        (∀ x s, b'.resolver.symbols.get? none x = some s → s.scope = .special →
          (s.kind = .unknown ↔ ∀ k, ¬ b.resolver.ResolvesTo b.program (none, x) k)) := by
  have hr := runs_stepsIn VisitOrder.sorted_lawful (Builder.new {})
  refine ⟨VisitOrder.sorted_lawful, hr _, ?ok,
    runs_resolve_kinds {} VisitOrder.sorted_lawful (hr _) ?ok⟩
  case ok => cbv

/-- A special variable passed bare to a parameter that is never used resolves, and stays
unknown: here `NR` in `BEGIN { f(NR) }` with `function f(a) {}`. -/
theorem stepsIn_resolve_specialUnknown :
    ((Builder.new {}).stepsIn .sorted
      ([Step.begin [.expr (.call "f" [.var "NR"] .null)], .declare "f" ["a"] .null []] ++
        [.resolve])).1.getLast? = some (.resolved (.ok ())) ∧
      ((Builder.new {}).stepsIn .sorted
        ([Step.begin [.expr (.call "f" [.var "NR"] .null)], .declare "f" ["a"] .null []] ++
          [.resolve])).2.resolver.symbols.get? none "NR" =
        some ⟨.unknown, some ⟨1⟩, .special, 7, some ⟨"f", 0⟩⟩ := by
  constructor <;> cbv

end Builder

end AwkNames
