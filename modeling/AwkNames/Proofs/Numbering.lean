import AwkNames.Proofs.Resolution
import Mathlib

/-!
# Every use holds the slot of its name

Once a run of steps ends in a successful resolution, every variable and array node holds the
slot its scope gives its name (`Builder.UsesNumbered`):

* a special variable holds the fixed slot of the configuration;
* a global lies in exactly one of the program's two slot tables, the array table exactly when
  it ends an array, and holds its value there;
* a use of the `j`-th parameter of a declared function holds the number of earlier parameters
  of the same kind, every parameter ending a scalar or an array;

and so two uses of one name in one scope hold one slot. This holds whatever came before the
last resolution: failed declarations, which leave their nodes behind, earlier resolutions,
which patched some nodes already, and redeclared function bodies.

Node ids must still name one node each: past `2 ^ 32` nodes a new use shares its id with an
earlier node, and patching writes the later use's slot into the earlier one.

* `Builder.Wf.resolveIn_usesNumbered` : a successful resolution of a builder that satisfies the
  invariant and holds at most `2 ^ 32` nodes leaves every use numbered;
* `Builder.runs_resolve_usesNumbered` : so does a successful resolution after any run of
  operations from a fresh builder, in any lawful visiting order, and the configuration is the
  one the run started with.
-/

namespace AwkNames

namespace Builder

/-- What a resolved builder promises about its variable and array nodes: each holds the slot
its scope gives its name. -/
structure UsesNumbered (b : Builder) : Prop where
  /-- A special variable holds the fixed slot the configuration gives it. -/
  special : ∀ i u, b.ast.IsUse i u → u.scope = .special →
    u.slot = b.resolver.config.specialSlot u.name
  /-- A global lies in exactly one of the program's slot tables, the array table exactly when
  it ends an array, and holds its value there. -/
  global : ∀ i u, b.ast.IsUse i u → u.scope = .global →
    (b.resolver.symbols.kind none u.name = .array ∧
        b.program.arrays.get? u.name = some u.slot ∧ b.program.scalars.get? u.name = none) ∨
      (b.resolver.symbols.kind none u.name = .scalar ∧
        b.program.scalars.get? u.name = some u.slot ∧ b.program.arrays.get? u.name = none)
  /-- A use of the `j`-th parameter of a declared function holds the number of earlier
  parameters of its kind, and every parameter is a scalar or an array. -/
  param : ∀ i u f k fn j, b.ast.IsUse i u → u.scope = .param f →
    b.resolver.functions.get? f = some k → b.program.functions[k]? = some fn →
    fn.params[j]? = some u.name →
    (∀ q ∈ fn.params, b.resolver.symbols.kind (some f) q = .scalar ∨
        b.resolver.symbols.kind (some f) q = .array) ∧
      u.slot = (fn.params.take j).countP fun q =>
        b.resolver.symbols.kind (some f) q == b.resolver.symbols.kind (some f) u.name
  /-- Two uses of one name in one scope hold one slot. -/
  agree : ∀ i i' u u', b.ast.IsUse i u → b.ast.IsUse i' u' → u.scope = u'.scope →
    u.name = u'.name → u.slot = u'.slot

variable {b : Builder}

/-- A successful resolution of a builder that satisfies the invariant numbers every use. -/
theorem Wf.resolveIn_usesNumbered (hb : b.Wf) {v : VisitOrder} (hv : v.Lawful) {b' : Builder}
    (h : b.resolveIn v = (.ok (), b')) (hsz : b'.ast.size ≤ UInt32.size) : b'.UsesNumbered := by
  have hb' : b'.Wf := by
    have := hb.resolveIn hv
    rw [h] at this
    exact this
  have houter : ∀ i u, b'.ast.IsUse i u → u.scope.owner = none →
      ∃ s, b'.resolver.symbols.get? none u.name = some s ∧ s.scope = u.scope ∧
        u.slot = s.slot := by
    intro i u hu hown
    obtain ⟨hscope, hsome⟩ := hb'.outer_use i u hu hown
    obtain ⟨s, hs⟩ := Option.isSome_iff_exists.1 hsome
    refine ⟨s, hs, by rw [hb'.global_scope _ _ hs, hscope], ?_⟩
    rw [hb.resolveIn_use hv h hsz hu, hown, hs]
    rfl
  refine ⟨?special, ?global, ?param, ?agree⟩
  case special =>
    intro i u hu hsc
    obtain ⟨s, hs, hss, hslot⟩ := houter i u hu (by rw [hsc]; rfl)
    rw [hslot, hb.resolveIn_special hv h hs (hss.trans hsc)]
  case global =>
    intro i u hu hsc
    obtain ⟨s, hs, hss, hslot⟩ := houter i u hu (by rw [hsc]; rfl)
    rw [SymbolTable.kind_of_get? hs, hslot]
    exact hb.resolveIn_global hv h hs (by rw [hss, hsc]; decide)
  case param =>
    intro i u f k fn j hu hsc hk hfn hj
    obtain ⟨hj', hjn⟩ := List.getElem?_eq_some_iff.1 hj
    obtain ⟨s, hs, -, hslot⟩ := hb.resolveIn_param hv h hk hfn hj'
    rw [hjn] at hs
    refine ⟨fun q hq => ?_, ?_⟩
    · obtain ⟨j₀, hj₀, rfl⟩ := List.getElem_of_mem hq
      obtain ⟨s₀, hs₀, hkind, -⟩ := hb.resolveIn_param hv h hk hfn hj₀
      rw [SymbolTable.kind_of_get? hs₀]
      exact hkind
    · rw [hb.resolveIn_use hv h hsz hu, hsc, Scope.owner_param, hs, SymbolTable.kind_of_get? hs]
      exact hslot
  case agree =>
    intro i i' u u' hu hu' hscope hname
    rw [hb.resolveIn_use hv h hsz hu, hb.resolveIn_use hv h hsz hu', hscope, hname]

/-- **Slots after a run.** When a run of operations from a fresh builder, with resolutions at
any point and bodies left open or closed, is followed by a successful resolution in any lawful
visiting order, and the run makes at most `2 ^ 32` nodes, the configuration is the one the run
started with and every variable and array node holds the slot its scope gives its name. -/
theorem runs_resolve_usesNumbered (config : Config) {v : VisitOrder} (hv : v.Lawful)
    {b : Builder} (hr : (Builder.new config).Runs (fun _ => True) b)
    (hok : (b.resolveIn v).1 = .ok ()) (hsz : b.ast.size ≤ UInt32.size) :
    (b.resolveIn v).2.resolver.config = config ∧ (b.resolveIn v).2.UsesNumbered := by
  have hb := hr.wf (wf_new config)
  refine ⟨?_, hb.resolveIn_usesNumbered hv (Prod.ext hok rfl) (by rwa [resolveIn_size])⟩
  rw [hb.resolveIn_config hv, hr.config (wf_new config)]
  rfl

/-- A run with a two-parameter function called with a global and a special variable ends
numbered. -/
theorem runs_resolve_usesNumbered_call :
    VisitOrder.sorted.Lawful ∧
      let b := ((Builder.new {}).stepsIn .sorted
        [Step.declare "f" ["a", "b"] .null [.expr (.assign (.subscript "a" [.num ⟨0⟩]) (.var "b"))],
          .begin [.expr (.call "f" [.var "x", .var "NR"] .null)]]).2
      (Builder.new {}).Runs (fun _ => True) b ∧ (b.resolveIn .sorted).1 = .ok () ∧
        b.ast.size ≤ UInt32.size ∧
        (b.resolveIn .sorted).2.resolver.config = {} ∧ (b.resolveIn .sorted).2.UsesNumbered := by
  have hr := runs_stepsIn VisitOrder.sorted_lawful (Builder.new {})
  refine ⟨VisitOrder.sorted_lawful, hr _, ?ok, ?size,
    runs_resolve_usesNumbered {} VisitOrder.sorted_lawful (hr _) ?ok ?size⟩
  case ok => cbv
  case size => cbv

end Builder

end AwkNames
