import AwkNames.Proofs.Resolution

/-!
# Scopes at the top level and inside a body

Between two requests no function body is open: a declaration closes its body whether the body
is built or fails, and a declaration met inside an open body is refused before it changes
anything. So at the top level a name always has its top-level scope, special or global, and a
use gets the scope of a parameter exactly while the body that lists the parameter is built.

* `Ast.ScopedFrom t n S` : every use from node `n` on has the scope `S` gives its name;
* `StmtSource.frame_run_top` : a statement made at the top level leaves no body open;
* `StmtSource.scopedFrom_run_top` : every use a statement makes at the top level has the scope
  `StmtSource.scopeAt` gives its name: a parameter of the function the statement declares,
  or the name's top-level scope;
* `Builder.stepsIn_scoping` : every builder a run reaches is at the top level, its function
  table lists exactly the declared functions at their positions, their names and parameters
  are distinct, a declared function's table holds only its parameters, and every use outside
  a parameter list has its name's top-level scope.
-/

namespace AwkNames

/-! ### Scopes where a name is written -/

namespace Resolver

/-- A name's scope reads only the settings and the open body. -/
theorem scopeOf_congr {r r' : Resolver} (hc : r'.config = r.config) (hf : r'.frame = r.frame) :
    r'.scopeOf = r.scopeOf := by
  funext n
  simp only [scopeOf, outerScope, hc, hf]

/-- Inside the body of `f`, a parameter of `f` has `f`'s scope and any other name its
top-level scope. -/
theorem scopeOf_of_frame {r : Resolver} {f : String} {ps : List String}
    (h : r.frame = some ⟨f, ps⟩) (n : String) :
    r.scopeOf n = if n ∈ ps then .param f else r.outerScope n := by
  simp [scopeOf, h]

end Resolver

/-- The scope a name written in a statement made at the top level gets: a parameter of the
function the statement declares, or the name's top-level scope. -/
def StmtSource.scopeAt (r : Resolver) : StmtSource → String → Scope
  | .declare f ps _ _, n => if n ∈ ps then .param f else r.outerScope n
  | _, n => r.outerScope n

/-! ### Uses from a node on -/

namespace Ast

/-- Every use from node `n` on has the scope that `S` gives its name. -/
def ScopedFrom (t : Ast) (n : Nat) (S : String → Scope) : Prop :=
  ∀ i u, n ≤ i.val → t.IsUse i u → u.scope = S u.name

/-- A tree has no use from its size on. -/
theorem scopedFrom_size (t : Ast) (S : String → Scope) : t.ScopedFrom t.size S := by
  intro i u hi hu
  have hnone : t.get? i = none := by
    simp only [get?, size] at hi ⊢
    exact Array.getElem?_eq_none hi
  rcases hu with h | h <;> simp [hnone] at h

/-- Appending a node keeps the scopes from `n` on when the node, if it is a use, has the scope
`S` gives its name. -/
theorem ScopedFrom.push {t : Ast} {n : Nat} {S : String → Scope} (h : t.ScopedFrom n S)
    {e : Expr} (he : ∀ u, e = .var u ∨ e = .array u → u.scope = S u.name) :
    (t.push e).ScopedFrom n S := by
  intro i u hi hu
  rcases isUse_push hu with ⟨-, hnew⟩ | hold
  · exact he u hnew
  · exact h i u hi hold

end Ast

/-! ### Building expressions -/

namespace Builder

variable {b : Builder} {n : Nat} {S : String → Scope}

theorem scopedFrom_alloc (h : b.ast.ScopedFrom n S) {e : Expr} (he : e.Plain) :
    (b.alloc e).2.ast.ScopedFrom n S :=
  h.push fun u hu => absurd he (by rcases hu with rfl | rfl <;> simp [Expr.Plain])

theorem scopedFrom_varRef (hS : b.resolver.scopeOf = S) (h : b.ast.ScopedFrom n S)
    (m : String) : (b.varRef m).2.ast.ScopedFrom n S :=
  h.push fun u hu => by
    rcases hu with hu | hu <;> cases hu
    rw [hS]

theorem scopedFrom_arrayRef (hS : b.resolver.scopeOf = S) (h : b.ast.ScopedFrom n S)
    (m : String) : (b.arrayRef m).2.ast.ScopedFrom n S :=
  h.push fun u hu => by
    rcases hu with hu | hu <;> cases hu
    rw [hS]

theorem scopedFrom_call (h : b.ast.ScopedFrom n S) (f : String) (args : List NodeId)
    (pos : Position) : (b.call f args pos).2.ast.ScopedFrom n S := by
  rw [call_ast]
  exact h.push fun u hu => by rcases hu with hu | hu <;> cases hu

end Builder

namespace Source

variable {n : Nat} {S : String → Scope}

theorem scopeOf_build (e : Source) (b : Builder) :
    (e.build b).2.resolver.scopeOf = b.resolver.scopeOf :=
  Resolver.scopeOf_congr ((Builder.respects_config _).build e ⟨rfl, rfl⟩).2.2 (frame_build e b)

theorem scopeOf_buildList (es : List Source) (b : Builder) :
    (buildList es b).2.resolver.scopeOf = b.resolver.scopeOf :=
  Resolver.scopeOf_congr ((Builder.respects_config _).buildList es ⟨rfl, rfl⟩).2.2
    (frame_buildList es b)

mutual

/-- **Building an expression gives each use the scope its name has where it is written.** -/
theorem scopedFrom_build : ∀ (e : Source) {b : Builder}, b.resolver.scopeOf = S →
    b.ast.ScopedFrom n S → (e.build b).2.ast.ScopedFrom n S
  | .num _, _, _, h | .str _, _, _, h => Builder.scopedFrom_alloc h trivial
  | .field e, _, hS, h => by
    rw [build_field]
    exact Builder.scopedFrom_alloc (scopedFrom_build e hS h) trivial
  | .var m, _, hS, h => Builder.scopedFrom_varRef hS h m
  | .array m, _, hS, h => Builder.scopedFrom_arrayRef hS h m
  | .subscript m subs, b, hS, h | .member subs m, b, hS, h => by
    simp only [build_subscript, build_member]
    have hS₁ := (scopeOf_buildList subs b).trans hS
    exact Builder.scopedFrom_alloc
      (Builder.scopedFrom_arrayRef hS₁ (scopedFrom_buildList subs hS h) m) trivial
  | .assign l r, b, hS, h | .binary _ l r, b, hS, h => by
    simp only [build_assign, build_binary]
    have hS₁ := (scopeOf_build l b).trans hS
    exact Builder.scopedFrom_alloc (scopedFrom_build r hS₁ (scopedFrom_build l hS h)) trivial
  | .call f args pos, _, hS, h => by
    rw [build_call]
    exact Builder.scopedFrom_call (scopedFrom_buildList args hS h) f _ pos
  | .node _, _, _, h => h

theorem scopedFrom_buildList : ∀ (es : List Source) {b : Builder}, b.resolver.scopeOf = S →
    b.ast.ScopedFrom n S → (buildList es b).2.ast.ScopedFrom n S
  | [], _, _, h => h
  | e :: es, b, hS, h =>
    scopedFrom_buildList es ((scopeOf_build e b).trans hS) (scopedFrom_build e hS h)

end

end Source

/-! ### Statements -/

namespace StmtSource

variable {n : Nat} {S : String → Scope}

theorem config_run (s : StmtSource) (b : Builder) :
    (s.run b).2.resolver.config = b.resolver.config :=
  ((Builder.respects_config _).run s ⟨rfl, rfl⟩).2.2

/-- A statement that declares nothing, or whose declaration is refused, gives each use the
scope its name has where the statement stands. -/
theorem scopedFrom_run (s : StmtSource) {b : Builder}
    (hdecl : ∀ f ps pos body, s = .declare f ps pos body → b.declarationFault f ps pos ≠ none)
    (hS : b.resolver.scopeOf = S) (h : b.ast.ScopedFrom n S) : (s.run b).2.ast.ScopedFrom n S := by
  cases s with
  | expr e => exact e.scopedFrom_build hS h
  | print es => exact Source.scopedFrom_buildList es hS h
  | delete a subs =>
    exact Source.scopedFrom_buildList subs ((a.scopeOf_build b).trans hS) (a.scopedFrom_build hS h)
  | ret e =>
    cases e with
    | none => exact h
    | some e => exact e.scopedFrom_build hS h
  | declare f ps pos body =>
    obtain ⟨err, hf⟩ := Option.ne_none_iff_exists'.1 (hdecl f ps pos body rfl)
    rw [run_declare_of_fault b hf]
    exact h

/-- Inside an open body every statement gives each use the scope its name has in that
body: a declaration there is refused and makes nothing. -/
theorem scopedFrom_runList_of_open : ∀ (ss : List StmtSource) {b : Builder},
    b.resolver.frame.isSome → b.resolver.scopeOf = S → b.ast.ScopedFrom n S →
      (runList ss b).2.ast.ScopedFrom n S
  | [], _, _, _, h => h
  | s :: rest, b, hopen, hS, h => by
    have hfault : ∀ f ps pos body, s = .declare f ps pos body →
        b.declarationFault f ps pos ≠ none := by
      intro f ps pos body _
      simp [Builder.declarationFault, hopen]
    have hframe := frame_run s b hopen
    have h₁ := s.scopedFrom_run hfault hS h
    have hS₁ : (s.run b).2.resolver.scopeOf = S :=
      (Resolver.scopeOf_congr (config_run s b) hframe).trans hS
    have h₂ := scopedFrom_runList_of_open rest (hframe ▸ hopen) hS₁ h₁
    rw [runList_cons]
    split
    · exact h₁
    · split <;> exact h₂

/-- **A statement made at the top level leaves no body open**: a declaration closes its body
whether the body is built or fails. -/
theorem frame_run_top (s : StmtSource) {b : Builder} (hb : b.resolver.frame = none) :
    (s.run b).2.resolver.frame = none := by
  cases s
  case declare f ps pos body =>
    cases hf : b.declarationFault f ps pos with
    | some e =>
      rw [run_declare_of_fault b hf]
      exact hb
    | none =>
      rw [run_declare_of_ok b hf]
      split <;> rfl
  case ret e => cases e <;> simp [Source.frame_build, hb]
  all_goals simp [Source.frame_build, Source.frame_buildList, hb]

theorem frame_runList_top : ∀ (ss : List StmtSource) {b : Builder},
    b.resolver.frame = none → (runList ss b).2.resolver.frame = none
  | [], _, hb => hb
  | s :: rest, b, hb => by
    have h₁ := s.frame_run_top hb
    have h₂ := frame_runList_top rest h₁
    rw [runList_cons]
    split
    · exact h₁
    · split <;> exact h₂

/-- **Every use a statement makes at the top level has the scope `scopeAt` gives its name**:
inside a declaration of `f` with parameters `ps`, `f`'s scope for a name of `ps` and the
top-level scope for any other; outside every declaration, the top-level scope. -/
theorem scopedFrom_run_top (s : StmtSource) {b : Builder} (hb : b.resolver.frame = none) :
    (s.run b).2.ast.ScopedFrom b.ast.size (s.scopeAt b.resolver) := by
  have hS : b.resolver.scopeOf = b.resolver.outerScope :=
    funext fun m => b.resolver.scopeOf_of_closed m hb
  cases s
  case declare f ps pos body =>
    cases hf : b.declarationFault f ps pos with
    | some e =>
      rw [run_declare_of_fault b hf]
      exact b.ast.scopedFrom_size _
    | none =>
      -- the body is built with `f` open; closing or registering it makes no node
      have hopen : (b.openFunction f ps).resolver.scopeOf =
          (StmtSource.declare f ps pos body).scopeAt b.resolver :=
        funext fun m => Resolver.scopeOf_of_frame rfl m
      have h := scopedFrom_runList_of_open body rfl hopen (b.ast.scopedFrom_size _)
      rw [run_declare_of_ok b hf]
      split <;> exact h
  all_goals exact scopedFrom_run _ (fun _ _ _ _ h => by cases h) hS (b.ast.scopedFrom_size _)

end StmtSource

/-! ### Steps -/

namespace Builder

variable {b : Builder} {v : VisitOrder}

theorem addBlock_frame (body : List StmtSource) (add : List Stmt → Program → Program) :
    (b.addBlock body add).2.resolver.frame = (StmtSource.runList body b).2.resolver.frame := by
  unfold addBlock
  split <;> simp_all

/-- **Every step at the top level leaves no body open.** -/
theorem Wf.stepIn_frame (hb : b.Wf) (hv : v.Lawful) (hfr : b.resolver.frame = none) (s : Step) :
    (b.stepIn v s).2.resolver.frame = none := by
  cases s with
  | declare name params pos body =>
    have h := (StmtSource.declare name params pos body).frame_run_top hfr
    simp only [Builder.stepIn]
    split <;> simp_all
  | begin body | final body =>
    simp only [Builder.stepIn]
    exact (addBlock_frame body _).trans (StmtSource.frame_runList_top body hfr)
  | action e body =>
    cases e with
    | none =>
      simp only [Builder.stepIn]
      exact (addBlock_frame body _).trans (StmtSource.frame_runList_top body hfr)
    | some e =>
      simp only [Builder.stepIn]
      exact (addBlock_frame body _).trans
        (StmtSource.frame_runList_top body ((Source.frame_build e b).trans hfr))
  | expr e => exact (Source.frame_build e b).trans hfr
  | scopeOf name | hasFunction name => exact hfr
  | resolve =>
    obtain ⟨t, bs, h⟩ := hb.resolveIn_resolver hv
    simp only [Builder.stepIn]
    rw [h]
    exact hfr

theorem Wf.stepsIn_frame (hv : v.Lawful) : ∀ {b : Builder} (ops : List Step), b.Wf →
    b.resolver.frame = none → (b.stepsIn v ops).2.resolver.frame = none
  | _, [], _, hfr => hfr
  | _, s :: rest, hb, hfr =>
    Wf.stepsIn_frame hv rest (hb.stepIn hv s) (hb.stepIn_frame hv hfr s)

/-- **Scopes in every run.** Every builder that a run from a fresh builder reaches, in any
lawful visiting order, is at the top level, where every name has its top-level scope; its
function table gives each declared function its position, so declared names are distinct;
every declared function has distinct parameters; a declared function's table holds only its
parameters, each with that function's scope; and every use outside a parameter list has its
name's top-level scope. From any builder at the top level a statement leaves the top level
again, and gives each use it makes the scope `StmtSource.scopeAt` gives its name. -/
theorem stepsIn_scoping (config : Config) {v : VisitOrder} (hv : v.Lawful) (ops : List Step) :
    let b := ((Builder.new config).stepsIn v ops).2
    (b.resolver.frame = none ∧ ∀ n, b.resolver.scopeOf n = b.resolver.outerScope n) ∧
    ((∀ f k, b.resolver.functions.get? f = some k ↔
        ∃ fn, b.program.functions[k]? = some fn ∧ fn.name = f) ∧
      (b.program.functions.map (·.name)).Nodup) ∧
    (∀ fn ∈ b.program.functions, fn.params.Nodup) ∧
    (∀ f k fn n s, b.resolver.functions.get? f = some k → b.program.functions[k]? = some fn →
      b.resolver.symbols.get? (some f) n = some s → n ∈ fn.params ∧ s.scope = .param f) ∧
    (∀ i u, b.ast.IsUse i u → u.scope.owner = none → u.scope = b.resolver.outerScope u.name) ∧
    ∀ c : Builder, c.resolver.frame = none → ∀ s : StmtSource,
      (s.run c).2.resolver.frame = none ∧
      ∀ i u, c.ast.size ≤ i.val → (s.run c).2.ast.IsUse i u →
        u.scope = s.scopeAt c.resolver u.name := by
  intro b
  have hb : b.Wf := (wf_new config).stepsIn hv ops
  have hfr : b.resolver.frame = none := Wf.stepsIn_frame hv ops (wf_new config) rfl
  refine ⟨⟨hfr, fun n => b.resolver.scopeOf_of_closed n hfr⟩, ⟨hb.registry, hb.names_nodup⟩,
    hb.params_nodup, fun f k fn n s hk hfn hs => ?param,
    fun i u hu ho => (hb.outer_use i u hu ho).1,
    fun c hc s => ⟨s.frame_run_top hc, s.scopedFrom_run_top hc⟩⟩
  case param =>
    obtain ⟨hscope, -, hmem, -⟩ := hb.param_symbol f n s hs
    exact ⟨hmem k fn hk hfn, hscope⟩

/-- A run with a declaration refused inside a body opened in a `BEGIN` block, a second
declaration of the same name, and a resolution. -/
theorem stepsIn_scoping_nested :
    VisitOrder.sorted.Lawful ∧
      let b := ((Builder.new {}).stepsIn .sorted
        [Step.begin [.declare "f" ["a"] .null [.expr (.var "a"), .declare "g" [] .null []]],
          .declare "f" ["a", "NR"] .null [.expr (.var "NR")], .resolve]).2
      (b.resolver.frame = none ∧ ∀ n, b.resolver.scopeOf n = b.resolver.outerScope n) ∧
      ((∀ f k, b.resolver.functions.get? f = some k ↔
          ∃ fn, b.program.functions[k]? = some fn ∧ fn.name = f) ∧
        (b.program.functions.map (·.name)).Nodup) ∧
      (∀ fn ∈ b.program.functions, fn.params.Nodup) ∧
      (∀ f k fn n s, b.resolver.functions.get? f = some k → b.program.functions[k]? = some fn →
        b.resolver.symbols.get? (some f) n = some s → n ∈ fn.params ∧ s.scope = .param f) ∧
      (∀ i u, b.ast.IsUse i u → u.scope.owner = none → u.scope = b.resolver.outerScope u.name) ∧
      ∀ c : Builder, c.resolver.frame = none → ∀ s : StmtSource,
        (s.run c).2.resolver.frame = none ∧
        ∀ i u, c.ast.size ≤ i.val → (s.run c).2.ast.IsUse i u →
          u.scope = s.scopeAt c.resolver u.name :=
  ⟨VisitOrder.sorted_lawful, stepsIn_scoping {} VisitOrder.sorted_lawful _⟩

end Builder

end AwkNames
