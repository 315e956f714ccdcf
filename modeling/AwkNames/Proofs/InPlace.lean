import AwkNames.Proofs.Invariant

/-!
# Call arguments built in place

A call passes the nodes its argument expressions make. A parser builds every argument
afresh, but the builder also takes a node made earlier (`Source.node`) as an argument, and
such a node may be a use of a name in a function body that was closed long ago.

* `Source.argsInPlace`, `StmtSource.argsInPlace`, `Step.argsInPlace` : no call takes a node made
  earlier as an argument;
* `Source.buildList_argsOpen` : then, while the arena holds at most `2 ^ 32` nodes, every
  argument that is a scalar use of a name is a use in the global scope or in the body open at
  the call (`Builder.ArgsOpen`);
* `Builder.KeepsInPlace P` : each primitive keeps `P`, a call at least when its scalar arguments
  are such uses; `Builder.KeepsInPlace.stepIn` lifts it to every step but resolution that
  builds its arguments in place.
-/

namespace AwkNames

/-- Whether an expression is a node made earlier. -/
def Source.isNode : Source → Bool
  | .node _ => true
  | _ => false

mutual

/-- No call in the expression takes a node made earlier as an argument. -/
def Source.argsInPlace : Source → Bool
  | .field e => e.argsInPlace
  | .subscript _ subs | .member subs _ => Source.allArgsInPlace subs
  | .assign l r | .binary _ l r => l.argsInPlace && r.argsInPlace
  | .call _ args _ => args.all (fun a => !a.isNode) && Source.allArgsInPlace args
  | .num _ | .str _ | .var _ | .array _ | .node _ => true

/-- `Source.argsInPlace` of every expression of a list. -/
def Source.allArgsInPlace : List Source → Bool
  | [] => true
  | e :: es => e.argsInPlace && Source.allArgsInPlace es

end

mutual

/-- No call in the statement takes a node made earlier as an argument. -/
def StmtSource.argsInPlace : StmtSource → Bool
  | .expr e => e.argsInPlace
  | .print es => Source.allArgsInPlace es
  | .delete a subs => a.argsInPlace && Source.allArgsInPlace subs
  | .ret none => true
  | .ret (some e) => e.argsInPlace
  | .declare _ _ _ body => StmtSource.allArgsInPlace body

/-- `StmtSource.argsInPlace` of every statement of a list. -/
def StmtSource.allArgsInPlace : List StmtSource → Bool
  | [] => true
  | s :: ss => s.argsInPlace && StmtSource.allArgsInPlace ss

end

/-- No call the step makes takes a node made earlier as an argument. -/
def Step.argsInPlace : Step → Bool
  | .declare _ _ _ body | .begin body | .action none body | .final body =>
    StmtSource.allArgsInPlace body
  | .action (some e) body => e.argsInPlace && StmtSource.allArgsInPlace body
  | .expr e => e.argsInPlace
  | .scopeOf _ | .hasFunction _ | .resolve => true

namespace Builder

/-- Every argument among `ids` that is a scalar use of a name is a use in the global scope or
in the body open now. -/
def ArgsOpen (b : Builder) (ids : List NodeId) : Prop :=
  ∀ a ∈ ids, ∀ u, b.ast.get? a = some (.var u) → ∀ f, u.scope.owner = some f →
    ∃ fr, b.resolver.frame = some fr ∧ fr.function = f

/-- Building keeps every node there is. -/
theorem respects_node (i : NodeId) (x : Expr) :
    Respects fun b₁ b₂ => b₁ = b₂ ∧ b₁.ast.get? i = some x :=
  Respects.of_invariant (fun _ _ _ h => Ast.get?_push_of_get? h)
    (fun _ _ h => Ast.get?_push_of_get? h) (fun _ _ h => Ast.get?_push_of_get? h)
    (fun b f args pos h => by
      rw [call_ast]
      exact Ast.get?_push_of_get? h)
    (fun _ _ _ _ h _ => h) (fun _ h => h) (fun _ _ _ _ h _ => h) (fun _ _ _ h => h)

end Builder

/-- The node an expression makes, unless it names a node made earlier, is a use of a name only
for a scalar use written at that point, in the scope the name has there. While the arena holds
at most `2 ^ 32` nodes, it is the node at the id the expression returns. -/
theorem Source.build_root {e : Source} (he : e.isNode = false) (b : Builder)
    (hsz : (e.build b).2.ast.size ≤ UInt32.size) :
    ∃ x, (e.build b).2.ast.get? (e.build b).1 = some x ∧
      ∀ u, x = .var u → u.scope = b.resolver.scopeOf u.name := by
  cases e with
  | var n => exact ⟨_, Ast.get?_push_nextId (Ast.size_lt_of_push hsz) _, fun u hu => by cases hu; rfl⟩
  | array n => exact ⟨_, Ast.get?_push_nextId (Ast.size_lt_of_push hsz) _, fun u hu => by cases hu⟩
  | call f args pos =>
    rw [Source.build_call, Builder.call_ast] at hsz
    rw [Source.build_call, Builder.call_eq, Builder.recordCall_ast]
    exact ⟨_, Ast.get?_push_nextId (Ast.size_lt_of_push hsz) _, fun u hu => by cases hu⟩
  | node i => cases he
  | num _ | str _ | field _ | subscript _ _ | member _ _ | assign _ _ | binary _ _ _ =>
    exact ⟨_, Ast.get?_push_nextId (Ast.size_lt_of_push hsz) _, fun u hu => by cases hu⟩

/-- **The arguments of a call built in place are uses in the global scope or the open body**,
while the arena holds at most `2 ^ 32` nodes. -/
theorem Source.buildList_argsOpen :
    ∀ (es : List Source), (∀ e ∈ es, e.isNode = false) → ∀ (b : Builder),
      (Source.buildList es b).2.ast.size ≤ UInt32.size →
      (Source.buildList es b).2.ArgsOpen (Source.buildList es b).1
  | [], _, _, _ => fun _ ha => by cases ha
  | e :: es, hes, b, hsz => by
    have he := hes e List.mem_cons_self
    rw [Source.buildList_cons] at hsz ⊢
    have hrest := Source.buildList_argsOpen es (fun e' he' => hes e' (List.mem_cons_of_mem _ he'))
      (e.build b).2 hsz
    intro a ha u hu f hf
    rcases List.mem_cons.1 ha with rfl | ha
    · have hsz₀ := (((Builder.respects_size _).buildList es ⟨rfl, Nat.le_refl _⟩).2.2).trans hsz
      obtain ⟨x, hx, hvar⟩ := Source.build_root he b hsz₀
      have hkeep := ((Builder.respects_node _ x).buildList es ⟨rfl, hx⟩).2.2
      rw [hkeep] at hu
      cases hu
      have hsc := hvar u rfl
      rw [hsc] at hf
      obtain ⟨fr, hfr, rfl, -⟩ := Resolver.scopeOf_eq_param (Resolver.scopeOf_owner_some hf)
      refine ⟨fr, ?_, rfl⟩
      rw [Source.frame_buildList, Source.frame_build]
      exact hfr
    · exact hrest a ha u hu f hf

namespace Builder

/-- Each primitive keeps `P`, a call at least when its scalar arguments are uses in the global
scope or in the open body whenever ids name one node each. As for `Builder.Respects`, a function is only opened when its
declaration passes its checks and only registered while its body is open, and a change of the
program that keeps its functions stands for adding a block. -/
structure KeepsInPlace (P : Builder → Prop) : Prop where
  alloc : ∀ b (e : Expr), e.Plain → P b → P (b.alloc e).2
  varRef : ∀ b n, P b → P (b.varRef n).2
  arrayRef : ∀ b n, P b → P (b.arrayRef n).2
  call : ∀ b f args pos, P b → (b.ast.size < UInt32.size → b.ArgsOpen args) → P (b.call f args pos).2
  openFunction : ∀ b name params pos, P b → b.declarationFault name params pos = none →
    P (b.openFunction name params)
  closeFunction : ∀ b, P b → P b.closeFunction
  register : ∀ b name params stmts, P b → b.resolver.frame = some ⟨name, params⟩ →
    P (b.closeFunction.register name params stmts)
  program : ∀ b (q : Program), q.functions = b.program.functions → P b →
    P { b with program := q }

namespace KeepsInPlace

variable {P : Builder → Prop}

mutual

theorem build (hP : KeepsInPlace P) :
    ∀ (e : Source), e.argsInPlace = true → ∀ {b : Builder}, P b → P (e.build b).2
  | .num _, _, b, h | .str _, _, b, h => hP.alloc b _ trivial h
  | .field e, he, _, h => by
    simp only [Source.argsInPlace] at he
    rw [Source.build_field]
    exact hP.alloc _ _ trivial (build hP e he h)
  | .var n, _, b, h => hP.varRef b n h
  | .array n, _, b, h => hP.arrayRef b n h
  | .subscript n subs, he, _, h | .member subs n, he, _, h => by
    simp only [Source.argsInPlace] at he
    simp only [Source.build_subscript, Source.build_member]
    exact hP.alloc _ _ trivial (hP.arrayRef _ n (buildList hP subs he h))
  | .assign l r, he, _, h | .binary _ l r, he, _, h => by
    simp only [Source.argsInPlace, Bool.and_eq_true] at he
    simp only [Source.build_assign, Source.build_binary]
    exact hP.alloc _ _ trivial (build hP r he.2 (build hP l he.1 h))
  | .call f args pos, he, b, h => by
    simp only [Source.argsInPlace, Bool.and_eq_true, List.all_eq_true, Bool.not_eq_eq_eq_not,
      Bool.not_true] at he
    rw [Source.build_call]
    exact hP.call _ f _ pos (buildList hP args he.2 h)
      fun hlt => Source.buildList_argsOpen args he.1 b hlt.le
  | .node _, _, _, h => h

theorem buildList (hP : KeepsInPlace P) :
    ∀ (es : List Source), Source.allArgsInPlace es = true → ∀ {b : Builder}, P b →
      P (Source.buildList es b).2
  | [], _, _, h => h
  | e :: es, he, _, h => by
    simp only [Source.allArgsInPlace, Bool.and_eq_true] at he
    rw [Source.buildList_cons]
    exact buildList hP es he.2 (build hP e he.1 h)

end

mutual

theorem run (hP : KeepsInPlace P) :
    ∀ (s : StmtSource), s.argsInPlace = true → ∀ {b : Builder}, P b → P (s.run b).2
  | .expr e, he, _, h => hP.build e he h
  | .print es, he, _, h => hP.buildList es he h
  | .delete a subs, he, _, h => by
    simp only [StmtSource.argsInPlace, Bool.and_eq_true] at he
    exact hP.buildList subs he.2 (hP.build a he.1 h)
  | .ret none, _, _, h => h
  | .ret (some e), he, _, h => hP.build e he h
  | .declare name params pos body, he, b, h => by
    simp only [StmtSource.argsInPlace] at he
    cases hf : b.declarationFault name params pos with
    | some e =>
      rw [StmtSource.run_declare_of_fault b hf]
      exact h
    | none =>
      rw [StmtSource.run_declare_of_ok b hf]
      have hbody := runList hP body he (hP.openFunction b name params pos h hf)
      have hframe : (StmtSource.runList body (b.openFunction name params)).2.resolver.frame =
          some ⟨name, params⟩ :=
        StmtSource.frame_runList body _ rfl
      split
      · exact hP.closeFunction _ hbody
      · exact hP.register _ name params _ hbody hframe

theorem runList (hP : KeepsInPlace P) :
    ∀ (ss : List StmtSource), StmtSource.allArgsInPlace ss = true → ∀ {b : Builder}, P b →
      P (StmtSource.runList ss b).2
  | [], _, _, h => h
  | s :: rest, he, b, h => by
    simp only [StmtSource.allArgsInPlace, Bool.and_eq_true] at he
    have h' := run hP s he.1 h
    rw [StmtSource.runList_cons]
    split
    · exact h'
    · split
      · exact runList hP rest he.2 h'
      · exact runList hP rest he.2 h'

end

theorem addBlock (hP : KeepsInPlace P) {b : Builder} {body : List StmtSource}
    (he : StmtSource.allArgsInPlace body = true) {add : List Stmt → Program → Program}
    (hadd : ∀ stmts (q : Program), (add stmts q).functions = q.functions) (h : P b) :
    P (b.addBlock body add).2 := by
  have h' := hP.runList body he h
  simp only [Builder.addBlock]
  split
  · rename_i e c hc
    rw [hc] at h'
    exact h'
  · rename_i stmts c hc
    rw [hc] at h'
    exact hP.program _ _ (hadd stmts _) h'

/-- **Every step but resolution that builds its call arguments in place keeps `P`.** -/
theorem stepIn (hP : KeepsInPlace P) (v : VisitOrder) :
    ∀ (s : Step), s ≠ .resolve → s.argsInPlace = true → ∀ {b : Builder}, P b →
      P (b.stepIn v s).2
  | .declare name params pos body, _, he, b, h => by
    have h' := hP.run (.declare name params pos body) he h
    simp only [Builder.stepIn]
    split <;> simp_all
  | .begin body, _, he, _, h => hP.addBlock he (fun _ _ => rfl) h
  | .action none body, _, he, _, h => hP.addBlock he (fun _ _ => rfl) h
  | .action (some e) body, _, he, _, h => by
    simp only [Step.argsInPlace, Bool.and_eq_true] at he
    simp only [Builder.stepIn]
    exact hP.addBlock he.2 (fun _ _ => rfl) (hP.build e he.1 h)
  | .final body, _, he, _, h => hP.addBlock he (fun _ _ => rfl) h
  | .expr e, _, he, _, h => hP.build e he h
  | .scopeOf _, _, _, _, h | .hasFunction _, _, _, _, h => h
  | .resolve, hs, _, _, _ => absurd rfl hs

end KeepsInPlace

end Builder

end AwkNames
