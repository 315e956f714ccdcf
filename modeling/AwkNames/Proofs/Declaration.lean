import AwkNames.Proofs.Scoping

/-!
# Declaring a function

A declaration is checked before anything is built. It is refused inside an open body, then for
a name already declared, then for a parameter list that repeats a name, and a refused
declaration changes nothing. A declaration that passes its checks builds its body with the
function's table emptied and exactly its parameters in local scope. A body cannot declare a
function, so however it ends the program and the function table are those of before: a failed
body closes the function again and registers nothing, and a finished one appends the function
with no array parameter and gives its name the next ordinal.

* `firstRepeat_eq_some`, `firstRepeat_eq_none_iff` : the parameter a refusal names is the first
  one that repeats an earlier one, and there is none exactly when the parameters are distinct;
* `Builder.KeepsView` : a view of a builder that every building primitive keeps; every
  expression keeps it, and so does every statement made inside an open body
  (`Builder.KeepsView.runList_of_open`). The program with the function table is such a view;
* `StmtSource.run_declare_outcome` : the outcome of a declaration from any builder, in each of its
  four cases.
-/

namespace AwkNames

/-! ### The first repeated parameter -/

/-- What `firstRepeat.go seen` finds ends the shortest prefix that repeats a name of itself or
of `seen`. -/
theorem firstRepeat_go_eq_some {p : String} :
    ∀ {seen ps : List String}, firstRepeat.go seen ps = some p →
      ∃ pre post, ps = pre ++ p :: post ∧ pre.Nodup ∧ (∀ q ∈ pre, q ∉ seen) ∧
        (p ∈ pre ∨ p ∈ seen)
  | _, [], h => by simp [firstRepeat.go] at h
  | seen, x :: xs, h => by
    simp only [firstRepeat.go] at h
    split at h
    · cases h
      exact ⟨[], xs, rfl, List.nodup_nil, by simp, .inr ‹_›⟩
    · rename_i hx
      obtain ⟨pre, post, rfl, hnd, hfresh, hp⟩ := firstRepeat_go_eq_some h
      refine ⟨x :: pre, post, rfl, ?_, ?_, ?_⟩
      · exact List.nodup_cons.2 ⟨fun hm => hfresh x hm List.mem_cons_self, hnd⟩
      · intro q hq
        rcases List.mem_cons.1 hq with rfl | hq
        · exact hx
        · exact fun hs => hfresh q hq (List.mem_cons_of_mem _ hs)
      · rcases hp with hp | hp
        · exact .inl (List.mem_cons_of_mem _ hp)
        · rcases List.mem_cons.1 hp with rfl | hp
          · exact .inl List.mem_cons_self
          · exact .inr hp

/-- The parameter a refusal names is the first one that repeats an earlier one. -/
theorem firstRepeat_eq_some {ps : List String} {p : String} (h : firstRepeat ps = some p) :
    ∃ pre post, ps = pre ++ p :: post ∧ pre.Nodup ∧ p ∈ pre := by
  obtain ⟨pre, post, heq, hnd, -, hp⟩ := firstRepeat_go_eq_some h
  exact ⟨pre, post, heq, hnd, hp.resolve_right List.not_mem_nil⟩

theorem firstRepeat_eq_none_iff {ps : List String} : firstRepeat ps = none ↔ ps.Nodup := by
  constructor
  · exact fun h => (Builder.firstRepeat_go_eq_none h).1
  · intro hnd
    cases hr : firstRepeat ps with
    | none => rfl
    | some p =>
      obtain ⟨pre, post, rfl, -, hp⟩ := firstRepeat_eq_some hr
      have hdisjoint := (List.nodup_append.1 hnd).2.2
      exact absurd rfl (hdisjoint p hp p List.mem_cons_self)

/-! ### Views that building keeps -/

namespace Builder

/-- A view of a builder that every building primitive keeps: appending a node, recording a use
and making a call. -/
structure KeepsView {α : Type} (g : Builder → α) : Prop where
  alloc : ∀ b e, g (b.alloc e).2 = g b
  varRef : ∀ b n, g (b.varRef n).2 = g b
  arrayRef : ∀ b n, g (b.arrayRef n).2 = g b
  call : ∀ b f args pos, g (b.call f args pos).2 = g b

namespace KeepsView

variable {α : Type} {g : Builder → α}

mutual

theorem build (hg : KeepsView g) : ∀ (e : Source) (b : Builder), g (e.build b).2 = g b
  | .num _, b | .str _, b => hg.alloc b _
  | .var n, b => hg.varRef b n
  | .array n, b => hg.arrayRef b n
  | .node _, _ => rfl
  | .field e, b => by rw [Source.build_field, hg.alloc, build hg e b]
  | .subscript n subs, b | .member subs n, b => by
    simp only [Source.build_subscript, Source.build_member]
    rw [hg.alloc, hg.arrayRef, buildList hg subs b]
  | .assign l r, b | .binary _ l r, b => by
    simp only [Source.build_assign, Source.build_binary]
    rw [hg.alloc, build hg r, build hg l b]
  | .call f args pos, b => by rw [Source.build_call, hg.call, buildList hg args b]

theorem buildList (hg : KeepsView g) : ∀ (es : List Source) (b : Builder),
    g (Source.buildList es b).2 = g b
  | [], _ => rfl
  | e :: es, b => by rw [Source.buildList_cons, buildList hg es, build hg e b]

end

/-- Inside an open body a statement keeps the view: a declaration there is refused before it
changes anything. -/
theorem run_of_open (hg : KeepsView g) (s : StmtSource) {b : Builder}
    (h : b.resolver.frame.isSome) : g (s.run b).2 = g b := by
  cases s with
  | expr e => exact hg.build e b
  | print es => exact hg.buildList es b
  | delete a subs => exact (hg.buildList subs _).trans (hg.build a b)
  | ret e =>
    cases e with
    | none => rfl
    | some e => exact hg.build e b
  | declare name params pos body =>
    rw [StmtSource.run_declare_of_fault b (declarationFault_of_open h name params pos)]

/-- **An open body keeps every view that building keeps**, whether it is built or fails. -/
theorem runList_of_open (hg : KeepsView g) (ss : List StmtSource) {b : Builder}
    (h : b.resolver.frame.isSome) : g (StmtSource.runList ss b).2 = g b := by
  induction ss generalizing b with
  | nil => rfl
  | cons s rest ih =>
    have h₁ := hg.run_of_open s h
    have h₂ := ih ((StmtSource.frame_run s b h).symm ▸ h)
    rw [StmtSource.runList_cons]
    split
    · exact h₁
    · split <;> exact h₂.trans h₁

end KeepsView

/-- Building touches neither the program nor the function table. -/
theorem keepsView_declared : KeepsView fun b : Builder => (b.program, b.resolver.functions) where
  alloc _ _ := rfl
  varRef _ _ := rfl
  arrayRef _ _ := rfl
  call b f args pos := by
    obtain ⟨l, hl⟩ := b.call_resolver f args pos
    rw [call_program, hl]

/-! ### A declaration -/

/-- Opening a function at the top level gives its parameters its scope and every other name
the scope it had. -/
theorem openFunction_scopeOf {b : Builder} (hfr : b.resolver.frame = none) (name : String)
    (params : List String) (n : String) :
    (b.openFunction name params).resolver.scopeOf n =
      if n ∈ params then .param name else b.resolver.scopeOf n := by
  rw [Resolver.scopeOf_of_frame rfl, b.resolver.scopeOf_of_closed n hfr]
  rfl

end Builder

namespace StmtSource

open Builder

/-- **Declaring a function.** From any builder, a declaration of `name` with parameters
`params` at `pos`:

* inside an open body, is refused as nested;
* else, for a declared name, is refused as already declared;
* else, for parameters that are not distinct, is refused naming the first parameter that
  repeats an earlier one;

and in these three cases the builder is left as it was, so the body is never built. Otherwise
the body is built from a builder where the function's table is emptied, every other table is
as it was, and exactly the parameters have the function's scope, which every use the body
makes gets. If the body fails, its error is returned, the function is closed again, and the
program and the function table are those of before, so a later declaration of the same name
with distinct parameters is accepted. If the body is built, the function is appended to the
program at the ordinal the program's length gives, with one `false` flag per parameter, and
its name is given that ordinal. -/
theorem run_declare_outcome (b : Builder) (name : String) (params : List String) (pos : Position)
    (body : List StmtSource) :
    let out := (StmtSource.declare name params pos body).run b
    let b₀ := b.openFunction name params
    (b.resolver.frame.isSome → out = (.error ⟨.nestedFunction name, pos⟩, b)) ∧
    (b.resolver.frame = none → b.resolver.hasFunction name = true →
      out = (.error ⟨.alreadyDeclared name, pos⟩, b)) ∧
    (b.resolver.frame = none → b.resolver.hasFunction name = false → ¬ params.Nodup →
      ∃ pre p post, params = pre ++ p :: post ∧ pre.Nodup ∧ p ∈ pre ∧
        out = (.error ⟨.duplicateParameter name p, pos⟩, b)) ∧
    (b.resolver.frame = none → b.resolver.hasFunction name = false → params.Nodup →
      (b₀.resolver.symbols.scope? name = some ∅ ∧
        (∀ o n, o ≠ some name →
          b₀.resolver.symbols.get? o n = b.resolver.symbols.get? o n) ∧
        ∀ n, b₀.resolver.scopeOf n =
          if n ∈ params then .param name else b.resolver.scopeOf n) ∧
      (StmtSource.runList body b₀).2.ast.ScopedFrom b.ast.size
        (fun n => if n ∈ params then .param name else b.resolver.scopeOf n) ∧
      (∀ e, (StmtSource.runList body b₀).1 = .error e →
        out.1 = .error e ∧ out.2.resolver.frame = none ∧ out.2.program = b.program ∧
          out.2.resolver.functions = b.resolver.functions ∧
          ∀ ps pos', ps.Nodup → out.2.declarationFault name ps pos' = none) ∧
      ∀ stmts, (StmtSource.runList body b₀).1 = .ok stmts →
        out.1 = .ok none ∧ out.2.resolver.frame = none ∧
          out.2.program = { b.program with functions := b.program.functions ++
            [⟨name, params, List.replicate params.length false, stmts⟩] } ∧
          out.2.resolver.functions =
            b.resolver.functions.insert name b.program.functions.length) := by
  dsimp only
  refine ⟨fun hopen => ?nested, fun hfr hdecl => ?declared, fun hfr hnew hrep => ?repeated,
    fun hfr hnew hnd => ?accepted⟩
  case nested => exact run_declare_of_fault b (declarationFault_of_open hopen _ _ _)
  case declared =>
    exact run_declare_of_fault b (by simp [declarationFault, hfr, hdecl])
  case repeated =>
    obtain ⟨p, hp⟩ := Option.ne_none_iff_exists'.1 (mt firstRepeat_eq_none_iff.1 hrep)
    obtain ⟨pre, post, heq, hpre, hmem⟩ := firstRepeat_eq_some hp
    exact ⟨pre, p, post, heq, hpre, hmem,
      run_declare_of_fault b (by simp [declarationFault, hfr, hnew, hp])⟩
  case accepted =>
    have hok : b.declarationFault name params pos = none := by
      simp [declarationFault, hfr, hnew, firstRepeat_eq_none_iff.2 hnd]
    have hrun := @run_declare_of_ok b name params pos body hok
    have hscope : (b.openFunction name params).resolver.scopeOf =
        fun n => if n ∈ params then .param name else b.resolver.scopeOf n :=
      funext (openFunction_scopeOf hfr name params)
    -- the body runs with the function open, so it registers nothing
    have hkeep := Prod.ext_iff.1 (keepsView_declared.runList_of_open body
      (b := b.openFunction name params) rfl)
    have hprog : (StmtSource.runList body (b.openFunction name params)).2.program = b.program :=
      hkeep.1
    have hfns : (StmtSource.runList body (b.openFunction name params)).2.resolver.functions =
        b.resolver.functions := hkeep.2
    refine ⟨⟨?emptied, fun o n ho => ?others, openFunction_scopeOf hfr name params⟩,
      scopedFrom_runList_of_open body rfl hscope (b.ast.scopedFrom_size _),
      fun e he => ?failed, fun stmts hs => ?built⟩
    case emptied => simp [openFunction, SymbolTable.addFunction, SymbolTable.scope?]
    case others => simp [openFunction, SymbolTable.get?_addFunction, ho]
    case failed =>
      simp only [he] at hrun
      rw [hrun]
      refine ⟨rfl, rfl, hprog, hfns, fun ps pos' hps => ?_⟩
      have hname : b.resolver.functions.contains name = false := hnew
      simp [declarationFault, closeFunction, Resolver.hasFunction, hfns, hname,
        firstRepeat_eq_none_iff.2 hps]
    case built =>
      simp only [hs] at hrun
      rw [hrun]
      refine ⟨rfl, rfl, ?_, ?_⟩
      · simp [register, pushFunction, addFunction, closeFunction, hprog, List.map_const']
      · simp [register, pushFunction, addFunction, closeFunction, hprog, hfns]

/-- A declaration of `f` whose body declares `g`: the body fails as nested, `f` is closed again
and stays undeclared, so it can be declared once more. -/
theorem run_declare_outcome_failedBody :
    let b := Builder.new {}
    let body := [StmtSource.declare "g" [] .null []]
    b.resolver.frame = none ∧ b.resolver.hasFunction "f" = false ∧ ([] : List String).Nodup ∧
      (StmtSource.runList body (b.openFunction "f" [])).1 =
        .error ⟨.nestedFunction "g", .null⟩ ∧
      let out := (StmtSource.declare "f" [] .null body).run b
      out.1 = .error ⟨.nestedFunction "g", .null⟩ ∧ out.2.resolver.frame = none ∧
        out.2.program = b.program ∧ out.2.resolver.functions = b.resolver.functions ∧
        ∀ ps pos', ps.Nodup → out.2.declarationFault "f" ps pos' = none := by
  intro b body
  have hfr : b.resolver.frame = none := rfl
  have hnew : b.resolver.hasFunction "f" = false := rfl
  have hbody : (StmtSource.runList body (b.openFunction "f" [])).1 =
      .error ⟨.nestedFunction "g", .null⟩ := rfl
  exact ⟨hfr, hnew, List.nodup_nil, hbody,
    ((run_declare_outcome b "f" [] .null body).2.2.2 hfr hnew List.nodup_nil).2.2.1 _ hbody⟩

end StmtSource

end AwkNames
