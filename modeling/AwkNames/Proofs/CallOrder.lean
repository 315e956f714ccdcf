import AwkNames.Proofs.Deferral

/-!
# The last call decides a deferred name's kind

A name whose kind is unknown waits on the parameter of the call it was last passed to bare:
each new bare use records the name afresh (`Builder.varRef`), and the call defers that use
again (`Builder.deferArg`), which replaces whatever the name waited on before. The parameter a
global ends up with therefore depends on the order of the calls, not only on which functions
it was passed to.

* `Builder.stepIn_call_var_get?` : passing a global of unknown kind to a call makes it wait on
  the call's first parameter, whatever it waited on before, while the arena has ids left;
* `Builder.Wf.resolveIn_get?_outer` : a successful resolution keeps every global, with its scope
  and what it waits on;
* `Builder.stepsIn_call_resolve_lastCall` : a run of at most `2 ^ 32` nodes that ends by passing
  a global of unknown kind to a call, then resolves, gives the global the kind of that call's
  parameter, and the callee takes it by reference exactly when it is an array;
* `Builder.stepsIn_resolve_callOrder` : passing a global to a function that indexes its
  parameter and to one that never uses it leaves the global a scalar or an array depending on
  which call comes last.
-/

namespace AwkNames

namespace Builder

variable {b : Builder}

/-- **A bare argument replaces the deferral.** Passing a global of unknown kind to a call records
it afresh at the new use and makes it wait on the call's first parameter, whatever it waited on
before, when the use gets an id of its own. -/
theorem stepIn_call_var_get? (v : VisitOrder) (b : Builder) (c x : String) (pos : Position)
    (hsz : b.ast.size < UInt32.size) (hs : b.resolver.scopeOf x = .global)
    (hk : b.resolver.symbols.kind none x = .unknown) :
    (b.stepIn v (.expr (.call c [.var x] pos))).2.resolver.symbols.get? none x =
      some { kind := .unknown, firstUse := some b.ast.nextId, scope := .global,
             waitsOn := some ⟨c, 0⟩ } := by
  have hnode :
      (b.varRef x).2.ast.get? b.ast.nextId = some (.var { name := x, scope := .global }) := by
    simp [Builder.varRef, hs, Ast.get?_push_nextId hsz]
  have huse : (b.varRef x).2.resolver.symbols.get? none x =
      some { kind := .scalar, firstUse := some b.ast.nextId, scope := .global } := by
    simp [Builder.varRef, hs, hk, SymbolTable.get?_insert]
  have hdefer : ((b.varRef x).2.deferArg c b.ast.nextId 0).resolver.symbols.get? none x =
      some { kind := .unknown, firstUse := some b.ast.nextId, scope := .global,
             waitsOn := some ⟨c, 0⟩ } := by
    simp only [Builder.deferArg, hnode]
    simp [huse, SymbolTable.get?_insert]
  obtain ⟨l, hl⟩ := (b.varRef x).2.call_resolver c [b.ast.nextId] pos
  simp only [stepIn, Source.build_call, Source.buildList_cons, Source.build_var,
    Source.buildList_nil, varRef_fst, hl]
  exact hdefer

/-- A successful resolution keeps every global, with its scope and what it waits on. -/
theorem Wf.resolveIn_get?_outer (hb : b.Wf) {v : VisitOrder} (hv : v.Lawful) {b' : Builder}
    (h : b.resolveIn v = (.ok (), b')) {n : String} {s : Symbol}
    (hs : b.resolver.symbols.get? none n = some s) :
    ∃ s', b'.resolver.symbols.get? none n = some s' ∧ s'.scope = s.scope ∧
      s'.waitsOn = s.waitsOn := by
  obtain ⟨bs, r, -, hi, rfl⟩ := Builder.resolveIn_eq_ok h
  obtain ⟨κ, hκ, -⟩ := hb.settles_inferIn hv bs
  rw [hi] at hκ
  have h₃ := (hb.inferIn_of_eq hv hi).bindCalls
  have hs₃ : ({ b with resolver := r } : Builder).bindCalls.resolver.symbols.globals.get? n =
      some { s with kind := κ none n } := by
    change ({ b with resolver := r } : Builder).bindCalls.resolver.symbols.get? none n = _
    rw [bindCalls_resolver, show r = _ from hκ, Resolver.get?_withKinds]
    simp [hs]
  -- the global phase settles the entry, and the later phases leave the globals alone
  rw [patch_resolver, SymbolTable.get?, assignLocalSlots_globals,
    assignGlobalSlotsIn_globals (hv _).2, NameMap.get?_mapValues, hs₃]
  exact ⟨_, rfl, settled_scope .., settled_waitsOn ..⟩

/-- The global `x` ends with the kind of parameter `i` of the declared function `c`, which `c`
takes by reference exactly when `x` is an array. -/
def GlobalAsParam (b : Builder) (x c : String) (i : Nat) : Prop :=
  ∃ k fn, b.resolver.functions.get? c = some k ∧ b.program.functions[k]? = some fn ∧
    ∃ _ : i < fn.params.length,
      b.resolver.symbols.kind none x = b.resolver.symbols.kind (some c) fn.params[i] ∧
        fn.arrays[i]? = some (b.resolver.symbols.kind none x == .array)

/-- **The last call decides.** When a run of steps that build call arguments in place and make
at most `2 ^ 32` nodes ends by passing a global of unknown kind, bare, to a call of `c`, and
then resolves successfully, the
global ends with the kind of the first parameter of `c`, whatever functions it was passed to
before, and `c` takes it by reference exactly when it is an array. -/
theorem stepsIn_call_resolve_lastCall (config : Config) {v : VisitOrder} (hv : v.Lawful)
    (ops : List Step) (hin : ∀ s ∈ ops, s.argsInPlace = true) (c x : String) (pos : Position)
    (hs : ((Builder.new config).stepsIn v ops).2.resolver.scopeOf x = .global)
    (hk : ((Builder.new config).stepsIn v ops).2.resolver.symbols.kind none x = .unknown)
    (hok : ((Builder.new config).stepsIn v
      (ops ++ [.expr (.call c [.var x] pos)] ++ [.resolve])).1.getLast? =
        some (.resolved (.ok ())))
    (hsz : ((Builder.new config).stepsIn v
      (ops ++ [.expr (.call c [.var x] pos)] ++ [.resolve])).2.ast.size ≤ UInt32.size) :
    ((Builder.new config).stepsIn v
      (ops ++ [.expr (.call c [.var x] pos)] ++ [.resolve])).2.GlobalAsParam x c 0 := by
  have hin' : ∀ s ∈ ops ++ [.expr (.call c [.var x] pos)], s.argsInPlace = true := by
    intro s hs'
    rcases List.mem_append.1 hs' with hs' | hs'
    · exact hin s hs'
    · rw [List.mem_singleton.1 hs']
      rfl
  have hb := (wf_new config).stepsIn hv (ops ++ [.expr (.call c [.var x] pos)])
  rw [(stepsIn_resolve v _ _).2, resolveIn_size] at hsz
  have hd := Wf.stepsIn_deferrals hv _ hin' (wf_new config) (fun _ => deferrals_new config) hsz
  have hres := stepsIn_resolve_eq_ok v _ _ hok
  -- the call step makes two nodes, so the use it makes gets an id of its own
  have hlt : ((Builder.new config).stepsIn v ops).2.ast.size < UInt32.size := by
    rw [stepsIn_append] at hsz
    simp only [stepsIn, stepIn, Source.build_call, Source.buildList_cons, Source.build_var,
      Source.buildList_nil, call_ast, varRef_ast, Ast.size_push] at hsz
    omega
  have hx : ((Builder.new config).stepsIn v
      (ops ++ [.expr (.call c [.var x] pos)])).2.resolver.symbols.get? none x =
        some { kind := .unknown, firstUse := some ((Builder.new config).stepsIn v ops).2.ast.nextId,
               scope := .global, waitsOn := some ⟨c, 0⟩ } := by
    rw [stepsIn_append]
    exact stepIn_call_var_get? v _ c x pos hlt hs hk
  obtain ⟨s', hs', hscope, hwait⟩ := hb.resolveIn_get?_outer hv hres hx
  obtain ⟨-, k, fn, hk', hfn, hlt, hagree, hflag⟩ :=
    hb.resolveIn_deferredAsReceived hv hd hres none x s' ⟨c, 0⟩ hs' hwait (.inl ⟨rfl, hscope⟩)
  refine ⟨k, fn, hk', hfn, hlt, ?_, ?_⟩ <;> rw [SymbolTable.kind_of_get? hs']
  · exact hagree
  · exact hflag

/-- A global passed to a function that indexes its parameter, and then to one that never uses
its parameter, ends with the kind of the second. -/
theorem stepsIn_call_resolve_lastCall_unused :
    VisitOrder.sorted.Lawful ∧
      (∀ s ∈ [Step.declare "f" ["a"] .null [.expr (.assign (.subscript "a" [.num ⟨1⟩]) (.num ⟨1⟩))],
          .declare "g" ["b"] .null [], .expr (.call "f" [.var "x"] .null)],
        s.argsInPlace = true) ∧
      ((Builder.new {}).stepsIn .sorted
        [Step.declare "f" ["a"] .null [.expr (.assign (.subscript "a" [.num ⟨1⟩]) (.num ⟨1⟩))],
          .declare "g" ["b"] .null [], .expr (.call "f" [.var "x"] .null)]).2.resolver.scopeOf
        "x" = .global ∧
      ((Builder.new {}).stepsIn .sorted
        [Step.declare "f" ["a"] .null [.expr (.assign (.subscript "a" [.num ⟨1⟩]) (.num ⟨1⟩))],
          .declare "g" ["b"] .null [],
          .expr (.call "f" [.var "x"] .null)]).2.resolver.symbols.kind none "x" = .unknown ∧
      ((Builder.new {}).stepsIn .sorted
        ([Step.declare "f" ["a"] .null [.expr (.assign (.subscript "a" [.num ⟨1⟩]) (.num ⟨1⟩))],
          .declare "g" ["b"] .null [], .expr (.call "f" [.var "x"] .null)] ++
          [.expr (.call "g" [.var "x"] .null)] ++ [.resolve])).1.getLast? =
        some (.resolved (.ok ())) ∧
      ((Builder.new {}).stepsIn .sorted
        ([Step.declare "f" ["a"] .null [.expr (.assign (.subscript "a" [.num ⟨1⟩]) (.num ⟨1⟩))],
          .declare "g" ["b"] .null [], .expr (.call "f" [.var "x"] .null)] ++
          [.expr (.call "g" [.var "x"] .null)] ++ [.resolve])).2.ast.size ≤ UInt32.size ∧
      ((Builder.new {}).stepsIn .sorted
        ([Step.declare "f" ["a"] .null [.expr (.assign (.subscript "a" [.num ⟨1⟩]) (.num ⟨1⟩))],
          .declare "g" ["b"] .null [], .expr (.call "f" [.var "x"] .null)] ++
          [.expr (.call "g" [.var "x"] .null)] ++ [.resolve])).2.GlobalAsParam "x" "g" 0 := by
  refine ⟨VisitOrder.sorted_lawful, ?inPlace, ?global, ?unknown, ?ok, ?size,
    stepsIn_call_resolve_lastCall {} VisitOrder.sorted_lawful _ ?inPlace "g" "x" .null
      ?global ?unknown ?ok ?size⟩
  case inPlace => decide
  all_goals cbv

/-- **The order of the calls decides.** With one function that indexes its parameter and one
that never uses it, a global passed to both is a scalar when the second call comes last and
an array when the first does. -/
theorem stepsIn_resolve_callOrder :
    ((Builder.new {}).stepsIn .sorted
      ([Step.declare "f" ["a"] .null [.expr (.assign (.subscript "a" [.num ⟨1⟩]) (.num ⟨1⟩))],
        .declare "g" ["b"] .null [],
        .begin [.expr (.call "f" [.var "x"] .null), .expr (.call "g" [.var "x"] .null)]] ++
        [.resolve])).1.getLast? = some (.resolved (.ok ())) ∧
      ((Builder.new {}).stepsIn .sorted
        ([Step.declare "f" ["a"] .null [.expr (.assign (.subscript "a" [.num ⟨1⟩]) (.num ⟨1⟩))],
          .declare "g" ["b"] .null [],
          .begin [.expr (.call "f" [.var "x"] .null), .expr (.call "g" [.var "x"] .null)]] ++
          [.resolve])).2.resolver.symbols.kind none "x" = .scalar ∧
      ((Builder.new {}).stepsIn .sorted
        ([Step.declare "f" ["a"] .null [.expr (.assign (.subscript "a" [.num ⟨1⟩]) (.num ⟨1⟩))],
          .declare "g" ["b"] .null [],
          .begin [.expr (.call "g" [.var "x"] .null), .expr (.call "f" [.var "x"] .null)]] ++
          [.resolve])).1.getLast? = some (.resolved (.ok ())) ∧
      ((Builder.new {}).stepsIn .sorted
        ([Step.declare "f" ["a"] .null [.expr (.assign (.subscript "a" [.num ⟨1⟩]) (.num ⟨1⟩))],
          .declare "g" ["b"] .null [],
          .begin [.expr (.call "g" [.var "x"] .null), .expr (.call "f" [.var "x"] .null)]] ++
          [.resolve])).2.resolver.symbols.kind none "x" = .array :=
  ⟨by cbv, by cbv, by cbv, by cbv⟩

end Builder

end AwkNames
