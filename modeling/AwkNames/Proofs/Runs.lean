import AwkNames.Build.Step
import AwkNames.Proofs.Inference
import Mathlib.Logic.Relation

/-!
# Runs of the builder

Every request to the builder is made of a few primitive operations: appending a node,
recording a scalar or an array use, making a call, opening, closing and registering a function,
and adding a block to the program. `Builder.Respects R` says that each primitive keeps a
relation `R` between two builders and gives the same answer on both. `Builder.Respects.build`,
`Builder.Respects.run` and `Builder.Respects.stepIn` lift this to whole expressions, statements
and every step but resolution; `Builder.stepsIn_resolve` reads off how a run that ends in
resolving ends.

An invariant is a relation between a builder and itself (`Builder.Respects.of_invariant`), and
two runs that differ only in what resolution wrote are related by a relation that forgets it:
both uses come from the one induction here.

Along the way: every equation of `Source.build` and `StmtSource.run` in a form that names the
intermediate builders, and `Source.frame_build`, `StmtSource.frame_runList` : building never
opens or closes a function body, nor does a body once open.

The requests do not make every order of operations: a function body holds statements, so no
request resolves, or adds a block, while a body is open. The builder's interface allows it,
and `Builder.Runs` is the model of that interface: its operations (`Op`) are appending a node,
recording a scalar or an array use, making a call, opening a function body, closing it with or
without declaring its function, changing the program's blocks, and resolving, in any order.
`Builder.Performs b op b'` says which of them a builder can perform and where each leaves it,
and `Builder.Runs ok b b'` is any number of them whose labels satisfy `ok`. Every run of
requests is such a run (`Builder.runs_stepsIn`), and what every operation keeps every run keeps
(`Builder.Runs.invariant`).
-/

namespace AwkNames

/-! ### The building functions, one equation per form -/

namespace Source

variable (b : Builder)

@[simp] theorem build_num (x : Double) : (Source.num x).build b = b.alloc (.num x) := rfl

@[simp] theorem build_str (s : String) : (Source.str s).build b = b.alloc (.str s) := rfl

@[simp] theorem build_field (e : Source) :
    (Source.field e).build b = (e.build b).2.alloc (.field (e.build b).1) := rfl

@[simp] theorem build_var (n : String) : (Source.var n).build b = b.varRef n := rfl

@[simp] theorem build_array (n : String) : (Source.array n).build b = b.arrayRef n := rfl

@[simp] theorem build_subscript (n : String) (subs : List Source) :
    (Source.subscript n subs).build b =
      ((buildList subs b).2.arrayRef n).2.alloc
        (.subscript ((buildList subs b).2.arrayRef n).1 (buildList subs b).1) := rfl

@[simp] theorem build_member (subs : List Source) (n : String) :
    (Source.member subs n).build b =
      ((buildList subs b).2.arrayRef n).2.alloc
        (.member (buildList subs b).1 ((buildList subs b).2.arrayRef n).1) := rfl

@[simp] theorem build_assign (l r : Source) :
    (Source.assign l r).build b =
      (r.build (l.build b).2).2.alloc (.assign (l.build b).1 (r.build (l.build b).2).1) := rfl

@[simp] theorem build_binary (op : BinOp) (l r : Source) :
    (Source.binary op l r).build b =
      (r.build (l.build b).2).2.alloc (.binary op (l.build b).1 (r.build (l.build b).2).1) := rfl

@[simp] theorem build_call (f : String) (args : List Source) (pos : Position) :
    (Source.call f args pos).build b = (buildList args b).2.call f (buildList args b).1 pos := rfl

@[simp] theorem build_node (id : NodeId) : (Source.node id).build b = (id, b) := rfl

@[simp] theorem buildList_nil : buildList [] b = ([], b) := rfl

@[simp] theorem buildList_cons (e : Source) (es : List Source) :
    buildList (e :: es) b =
      ((e.build b).1 :: (buildList es (e.build b).2).1, (buildList es (e.build b).2).2) := rfl

end Source

namespace StmtSource

variable (b : Builder)

@[simp] theorem run_expr (e : Source) :
    (StmtSource.expr e).run b = (.ok (some (.expr (e.build b).1)), (e.build b).2) := rfl

@[simp] theorem run_print (es : List Source) :
    (StmtSource.print es).run b =
      (.ok (some (.print (Source.buildList es b).1)), (Source.buildList es b).2) := rfl

@[simp] theorem run_delete (a : Source) (subs : List Source) :
    (StmtSource.delete a subs).run b =
      (.ok (some (.delete (a.build b).1 (Source.buildList subs (a.build b).2).1)),
        (Source.buildList subs (a.build b).2).2) := rfl

@[simp] theorem run_ret_none : (StmtSource.ret none).run b = (.ok (some (.ret none)), b) := rfl

@[simp] theorem run_ret_some (e : Source) :
    (StmtSource.ret (some e)).run b = (.ok (some (.ret (some (e.build b).1))), (e.build b).2) :=
  rfl

theorem run_declare_of_fault {name : String} {params : List String} {pos : Position}
    {body : List StmtSource} {e : Error} (h : b.declarationFault name params pos = some e) :
    (StmtSource.declare name params pos body).run b = (.error e, b) := by
  simp [StmtSource.run, h]

/-- A declaration that passes its checks runs its body with the function open; a failed body
closes it again, a finished one registers the function. -/
theorem run_declare_of_ok {name : String} {params : List String} {pos : Position}
    {body : List StmtSource} (h : b.declarationFault name params pos = none) :
    (StmtSource.declare name params pos body).run b =
      match (runList body (b.openFunction name params)).1 with
      | .error e => (.error e, (runList body (b.openFunction name params)).2.closeFunction)
      | .ok stmts => (.ok none, (runList body (b.openFunction name params)).2.closeFunction.register
          name params stmts) := by
  simp only [StmtSource.run, h]
  split <;> simp_all

@[simp] theorem runList_nil : runList [] b = (.ok [], b) := rfl

/-- A body runs its first statement, then the rest from where it left off, and stops at the
first failure. -/
theorem runList_cons (s : StmtSource) (rest : List StmtSource) :
    runList (s :: rest) b =
      match (s.run b).1 with
      | .error e => (.error e, (s.run b).2)
      | .ok o =>
        match (runList rest (s.run b).2).1 with
        | .error e => (.error e, (runList rest (s.run b).2).2)
        | .ok stmts => (.ok (o.toList ++ stmts), (runList rest (s.run b).2).2) := by
  simp only [runList]
  split <;> split <;> simp_all

end StmtSource

/-! ### Building keeps the open body -/

@[simp] theorem Builder.alloc_ast (b : Builder) (e : Expr) : (b.alloc e).2.ast = b.ast.push e := rfl

@[simp] theorem Builder.varRef_ast (b : Builder) (n : String) :
    (b.varRef n).2.ast = b.ast.push (.var { name := n, scope := b.resolver.scopeOf n }) := rfl

@[simp] theorem Builder.arrayRef_ast (b : Builder) (n : String) :
    (b.arrayRef n).2.ast = b.ast.push (.array { name := n, scope := b.resolver.scopeOf n }) := rfl

@[simp] theorem Builder.alloc_frame (b : Builder) (e : Expr) :
    (b.alloc e).2.resolver.frame = b.resolver.frame := rfl

@[simp] theorem Builder.varRef_frame (b : Builder) (n : String) :
    (b.varRef n).2.resolver.frame = b.resolver.frame := rfl

@[simp] theorem Builder.arrayRef_frame (b : Builder) (n : String) :
    (b.arrayRef n).2.resolver.frame = b.resolver.frame := rfl

/-- Deferring an argument changes only the symbols. -/
theorem Builder.deferArg_eq (b : Builder) (f : String) (a : NodeId) (i : Nat) :
    ∃ t, b.deferArg f a i = { b with resolver := { b.resolver with symbols := t } } := by
  unfold deferArg
  split
  · split
    · split
      · exact ⟨_, rfl⟩
      · exact ⟨b.resolver.symbols, rfl⟩
    · exact ⟨b.resolver.symbols, rfl⟩
  · exact ⟨b.resolver.symbols, rfl⟩

theorem Builder.deferArgs_eq (f : String) :
    ∀ (b : Builder) (i : Nat) (args : List NodeId),
      ∃ t, b.deferArgs f i args = { b with resolver := { b.resolver with symbols := t } }
  | b, _, [] => ⟨b.resolver.symbols, rfl⟩
  | b, i, a :: rest => by
    obtain ⟨t, ht⟩ := b.deferArg_eq f a i
    obtain ⟨t', ht'⟩ := deferArgs_eq f (b.deferArg f a i) (i + 1) rest
    exact ⟨t', by rw [deferArgs, ht', ht]⟩

/-- Recording a call appends to the log the call at the node, if the node is one, and changes
nothing else. -/
theorem Builder.recordCall_eq (b : Builder) (node : NodeId) (pos : Position) :
    ∃ l : List CallSite, (∀ cs ∈ l, ∃ c, b.ast.get? node = some (.call c) ∧
      cs = { callee := c.callee, argCount := c.args.length, position := pos, node }) ∧
      b.recordCall node pos = { b with resolver := { b.resolver with calls := b.resolver.calls ++ l } } := by
  unfold recordCall
  split
  · rename_i c hc
    exact ⟨_, fun cs hcs => ⟨c, hc, List.mem_singleton.1 hcs⟩, rfl⟩
  · exact ⟨[], by simp, by simp⟩

@[simp] theorem Builder.recordCall_ast (b : Builder) (node : NodeId) (pos : Position) :
    (b.recordCall node pos).ast = b.ast := by
  obtain ⟨l, -, h⟩ := b.recordCall_eq node pos
  rw [h]

@[simp] theorem Builder.recordCall_program (b : Builder) (node : NodeId) (pos : Position) :
    (b.recordCall node pos).program = b.program := by
  obtain ⟨l, -, h⟩ := b.recordCall_eq node pos
  rw [h]

/-- A call defers its arguments, appends its node and records the call at the id the node
gets. -/
theorem Builder.call_eq (b : Builder) (f : String) (args : List NodeId) (pos : Position) :
    b.call f args pos = (b.ast.nextId, ({ b with
      ast := b.ast.push (.call { callee := f, args })
      resolver := { b.resolver with symbols := (b.deferArgs f 0 args).resolver.symbols } } :
        Builder).recordCall b.ast.nextId pos) := by
  obtain ⟨t, ht⟩ := b.deferArgs_eq f 0 args
  simp only [call, alloc, ht]

/-- While the arena holds fewer than `2 ^ 32` nodes, a call records its own node. -/
theorem Builder.call_eq_of_lt {b : Builder} (h : b.ast.size < UInt32.size) (f : String)
    (args : List NodeId) (pos : Position) :
    b.call f args pos = (b.ast.nextId, { b with
      ast := b.ast.push (.call { callee := f, args })
      resolver := { b.resolver with
        symbols := (b.deferArgs f 0 args).resolver.symbols
        calls := b.resolver.calls ++
          [{ callee := f, argCount := args.length, position := pos, node := b.ast.nextId }] } }) := by
  rw [call_eq]
  simp only [recordCall, Ast.get?_push_nextId h]

/-- A call changes the resolver only in its symbols and its log. -/
theorem Builder.call_resolver (b : Builder) (f : String) (args : List NodeId) (pos : Position) :
    ∃ l, (b.call f args pos).2.resolver = { b.resolver with
      symbols := (b.deferArgs f 0 args).resolver.symbols, calls := b.resolver.calls ++ l } := by
  obtain ⟨l, -, h⟩ := Builder.recordCall_eq ({ b with
    ast := b.ast.push (.call { callee := f, args })
    resolver := { b.resolver with symbols := (b.deferArgs f 0 args).resolver.symbols } } :
      Builder) b.ast.nextId pos
  exact ⟨l, by rw [call_eq, h]⟩

@[simp] theorem Builder.call_ast (b : Builder) (f : String) (args : List NodeId) (pos : Position) :
    (b.call f args pos).2.ast = b.ast.push (.call { callee := f, args }) := by
  rw [call_eq, recordCall_ast]

@[simp] theorem Builder.call_program (b : Builder) (f : String) (args : List NodeId)
    (pos : Position) : (b.call f args pos).2.program = b.program := by
  rw [call_eq, recordCall_program]

@[simp] theorem Builder.call_frame (b : Builder) (f : String) (args : List NodeId)
    (pos : Position) : (b.call f args pos).2.resolver.frame = b.resolver.frame := by
  obtain ⟨l, h⟩ := b.call_resolver f args pos
  rw [h]

@[simp] theorem Builder.call_symbols (b : Builder) (f : String) (args : List NodeId)
    (pos : Position) :
    (b.call f args pos).2.resolver.symbols = (b.deferArgs f 0 args).resolver.symbols := by
  obtain ⟨l, h⟩ := b.call_resolver f args pos
  rw [h]

@[simp] theorem Builder.call_config (b : Builder) (f : String) (args : List NodeId)
    (pos : Position) : (b.call f args pos).2.resolver.config = b.resolver.config := by
  obtain ⟨l, h⟩ := b.call_resolver f args pos
  rw [h]

mutual

theorem Source.frame_build : ∀ (e : Source) (b : Builder),
    (e.build b).2.resolver.frame = b.resolver.frame
  | .num _, _ | .str _, _ | .var _, _ | .array _, _ | .node _, _ => rfl
  | .field e, b => by simp [Source.frame_build e]
  | .subscript _ subs, b | .member subs _, b => by simp [Source.frame_buildList subs]
  | .assign l r, b | .binary _ l r, b => by simp [Source.frame_build l, Source.frame_build r]
  | .call _ args _, b => by simp [Source.frame_buildList args]

theorem Source.frame_buildList : ∀ (es : List Source) (b : Builder),
    (Source.buildList es b).2.resolver.frame = b.resolver.frame
  | [], _ => rfl
  | e :: es, b => by simp [Source.frame_buildList es, Source.frame_build e]

end

/-- Inside an open body every declaration is refused as nested. -/
theorem Builder.declarationFault_of_open {b : Builder} (h : b.resolver.frame.isSome)
    (name : String) (params : List String) (pos : Position) :
    b.declarationFault name params pos = some ⟨.nestedFunction name, pos⟩ := by
  simp [Builder.declarationFault, h]

mutual

/-- Inside an open body a statement keeps the body open: a declaration there is refused before
it changes anything. -/
theorem StmtSource.frame_run : ∀ (s : StmtSource) (b : Builder), b.resolver.frame.isSome →
    (s.run b).2.resolver.frame = b.resolver.frame
  | .expr e, b, _ => by simp [Source.frame_build]
  | .print es, b, _ => by simp [Source.frame_buildList]
  | .delete a subs, b, _ => by simp [Source.frame_build, Source.frame_buildList]
  | .ret none, _, _ => rfl
  | .ret (some e), b, _ => by simp [Source.frame_build]
  | .declare name params pos body, b, h => by
    rw [StmtSource.run_declare_of_fault b (Builder.declarationFault_of_open h name params pos)]

theorem StmtSource.frame_runList : ∀ (ss : List StmtSource) (b : Builder),
    b.resolver.frame.isSome → (StmtSource.runList ss b).2.resolver.frame = b.resolver.frame
  | [], _, _ => rfl
  | s :: rest, b, h => by
    have h₁ := StmtSource.frame_run s b h
    have h₂ := StmtSource.frame_runList rest (s.run b).2 (h₁ ▸ h)
    rw [StmtSource.runList_cons]
    split
    · exact h₁
    · split <;> simp only [h₂, h₁]

end

/-! ### Relations every operation keeps -/

/-- A node that is neither a use of a name nor a call: appending one records nothing. -/
def Expr.Plain : Expr → Prop
  | .var _ | .array _ | .call _ => False
  | _ => True

namespace Builder

/-- Running two lists of steps is running the first, then the second from where it ended. -/
theorem stepsIn_append (v : VisitOrder) : ∀ (b : Builder) (ops ops' : List Step),
    b.stepsIn v (ops ++ ops') =
      ((b.stepsIn v ops).1 ++ ((b.stepsIn v ops).2.stepsIn v ops').1,
        ((b.stepsIn v ops).2.stepsIn v ops').2)
  | _, [], _ => rfl
  | b, s :: rest, ops' => by
    simp only [List.cons_append, stepsIn, stepsIn_append v _ rest ops']

/-- A run whose last step resolves answers last with the outcome of resolving where the other
steps left the builder, and ends where that resolution ends. -/
theorem stepsIn_resolve (v : VisitOrder) (b : Builder) (ops : List Step) :
    (b.stepsIn v (ops ++ [.resolve])).1.getLast? =
        some (.resolved ((b.stepsIn v ops).2.resolveIn v).1) ∧
      (b.stepsIn v (ops ++ [.resolve])).2 = ((b.stepsIn v ops).2.resolveIn v).2 := by
  rw [stepsIn_append]
  simp [stepsIn, stepIn]

/-- A run whose last step resolves successfully ends with a successful resolution of where the
other steps left the builder. -/
theorem stepsIn_resolve_eq_ok (v : VisitOrder) (b : Builder) (ops : List Step)
    (hok : (b.stepsIn v (ops ++ [.resolve])).1.getLast? = some (.resolved (.ok ()))) :
    (b.stepsIn v ops).2.resolveIn v = (.ok (), (b.stepsIn v (ops ++ [.resolve])).2) := by
  obtain ⟨hlast, hend⟩ := stepsIn_resolve v b ops
  rw [hlast] at hok
  rw [hend]
  cases hout : (b.stepsIn v ops).2.resolveIn v
  rw [hout] at hok
  cases hok
  rfl

/-- Each primitive operation keeps `R` and gives the same answer on related builders. A
function is only opened when its declaration passes its checks, and only registered while its
body is open. -/
structure Respects (R : Builder → Builder → Prop) : Prop where
  scopeOf : ∀ {b₁ b₂} n, R b₁ b₂ → b₁.resolver.scopeOf n = b₂.resolver.scopeOf n
  hasFunction : ∀ {b₁ b₂} n, R b₁ b₂ → b₁.resolver.hasFunction n = b₂.resolver.hasFunction n
  fault : ∀ {b₁ b₂} name params pos, R b₁ b₂ →
    b₁.declarationFault name params pos = b₂.declarationFault name params pos
  alloc : ∀ {b₁ b₂} (e : Expr), e.Plain → R b₁ b₂ →
    (b₁.alloc e).1 = (b₂.alloc e).1 ∧ R (b₁.alloc e).2 (b₂.alloc e).2
  varRef : ∀ {b₁ b₂} n, R b₁ b₂ →
    (b₁.varRef n).1 = (b₂.varRef n).1 ∧ R (b₁.varRef n).2 (b₂.varRef n).2
  arrayRef : ∀ {b₁ b₂} n, R b₁ b₂ →
    (b₁.arrayRef n).1 = (b₂.arrayRef n).1 ∧ R (b₁.arrayRef n).2 (b₂.arrayRef n).2
  call : ∀ {b₁ b₂} f args pos, R b₁ b₂ →
    (b₁.call f args pos).1 = (b₂.call f args pos).1 ∧ R (b₁.call f args pos).2 (b₂.call f args pos).2
  openFunction : ∀ {b₁ b₂} name params pos, R b₁ b₂ → b₁.declarationFault name params pos = none →
    R (b₁.openFunction name params) (b₂.openFunction name params)
  closeFunction : ∀ {b₁ b₂}, R b₁ b₂ → R b₁.closeFunction b₂.closeFunction
  register : ∀ {b₁ b₂} name params stmts, R b₁ b₂ → b₁.resolver.frame = some ⟨name, params⟩ →
    R (b₁.closeFunction.register name params stmts) (b₂.closeFunction.register name params stmts)
  begin : ∀ {b₁ b₂} stmts, R b₁ b₂ →
    R { b₁ with program := { b₁.program with begins := b₁.program.begins ++ [stmts] } }
      { b₂ with program := { b₂.program with begins := b₂.program.begins ++ [stmts] } }
  action : ∀ {b₁ b₂} (a : Action), R b₁ b₂ →
    R { b₁ with program := { b₁.program with actions := b₁.program.actions ++ [a] } }
      { b₂ with program := { b₂.program with actions := b₂.program.actions ++ [a] } }
  final : ∀ {b₁ b₂} stmts, R b₁ b₂ →
    R { b₁ with program := { b₁.program with ends := b₁.program.ends ++ [stmts] } }
      { b₂ with program := { b₂.program with ends := b₂.program.ends ++ [stmts] } }

namespace Respects

variable {R : Builder → Builder → Prop}

mutual

theorem build (hR : Respects R) : ∀ (e : Source) {b₁ b₂ : Builder}, R b₁ b₂ →
    (e.build b₁).1 = (e.build b₂).1 ∧ R (e.build b₁).2 (e.build b₂).2
  | .num _, _, _, h | .str _, _, _, h => hR.alloc _ trivial h
  | .field e, _, _, h => by
    obtain ⟨hi, h'⟩ := build hR e h
    simp only [Source.build_field, hi]
    exact hR.alloc _ trivial h'
  | .var n, _, _, h => hR.varRef n h
  | .array n, _, _, h => hR.arrayRef n h
  | .subscript n subs, _, _, h | .member subs n, _, _, h => by
    obtain ⟨hi, h'⟩ := buildList hR subs h
    obtain ⟨ha, h''⟩ := hR.arrayRef n h'
    simp only [Source.build_subscript, Source.build_member, hi, ha]
    exact hR.alloc _ trivial h''
  | .assign l r, _, _, h | .binary _ l r, _, _, h => by
    obtain ⟨hi, h'⟩ := build hR l h
    obtain ⟨hj, h''⟩ := build hR r h'
    simp only [Source.build_assign, Source.build_binary, hi, hj]
    exact hR.alloc _ trivial h''
  | .call f args pos, _, _, h => by
    obtain ⟨hi, h'⟩ := buildList hR args h
    simp only [Source.build_call, hi]
    exact hR.call f _ pos h'
  | .node _, _, _, h => ⟨rfl, h⟩

theorem buildList (hR : Respects R) : ∀ (es : List Source) {b₁ b₂ : Builder}, R b₁ b₂ →
    (Source.buildList es b₁).1 = (Source.buildList es b₂).1 ∧
      R (Source.buildList es b₁).2 (Source.buildList es b₂).2
  | [], _, _, h => ⟨rfl, h⟩
  | e :: es, _, _, h => by
    obtain ⟨hi, h'⟩ := build hR e h
    obtain ⟨his, h''⟩ := buildList hR es h'
    exact ⟨by simp [hi, his], h''⟩

end

mutual

theorem run (hR : Respects R) : ∀ (s : StmtSource) {b₁ b₂ : Builder}, R b₁ b₂ →
    (s.run b₁).1 = (s.run b₂).1 ∧ R (s.run b₁).2 (s.run b₂).2
  | .expr e, _, _, h => by
    obtain ⟨hi, h'⟩ := hR.build e h
    exact ⟨by simp [hi], h'⟩
  | .print es, _, _, h => by
    obtain ⟨hi, h'⟩ := hR.buildList es h
    exact ⟨by simp [hi], h'⟩
  | .delete a subs, _, _, h => by
    obtain ⟨hi, h'⟩ := hR.build a h
    obtain ⟨his, h''⟩ := hR.buildList subs h'
    exact ⟨by simp [hi, his], h''⟩
  | .ret none, _, _, h => ⟨rfl, h⟩
  | .ret (some e), _, _, h => by
    obtain ⟨hi, h'⟩ := hR.build e h
    exact ⟨by simp [hi], h'⟩
  | .declare name params pos body, b₁, b₂, h => by
    cases hf : b₁.declarationFault name params pos with
    | some e =>
      have hf₂ : b₂.declarationFault name params pos = some e := (hR.fault name params pos h) ▸ hf
      rw [StmtSource.run_declare_of_fault b₁ hf, StmtSource.run_declare_of_fault b₂ hf₂]
      exact ⟨rfl, h⟩
    | none =>
      have hf₂ : b₂.declarationFault name params pos = none := (hR.fault name params pos h) ▸ hf
      rw [StmtSource.run_declare_of_ok b₁ hf, StmtSource.run_declare_of_ok b₂ hf₂]
      obtain ⟨hout, hbody⟩ := runList hR body (hR.openFunction name params pos h hf)
      have hframe : (StmtSource.runList body (b₁.openFunction name params)).2.resolver.frame =
          some ⟨name, params⟩ :=
        StmtSource.frame_runList body _ rfl
      rw [← hout]
      split
      · exact ⟨rfl, hR.closeFunction hbody⟩
      · exact ⟨rfl, hR.register name params _ hbody hframe⟩

theorem runList (hR : Respects R) : ∀ (ss : List StmtSource) {b₁ b₂ : Builder}, R b₁ b₂ →
    (StmtSource.runList ss b₁).1 = (StmtSource.runList ss b₂).1 ∧
      R (StmtSource.runList ss b₁).2 (StmtSource.runList ss b₂).2
  | [], _, _, h => ⟨rfl, h⟩
  | s :: rest, b₁, b₂, h => by
    obtain ⟨hout, h'⟩ := run hR s h
    obtain ⟨hout', h''⟩ := runList hR rest h'
    rw [StmtSource.runList_cons, StmtSource.runList_cons, ← hout, ← hout']
    split
    · exact ⟨rfl, h'⟩
    · split
      · exact ⟨rfl, h''⟩
      · exact ⟨rfl, h''⟩

end

theorem addBlock (hR : Respects R) {b₁ b₂ : Builder} (body : List StmtSource)
    {add : List Stmt → Program → Program}
    (hadd : ∀ stmts {c₁ c₂ : Builder}, R c₁ c₂ →
      R { c₁ with program := add stmts c₁.program } { c₂ with program := add stmts c₂.program })
    (h : R b₁ b₂) :
    (b₁.addBlock body add).1 = (b₂.addBlock body add).1 ∧
      R (b₁.addBlock body add).2 (b₂.addBlock body add).2 := by
  obtain ⟨hout, h'⟩ := hR.runList body h
  simp only [Builder.addBlock]
  split <;> split <;> simp_all

/-- **Every step but resolution keeps a relation that the primitives keep**, with the same
answer on both sides, whatever order each side would resolve in. -/
theorem stepIn (hR : Respects R) {v w : VisitOrder} : ∀ (s : Step), s ≠ .resolve → ∀ {b₁ b₂ : Builder}, R b₁ b₂ →
    (b₁.stepIn v s).1 = (b₂.stepIn w s).1 ∧ R (b₁.stepIn v s).2 (b₂.stepIn w s).2
  | .declare name params pos body, _, b₁, b₂, h => by
    obtain ⟨hout, h'⟩ := hR.run (.declare name params pos body) h
    simp only [Builder.stepIn]
    split <;> split <;> simp_all
  | .begin body, _, _, _, h => hR.addBlock body (fun stmts _ _ hc => hR.begin stmts hc) h
  | .action none body, _, _, _, h =>
    hR.addBlock body (fun stmts _ _ hc => hR.action ⟨none, stmts⟩ hc) h
  | .action (some e) body, _, b₁, b₂, h => by
    obtain ⟨hi, h'⟩ := hR.build e h
    simp only [Builder.stepIn, hi]
    exact hR.addBlock body (fun stmts _ _ hc => hR.action ⟨some _, stmts⟩ hc) h'
  | .final body, _, _, _, h => hR.addBlock body (fun stmts _ _ hc => hR.final stmts hc) h
  | .expr e, _, b₁, b₂, h => by
    obtain ⟨hi, h'⟩ := hR.build e h
    exact ⟨by simp [Builder.stepIn, hi], h'⟩
  | .scopeOf n, _, _, _, h => by simp [hR.scopeOf n h, h]
  | .hasFunction n, _, _, _, h => by simp [hR.hasFunction n h, h]
  | .resolve, hs, _, _, _ => absurd rfl hs

/-- An invariant that every primitive keeps, seen as the relation of a builder to itself. A
change of the program that keeps its functions stands for adding a block. -/
theorem of_invariant {P : Builder → Prop}
    (alloc : ∀ b (e : Expr), e.Plain → P b → P (b.alloc e).2)
    (varRef : ∀ b n, P b → P (b.varRef n).2)
    (arrayRef : ∀ b n, P b → P (b.arrayRef n).2)
    (call : ∀ b f args pos, P b → P (b.call f args pos).2)
    (openFunction : ∀ b name params pos, P b → b.declarationFault name params pos = none →
      P (b.openFunction name params))
    (closeFunction : ∀ b, P b → P b.closeFunction)
    (register : ∀ b name params stmts, P b → b.resolver.frame = some ⟨name, params⟩ →
      P (b.closeFunction.register name params stmts))
    (program : ∀ b (q : Program), q.functions = b.program.functions → P b →
      P { b with program := q }) :
    Respects fun b₁ b₂ => b₁ = b₂ ∧ P b₁ where
  scopeOf := by rintro _ _ n ⟨rfl, -⟩; rfl
  hasFunction := by rintro _ _ n ⟨rfl, -⟩; rfl
  fault := by rintro _ _ name params pos ⟨rfl, -⟩; rfl
  alloc := by rintro b _ e he ⟨rfl, hb⟩; exact ⟨rfl, rfl, alloc b e he hb⟩
  varRef := by rintro b _ n ⟨rfl, hb⟩; exact ⟨rfl, rfl, varRef b n hb⟩
  arrayRef := by rintro b _ n ⟨rfl, hb⟩; exact ⟨rfl, rfl, arrayRef b n hb⟩
  call := by rintro b _ f args pos ⟨rfl, hb⟩; exact ⟨rfl, rfl, call b f args pos hb⟩
  openFunction := by
    rintro b _ name params pos ⟨rfl, hb⟩ hf
    exact ⟨rfl, openFunction b name params pos hb hf⟩
  closeFunction := by rintro b _ ⟨rfl, hb⟩; exact ⟨rfl, closeFunction b hb⟩
  register := by
    rintro b _ name params stmts ⟨rfl, hb⟩ hfr
    exact ⟨rfl, register b name params stmts hb hfr⟩
  begin := by rintro b _ stmts ⟨rfl, hb⟩; exact ⟨rfl, program b _ rfl hb⟩
  action := by rintro b _ a ⟨rfl, hb⟩; exact ⟨rfl, program b _ rfl hb⟩
  final := by rintro b _ stmts ⟨rfl, hb⟩; exact ⟨rfl, program b _ rfl hb⟩

/-- A step other than resolution keeps an invariant that every primitive keeps. -/
theorem invariant_stepIn {P : Builder → Prop} (hR : Respects fun b₁ b₂ => b₁ = b₂ ∧ P b₁)
    {b : Builder} (hb : P b) (v : VisitOrder) {s : Step} (hs : s ≠ .resolve) :
    P (b.stepIn v s).2 :=
  ((hR.stepIn (v := v) (w := v) s hs ⟨rfl, hb⟩).2).2

end Respects

/-- The arena only grows, as an invariant every primitive keeps. -/
theorem respects_size (n : Nat) : Respects fun b₁ b₂ => b₁ = b₂ ∧ n ≤ b₁.ast.size :=
  Respects.of_invariant
    (fun b e _ h => by rw [alloc_ast, Ast.size_push]; exact Nat.le_succ_of_le h)
    (fun b _ h => by rw [varRef_ast, Ast.size_push]; exact Nat.le_succ_of_le h)
    (fun b _ h => by rw [arrayRef_ast, Ast.size_push]; exact Nat.le_succ_of_le h)
    (fun b f args pos h => by rw [call_ast, Ast.size_push]; exact Nat.le_succ_of_le h)
    (fun _ _ _ _ h _ => h) (fun _ h => h) (fun _ _ _ _ h _ => h) (fun _ _ _ h => h)

end Builder

/-! ### Runs of operations -/

/-- One operation of the builder's interface. -/
inductive Op where
  /-- Append a node. -/
  | alloc (e : Expr)
  /-- Record a scalar use of a name. -/
  | varRef (name : String)
  /-- Record an array use of a name. -/
  | arrayRef (name : String)
  /-- Make a call of a user function. -/
  | call (callee : String) (args : List NodeId) (pos : Position)
  /-- Open the body of a function. -/
  | openFunction (name : String) (params : List String) (pos : Position)
  /-- Close the open body; its function stays undeclared. -/
  | closeFunction
  /-- Close the open body and declare its function. -/
  | register (name : String) (params : List String) (body : List Stmt)
  /-- Replace the program's blocks. -/
  | program (p : Program)
  /-- Resolve, visiting names in the given order. -/
  | resolve (v : VisitOrder)

namespace Builder

/-- `b.Performs op b'`: the builder `b` can perform `op`, which leaves `b'`. A node is appended
on its own only if it is neither a use nor a call, a body is opened only when its declaration
passes its checks and declared only while it is open, a change of the program keeps its
functions, and resolution visits names in a lawful order. -/
inductive Performs : Builder → Op → Builder → Prop where
  | alloc {b : Builder} {e : Expr} : e.Plain → Performs b (.alloc e) (b.alloc e).2
  | varRef {b : Builder} (name : String) : Performs b (.varRef name) (b.varRef name).2
  | arrayRef {b : Builder} (name : String) : Performs b (.arrayRef name) (b.arrayRef name).2
  | call {b : Builder} (callee : String) (args : List NodeId) (pos : Position) :
      Performs b (.call callee args pos) (b.call callee args pos).2
  | openFunction {b : Builder} {name : String} {params : List String} {pos : Position} :
      b.declarationFault name params pos = none →
        Performs b (.openFunction name params pos) (b.openFunction name params)
  | closeFunction {b : Builder} : Performs b .closeFunction b.closeFunction
  | register {b : Builder} {name : String} {params : List String} (body : List Stmt) :
      b.resolver.frame = some ⟨name, params⟩ →
        Performs b (.register name params body) (b.closeFunction.register name params body)
  | program {b : Builder} {p : Program} :
      p.functions = b.program.functions → Performs b (.program p) { b with program := p }
  | resolve {b : Builder} {v : VisitOrder} :
      v.Lawful → Performs b (.resolve v) (b.resolveIn v).2

/-- `b` reaches `b'` by operations whose labels satisfy `ok`. -/
def Runs (ok : Op → Prop) : Builder → Builder → Prop :=
  Relation.ReflTransGen fun b b' => ∃ op, ok op ∧ b.Performs op b'

/-- Reaching a builder by any operations, as an invariant every primitive keeps. -/
theorem respects_runs (b₀ : Builder) :
    Respects fun b₁ b₂ => b₁ = b₂ ∧ b₀.Runs (fun _ => True) b₁ :=
  Respects.of_invariant
    (fun _ _ he h => h.tail ⟨_, trivial, .alloc he⟩)
    (fun _ n h => h.tail ⟨_, trivial, .varRef n⟩)
    (fun _ n h => h.tail ⟨_, trivial, .arrayRef n⟩)
    (fun _ f args pos h => h.tail ⟨_, trivial, .call f args pos⟩)
    (fun _ _ _ _ h hf => h.tail ⟨_, trivial, .openFunction hf⟩)
    (fun _ h => h.tail ⟨_, trivial, .closeFunction⟩)
    (fun _ _ _ stmts h hfr => h.tail ⟨_, trivial, .register stmts hfr⟩)
    (fun _ _ hq h => h.tail ⟨_, trivial, .program hq⟩)

/-- **Every run of requests is a run of operations**, resolving in a lawful order. -/
theorem runs_stepsIn {v : VisitOrder} (hv : v.Lawful) :
    ∀ (b : Builder) (ops : List Step), b.Runs (fun _ => True) (b.stepsIn v ops).2
  | _, [] => .refl
  | b, s :: rest => by
    have h₁ : b.Runs (fun _ => True) (b.stepIn v s).2 := by
      by_cases hs : s = .resolve
      · subst hs
        exact .single ⟨_, trivial, .resolve hv⟩
      · exact (respects_runs b).invariant_stepIn .refl v hs
    exact h₁.trans (runs_stepsIn hv _ rest)

/-- An invariant that every primitive keeps and a change of the program's blocks keeps holds
after any operation of a builder that has it, if it holds after the builder's lawful
resolutions. -/
theorem Performs.invariant {P : Builder → Prop} (hR : Respects fun b₁ b₂ => b₁ = b₂ ∧ P b₁)
    (hprogram : ∀ {c : Builder} {p : Program}, p.functions = c.program.functions → P c →
      P { c with program := p })
    {b b' : Builder} {op : Op} (hp : b.Performs op b') (hb : P b)
    (hresolve : ∀ {v : VisitOrder}, v.Lawful → P (b.resolveIn v).2) : P b' := by
  cases hp with
  | alloc he => exact (hR.alloc _ he ⟨rfl, hb⟩).2.2
  | varRef name => exact (hR.varRef name ⟨rfl, hb⟩).2.2
  | arrayRef name => exact (hR.arrayRef name ⟨rfl, hb⟩).2.2
  | call callee args pos => exact (hR.call callee args pos ⟨rfl, hb⟩).2.2
  | openFunction hf => exact (hR.openFunction _ _ _ ⟨rfl, hb⟩ hf).2
  | closeFunction => exact (hR.closeFunction ⟨rfl, hb⟩).2
  | register body hfr => exact (hR.register _ _ body ⟨rfl, hb⟩ hfr).2
  | program hq => exact hprogram hq hb
  | resolve hv => exact hresolve hv

/-- **What every operation keeps, every run keeps.** -/
theorem Runs.invariant {ok : Op → Prop} {P : Builder → Prop}
    (hP : ∀ {b b' : Builder} {op : Op}, ok op → b.Performs op b' → P b → P b') {b b' : Builder}
    (hr : b.Runs ok b') (hb : P b) : P b' := by
  induction hr with
  | refl => exact hb
  | tail _ hstep ih =>
    obtain ⟨op, hop, hp⟩ := hstep
    exact hP hop hp ih

theorem Runs.mono {ok ok' : Op → Prop} (h : ∀ op, ok op → ok' op) {b b' : Builder}
    (hr : b.Runs ok b') : b.Runs ok' b' :=
  Relation.ReflTransGen.mono (fun _ _ ⟨op, hop, hp⟩ => ⟨op, h op hop, hp⟩) _ _ hr

end Builder

end AwkNames
