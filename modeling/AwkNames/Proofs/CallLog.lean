import AwkNames.Proofs.Deferral
import AwkNames.Proofs.SlotErasure

/-!
# The call log and the errors of call checking

Every call node is made by `Builder.call`, which logs it at once with its callee, its number of
arguments and the position it is given; resolution checks the log in order and stops at the
first call that fails. `Builder.CallsLogged` says that the log lists every call node, with the
callee and number of arguments of the node, and once each in the order the nodes were made
while the arena holds at most `2 ^ 32` nodes (past that a call shares its id with an earlier
node, and logs that node's call again); every step keeps it, resolution included, and so does a
function body that fails half way.

Hence resolution reports a call error exactly when a call node of the tree names a function
the program does not declare, or passes more arguments than that function declares, and it
reports the node with the lowest id, at the position its call was made with. When resolution
succeeds, every call node holds the ordinal of a declared function of its name that takes all
its arguments.

* `Program.callFault` : the fault a call of a callee with a number of arguments meets;
* `List.mapM_eq_error_iff` : a traversal fails with the error of its first failing element;
* `Builder.runs_resolve_callFaults` : the theorem above, for every run of operations from a
  fresh builder that makes at most `2 ^ 32` nodes.
-/

namespace AwkNames

/-! ### Traversals that stop at the first failure -/

/-- A traversal in `Except` fails with the error of the first element that fails, every
element before it passing. -/
theorem List.mapM_eq_error_iff {α β ε : Type} {f : α → Except ε β} {e : ε} :
    ∀ {l : List α}, l.mapM f = .error e ↔
      ∃ pre x post, l = pre ++ x :: post ∧ (∀ y ∈ pre, ∃ w, f y = .ok w) ∧ f x = .error e
  | [] => by simp [pure, Except.pure]
  | a :: l => by
    rw [List.mapM_cons]
    cases ha : f a with
    | error e' =>
      simp only [bind, Except.bind, Except.error.injEq]
      constructor
      · rintro rfl
        exact ⟨[], a, l, rfl, by simp, ha⟩
      · rintro ⟨pre, x, post, hl, hpre, hx⟩
        cases pre with
        | nil =>
          obtain ⟨rfl, -⟩ := List.cons.inj hl
          rw [ha] at hx
          exact Except.error.inj hx
        | cons y pre =>
          obtain ⟨rfl, -⟩ := List.cons.inj hl
          obtain ⟨w, hw⟩ := hpre _ List.mem_cons_self
          rw [ha] at hw
          cases hw
    | ok w =>
      have ih := List.mapM_eq_error_iff (f := f) (e := e) (l := l)
      cases hl : l.mapM f with
      | error e' =>
        simp only [bind, Except.bind, Except.error.injEq]
        rw [hl] at ih
        simp only [Except.error.injEq] at ih
        rw [ih]
        constructor
        · rintro ⟨pre, x, post, rfl, hpre, hx⟩
          refine ⟨a :: pre, x, post, rfl, fun y hy => ?_, hx⟩
          rcases List.mem_cons.1 hy with rfl | hy
          · exact ⟨w, ha⟩
          · exact hpre y hy
        · rintro ⟨pre, x, post, hl', hpre, hx⟩
          cases pre with
          | nil =>
            obtain ⟨rfl, -⟩ := List.cons.inj hl'
            rw [ha] at hx
            cases hx
          | cons y pre =>
            obtain ⟨-, rfl⟩ := List.cons.inj hl'
            exact ⟨pre, x, post, rfl, fun z hz => hpre z (List.mem_cons_of_mem _ hz), hx⟩
      | ok ws =>
        simp only [bind, Except.bind, pure, Except.pure, reduceCtorEq, false_iff]
        rw [hl] at ih
        simp only [reduceCtorEq, false_iff] at ih
        rintro ⟨pre, x, post, hl', hpre, hx⟩
        cases pre with
        | nil =>
          obtain ⟨rfl, -⟩ := List.cons.inj hl'
          rw [ha] at hx
          cases hx
        | cons y pre =>
          obtain ⟨-, rfl⟩ := List.cons.inj hl'
          exact ih ⟨pre, x, post, rfl, fun z hz => hpre z (List.mem_cons_of_mem _ hz), hx⟩

/-- A traversal that succeeds passes every element, and each result comes from an element. -/
theorem List.mapM_eq_ok {α β ε : Type} {f : α → Except ε β} :
    ∀ {l : List α} {ys : List β}, l.mapM f = .ok ys →
      (∀ x ∈ l, ∃ y ∈ ys, f x = .ok y) ∧ ∀ y ∈ ys, ∃ x ∈ l, f x = .ok y
  | [], ys, h => by
    simp only [List.mapM_nil, pure, Except.pure, Except.ok.injEq] at h
    subst h
    simp
  | a :: l, ys, h => by
    rw [List.mapM_cons] at h
    cases ha : f a with
    | error e => simp [ha, bind, Except.bind] at h
    | ok w =>
      cases hl : l.mapM f with
      | error e => simp [ha, hl, bind, Except.bind] at h
      | ok ws =>
        simp only [ha, hl, bind, Except.bind, pure, Except.pure, Except.ok.injEq] at h
        subst h
        obtain ⟨h₁, h₂⟩ := List.mapM_eq_ok hl
        refine ⟨fun x hx => ?_, fun y hy => ?_⟩
        · rcases List.mem_cons.1 hx with rfl | hx
          · exact ⟨w, List.mem_cons_self, ha⟩
          · obtain ⟨y, hy, hxy⟩ := h₁ x hx
            exact ⟨y, List.mem_cons_of_mem _ hy, hxy⟩
        · rcases List.mem_cons.1 hy with rfl | hy
          · exact ⟨a, List.mem_cons_self, ha⟩
          · obtain ⟨x, hx, hxy⟩ := h₂ y hy
            exact ⟨x, List.mem_cons_of_mem _ hx, hxy⟩

/-! ### What is wrong with a call -/

/-- The fault a call of `callee` with `argCount` arguments meets: the program declares no
function of that name, or the one it declares takes fewer parameters; `none` for a call that
is fine. -/
def Program.callFault (p : Program) (callee : String) (argCount : Nat) : Option Fault :=
  match p.functions.find? (·.name == callee) with
  | none => some (.undefinedFunction callee)
  | some fn =>
    if fn.params.length < argCount then some (.tooManyArguments callee fn.params.length argCount)
    else none

/-- The callee and number of arguments of a call node. -/
def Expr.callOf? : Expr → Option (String × Nat)
  | .call c => some (c.callee, c.args.length)
  | _ => none

namespace Ast

/-- The callee and number of arguments of the node with an id, when it is a call. -/
def callAt? (t : Ast) (i : NodeId) : Option (String × Nat) := (t.get? i).bind Expr.callOf?

theorem callAt?_of_get? {t : Ast} {i : NodeId} {c : CallNode} (h : t.get? i = some (.call c)) :
    t.callAt? i = some (c.callee, c.args.length) := by
  simp [callAt?, h, Expr.callOf?]

theorem exists_of_callAt? {t : Ast} {i : NodeId} {x : String × Nat} (h : t.callAt? i = some x) :
    ∃ c, t.get? i = some (.call c) ∧ (c.callee, c.args.length) = x := by
  obtain ⟨e, he, hx⟩ := Option.bind_eq_some_iff.1 h
  cases e with
  | call c => exact ⟨c, he, Option.some.inj hx⟩
  | _ => cases hx

theorem callAt?_push (t : Ast) (e : Expr) (i : NodeId) :
    (t.push e).callAt? i = if i.val = t.size then e.callOf? else t.callAt? i := by
  simp only [callAt?, get?_push]
  split <;> rfl

/-- Appending a node that is no call changes no call. -/
theorem callAt?_push_of_callOf? {t : Ast} {e : Expr} (he : e.callOf? = none) :
    (t.push e).callAt? = t.callAt? := by
  funext i
  rw [callAt?_push]
  split
  · rename_i hi
    have hnone : t.get? i = none := by
      simp only [get?, size] at hi ⊢
      simp [hi]
    simp [he, callAt?, hnone]
  · rfl

/-- Past `2 ^ 32` nodes an appended node has no id of its own, so every id reads what it did. -/
theorem callAt?_push_of_le {t : Ast} (h : UInt32.size ≤ t.size) (e : Expr) :
    (t.push e).callAt? = t.callAt? := by
  funext i
  rw [callAt?_push, if_neg (by have := i.val_lt; omega)]

theorem lt_size_of_callAt? {t : Ast} {i : NodeId} {x : String × Nat} (h : t.callAt? i = some x) :
    i.val < t.size := by
  obtain ⟨c, hc, -⟩ := exists_of_callAt? h
  exact lt_size_of_get? hc

end Ast

/-- Patching a use keeps every call. -/
theorem Expr.callOf?_patched (t : SymbolTable) (i : NodeId) (vs as : List Ref) (e : Expr) :
    (e.patched t i vs as).callOf? = e.callOf? := by
  cases e <;> rfl

namespace Builder

variable {b : Builder}

/-! ### Resolution keeps the calls of the tree -/

/-- Writing an ordinal into a call node keeps its callee and arguments. -/
theorem callAt?_setOrdinal (b : Builder) (node : NodeId) (k : Nat) :
    (b.setOrdinal node k).ast.callAt? = b.ast.callAt? := by
  funext i
  unfold setOrdinal
  split
  · rename_i c hc
    simp only [Ast.callAt?, Ast.get?_set]
    split
    · rename_i h
      obtain ⟨rfl, -⟩ := h
      simp [hc, Expr.callOf?]
    · rfl
  · rfl

theorem callAt?_foldl_setOrdinal :
    ∀ (bs : List (NodeId × Nat)) (b : Builder),
      (bs.foldl (fun b e => b.setOrdinal e.1 e.2) b).ast.callAt? = b.ast.callAt?
  | [], _ => rfl
  | e :: rest, b => by
    rw [List.foldl_cons, callAt?_foldl_setOrdinal rest, callAt?_setOrdinal]

/-- Writing an ordinal elsewhere leaves a node alone. -/
theorem setOrdinal_get?_of_ne (b : Builder) {node i : NodeId} (k : Nat) (h : node ≠ i) :
    (b.setOrdinal node k).ast.get? i = b.ast.get? i := by
  unfold setOrdinal
  split
  · rw [Ast.get?_set, if_neg fun h' => h h'.1]
  · rfl

/-- Binding leaves alone a node that no binding names. -/
theorem foldl_setOrdinal_get?_of_not_mem {i : NodeId} :
    ∀ (bs : List (NodeId × Nat)) (b : Builder), (∀ k, (i, k) ∉ bs) →
      (bs.foldl (fun b e => b.setOrdinal e.1 e.2) b).ast.get? i = b.ast.get? i
  | [], _, _ => rfl
  | (j, k) :: rest, b, h => by
    have hj : j ≠ i := by
      rintro rfl
      exact h k List.mem_cons_self
    rw [List.foldl_cons, foldl_setOrdinal_get?_of_not_mem rest _
      fun k hk => h k (List.mem_cons_of_mem _ hk), setOrdinal_get?_of_ne _ _ hj]

/-- **Binding writes an ordinal of its list into each call node it names.** -/
theorem foldl_setOrdinal_ordinal :
    ∀ (bs : List (NodeId × Nat)) (b : Builder) {i : NodeId} {c : CallNode},
      (bs.foldl (fun b e => b.setOrdinal e.1 e.2) b).ast.get? i = some (.call c) →
      (∃ k, (i, k) ∈ bs) → ∃ k, (i, k) ∈ bs ∧ c.ordinal = some k
  | [], _, _, _, _, ⟨_, hk⟩ => by cases hk
  | (j, k) :: rest, b, i, c, h, ⟨k', hk'⟩ => by
    rw [List.foldl_cons] at h
    by_cases hrest : ∃ k, (i, k) ∈ rest
    · obtain ⟨k'', hk'', hc⟩ := foldl_setOrdinal_ordinal rest _ h hrest
      exact ⟨k'', List.mem_cons_of_mem _ hk'', hc⟩
    · -- the head names the node, and nothing after it writes there again
      have hji : (i, k') = (j, k) := by
        rcases List.mem_cons.1 hk' with h' | h'
        · exact h'
        · exact absurd ⟨k', h'⟩ hrest
      obtain ⟨rfl, rfl⟩ := Prod.mk.inj hji
      rw [foldl_setOrdinal_get?_of_not_mem rest _ fun k hk => hrest ⟨k, hk⟩] at h
      refine ⟨k', List.mem_cons_self, ?_⟩
      unfold setOrdinal at h
      split at h
      · rename_i c₀ hc₀
        rw [Ast.get?_set, if_pos ⟨rfl, Ast.lt_size_of_get? hc₀⟩] at h
        cases h
        rfl
      · rename_i hnc
        rw [h] at hnc
        exact absurd rfl (hnc c)

/-- Resolution keeps every call of the tree, the log and the ordinal of every function. -/
theorem callAt?_resolveIn (hb : b.Wf) {v : VisitOrder} (hv : v.Lawful) :
    (b.resolveIn v).2.ast.callAt? = b.ast.callAt? ∧
      (b.resolveIn v).2.resolver.calls = b.resolver.calls ∧
      (b.resolveIn v).2.resolver.functions = b.resolver.functions := by
  obtain ⟨t, bs, hr⟩ := hb.resolveIn_resolver hv
  refine ⟨?_, by rw [hr], by rw [hr]⟩
  rcases h : b.resolveIn v with ⟨out, b'⟩
  cases out with
  | ok u =>
    obtain ⟨bs, r, -, hi, rfl⟩ := Builder.resolveIn_eq_ok h
    have h₃ := (hb.inferIn_of_eq hv hi).bindCalls
    have h₅ := (h₃.assignGlobalSlotsIn (hv _).2).assignLocalSlots
    -- binding keeps each call, and the slot phases and patching write only into uses
    funext i
    simp only [Ast.callAt?, patch_get?_patched, Option.bind_map, Function.comp_def,
      Expr.callOf?_patched]
    change ({ b with resolver := r } : Builder).bindCalls.ast.callAt? i = _
    simp only [bindCalls, callAt?_foldl_setOrdinal]
    rfl
  | error e =>
    rcases resolveIn_eq_error h with ⟨-, rfl⟩ | ⟨bs, -, -, hb'⟩
    · rfl
    · rw [hb']

/-! ### The log lists every call node -/

/-- The call log lists every call node once, in the order the nodes were made, with the callee
and number of arguments of the node. -/
structure CallsLogged (b : Builder) : Prop where
  /-- The logged nodes come in increasing order, while every node has an id of its own. -/
  increasing : b.ast.size ≤ UInt32.size → (b.resolver.calls.map (·.node.val)).Pairwise (· < ·)
  /-- A logged call is a call node with the logged callee and number of arguments. -/
  logged : ∀ cs ∈ b.resolver.calls, b.ast.callAt? cs.node = some (cs.callee, cs.argCount)
  /-- Every call node is logged. -/
  complete : ∀ i, (b.ast.callAt? i).isSome → ∃ cs ∈ b.resolver.calls, cs.node = i

/-- The log is read through the calls of the tree and the log itself. -/
theorem CallsLogged.congr (hb : b.CallsLogged) {b' : Builder}
    (hast : b'.ast.callAt? = b.ast.callAt?) (hsize : b'.ast.size ≤ UInt32.size → b.ast.size ≤ UInt32.size)
    (hcalls : b'.resolver.calls = b.resolver.calls) : b'.CallsLogged where
  increasing h := hcalls ▸ hb.increasing (hsize h)
  logged := by rw [hast, hcalls]; exact hb.logged
  complete := by rw [hast, hcalls]; exact hb.complete

/-- A call appends its node to the tree and to the log. -/
theorem CallsLogged.call_of_lt (hb : b.CallsLogged) (hsz : b.ast.size < UInt32.size) (f : String)
    (args : List NodeId) (pos : Position) : (b.call f args pos).2.CallsLogged := by
  rw [call_eq_of_lt hsz]
  have hlt : ∀ cs ∈ b.resolver.calls, cs.node.val < b.ast.size := fun cs hcs =>
    Ast.lt_size_of_callAt? (hb.logged cs hcs)
  have hnext := Ast.val_nextId_of_lt hsz
  refine ⟨fun _ => ?_, fun cs hcs => ?_, fun i hi => ?_⟩
  · simp only [List.map_append, List.map_cons, List.map_nil]
    refine List.pairwise_append.2 ⟨hb.increasing (Nat.le_of_lt hsz), List.pairwise_singleton _ _, ?_⟩
    intro a ha c hc
    obtain ⟨cs, hcs, rfl⟩ := List.mem_map.1 ha
    rw [List.mem_singleton.1 hc, hnext]
    exact hlt cs hcs
  · simp only [Ast.callAt?_push]
    rcases List.mem_append.1 hcs with hcs | hcs
    · rw [if_neg (Nat.ne_of_lt (hlt cs hcs))]
      exact hb.logged cs hcs
    · rw [List.mem_singleton.1 hcs]
      simp [Expr.callOf?, hnext]
  · simp only [Ast.callAt?_push] at hi
    split at hi
    · rename_i h
      exact ⟨_, List.mem_append_right _ (List.mem_singleton_self _), Ast.nextId_eq_of_val h⟩
    · obtain ⟨cs, hcs, rfl⟩ := hb.complete i hi
      exact ⟨cs, List.mem_append_left _ hcs, rfl⟩

/-- Past `2 ^ 32` nodes a call adds no call the tree can name, and logs at most the call its
id names already. -/
theorem CallsLogged.call_of_le (hb : b.CallsLogged) (hsz : UInt32.size ≤ b.ast.size) (f : String)
    (args : List NodeId) (pos : Position) : (b.call f args pos).2.CallsLogged := by
  obtain ⟨l, hl, heq⟩ := Builder.recordCall_eq ({ b with
    ast := b.ast.push (.call { callee := f, args })
    resolver := { b.resolver with symbols := (b.deferArgs f 0 args).resolver.symbols } } :
      Builder) b.ast.nextId pos
  have hcalls : (b.call f args pos).2.ast.callAt? = b.ast.callAt? := by
    rw [call_ast, Ast.callAt?_push_of_le hsz]
  rw [call_eq, heq]
  refine ⟨fun h => absurd h (by simp; omega), fun cs hcs => ?_, fun i hi => ?_⟩
  · rcases List.mem_append.1 hcs with hcs | hcs
    · rw [Ast.callAt?_push_of_le hsz]
      exact hb.logged cs hcs
    · obtain ⟨c, hc, rfl⟩ := hl cs hcs
      exact Ast.callAt?_of_get? hc
  · rw [Ast.callAt?_push_of_le hsz] at hi
    obtain ⟨cs, hcs, rfl⟩ := hb.complete i hi
    exact ⟨cs, List.mem_append_left _ hcs, rfl⟩

theorem CallsLogged.call (hb : b.CallsLogged) (f : String) (args : List NodeId) (pos : Position) :
    (b.call f args pos).2.CallsLogged := by
  by_cases hsz : b.ast.size < UInt32.size
  · exact hb.call_of_lt hsz f args pos
  · exact hb.call_of_le (Nat.le_of_not_lt hsz) f args pos

/-- The log as a relation every primitive keeps. -/
theorem respects_callsLogged : Respects fun b₁ b₂ => b₁ = b₂ ∧ b₁.CallsLogged :=
  Respects.of_invariant
    (fun b e he h => h.congr (Ast.callAt?_push_of_callOf? (by cases e <;> simp_all [Expr.Plain, Expr.callOf?]))
      (fun h => (Ast.size_lt_of_push h).le) rfl)
    (fun b n h => h.congr (Ast.callAt?_push_of_callOf? rfl) (fun h => (Ast.size_lt_of_push h).le) rfl)
    (fun b n h => h.congr (Ast.callAt?_push_of_callOf? rfl) (fun h => (Ast.size_lt_of_push h).le) rfl)
    (fun b f args pos h => h.call f args pos)
    (fun _ _ _ _ h _ => h.congr rfl id rfl) (fun _ h => h.congr rfl id rfl)
    (fun _ _ _ _ h _ => h.congr rfl id rfl) (fun _ _ _ h => h.congr rfl id rfl)

theorem CallsLogged.resolveIn (hb : b.Wf) (hc : b.CallsLogged) {v : VisitOrder} (hv : v.Lawful) :
    (b.resolveIn v).2.CallsLogged :=
  hc.congr (callAt?_resolveIn hb hv).1 (fun h => (resolveIn_size v b).symm.trans_le h)
    (callAt?_resolveIn hb hv).2.1

/-- Every operation keeps the log. -/
theorem Performs.callsLogged {b b' : Builder} {op : Op} (hp : b.Performs op b') (hb : b.Wf)
    (hc : b.CallsLogged) : b'.CallsLogged :=
  hp.invariant respects_callsLogged (fun _ h => h.congr rfl id rfl) hc (hc.resolveIn hb)

/-- **Every run of operations logs every call node**, resolutions made while a body is open
included. -/
theorem Runs.callsLogged {ok : Op → Prop} {b b' : Builder} (hr : b.Runs ok b') (hb : b.Wf)
    (hc : b.CallsLogged) : b'.CallsLogged :=
  hr.invariant_of_wf (fun _ hp hb hc => hp.callsLogged hb hc) hb hc

theorem callsLogged_new (config : Config) : (Builder.new config).CallsLogged := by
  have hast : (Builder.new config).ast.callAt? = ({} : Ast).callAt? :=
    Ast.callAt?_push_of_callOf? rfl
  refine ⟨fun _ => List.Pairwise.nil, (fun cs hcs => by cases hcs), fun i hi => ?_⟩
  rw [hast] at hi
  simp [Ast.callAt?, Ast.get?] at hi

/-! ### Checking the log -/

/-- The fault of the node with an id, when it is a call that resolution rejects. -/
def callFaultAt (b : Builder) (i : NodeId) : Option Fault :=
  (b.ast.callAt? i).bind fun x => b.program.callFault x.1 x.2

/-- The position the call at a node was made with, as the log records it. -/
def callPosition? (b : Builder) (i : NodeId) : Option Position :=
  (b.resolver.calls.find? (·.node == i)).map (·.position)

/-- A call records the position it is given for the node it makes, while the node gets an id
of its own. -/
theorem CallsLogged.callPosition?_call (hb : b.CallsLogged) (hsz : b.ast.size < UInt32.size)
    (f : String) (args : List NodeId) (pos : Position) :
    (b.call f args pos).2.callPosition? b.ast.nextId = some pos := by
  have hnone : b.resolver.calls.find? (·.node == b.ast.nextId) = none := by
    rw [List.find?_eq_none]
    intro cs hcs heq
    have hlt := Ast.lt_size_of_callAt? (hb.logged cs hcs)
    rw [beq_iff_eq.1 heq, Ast.val_nextId_of_lt hsz] at hlt
    exact absurd hlt (Nat.lt_irrefl _)
  rw [call_eq_of_lt hsz]
  simp [callPosition?, List.find?_append, hnone]

/-- The log only grows: every step keeps what was logged before it. -/
theorem calls_prefix_stepIn (hb : b.Wf) {v : VisitOrder} (hv : v.Lawful) (s : Step) :
    b.resolver.calls <+: (b.stepIn v s).2.resolver.calls := by
  by_cases hs : s = .resolve
  · subst hs
    change b.resolver.calls <+: (b.resolveIn v).2.resolver.calls
    simp only [(callAt?_resolveIn hb hv).2.1, List.prefix_refl]
  · refine (Respects.of_invariant (P := fun c => b.resolver.calls <+: c.resolver.calls)
      (fun _ _ _ h => h) (fun _ _ h => h) (fun _ _ h => h) (fun c f args pos h => ?_)
      (fun _ _ _ _ h _ => h) (fun _ h => h) (fun _ _ _ _ h _ => h) (fun _ _ _ h => h)
      ).invariant_stepIn (List.prefix_refl _) v hs
    obtain ⟨l, hl⟩ := c.call_resolver f args pos
    rw [hl]
    exact h.trans (List.prefix_append _ _)

/-- The position of a logged node stays what it was when the node was made. -/
theorem callPosition?_stepsIn {v : VisitOrder} (hv : v.Lawful) {i : NodeId} {pos : Position} :
    ∀ {b : Builder} (ops : List Step), b.Wf → b.callPosition? i = some pos →
      (b.stepsIn v ops).2.callPosition? i = some pos
  | _, [], _, h => h
  | b, s :: rest, hb, h => by
    refine callPosition?_stepsIn hv rest (hb.stepIn hv s) ?_
    obtain ⟨l, hl⟩ := calls_prefix_stepIn hb hv s
    obtain ⟨cs, hcs, rfl⟩ := Option.map_eq_some_iff.1 h
    show ((b.stepIn v s).2.resolver.calls.find? (·.node == i)).map (·.position) = _
    rw [← hl, List.find?_append, hcs]
    rfl

/-- The program's function of a name is the one the ordinal table gives it. -/
theorem Wf.find?_name (hb : b.Wf) (f : String) :
    b.program.functions.find? (·.name == f) =
      (b.resolver.functions.get? f).bind (b.program.functions[·]?) := by
  cases hk : b.resolver.functions.get? f with
  | none =>
    rw [Option.bind_none, List.find?_eq_none]
    intro fn hfn hname
    obtain ⟨k, hk'⟩ := List.getElem?_of_mem hfn
    have := (hb.registry f k).2 ⟨fn, hk', beq_iff_eq.1 hname⟩
    rw [hk] at this
    cases this
  | some k =>
    obtain ⟨fn, hfn, rfl⟩ := (hb.registry f k).1 hk
    rw [Option.bind_some, hfn]
    cases hfind : b.program.functions.find? (·.name == fn.name) with
    | none =>
      rw [List.find?_eq_none] at hfind
      exact absurd (beq_self_eq_true fn.name) (hfind fn (List.mem_of_getElem? hfn))
    | some fn' =>
      obtain ⟨k', hk'⟩ := List.getElem?_of_mem (List.mem_of_find?_eq_some hfind)
      have hname := List.find?_some hfind
      simp only [beq_iff_eq] at hname
      have hk'' := (hb.registry fn.name k').2 ⟨fn', hk', hname⟩
      rw [hk] at hk''
      cases hk''
      rw [hfn] at hk'
      exact hk'.symm

/-- **A call fails its check exactly with its fault**, at its position. -/
theorem Wf.checkCall_eq_error_iff (hb : b.Wf) (cs : CallSite) (e : Error) :
    b.resolver.checkCall b.program cs = .error e ↔
      b.program.callFault cs.callee cs.argCount = some e.fault ∧ e.position = cs.position := by
  obtain ⟨fault, position⟩ := e
  simp only [Resolver.checkCall, Program.callFault, hb.find?_name]
  cases hk : b.resolver.functions.get? cs.callee with
  | none => simp [eq_comm]
  | some k =>
    obtain ⟨fn, hfn, -⟩ := (hb.registry _ k).1 hk
    simp only [Option.bind_some, hfn, Program.arity, Option.map_some, Option.getD_some]
    split <;> simp [eq_comm]

/-- A call that passes its check has no fault. -/
theorem Wf.callFault_eq_none (hb : b.Wf) {cs : CallSite} {x : NodeId × Nat}
    (h : b.resolver.checkCall b.program cs = .ok x) :
    b.program.callFault cs.callee cs.argCount = none := by
  cases hf : b.program.callFault cs.callee cs.argCount with
  | none => rfl
  | some f =>
    have := (hb.checkCall_eq_error_iff cs ⟨f, cs.position⟩).2 ⟨hf, rfl⟩
    rw [h] at this
    cases this

/-- In an increasing log split at an entry, the entries with smaller nodes come before it. -/
theorem mem_of_lt_node {pre post : List CallSite} {cs cs' : CallSite}
    (hinc : ((pre ++ cs :: post).map (·.node.val)).Pairwise (· < ·))
    (hmem : cs' ∈ pre ++ cs :: post) (hlt : cs'.node.val < cs.node.val) : cs' ∈ pre := by
  rw [List.pairwise_map, List.pairwise_append, List.pairwise_cons] at hinc
  rcases List.mem_append.1 hmem with h | h
  · exact h
  · rcases List.mem_cons.1 h with rfl | h
    · exact absurd hlt (Nat.lt_irrefl _)
    · exact absurd (hinc.2.1.1 cs' h) (Nat.lt_asymm hlt)

/-- **The check stops at the first faulty call node.** When checking the log fails, the error
is the fault of a call node at the position its call was made with, and every call node with a
lower id passes. -/
theorem Wf.checkCalls_eq_error (hb : b.Wf) (hc : b.CallsLogged) (hsz : b.ast.size ≤ UInt32.size)
    {e : Error} (h : b.resolver.checkCalls b.program = .error e) :
    ∃ i, b.callFaultAt i = some e.fault ∧ b.callPosition? i = some e.position ∧
      ∀ j, j.val < i.val → b.callFaultAt j = none := by
  obtain ⟨pre, cs, post, hl, hpre, hcs⟩ := List.mapM_eq_error_iff.1 h
  obtain ⟨hfault, hpos⟩ := (hb.checkCall_eq_error_iff cs e).1 hcs
  have hinc := hc.increasing hsz
  rw [hl] at hinc
  have hat := hc.logged cs (by rw [hl]; simp)
  refine ⟨cs.node, by simp [callFaultAt, hat, hfault], ?_, fun j hj => ?_⟩
  · have hbefore : pre.find? (·.node == cs.node) = none := by
      rw [List.find?_eq_none]
      intro cs' hcs' heq
      rw [List.pairwise_map, List.pairwise_append] at hinc
      have hlt := hinc.2.2 cs' hcs' cs List.mem_cons_self
      rw [beq_iff_eq.1 heq] at hlt
      exact absurd hlt (Nat.lt_irrefl _)
    simp [callPosition?, hl, List.find?_append, hbefore, hpos]
  · cases hj' : b.ast.callAt? j with
    | none => simp [callFaultAt, hj']
    | some x =>
      -- an earlier call node is logged before the failing entry, so it passed its check
      obtain ⟨cs', hcs', rfl⟩ := hc.complete j (by simp [hj'])
      rw [hl] at hcs'
      obtain ⟨w, hw⟩ := hpre cs' (mem_of_lt_node hinc hcs' hj)
      simp [callFaultAt, hc.logged cs' (by rw [hl]; exact hcs'), hb.callFault_eq_none hw]

/-- When checking the log succeeds, no call node has a fault. -/
theorem Wf.callFaultAt_of_checkCalls (hb : b.Wf) (hc : b.CallsLogged)
    {bs : List (NodeId × Nat)} (h : b.resolver.checkCalls b.program = .ok bs) (i : NodeId) :
    b.callFaultAt i = none := by
  cases hi : b.ast.callAt? i with
  | none => simp [callFaultAt, hi]
  | some x =>
    obtain ⟨cs, hcs, rfl⟩ := hc.complete i (by simp [hi])
    obtain ⟨y, -, hy⟩ := (List.mapM_eq_ok h).1 cs hcs
    simp [callFaultAt, hc.logged cs hcs, hb.callFault_eq_none hy]

/-- **After a successful resolution every call node is bound** to the ordinal of a declared
function of its name that takes all its arguments. -/
theorem Wf.resolveIn_ordinal (hb : b.Wf) (hc : b.CallsLogged) {v : VisitOrder} (hv : v.Lawful)
    {b' : Builder} (h : b.resolveIn v = (.ok (), b')) {i : NodeId} {c : CallNode}
    (hi : b'.ast.get? i = some (.call c)) :
    ∃ k fn, c.ordinal = some k ∧ b'.program.functions[k]? = some fn ∧ fn.name = c.callee ∧
      c.args.length ≤ fn.params.length := by
  obtain ⟨hcall, hlog, hfuns⟩ := callAt?_resolveIn hb hv
  simp only [h] at hcall hlog hfuns
  have hb' : b'.Wf := by
    have := hb.resolveIn hv
    rwa [h] at this
  obtain ⟨bs, r, hcheck, hres, hb'eq⟩ := Builder.resolveIn_eq_ok h
  obtain ⟨κ, hκ, -⟩ := hb.settles_inferIn hv bs
  rw [hres] at hκ
  have hκ' : r = _ := hκ
  have h₃ := (hb.inferIn_of_eq hv hres).bindCalls
  have h₅ := (h₃.assignGlobalSlotsIn (hv _).2).assignLocalSlots
  have hbound : (bs.foldl (fun b e => b.setOrdinal e.1 e.2)
      ({ b with resolver := r } : Builder)).ast.get? i = some (.call c) := by
    rw [hb'eq, patch_get?_patched, Option.map_eq_some_iff] at hi
    obtain ⟨e, he, hwe⟩ := hi
    have hec : e = .call c := by
      cases e with
      | var u | array u => cases hwe
      | _ => exact hwe
    rw [← hec]
    have hbs : r.bindings = bs := by rw [hκ']; rfl
    rw [← hbs]
    exact he
  have hat : b.ast.callAt? i = some (c.callee, c.args.length) := by
    rw [← hcall]
    exact Ast.callAt?_of_get? hi
  obtain ⟨cs, hcs, rfl⟩ := hc.complete i (by simp [hat])
  obtain ⟨y, hy, hcy⟩ := (List.mapM_eq_ok hcheck).1 cs hcs
  obtain ⟨k, hk, hck⟩ := foldl_setOrdinal_ordinal bs _ hbound
    ⟨y.2, by rw [← (Resolver.checkCall_eq_ok hcy).1]; exact hy⟩
  obtain ⟨cs', hcs', hck'⟩ := (List.mapM_eq_ok hcheck).2 _ hk
  obtain ⟨hnode, hord, -⟩ := Resolver.checkCall_eq_ok hck'
  have hat' := hc.logged cs' hcs'
  rw [← hnode, hat] at hat'
  obtain ⟨hcallee, hargs⟩ := Prod.mk.inj (Option.some.inj hat')
  obtain ⟨k₀, hk₀, harity⟩ := hb.resolveIn_calls hv h cs' (by rw [hlog]; exact hcs')
  rw [hfuns, hord] at hk₀
  cases hk₀
  obtain ⟨fn, hfn, hname⟩ := (hb'.registry _ k).1 (by rw [hfuns]; exact hord)
  refine ⟨k, fn, hck, hfn, hname.trans hcallee.symm, ?_⟩
  simpa [Program.arity, hfn, hargs] using harity

/-- **Call errors after a run.** After any run of operations from a fresh builder that makes at
most `2 ^ 32` nodes, with resolutions at any point and bodies left open or closed, resolution
in a lawful order

* fails, when some call node names a function the program does not declare or passes more
  arguments than that function declares, with the fault of the first such node, at the position
  its call was made with;
* succeeds or fails only by diverging when no call node does;
* leaves, when it succeeds, every call node bound to the ordinal of a declared function of its
  name that takes all its arguments. -/
theorem runs_resolve_callFaults (config : Config) {v : VisitOrder} (hv : v.Lawful) {b : Builder}
    (hr : (Builder.new config).Runs (fun _ => True) b) (hsz : b.ast.size ≤ UInt32.size) :
    ((∃ i, (b.callFaultAt i).isSome) →
      ∃ i f pos, b.callFaultAt i = some f ∧ b.callPosition? i = some pos ∧
        (∀ j, j.val < i.val → b.callFaultAt j = none) ∧ (b.resolveIn v).1 = .error ⟨f, pos⟩) ∧
    ((∀ i, b.callFaultAt i = none) →
      (b.resolveIn v).1 = .ok () ∨ ∃ n, (b.resolveIn v).1 = .error ⟨.divergence n, .null⟩) ∧
    ((b.resolveIn v).1 = .ok () → ∀ i c, (b.resolveIn v).2.ast.get? i = some (.call c) →
      ∃ k fn, c.ordinal = some k ∧ (b.resolveIn v).2.program.functions[k]? = some fn ∧
        fn.name = c.callee ∧ c.args.length ≤ fn.params.length) := by
  have hb : b.Wf := hr.wf (wf_new config)
  have hc : b.CallsLogged := hr.callsLogged (wf_new config) (callsLogged_new config)
  refine ⟨fun ⟨i, hi⟩ => ?_, fun hnone => ?_, fun hok i c hi => ?_⟩
  · -- a faulty node makes the check fail, and the check reports the first one
    cases hcheck : b.resolver.checkCalls b.program with
    | ok bs =>
      rw [hb.callFaultAt_of_checkCalls hc hcheck i] at hi
      cases hi
    | error e =>
      obtain ⟨j, hj, hpos, hfirst⟩ := hb.checkCalls_eq_error hc hsz hcheck
      refine ⟨j, e.fault, e.position, hj, hpos, hfirst, ?_⟩
      simp [resolveIn, resolveCalls, hcheck]
  · cases hcheck : b.resolver.checkCalls b.program with
    | error e =>
      obtain ⟨j, hj, -⟩ := hb.checkCalls_eq_error hc hsz hcheck
      rw [hnone j] at hj
      cases hj
    | ok bs =>
      -- the calls pass, so only inference can fail, and it fails only by diverging
      rcases hres : b.resolveIn v with ⟨out, b'⟩
      cases out with
      | ok u => exact .inl rfl
      | error e =>
        right
        rcases resolveIn_eq_error hres with ⟨hc', -⟩ | ⟨bs', -, hi, -⟩
        · rw [hcheck] at hc'
          cases hc'
        · obtain ⟨n, rfl⟩ := Resolver.inferIn_error (by rw [hi])
          exact ⟨n, rfl⟩
  · rcases hres : b.resolveIn v with ⟨out, b'⟩
    rw [hres] at hok hi
    cases hok
    exact hb.resolveIn_ordinal hc hv hres hi

/-- The law at a run that uses `h` as a variable and an array and then calls it, undeclared. -/
theorem runs_resolve_callFaults_undeclared :
    VisitOrder.sorted.Lawful ∧
      let b := ((Builder.new {}).stepsIn .sorted
        [.begin [.expr (.assign (.var "h") (.num ⟨0⟩)), .expr (.subscript "h" []),
          .expr (.call "h" [] ⟨17, "test.awk"⟩)]]).2
      (Builder.new {}).Runs (fun _ => True) b ∧ b.ast.size ≤ UInt32.size ∧
      ((∃ i, (b.callFaultAt i).isSome) →
        ∃ i f pos, b.callFaultAt i = some f ∧ b.callPosition? i = some pos ∧
          (∀ j, j.val < i.val → b.callFaultAt j = none) ∧
          (b.resolveIn .sorted).1 = .error ⟨f, pos⟩) ∧
      ((∀ i, b.callFaultAt i = none) →
        (b.resolveIn .sorted).1 = .ok () ∨
          ∃ n, (b.resolveIn .sorted).1 = .error ⟨.divergence n, .null⟩) ∧
      ((b.resolveIn .sorted).1 = .ok () → ∀ i c,
        (b.resolveIn .sorted).2.ast.get? i = some (.call c) →
        ∃ k fn, c.ordinal = some k ∧ (b.resolveIn .sorted).2.program.functions[k]? = some fn ∧
          fn.name = c.callee ∧ c.args.length ≤ fn.params.length) := by
  have hr := runs_stepsIn VisitOrder.sorted_lawful (Builder.new {})
  refine ⟨VisitOrder.sorted_lawful, hr _, ?size,
    runs_resolve_callFaults {} VisitOrder.sorted_lawful (hr _) ?size⟩
  cbv

end Builder

end AwkNames
