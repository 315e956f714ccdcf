import AwkNames.Proofs.Runs
import AwkNames.Proofs.Tables
import Mathlib.Data.List.Nodup

/-!
# What every reachable builder satisfies

`Builder.Wf` collects the facts that hold of every builder a run reaches, at the top level
and inside an open function body:

* the function table gives each declared function its position in the program, with distinct
  parameters;
* every use node is recorded, and a use outside every parameter list has its name's top-level
  scope and a global symbol, and a global symbol has that scope too;
* a function's table holds only parameters, of the open body while it is built and of the
  declared function afterwards, with slot `0` until the function is declared;
* while the arena holds at most `2 ^ 32` nodes, so that every node has an id of its own, every
  recorded use is a node of its kind and owner, and a parameter use keeps slot `0` unless it
  names a parameter of its declared function. Past that bound a new use is recorded under the
  id of an earlier node, and these facts fail.

`Builder.wf_new` : a fresh builder satisfies it; `Builder.Wf.stepIn_of_ne_resolve` : every
step but resolution keeps it. Resolution keeps it too (`Builder.Wf.resolveIn`, in the module on
resolution).
-/

namespace AwkNames

/-! ### Scopes -/

namespace Resolver

@[simp]
theorem outerScope_owner (r : Resolver) (n : String) : (r.outerScope n).owner = none := by
  unfold outerScope
  split <;> rfl

theorem outerScope_ne_param (r : Resolver) (n f : String) : r.outerScope n ≠ .param f := by
  unfold outerScope
  split <;> simp

theorem scopeOf_of_owner_none {r : Resolver} {n : String} (h : (r.scopeOf n).owner = none) :
    r.scopeOf n = r.outerScope n := by
  cases hfr : r.frame with
  | none => simp [scopeOf, hfr]
  | some fr =>
    by_cases hn : n ∈ fr.params
    · simp [scopeOf, hfr, hn] at h
    · simp [scopeOf, hfr, hn]

/-- A name is a parameter where it is written only inside the open body that lists it. -/
theorem scopeOf_eq_param {r : Resolver} {n f : String} (h : r.scopeOf n = .param f) :
    ∃ fr, r.frame = some fr ∧ fr.function = f ∧ n ∈ fr.params := by
  unfold scopeOf at h
  split at h
  · rename_i fr hfr
    split at h
    · cases h
      exact ⟨fr, hfr, rfl, by assumption⟩
    · exact absurd h (outerScope_ne_param r n f)
  · exact absurd h (outerScope_ne_param r n f)

theorem scopeOf_owner_some {r : Resolver} {n f : String} (h : (r.scopeOf n).owner = some f) :
    r.scopeOf n = .param f := by
  cases hs : r.scopeOf n with
  | param g => rw [hs] at h; cases h; rfl
  | global => rw [hs] at h; cases h
  | special => rw [hs] at h; cases h

end Resolver

/-! ### Nodes -/

namespace Ast

/-- The node with an id is a scalar or an array use. -/
def IsUse (t : Ast) (i : NodeId) (u : Use) : Prop :=
  t.get? i = some (.var u) ∨ t.get? i = some (.array u)

/-- A node of the extended tree other than the appended one is an old node. -/
theorem get?_push_eq_some {t : Ast} {e x : Expr} {i : NodeId} (h : (t.push e).get? i = some x)
    (hne : e ≠ x) : t.get? i = some x := by
  rw [get?_push] at h
  split at h
  · exact absurd (Option.some.inj h) hne
  · exact h

theorem IsUse.push {t : Ast} {i : NodeId} {u : Use} (h : t.IsUse i u) (e : Expr) :
    (t.push e).IsUse i u := by
  rcases h with h | h
  · exact .inl (get?_push_of_get? h)
  · exact .inr (get?_push_of_get? h)

/-- A use of the extended tree is the new node, at position `t.size`, or an old use. -/
theorem isUse_push {t : Ast} {e : Expr} {i : NodeId} {u : Use} (h : (t.push e).IsUse i u) :
    (i.val = t.size ∧ (e = .var u ∨ e = .array u)) ∨ t.IsUse i u := by
  unfold IsUse at *
  rw [get?_push] at h
  split at h
  · rename_i hi
    rcases h with h | h <;> cases h
    · exact .inl ⟨hi, .inl rfl⟩
    · exact .inl ⟨hi, .inr rfl⟩
  · exact .inr h

end Ast

/-! ### The invariant -/

namespace Builder

/-- The facts every builder a run reaches satisfies. -/
structure Wf (b : Builder) : Prop where
  /-- The function table gives each declared function its position in the program. -/
  registry : ∀ f k, b.resolver.functions.get? f = some k ↔
    ∃ fn, b.program.functions[k]? = some fn ∧ fn.name = f
  /-- Every declared function has distinct parameters. -/
  params_nodup : ∀ fn ∈ b.program.functions, fn.params.Nodup
  /-- An open body belongs to an undeclared function with distinct parameters. -/
  frame : ∀ fr, b.resolver.frame = some fr →
    b.resolver.functions.get? fr.function = none ∧ fr.params.Nodup
  /-- While every node has an id of its own, a recorded scalar use is a scalar node of its
  table's owner. -/
  scalar_ref : b.ast.size ≤ UInt32.size → ∀ r ∈ b.resolver.scalarRefs,
    ∃ u, b.ast.get? r.node = some (.var u) ∧ r.owner = u.scope.owner
  /-- While every node has an id of its own, a recorded array use is an array node of its
  table's owner. -/
  array_ref : b.ast.size ≤ UInt32.size → ∀ r ∈ b.resolver.arrayRefs,
    ∃ u, b.ast.get? r.node = some (.array u) ∧ r.owner = u.scope.owner
  /-- Every scalar node is recorded. -/
  var_recorded : ∀ i u, b.ast.get? i = some (.var u) → ∃ r ∈ b.resolver.scalarRefs, r.node = i
  /-- Every array node is recorded. -/
  array_recorded : ∀ i u, b.ast.get? i = some (.array u) → ∃ r ∈ b.resolver.arrayRefs, r.node = i
  /-- A use outside every parameter list has its name's top-level scope, and a global
  symbol. -/
  outer_use : ∀ i u, b.ast.IsUse i u → u.scope.owner = none →
    u.scope = b.resolver.outerScope u.name ∧ (b.resolver.symbols.get? none u.name).isSome
  /-- While every node has an id of its own, a parameter use keeps slot `0` unless it names a
  parameter of its declared function. -/
  param_use : b.ast.size ≤ UInt32.size → ∀ i u f, b.ast.IsUse i u → u.scope = .param f → u.slot = 0 ∨
    ∃ k fn, b.resolver.functions.get? f = some k ∧ b.program.functions[k]? = some fn ∧
      u.name ∈ fn.params
  /-- A global symbol has its name's top-level scope. -/
  global_scope : ∀ n s, b.resolver.symbols.get? none n = some s →
    s.scope = b.resolver.outerScope n
  /-- A function's table holds parameters: of the open body while it is built, of the declared
  function afterwards; their slots are `0` until the function is declared. -/
  param_symbol : ∀ f n s, b.resolver.symbols.get? (some f) n = some s → s.scope = .param f ∧
    (b.resolver.functions.get? f = none → s.slot = 0) ∧
    (∀ k fn, b.resolver.functions.get? f = some k → b.program.functions[k]? = some fn →
      n ∈ fn.params) ∧
    (∀ fr, b.resolver.frame = some fr → fr.function = f → n ∈ fr.params)

variable {b : Builder}

/-- A name whose kind is known has a symbol. -/
theorem isSome_of_kind_ne {t : SymbolTable} {o : Option String} {n : String}
    (h : t.kind o n ≠ .unknown) : (t.get? o n).isSome := by
  cases hg : t.get? o n with
  | none => exact absurd (SymbolTable.kind_of_get?_none hg) h
  | some _ => rfl

/-- Recording a use of a name leaves it a symbol with the scope it has where it is written,
made new (with slot `0`) only when its kind was unknown. -/
theorem Wf.symbols_of_use (hb : b.Wf) (n : String) (s : Symbol) (hs : s.scope = b.resolver.scopeOf n)
    (hslot : s.slot = 0) :
    let sc := b.resolver.scopeOf n
    let t := if b.resolver.symbols.kind sc.owner n = .unknown then
      b.resolver.symbols.insert sc.owner n s else b.resolver.symbols
    (t.get? sc.owner n).isSome ∧ (∀ o m, (b.resolver.symbols.get? o m).isSome → (t.get? o m).isSome) ∧
      (∀ m s', t.get? none m = some s' → s'.scope = b.resolver.outerScope m) ∧
      (∀ f m s', t.get? (some f) m = some s' → s'.scope = .param f ∧
        (b.resolver.functions.get? f = none → s'.slot = 0) ∧
        (∀ k fn, b.resolver.functions.get? f = some k → b.program.functions[k]? = some fn →
          m ∈ fn.params) ∧
        (∀ fr, b.resolver.frame = some fr → fr.function = f → m ∈ fr.params)) := by
  intro sc t
  by_cases hk : b.resolver.symbols.kind sc.owner n = .unknown
  · have ht : t = b.resolver.symbols.insert sc.owner n s := if_pos hk
    rw [ht]
    refine ⟨by simp, fun o m hm => ?_, fun m s' hm => ?_,
      fun f m s' hm => ?_⟩
    · rw [SymbolTable.get?_insert]
      split <;> simp_all
    · rw [SymbolTable.get?_insert] at hm
      split at hm
      · obtain ⟨ho, rfl⟩ := ‹_ ∧ _›
        cases hm
        rw [hs]
        exact Resolver.scopeOf_of_owner_none ho
      · exact hb.global_scope m s' hm
    · rw [SymbolTable.get?_insert] at hm
      split at hm
      · obtain ⟨ho, rfl⟩ := ‹_ ∧ _›
        cases hm
        have hsc : sc = .param f := Resolver.scopeOf_owner_some ho
        obtain ⟨fr, hfr, rfl, hmem⟩ := Resolver.scopeOf_eq_param hsc
        have hnd := (hb.frame fr hfr).1
        refine ⟨hs.trans hsc, fun _ => hslot, fun k fn hk' => ?_, fun fr' hfr' _ => ?_⟩
        · rw [hnd] at hk'
          cases hk'
        · rw [hfr] at hfr'
          cases hfr'
          exact hmem
      · exact hb.param_symbol f m s' hm
  · have ht : t = b.resolver.symbols := if_neg hk
    rw [ht]
    exact ⟨isSome_of_kind_ne hk, fun _ _ h => h, hb.global_scope, hb.param_symbol⟩

theorem Wf.varRef (hb : b.Wf) (n : String) : (b.varRef n).2.Wf := by
  obtain ⟨hself, hkeep, hglob, hparam⟩ := hb.symbols_of_use n
    { kind := .scalar, firstUse := some b.ast.nextId, scope := b.resolver.scopeOf n } rfl rfl
  refine ⟨hb.registry, hb.params_nodup, hb.frame, ?_, ?_, ?_, ?_, ?_, ?_, hglob, hparam⟩
  · intro hsz r hr
    have hlt := Ast.size_lt_of_push hsz
    rcases List.mem_append.1 hr with hr | hr
    · obtain ⟨u, hu, ho⟩ := hb.scalar_ref hlt.le r hr
      exact ⟨u, Ast.get?_push_of_get? hu, ho⟩
    · rw [List.mem_singleton.1 hr]
      exact ⟨_, Ast.get?_push_nextId hlt _, rfl⟩
  · intro hsz r hr
    obtain ⟨u, hu, ho⟩ := hb.array_ref (Ast.size_lt_of_push hsz).le r hr
    exact ⟨u, Ast.get?_push_of_get? hu, ho⟩
  · intro i u hu
    change (b.ast.push _).get? i = _ at hu
    rw [Ast.get?_push] at hu
    split at hu
    · rename_i hi
      exact ⟨_, List.mem_append_right _ (List.mem_singleton_self _), Ast.nextId_eq_of_val hi⟩
    · obtain ⟨r, hr, rfl⟩ := hb.var_recorded i u hu
      exact ⟨r, List.mem_append_left _ hr, rfl⟩
  · intro i u hu
    change (b.ast.push _).get? i = _ at hu
    rw [Ast.get?_push] at hu
    split at hu
    · cases hu
    · exact hb.array_recorded i u hu
  · intro i u hu ho
    rcases Ast.isUse_push hu with ⟨-, he⟩ | hu
    · rcases he with he | he <;> cases he
      have hsc := Resolver.scopeOf_of_owner_none ho
      refine ⟨hsc, ?_⟩
      rw [← ho]
      exact hself
    · obtain ⟨h₁, h₂⟩ := hb.outer_use i u hu ho
      exact ⟨h₁, hkeep _ _ h₂⟩
  · intro hsz i u f hu hf
    rcases Ast.isUse_push hu with ⟨-, he⟩ | hu
    · rcases he with he | he <;> cases he
      exact .inl rfl
    · exact hb.param_use (Ast.size_lt_of_push hsz).le i u f hu hf

theorem Wf.arrayRef (hb : b.Wf) (n : String) : (b.arrayRef n).2.Wf := by
  obtain ⟨hself, hkeep, hglob, hparam⟩ := hb.symbols_of_use n
    { kind := .array, scope := b.resolver.scopeOf n } rfl rfl
  refine ⟨hb.registry, hb.params_nodup, hb.frame, ?_, ?_, ?_, ?_, ?_, ?_, hglob, hparam⟩
  · intro hsz r hr
    obtain ⟨u, hu, ho⟩ := hb.scalar_ref (Ast.size_lt_of_push hsz).le r hr
    exact ⟨u, Ast.get?_push_of_get? hu, ho⟩
  · intro hsz r hr
    have hlt := Ast.size_lt_of_push hsz
    rcases List.mem_append.1 hr with hr | hr
    · obtain ⟨u, hu, ho⟩ := hb.array_ref hlt.le r hr
      exact ⟨u, Ast.get?_push_of_get? hu, ho⟩
    · rw [List.mem_singleton.1 hr]
      exact ⟨_, Ast.get?_push_nextId hlt _, rfl⟩
  · intro i u hu
    change (b.ast.push _).get? i = _ at hu
    rw [Ast.get?_push] at hu
    split at hu
    · cases hu
    · exact hb.var_recorded i u hu
  · intro i u hu
    change (b.ast.push _).get? i = _ at hu
    rw [Ast.get?_push] at hu
    split at hu
    · rename_i hi
      exact ⟨_, List.mem_append_right _ (List.mem_singleton_self _), Ast.nextId_eq_of_val hi⟩
    · obtain ⟨r, hr, rfl⟩ := hb.array_recorded i u hu
      exact ⟨r, List.mem_append_left _ hr, rfl⟩
  · intro i u hu ho
    rcases Ast.isUse_push hu with ⟨-, he⟩ | hu
    · rcases he with he | he <;> cases he
      have hsc := Resolver.scopeOf_of_owner_none ho
      refine ⟨hsc, ?_⟩
      rw [← ho]
      exact hself
    · obtain ⟨h₁, h₂⟩ := hb.outer_use i u hu ho
      exact ⟨h₁, hkeep _ _ h₂⟩
  · intro hsz i u f hu hf
    rcases Ast.isUse_push hu with ⟨-, he⟩ | hu
    · rcases he with he | he <;> cases he
      exact .inl rfl
    · exact hb.param_use (Ast.size_lt_of_push hsz).le i u f hu hf

/-- Changing a symbol in place, with its scope and slot kept, keeps the invariant. -/
theorem Wf.update (hb : b.Wf) {o : Option String} {n : String} {s s' : Symbol}
    (hs : b.resolver.symbols.get? o n = some s) (hscope : s'.scope = s.scope)
    (hslot : s'.slot = s.slot) :
    { b with resolver := { b.resolver with symbols := b.resolver.symbols.insert o n s' } }.Wf := by
  refine ⟨hb.registry, hb.params_nodup, hb.frame, hb.scalar_ref,
    hb.array_ref, hb.var_recorded, hb.array_recorded, fun i u hu ho => ?_, hb.param_use,
    fun m s'' hm => ?_, fun f m s'' hm => ?_⟩
  · obtain ⟨h₁, h₂⟩ := hb.outer_use i u hu ho
    refine ⟨h₁, ?_⟩
    simp only [SymbolTable.get?_insert]
    split <;> simp_all
  · simp only [SymbolTable.get?_insert] at hm
    split at hm
    · obtain ⟨rfl, rfl⟩ := ‹_ ∧ _›
      cases hm
      rw [hscope]
      exact hb.global_scope _ s hs
    · exact hb.global_scope m s'' hm
  · simp only [SymbolTable.get?_insert] at hm
    split at hm
    · obtain ⟨rfl, rfl⟩ := ‹_ ∧ _›
      cases hm
      rw [hscope, hslot]
      exact hb.param_symbol f _ s hs
    · exact hb.param_symbol f m s'' hm

theorem Wf.deferArg (hb : b.Wf) (f : String) (a : NodeId) (i : Nat) : (b.deferArg f a i).Wf := by
  unfold Builder.deferArg
  split
  · split
    · rename_i s hs
      split
      · exact hb.update hs rfl rfl
      · exact hb
    · exact hb
  · exact hb

theorem Wf.deferArgs (f : String) : ∀ {b : Builder} (i : Nat) (args : List NodeId), b.Wf →
    (b.deferArgs f i args).Wf
  | _, _, [], hb => hb
  | _, i, a :: rest, hb => Wf.deferArgs f (i + 1) rest (hb.deferArg f a i)

/-- Appending a node that is no use keeps the invariant. -/
theorem Wf.alloc (hb : b.Wf) {e : Expr} (hv : ∀ u, e ≠ .var u) (ha : ∀ u, e ≠ .array u) :
    (b.alloc e).2.Wf := by
  have huse : ∀ i u, (b.ast.push e).IsUse i u → b.ast.IsUse i u := fun i u hu => by
    rcases Ast.isUse_push hu with ⟨-, he | he⟩ | hu
    · exact absurd he (hv u)
    · exact absurd he (ha u)
    · exact hu
  refine ⟨hb.registry, hb.params_nodup, hb.frame, fun hsz r hr => ?_,
    fun hsz r hr => ?_, fun i u hu => ?_, fun i u hu => ?_,
    fun i u hu => hb.outer_use i u (huse i u hu),
    fun hsz i u f hu => hb.param_use (Ast.size_lt_of_push hsz).le i u f (huse i u hu),
    hb.global_scope, hb.param_symbol⟩
  · obtain ⟨u, hu, ho⟩ := hb.scalar_ref (Ast.size_lt_of_push hsz).le r hr
    exact ⟨u, Ast.get?_push_of_get? hu, ho⟩
  · obtain ⟨u, hu, ho⟩ := hb.array_ref (Ast.size_lt_of_push hsz).le r hr
    exact ⟨u, Ast.get?_push_of_get? hu, ho⟩
  · exact hb.var_recorded i u (Ast.get?_push_eq_some hu (hv u))
  · exact hb.array_recorded i u (Ast.get?_push_eq_some hu (ha u))

theorem Wf.recordCall (hb : b.Wf) (node : NodeId) (pos : Position) : (b.recordCall node pos).Wf := by
  unfold Builder.recordCall
  split
  · exact ⟨hb.registry, hb.params_nodup, hb.frame, hb.scalar_ref, hb.array_ref,
      hb.var_recorded, hb.array_recorded, hb.outer_use, hb.param_use, hb.global_scope,
      hb.param_symbol⟩
  · exact hb

theorem Wf.call (hb : b.Wf) (f : String) (args : List NodeId) (pos : Position) :
    (b.call f args pos).2.Wf := by
  have h₁ := Wf.deferArgs f 0 args hb
  have h₂ := h₁.alloc (e := .call { callee := f, args }) (fun _ h => by cases h)
    (fun _ h => by cases h)
  exact h₂.recordCall _ pos

/-! ### Declarations -/

theorem firstRepeat_go_eq_none :
    ∀ {seen ps : List String}, firstRepeat.go seen ps = none → ps.Nodup ∧ ∀ p ∈ ps, p ∉ seen
  | _, [], _ => ⟨List.nodup_nil, by simp⟩
  | seen, p :: ps, h => by
    simp only [firstRepeat.go] at h
    split at h
    · cases h
    · rename_i hp
      obtain ⟨hnd, hfresh⟩ := firstRepeat_go_eq_none h
      refine ⟨List.nodup_cons.2 ⟨fun hm => hfresh p hm List.mem_cons_self, hnd⟩, ?_⟩
      intro q hq
      rcases List.mem_cons.1 hq with rfl | hq
      · exact hp
      · exact fun hs => hfresh q hq (List.mem_cons_of_mem _ hs)

/-- A declaration passes its checks only at the top level, for an undeclared name with
distinct parameters. -/
theorem declarationFault_eq_none {name : String} {params : List String} {pos : Position}
    (h : b.declarationFault name params pos = none) :
    b.resolver.frame = none ∧ b.resolver.functions.get? name = none ∧ params.Nodup := by
  unfold declarationFault at h
  split at h
  · cases h
  · rename_i hframe
    split at h
    · cases h
    · rename_i hfun
      refine ⟨by simpa using hframe, ?_, ?_⟩
      · simpa [Resolver.hasFunction, NameMap.contains] using hfun
      · cases hr : firstRepeat params with
        | none => exact (firstRepeat_go_eq_none hr).1
        | some p => rw [hr] at h; cases h

theorem Wf.openFunction (hb : b.Wf) {name : String} {params : List String} {pos : Position}
    (hf : b.declarationFault name params pos = none) : (b.openFunction name params).Wf := by
  obtain ⟨-, hname, hnd⟩ := declarationFault_eq_none hf
  refine ⟨hb.registry, hb.params_nodup, fun fr hfr => ?_, hb.scalar_ref,
    hb.array_ref, hb.var_recorded, hb.array_recorded, fun i u hu ho => ?_, hb.param_use,
    fun m s hm => ?_, fun f m s hm => ?_⟩
  · cases hfr
    exact ⟨hname, hnd⟩
  · obtain ⟨h₁, h₂⟩ := hb.outer_use i u hu ho
    refine ⟨h₁, ?_⟩
    simpa [Builder.openFunction, SymbolTable.get?_addFunction] using h₂
  · simp only [Builder.openFunction, SymbolTable.get?_addFunction, reduceCtorEq, if_false] at hm
    exact hb.global_scope m s hm
  · simp only [Builder.openFunction, SymbolTable.get?_addFunction] at hm
    split at hm
    · cases hm
    · rename_i hne
      obtain ⟨h₁, h₂, h₃, -⟩ := hb.param_symbol f m s hm
      refine ⟨h₁, h₂, h₃, fun fr hfr hf' => ?_⟩
      cases hfr
      exact absurd (congrArg some hf'.symm) hne

theorem Wf.closeFunction (hb : b.Wf) : b.closeFunction.Wf := by
  refine ⟨hb.registry, hb.params_nodup, (fun _ h => by cases h), hb.scalar_ref,
    hb.array_ref, hb.var_recorded, hb.array_recorded, hb.outer_use, hb.param_use,
    hb.global_scope, fun f m s hm => ?_⟩
  obtain ⟨h₁, h₂, h₃, -⟩ := hb.param_symbol f m s hm
  exact ⟨h₁, h₂, h₃, fun _ h => by cases h⟩

theorem getElem?_append_singleton {α : Type} (l : List α) (x : α) (k : Nat) :
    (l ++ [x])[k]? = if k = l.length then some x else l[k]? := by
  rw [List.getElem?_append]
  split <;> split
  · omega
  · rfl
  · simp_all
  · rw [List.getElem?_eq_none (by simp; omega), List.getElem?_eq_none (by omega)]

/-- Registering the function of the open body gives it the next ordinal; every other
function keeps its ordinal. -/
theorem Wf.register (hb : b.Wf) {name : String} {params : List String} (stmts : List Stmt)
    (hfr : b.resolver.frame = some ⟨name, params⟩) :
    (b.closeFunction.register name params stmts).Wf := by
  obtain ⟨hname, hnd⟩ := hb.frame _ hfr
  have hget : ∀ f, (b.closeFunction.register name params stmts).resolver.functions.get? f =
      if name = f then some b.program.functions.length else b.resolver.functions.get? f := by
    intro f
    simp [Builder.register, Builder.addFunction, Builder.pushFunction, Builder.closeFunction]
  have hfs : ∀ k, (b.closeFunction.register name params stmts).program.functions[k]? =
      if k = b.program.functions.length then some ⟨name, params, params.map fun _ => false, stmts⟩
      else b.program.functions[k]? := fun k => getElem?_append_singleton _ _ k
  have hlt : ∀ f k, b.resolver.functions.get? f = some k → k ≠ b.program.functions.length := by
    intro f k hk heq
    obtain ⟨fn, hfn, -⟩ := (hb.registry f k).1 hk
    rw [heq, List.getElem?_eq_none (le_refl _)] at hfn
    cases hfn
  refine ⟨fun f k => ?_, fun fn hfn => ?_, (fun _ h => by cases h), hb.scalar_ref,
    hb.array_ref, hb.var_recorded, hb.array_recorded, hb.outer_use, fun hsz i u f hu hf => ?_,
    hb.global_scope, fun f m s hm => ?_⟩
  · rw [hget, hfs]
    by_cases hf : name = f
    · subst hf
      simp only [if_true, Option.some.injEq]
      constructor
      · rintro rfl
        exact ⟨⟨name, params, params.map fun _ => false, stmts⟩, by simp, rfl⟩
      · rintro ⟨fn, hfn, rfl⟩
        split at hfn
        · rename_i hk
          exact hk.symm
        · exact absurd ((hb.registry fn.name k).2 ⟨fn, hfn, rfl⟩) (by rw [hname]; simp)
    · rw [if_neg hf, hb.registry f k]
      constructor
      · rintro ⟨fn, hfn, rfl⟩
        refine ⟨fn, ?_, rfl⟩
        rw [if_neg (hlt _ k ((hb.registry fn.name k).2 ⟨fn, hfn, rfl⟩)), hfn]
      · rintro ⟨fn, hfn, rfl⟩
        split at hfn
        · cases hfn
          exact absurd rfl hf
        · exact ⟨fn, hfn, rfl⟩
  · rcases List.mem_append.1 hfn with hfn | hfn
    · exact hb.params_nodup fn hfn
    · rw [List.mem_singleton.1 hfn]
      exact hnd
  · rcases hb.param_use hsz i u f hu hf with h | ⟨k, fn, hk, hfn, hmem⟩
    · exact .inl h
    · have hne : name ≠ f := by
        rintro rfl
        rw [hname] at hk
        cases hk
      refine .inr ⟨k, fn, by rw [hget, if_neg hne, hk], by rw [hfs, if_neg (hlt f k hk), hfn], hmem⟩
  · obtain ⟨h₁, h₂, h₃, h₄⟩ := hb.param_symbol f m s hm
    refine ⟨h₁, fun hk => ?_, fun k fn hk hfn => ?_, (fun _ h => by cases h)⟩
    · rw [hget] at hk
      split at hk
      · cases hk
      · exact h₂ hk
    · rw [hget] at hk
      split at hk
      · rename_i hf
        cases hk
        rw [hfs, if_pos rfl] at hfn
        cases hfn
        exact h₄ _ hfr hf
      · rw [hfs, if_neg (hlt f k hk)] at hfn
        exact h₃ k fn hk hfn

/-- Adding a block changes nothing the invariant reads. -/
theorem Wf.program (hb : b.Wf) {q : Program} (hq : q.functions = b.program.functions) :
    { b with program := q }.Wf := by
  refine ⟨fun f k => ?_, fun fn hfn => hb.params_nodup fn (hq ▸ hfn), hb.frame,
    hb.scalar_ref, hb.array_ref, hb.var_recorded, hb.array_recorded, hb.outer_use,
    fun hsz i u f hu hf => ?_, hb.global_scope, fun f m s hm => ?_⟩
  · simp only [hq]
    exact hb.registry f k
  · simpa only [hq] using hb.param_use hsz i u f hu hf
  · simpa only [hq] using hb.param_symbol f m s hm

/-- Declared functions have distinct names. -/
theorem Wf.names_nodup (hb : b.Wf) : (b.program.functions.map (·.name)).Nodup := by
  rw [List.nodup_iff_injective_getElem]
  rintro ⟨i, hi⟩ ⟨j, hj⟩ h
  simp only [List.getElem_map, List.length_map] at h hi hj
  have hi' := (hb.registry _ i).2 ⟨_, List.getElem?_eq_getElem hi, rfl⟩
  have hj' := (hb.registry _ j).2 ⟨_, List.getElem?_eq_getElem hj, h.symm⟩
  rw [hi'] at hj'
  exact Fin.ext (Option.some.inj hj')

/-- The invariant, as a relation every primitive keeps. -/
theorem respects_wf : Respects fun b₁ b₂ => b₁ = b₂ ∧ b₁.Wf :=
  Respects.of_invariant
    (fun _ e he hb => hb.alloc (e := e) (fun u h => by subst h; exact he)
      (fun u h => by subst h; exact he))
    (fun _ n hb => hb.varRef n) (fun _ n hb => hb.arrayRef n)
    (fun _ f args pos hb => hb.call f args pos)
    (fun _ _ _ _ hb hf => hb.openFunction hf) (fun _ hb => hb.closeFunction)
    (fun _ _ _ stmts hb hfr => hb.register stmts hfr) (fun _ _ hq hb => hb.program hq)

/-- **Every step but resolution keeps the invariant.** -/
theorem Wf.stepIn_of_ne_resolve (hb : b.Wf) (v : VisitOrder) {s : Step} (hs : s ≠ .resolve) :
    (b.stepIn v s).2.Wf :=
  respects_wf.invariant_stepIn hb v hs

/-- The builder before `ARGV`, with no node, symbol or function, satisfies the invariant. -/
theorem wf_empty (config : Config) : ({ resolver := { config } } : Builder).Wf := by
  let b₀ : Builder := { resolver := { config } }
  have hnode : ∀ i, b₀.ast.get? i = none := fun _ => by simp [b₀, Ast.get?]
  have hsym : ∀ o n, b₀.resolver.symbols.get? o n = none := by
    intro o n
    cases o <;> rfl
  have hfun : ∀ f, b₀.resolver.functions.get? f = none := fun _ => rfl
  have huse : ∀ i u, ¬ b₀.ast.IsUse i u := by simp [Ast.IsUse, hnode]
  show b₀.Wf
  refine ⟨fun f k => by simp [hfun, b₀], (fun fn hfn => by cases hfn),
    (fun _ h => by cases h), (fun _ r hr => by cases hr), (fun _ r hr => by cases hr),
    fun i u hu => ?_, fun i u hu => ?_, fun i u hu => absurd hu (huse i u),
    fun _ i u f hu => absurd hu (huse i u), fun n s hn => ?_, fun f n s hn => ?_⟩
  · simp [hnode] at hu
  · simp [hnode] at hu
  · simp [hsym] at hn
  · simp [hsym] at hn

/-- A fresh builder satisfies the invariant. -/
theorem wf_new (config : Config) : (Builder.new config).Wf :=
  (wf_empty config).arrayRef "ARGV"

end Builder

end AwkNames
