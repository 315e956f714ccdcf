import AwkNames.Proofs.Invariant
import AwkNames.Proofs.Inference
import AwkNames.Proofs.Slots

/-!
# Resolution keeps the invariant, and what it leaves behind

Resolution runs five phases after checking the calls: inference, binding the call nodes,
global slots, parameter slots and patching the uses. Each phase keeps `Builder.Wf`, so every
builder a run of steps reaches satisfies it (`Builder.Wf.stepsIn`).

After a successful resolution (`Builder.resolveIn_eq_ok`):

* `Builder.resolveIn_global` : a global ends special with its fixed slot, or as an array or a
  scalar holding its slot in exactly the matching table of the program;
* `Builder.resolveIn_param` : the `j`-th parameter of a declared function ends as a scalar or
  an array with slot the number of earlier parameters of the same kind;
* `Builder.resolveIn_use` : every use node holds the slot of its symbol, or slot `0` when
  its name has none.
-/

namespace AwkNames

/-- Two trees with the same use nodes. -/
def Ast.SameUses (t t' : Ast) : Prop :=
  ∀ i u, (t'.get? i = some (.var u) ↔ t.get? i = some (.var u)) ∧
    (t'.get? i = some (.array u) ↔ t.get? i = some (.array u))

theorem Ast.SameUses.refl (t : Ast) : t.SameUses t := fun _ _ => ⟨Iff.rfl, Iff.rfl⟩

theorem Ast.SameUses.trans {t t' t'' : Ast} (h : t.SameUses t') (h' : t'.SameUses t'') :
    t.SameUses t'' := fun i u => ⟨(h' i u).1.trans (h i u).1, (h' i u).2.trans (h i u).2⟩

theorem Ast.SameUses.isUse {t t' : Ast} (h : t.SameUses t') {i : NodeId} {u : Use} :
    t'.IsUse i u ↔ t.IsUse i u := by
  unfold IsUse
  rw [(h i u).1, (h i u).2]

namespace Builder

/-! ### The phases -/

/-- A successful resolution: every call passed, inference reached its fixed point, and the
later phases ran on the inferred builder. -/
theorem resolveIn_eq_ok {v : VisitOrder} {b b' : Builder} (h : b.resolveIn v = (.ok (), b')) :
    ∃ bs r, b.resolver.checkCalls b.program = .ok bs ∧
      ({ b.resolver with bindings := bs }.inferIn v b.program 0) = (.ok (), r) ∧
      b' = (({ b with resolver := r }.bindCalls).assignGlobalSlotsIn
        (v.globals { b with resolver := r }.bindCalls.resolver.symbols)).assignLocalSlots.patch := by
  cases hc : b.resolver.checkCalls b.program with
  | error e => simp [resolveIn, resolveCalls, hc] at h
  | ok bs =>
    cases hi : { b.resolver with bindings := bs }.inferIn v b.program 0 with
    | mk out r =>
      cases out with
      | error e => simp [resolveIn, resolveCalls, inferKindsIn, hc, hi] at h
      | ok u =>
        cases u
        simp only [resolveIn, resolveCalls, inferKindsIn, hc, hi, Prod.mk.injEq] at h
        exact ⟨bs, r, rfl, hi, h.2.symm⟩

/-- A failed resolution: a call failed and nothing changed, or inference diverged and only
the kinds it set (and the bindings) changed. -/
theorem resolveIn_eq_error {v : VisitOrder} {b b' : Builder} {e : Error}
    (h : b.resolveIn v = (.error e, b')) :
    (b.resolver.checkCalls b.program = .error e ∧ b' = b) ∨
      ∃ bs, b.resolver.checkCalls b.program = .ok bs ∧
        ({ b.resolver with bindings := bs }.inferIn v b.program 0) = (.error e, b'.resolver) ∧
        b' = { b with resolver := b'.resolver } := by
  cases hc : b.resolver.checkCalls b.program with
  | error e' =>
    simp only [resolveIn, resolveCalls, hc, Prod.mk.injEq, Except.error.injEq] at h
    obtain ⟨rfl, rfl⟩ := h
    exact .inl ⟨rfl, rfl⟩
  | ok bs =>
    cases hi : { b.resolver with bindings := bs }.inferIn v b.program 0 with
    | mk out r =>
      cases out with
      | error e' =>
        simp only [resolveIn, resolveCalls, inferKindsIn, hc, hi, Prod.mk.injEq,
          Except.error.injEq] at h
        obtain ⟨rfl, rfl⟩ := h
        exact .inr ⟨bs, rfl, hi, rfl⟩
      | ok u => simp [resolveIn, resolveCalls, inferKindsIn, hc, hi] at h

/-! ### The invariant through each phase -/

variable {b : Builder}

/-- The invariant reads only the tree, the declared functions and the resolver's tables,
records and open body. -/
theorem Wf.congr (hb : b.Wf) {b' : Builder} (hast : b'.ast = b.ast)
    (hfun : b'.program.functions = b.program.functions)
    (hsym : b'.resolver.symbols = b.resolver.symbols)
    (hfns : b'.resolver.functions = b.resolver.functions)
    (hsr : b'.resolver.scalarRefs = b.resolver.scalarRefs)
    (har : b'.resolver.arrayRefs = b.resolver.arrayRefs)
    (hfr : b'.resolver.frame = b.resolver.frame) (hcfg : b'.resolver.config = b.resolver.config) :
    b'.Wf := by
  have houter : b'.resolver.outerScope = b.resolver.outerScope := by
    funext n
    simp [Resolver.outerScope, hcfg]
  obtain ⟨h₁, h₂, h₃, h₄, h₅, h₆, h₇, h₈, h₉, h₁₀, h₁₁⟩ := hb
  refine ⟨?_, ?_, ?_, ?_, ?_, ?_, ?_, ?_, ?_, ?_, ?_⟩ <;>
    simp only [hast, hfun, hsym, hfns, hsr, har, hfr, houter] <;> assumption

theorem Wf.bindings (hb : b.Wf) (bs : List (NodeId × Nat)) :
    { b with resolver := { b.resolver with bindings := bs } }.Wf :=
  hb.congr rfl rfl rfl rfl rfl rfl rfl rfl

/-- Rewriting every symbol in place, keeping its scope, and its slot while its function is
undeclared, keeps the invariant. -/
theorem Wf.mapEntries (hb : b.Wf) (g : Option String → String → Symbol → Symbol)
    (hscope : ∀ o n s, (g o n s).scope = s.scope)
    (hslot : ∀ f n s, b.resolver.functions.get? f = none → (g (some f) n s).slot = s.slot) :
    { b with resolver := { b.resolver with symbols := b.resolver.symbols.mapEntries g } }.Wf := by
  refine ⟨hb.registry, hb.params_nodup, hb.frame, hb.scalar_ref,
    hb.array_ref, hb.var_recorded, hb.array_recorded, fun i u hu ho => ?_, hb.param_use,
    fun n s hn => ?_, fun f n s hn => ?_⟩
  · obtain ⟨h₁, h₂⟩ := hb.outer_use i u hu ho
    refine ⟨h₁, ?_⟩
    simpa using h₂
  · simp only [SymbolTable.get?_mapEntries, Option.map_eq_some_iff] at hn
    obtain ⟨s₀, hs₀, rfl⟩ := hn
    rw [hscope]
    exact hb.global_scope n s₀ hs₀
  · simp only [SymbolTable.get?_mapEntries, Option.map_eq_some_iff] at hn
    obtain ⟨s₀, hs₀, rfl⟩ := hn
    obtain ⟨h₁, h₂, h₃, h₄⟩ := hb.param_symbol f n s₀ hs₀
    exact ⟨(hscope _ _ _).trans h₁, fun hf => (hslot f n s₀ hf).trans (h₂ hf), h₃, h₄⟩

/-! ### Binding call nodes -/

@[simp]
theorem setOrdinal_resolver (b : Builder) (node : NodeId) (k : Nat) :
    (b.setOrdinal node k).resolver = b.resolver := by
  unfold setOrdinal
  split <;> rfl

@[simp]
theorem setOrdinal_program (b : Builder) (node : NodeId) (k : Nat) :
    (b.setOrdinal node k).program = b.program := by
  unfold setOrdinal
  split <;> rfl

/-- Writing an ordinal changes a call node into a call node and no other node. -/
theorem setOrdinal_get? (b : Builder) (node : NodeId) (k : Nat) (i : NodeId) :
    (b.setOrdinal node k).ast.get? i = b.ast.get? i ∨
      ∃ c c', b.ast.get? i = some (.call c) ∧ (b.setOrdinal node k).ast.get? i = some (.call c') := by
  unfold setOrdinal
  split
  · rename_i c hc
    rw [Ast.get?_set]
    split
    · rename_i h
      obtain ⟨rfl, -⟩ := h
      exact .inr ⟨c, _, hc, rfl⟩
    · exact .inl rfl
  · exact .inl rfl

theorem setOrdinal_sameUses (b : Builder) (node : NodeId) (k : Nat) :
    b.ast.SameUses (b.setOrdinal node k).ast := by
  intro i u
  rcases setOrdinal_get? b node k i with h | ⟨c, c', h, h'⟩
  · rw [h]
    exact ⟨Iff.rfl, Iff.rfl⟩
  · rw [h, h']
    simp

@[simp]
theorem bindCalls_resolver (b : Builder) : b.bindCalls.resolver = b.resolver := by
  unfold bindCalls
  generalize b.resolver.bindings = bs
  induction bs generalizing b with
  | nil => rfl
  | cons e rest ih => simp [ih]

@[simp]
theorem bindCalls_program (b : Builder) : b.bindCalls.program = b.program := by
  unfold bindCalls
  generalize b.resolver.bindings = bs
  induction bs generalizing b with
  | nil => rfl
  | cons e rest ih => simp [ih]

/-- Binding calls changes no use node. -/
theorem bindCalls_sameUses (b : Builder) : b.ast.SameUses b.bindCalls.ast := by
  unfold bindCalls
  generalize b.resolver.bindings = bs
  induction bs generalizing b with
  | nil => exact Ast.SameUses.refl _
  | cons e rest ih => exact (setOrdinal_sameUses b e.1 e.2).trans (ih _)

@[simp]
theorem setOrdinal_size (b : Builder) (node : NodeId) (k : Nat) :
    (b.setOrdinal node k).ast.size = b.ast.size := by
  unfold setOrdinal
  split
  · exact Ast.size_set _ _ _
  · rfl

@[simp]
theorem bindCalls_size (b : Builder) : b.bindCalls.ast.size = b.ast.size := by
  unfold bindCalls
  generalize b.resolver.bindings = bs
  induction bs generalizing b with
  | nil => rfl
  | cons e rest ih => rw [List.foldl_cons, ih, setOrdinal_size]

/-- A builder with the same use nodes, as many nodes and the same records satisfies the
invariant too. -/
theorem Wf.sameUses (hb : b.Wf) {b' : Builder} (hast : b.ast.SameUses b'.ast)
    (hsize : b'.ast.size = b.ast.size) (hprog : b'.program = b.program)
    (hres : b'.resolver = b.resolver) : b'.Wf := by
  refine ⟨hres ▸ hprog ▸ hb.registry, hprog ▸ hb.params_nodup,
    hres ▸ hb.frame, fun hsz r hr => ?_, fun hsz r hr => ?_, fun i u hu => ?_,
    fun i u hu => ?_, fun i u hu ho => ?_, fun hsz i u f hu hf => ?_, hres ▸ hb.global_scope,
    hres ▸ hprog ▸ hb.param_symbol⟩
  · obtain ⟨u, hu, ho⟩ := hb.scalar_ref (hsize ▸ hsz) r (hres ▸ hr)
    exact ⟨u, (hast _ u).1.2 hu, ho⟩
  · obtain ⟨u, hu, ho⟩ := hb.array_ref (hsize ▸ hsz) r (hres ▸ hr)
    exact ⟨u, (hast _ u).2.2 hu, ho⟩
  · rw [hres]
    exact hb.var_recorded i u ((hast i u).1.1 hu)
  · rw [hres]
    exact hb.array_recorded i u ((hast i u).2.1 hu)
  · rw [hres]
    exact hb.outer_use i u (hast.isUse.1 hu) ho
  · rw [hres, hprog]
    exact hb.param_use (hsize ▸ hsz) i u f (hast.isUse.1 hu) hf

theorem Wf.bindCalls (hb : b.Wf) : b.bindCalls.Wf :=
  hb.sameUses (bindCalls_sameUses b) (bindCalls_size b) (bindCalls_program b) (bindCalls_resolver b)

/-! ### Global slots -/

theorem assignGlobalSlotsIn_eq (l : List String) (b : Builder) :
    b.assignGlobalSlotsIn l =
      { b with
        program := { b.program with
          scalars := (placeGlobals b.resolver.config.specialSlot l
            b.resolver.symbols.globals {}).2.scalars
          arrays := (placeGlobals b.resolver.config.specialSlot l
            b.resolver.symbols.globals {}).2.arrays }
        resolver := { b.resolver with symbols := { b.resolver.symbols with
          globals := (placeGlobals b.resolver.config.specialSlot l
            b.resolver.symbols.globals {}).1 } } } := rfl

/-- The slots the program's tables hold after the globals are placed. -/
def globalSlots (b : Builder) : GlobalSlots := ⟨b.program.scalars, b.program.arrays⟩

/-- **Every global gets its settled symbol**, whatever order lists each global once. -/
theorem assignGlobalSlotsIn_globals {l : List String}
    (hl : l.Perm b.resolver.symbols.globals.keys) :
    (b.assignGlobalSlotsIn l).resolver.symbols.globals = b.resolver.symbols.globals.mapValues
      (GlobalSlots.settled b.resolver.config.specialSlot (b.assignGlobalSlotsIn l).globalSlots) := by
  have hnd : l.Nodup := hl.nodup_iff.2 (NameMap.nodup_keys _)
  rw [assignGlobalSlotsIn_eq]
  simp only
  rw [placeGlobals_fst hnd]
  refine NameMap.mapValues_congr _ fun n s hn => ?_
  have hmem : n ∈ l := hl.mem_iff.2 (NameMap.mem_keys.2 (by simp [hn]))
  rw [if_pos hmem]
  rfl

theorem settled_scope (special : String → Nat) (acc : GlobalSlots) (n : String) (s : Symbol) :
    (GlobalSlots.settled special acc n s).scope = s.scope := by
  unfold GlobalSlots.settled
  split
  · rfl
  · split <;> rfl

theorem settled_waitsOn (special : String → Nat) (acc : GlobalSlots) (n : String) (s : Symbol) :
    (GlobalSlots.settled special acc n s).waitsOn = s.waitsOn := by
  unfold GlobalSlots.settled
  split
  · rfl
  · split <;> rfl

/-- A global with a kind keeps it. -/
theorem settled_kind_of_ne (special : String → Nat) (acc : GlobalSlots) (n : String) {s : Symbol}
    (h : s.kind ≠ .unknown) : (GlobalSlots.settled special acc n s).kind = s.kind := by
  unfold GlobalSlots.settled
  split
  · rfl
  · split
    · rfl
    · cases hk : s.kind with
      | unknown => exact absurd hk h
      | scalar => rfl
      | array => simp_all

/-- A global that is no array does not become one. -/
theorem settled_kind_ne_array (special : String → Nat) (acc : GlobalSlots) (n : String)
    {s : Symbol} (h : s.kind ≠ .array) : (GlobalSlots.settled special acc n s).kind ≠ .array := by
  unfold GlobalSlots.settled
  split
  · exact h
  · simp

theorem Wf.assignGlobalSlotsIn (hb : b.Wf) {l : List String}
    (hl : l.Perm b.resolver.symbols.globals.keys) : (b.assignGlobalSlotsIn l).Wf := by
  have hg := assignGlobalSlotsIn_globals hl
  let h := GlobalSlots.settled b.resolver.config.specialSlot (b.assignGlobalSlotsIn l).globalSlots
  have hw := hb.mapEntries (fun o n s => o.elim (h n s) fun _ => s)
    (fun o n s => by cases o <;> simp [h, settled_scope]) (fun _ _ _ _ => rfl)
  rw [SymbolTable.mapEntries_of_scopes _ fun _ _ _ => rfl] at hw
  refine hw.congr rfl rfl ?_ rfl rfl rfl rfl rfl
  change { b.resolver.symbols with globals := (b.assignGlobalSlotsIn l).resolver.symbols.globals } = _
  rw [hg]
  rfl

/-! ### Parameter slots -/

theorem assignLocalSlots_eq (b : Builder) :
    b.assignLocalSlots =
      { b with
        program := { b.program with
          functions := (placeFunctions b.program.functions b.resolver.symbols).1 }
        resolver := { b.resolver with
          symbols := (placeFunctions b.program.functions b.resolver.symbols).2 } } := rfl

/-- The table of a declared function after its parameters are numbered. -/
theorem Wf.assignLocalSlots_get?_of_declared (hb : b.Wf) {f : String} {k : Nat}
    {fn : UserFunction} (hk : b.resolver.functions.get? f = some k)
    (hfn : b.program.functions[k]? = some fn) (n : String) :
    b.assignLocalSlots.resolver.symbols.get? (some f) n =
      (placeParams f fn.params (b.resolver.symbols.scopes.getD f ∅) 0 0).1.get? n := by
  obtain ⟨fn', hfn', rfl⟩ := (hb.registry f k).1 hk
  rw [hfn] at hfn'
  cases hfn'
  have hmem : fn ∈ b.program.functions := List.mem_of_getElem? hfn
  rw [assignLocalSlots_eq]
  simp [SymbolTable.get?, placeFunctions_scopes hb.names_nodup fn hmem]

/-- An undeclared function's table is left alone. -/
theorem Wf.assignLocalSlots_get?_of_undeclared (hb : b.Wf) {f : String}
    (hk : b.resolver.functions.get? f = none) (n : String) :
    b.assignLocalSlots.resolver.symbols.get? (some f) n = b.resolver.symbols.get? (some f) n := by
  have hf : f ∉ b.program.functions.map (·.name) := by
    intro hf
    obtain ⟨fn, hfn, rfl⟩ := List.mem_map.1 hf
    obtain ⟨k, hk'⟩ := List.getElem?_of_mem hfn
    rw [(hb.registry fn.name k).2 ⟨fn, hk', rfl⟩] at hk
    cases hk
  rw [assignLocalSlots_eq]
  simp [SymbolTable.get?, placeFunctions_scopes_of_not_mem hf]

@[simp]
theorem assignLocalSlots_scalars (b : Builder) :
    b.assignLocalSlots.program.scalars = b.program.scalars := rfl

@[simp]
theorem assignLocalSlots_arrays (b : Builder) :
    b.assignLocalSlots.program.arrays = b.program.arrays := rfl

theorem assignLocalSlots_globals (b : Builder) :
    b.assignLocalSlots.resolver.symbols.globals = b.resolver.symbols.globals := by
  rw [assignLocalSlots_eq]
  exact placeFunctions_globals _ _

/-- The functions come back in order, with their array flags set. -/
theorem Wf.assignLocalSlots_functions (hb : b.Wf) :
    b.assignLocalSlots.program.functions = b.program.functions.map fun fn =>
      { fn with arrays := (placeParams fn.name fn.params
        (b.resolver.symbols.scopes.getD fn.name ∅) 0 0).2 } := by
  rw [assignLocalSlots_eq]
  exact placeFunctions_fst hb.names_nodup

theorem paramSymbol_scopes (t : SymbolTable) (f q : String) :
    paramSymbol f (t.scopes.getD f ∅) q =
      (t.get? (some f) q).getD { kind := .unknown, scope := .param f } := by
  simp only [paramSymbol, NameMap.getD, ← SymbolTable.get?_scopes_getD]

theorem paramIsArray_scopes (t : SymbolTable) (f q : String) :
    paramIsArray f (t.scopes.getD f ∅) q = (t.kind (some f) q == .array) := by
  simp only [paramIsArray, paramSymbol_scopes, SymbolTable.kind]
  cases t.get? (some f) q <;> rfl

/-- A parameter of a declared function: the symbol it is numbered from, a scalar or an
array. -/
theorem Wf.assignLocalSlots_get?_of_param (hb : b.Wf) {f : String} {k : Nat}
    {fn : UserFunction} (hk : b.resolver.functions.get? f = some k)
    (hfn : b.program.functions[k]? = some fn) {q : String} (hq : q ∈ fn.params) :
    ∃ slot, b.assignLocalSlots.resolver.symbols.get? (some f) q = some
      { paramSymbol f (b.resolver.symbols.scopes.getD f ∅) q with
        kind := if b.resolver.symbols.kind (some f) q = .array then .array else .scalar, slot } := by
  have hnd : fn.params.Nodup := hb.params_nodup fn (List.mem_of_getElem? hfn)
  obtain ⟨slot, hslot⟩ :=
    @placeParams_get?_of_mem f fn.params (b.resolver.symbols.scopes.getD f ∅) 0 0 hnd q hq
  refine ⟨slot, ?_⟩
  rw [hb.assignLocalSlots_get?_of_declared hk hfn, hslot, paramIsArray_scopes]
  simp

/-- Every other entry is left alone. -/
theorem Wf.assignLocalSlots_get?_of_not_param (hb : b.Wf) {o : Option String} {n : String}
    (h : ∀ f k fn, o = some f → b.resolver.functions.get? f = some k →
      b.program.functions[k]? = some fn → n ∉ fn.params) :
    b.assignLocalSlots.resolver.symbols.get? o n = b.resolver.symbols.get? o n := by
  cases o with
  | none => simp only [SymbolTable.get?, assignLocalSlots_globals]
  | some f =>
    cases hk : b.resolver.functions.get? f with
    | none => exact hb.assignLocalSlots_get?_of_undeclared hk n
    | some k =>
      obtain ⟨fn, hfn, -⟩ := (hb.registry f k).1 hk
      rw [hb.assignLocalSlots_get?_of_declared hk hfn,
        placeParams_get?_of_not_mem (h f k fn rfl hk hfn), SymbolTable.get?_scopes_getD]

/-- A declared function's parameter once the parameters are numbered: a scalar or an array,
counted among the earlier parameters of its kind. -/
theorem Wf.assignLocalSlots_param (hb : b.Wf) {f : String} {k : Nat} {fn : UserFunction}
    (hk : b.resolver.functions.get? f = some k)
    (hfn : b.assignLocalSlots.program.functions[k]? = some fn) {j : Nat}
    (hj : j < fn.params.length) :
    ∃ s, b.assignLocalSlots.resolver.symbols.get? (some f) fn.params[j] = some s ∧
      (s.kind = .scalar ∨ s.kind = .array) ∧
      s.slot = (fn.params.take j).countP fun q =>
        b.assignLocalSlots.resolver.symbols.kind (some f) q == s.kind := by
  rw [hb.assignLocalSlots_functions, List.getElem?_map] at hfn
  obtain ⟨fn₀, hfn₀, rfl⟩ := Option.map_eq_some_iff.1 hfn
  have hnd : fn₀.params.Nodup := hb.params_nodup fn₀ (List.mem_of_getElem? hfn₀)
  have hget := hb.assignLocalSlots_get?_of_declared hk hfn₀
  have hkind : ∀ q ∈ fn₀.params, b.assignLocalSlots.resolver.symbols.kind (some f) q =
      if paramIsArray f (b.resolver.symbols.scopes.getD f ∅) q then .array else .scalar := by
    intro q hq
    simp only [SymbolTable.kind, hget, placeParams_kind hnd hq, Option.getD_some]
  refine ⟨_, (hget _).trans (placeParams_get? hnd j hj), ?_, ?_⟩
  · split <;> simp
  · simp only [ite_self, Nat.zero_add]
    apply List.countP_congr
    intro q hq
    rw [hkind q (List.mem_of_mem_take hq)]
    cases paramIsArray f (b.resolver.symbols.scopes.getD f ∅) q <;>
      cases paramIsArray f (b.resolver.symbols.scopes.getD f ∅) fn₀.params[j] <;> simp

theorem Wf.assignLocalSlots (hb : b.Wf) : b.assignLocalSlots.Wf := by
  have hfs := hb.assignLocalSlots_functions
  have hget : ∀ k : Nat, b.assignLocalSlots.program.functions[k]? =
      (b.program.functions[k]?).map fun (fn : UserFunction) => { fn with arrays := (placeParams fn.name fn.params
        (b.resolver.symbols.scopes.getD fn.name ∅) 0 0).2 } := by
    intro k
    rw [hfs, List.getElem?_map]
  have hreg : ∀ f k, b.assignLocalSlots.resolver.functions.get? f = some k ↔
      ∃ fn, b.assignLocalSlots.program.functions[k]? = some fn ∧ fn.name = f := by
    intro f k
    rw [hget]
    simp only [Option.map_eq_some_iff]
    rw [show b.assignLocalSlots.resolver.functions = b.resolver.functions from rfl, hb.registry]
    constructor
    · rintro ⟨fn, hfn, rfl⟩
      exact ⟨_, ⟨fn, hfn, rfl⟩, rfl⟩
    · rintro ⟨_, ⟨fn, hfn, rfl⟩, rfl⟩
      exact ⟨fn, hfn, rfl⟩
  have hparams : ∀ (k : Nat) fn', b.assignLocalSlots.program.functions[k]? = some fn' →
      ∃ fn, b.program.functions[k]? = some fn ∧ fn'.params = fn.params := by
    intro k fn' h
    rw [hget, Option.map_eq_some_iff] at h
    obtain ⟨fn, hfn, rfl⟩ := h
    exact ⟨fn, hfn, rfl⟩
  have hmapped : ∀ (k : Nat) fn, b.program.functions[k]? = some fn →
      ∃ fn', b.assignLocalSlots.program.functions[k]? = some fn' ∧ fn'.params = fn.params := by
    intro k fn h
    rw [hget, h]
    exact ⟨_, rfl, rfl⟩
  refine ⟨hreg, fun fn' hfn' => ?_, hb.frame, hb.scalar_ref, hb.array_ref, hb.var_recorded,
    hb.array_recorded, fun i u hu ho => ?_, fun hsz i u f hu hf => ?_, fun n s hn => ?_,
    fun f n s hn => ?_⟩
  · obtain ⟨k, hk⟩ := List.getElem?_of_mem hfn'
    obtain ⟨fn, hfn, heq⟩ := hparams k fn' hk
    rw [heq]
    exact hb.params_nodup fn (List.mem_of_getElem? hfn)
  · obtain ⟨h₁, h₂⟩ := hb.outer_use i u hu ho
    refine ⟨h₁, ?_⟩
    simpa [SymbolTable.get?, assignLocalSlots_globals] using h₂
  · rcases hb.param_use hsz i u f hu hf with h | ⟨k, fn, hk, hfn, hmem⟩
    · exact .inl h
    · obtain ⟨fn', hfn', hpar⟩ := hmapped k fn hfn
      exact .inr ⟨k, fn', hk, hfn', hpar ▸ hmem⟩
  · have : b.assignLocalSlots.resolver.symbols.get? none n = b.resolver.symbols.get? none n := by
      simp [SymbolTable.get?, assignLocalSlots_globals]
    exact hb.global_scope n s (this ▸ hn)
  · cases hk : b.resolver.functions.get? f with
    | none =>
      rw [hb.assignLocalSlots_get?_of_undeclared hk] at hn
      obtain ⟨h₁, h₂, h₃, h₄⟩ := hb.param_symbol f n s hn
      refine ⟨h₁, h₂, fun k fn' hk' _ => ?_, h₄⟩
      rw [show b.assignLocalSlots.resolver.functions = b.resolver.functions from rfl, hk] at hk'
      cases hk'
    | some k =>
      obtain ⟨fn, hfn, rfl⟩ := (hb.registry f k).1 hk
      rw [hb.assignLocalSlots_get?_of_declared hk hfn] at hn
      have hmem : n ∈ fn.params := by
        by_contra hn'
        rw [placeParams_get?_of_not_mem hn', SymbolTable.get?_scopes_getD] at hn
        exact hn' ((hb.param_symbol _ n s hn).2.2.1 k fn hk hfn)
      have hscope : s.scope = .param fn.name := by
        obtain ⟨j, hj, rfl⟩ := List.getElem_of_mem hmem
        rw [placeParams_get? (hb.params_nodup fn (List.mem_of_getElem? hfn)) j hj] at hn
        cases hn
        rw [paramSymbol, NameMap.getD, SymbolTable.get?_scopes_getD]
        cases hs : b.resolver.symbols.get? (some fn.name) fn.params[j] with
        | none => rfl
        | some s₀ => exact (hb.param_symbol _ _ s₀ hs).1
      refine ⟨hscope, fun hk' => ?_, fun k' fn' hk' hfn' => ?_, fun fr hfr hf => ?_⟩
      · rw [show b.assignLocalSlots.resolver.functions = b.resolver.functions from rfl, hk] at hk'
        cases hk'
      · rw [show b.assignLocalSlots.resolver.functions = b.resolver.functions from rfl, hk] at hk'
        cases hk'
        obtain ⟨fn₀, hfn₀, heq⟩ := hparams k fn' hfn'
        rw [hfn] at hfn₀
        cases hfn₀
        rw [heq]
        exact hmem
      · have := (hb.frame fr hfr).1
        rw [hf, hk] at this
        cases this

/-! ### Writing slots into the uses -/

/-- The slot a use ends with: its symbol's, or its own when its name has no symbol. -/
def slotIn (t : SymbolTable) (u : Use) : Nat :=
  ((t.get? u.scope.owner u.name).map (·.slot)).getD u.slot

theorem withSlot_var (t : SymbolTable) (u : Use) :
    (Expr.var u).withSlot t = .var { u with slot := slotIn t u } := by
  simp only [Expr.withSlot, slotIn]
  cases t.get? u.scope.owner u.name <;> rfl

theorem withSlot_array (t : SymbolTable) (u : Use) :
    (Expr.array u).withSlot t = .array { u with slot := slotIn t u } := by
  simp only [Expr.withSlot, slotIn]
  cases t.get? u.scope.owner u.name <;> rfl

/-- Writing slots turns a use into the same use with the slot of its symbol, and leaves
every other node alone. -/
theorem withSlot_eq_some_use {t : SymbolTable} {e : Expr} {u' : Use} :
    (e.withSlot t = .var u' → ∃ u, e = .var u ∧ u' = { u with slot := slotIn t u }) ∧
      (e.withSlot t = .array u' → ∃ u, e = .array u ∧ u' = { u with slot := slotIn t u }) := by
  cases e with
  | var u =>
    rw [withSlot_var]
    exact ⟨fun h => ⟨u, rfl, (Expr.var.inj h).symm⟩, fun h => by cases h⟩
  | array u =>
    rw [withSlot_array]
    exact ⟨(fun h => by cases h), fun h => ⟨u, rfl, (Expr.array.inj h).symm⟩⟩
  | _ => exact ⟨(fun h => by cases h), (fun h => by cases h)⟩

/-- Patching turns a use into the same use with the slot its records write, and leaves every
other node alone. -/
theorem patched_eq_use {t : SymbolTable} {i : NodeId} {vs as : List Ref} {e : Expr} {u' : Use} :
    (e.patched t i vs as = .var u' → ∃ u, e = .var u ∧ u' = u.patchedBy t i vs) ∧
      (e.patched t i vs as = .array u' → ∃ u, e = .array u ∧ u' = u.patchedBy t i as) := by
  cases e <;> simp [Expr.patched, eq_comm]

/-- A use after patching is a use before under the same name and scope, whatever was
recorded. -/
theorem isUse_of_patch (b : Builder) {i : NodeId} {u' : Use} (h : b.patch.ast.IsUse i u') :
    ∃ u, b.ast.IsUse i u ∧ u'.name = u.name ∧ u'.scope = u.scope := by
  simp only [Ast.IsUse, patch_get?_patched] at h
  rcases h with h | h <;> obtain ⟨e, he, hw⟩ := Option.map_eq_some_iff.1 h
  · obtain ⟨u, rfl, rfl⟩ := patched_eq_use.1 hw
    exact ⟨u, .inl he, rfl, rfl⟩
  · obtain ⟨u, rfl, rfl⟩ := patched_eq_use.2 hw
    exact ⟨u, .inr he, rfl, rfl⟩

theorem Wf.patch_get? (hb : b.Wf) (hsz : b.ast.size ≤ UInt32.size) (i : NodeId) :
    b.patch.ast.get? i = (b.ast.get? i).map (Expr.withSlot b.resolver.symbols) :=
  Builder.patch_get? (hb.scalar_ref hsz) (hb.array_ref hsz) hb.var_recorded hb.array_recorded i

/-- A use after patching is a use before, with the slot of its symbol. -/
theorem Wf.patch_isUse (hb : b.Wf) (hsz : b.ast.size ≤ UInt32.size) {i : NodeId} {u' : Use}
    (h : b.patch.ast.IsUse i u') :
    ∃ u, b.ast.IsUse i u ∧ u' = { u with slot := slotIn b.resolver.symbols u } := by
  simp only [Ast.IsUse, hb.patch_get? hsz] at h
  rcases h with h | h <;> obtain ⟨e, he, hw⟩ := Option.map_eq_some_iff.1 h
  · obtain ⟨u, rfl, rfl⟩ := withSlot_eq_some_use.1 hw
    exact ⟨u, .inl he, rfl⟩
  · obtain ⟨u, rfl, rfl⟩ := withSlot_eq_some_use.2 hw
    exact ⟨u, .inr he, rfl⟩

theorem Wf.patch (hb : b.Wf) : b.patch.Wf := by
  have hres := patch_resolver b
  refine Wf.congr (b := { b with ast := b.patch.ast }) ?_ rfl (by rw [patch_program])
    (by rw [hres]) (by rw [hres]) (by rw [hres]) (by rw [hres]) (by rw [hres]) (by rw [hres])
  refine ⟨hb.registry, hb.params_nodup, hb.frame, fun hsz r hr => ?_,
    fun hsz r hr => ?_, fun i u hu => ?_, fun i u hu => ?_, fun i u hu ho => ?_,
    fun hsz i u f hu hf => ?_, hb.global_scope, hb.param_symbol⟩
  · rw [patch_size] at hsz
    obtain ⟨u, hu, ho⟩ := hb.scalar_ref hsz r hr
    refine ⟨{ u with slot := slotIn b.resolver.symbols u }, ?_, ho⟩
    rw [hb.patch_get? hsz, hu]
    exact congrArg some (withSlot_var _ u)
  · rw [patch_size] at hsz
    obtain ⟨u, hu, ho⟩ := hb.array_ref hsz r hr
    refine ⟨{ u with slot := slotIn b.resolver.symbols u }, ?_, ho⟩
    rw [hb.patch_get? hsz, hu]
    exact congrArg some (withSlot_array _ u)
  · change b.patch.ast.get? i = _ at hu
    rw [patch_get?_patched, Option.map_eq_some_iff] at hu
    obtain ⟨e, he, hw⟩ := hu
    obtain ⟨u₀, rfl, -⟩ := patched_eq_use.1 hw
    exact hb.var_recorded i u₀ he
  · change b.patch.ast.get? i = _ at hu
    rw [patch_get?_patched, Option.map_eq_some_iff] at hu
    obtain ⟨e, he, hw⟩ := hu
    obtain ⟨u₀, rfl, -⟩ := patched_eq_use.2 hw
    exact hb.array_recorded i u₀ he
  · obtain ⟨u₀, hu₀, hn, hs⟩ := isUse_of_patch b hu
    rw [hs] at ho
    rw [hn, hs]
    exact hb.outer_use i u₀ hu₀ ho
  · -- a parameter use takes the slot of its symbol: `0` until its function is declared
    rw [patch_size] at hsz
    obtain ⟨u₀, hu₀, rfl⟩ := hb.patch_isUse hsz hu
    simp only at hf ⊢
    cases hs : b.resolver.symbols.get? u₀.scope.owner u₀.name with
    | none =>
      simpa [slotIn, hs] using hb.param_use hsz i u₀ f hu₀ hf
    | some s =>
      have hslot : slotIn b.resolver.symbols u₀ = s.slot := by simp [slotIn, hs]
      rw [hslot]
      rw [hf] at hs
      obtain ⟨-, h₂, h₃, -⟩ := hb.param_symbol f u₀.name s hs
      cases hk : b.resolver.functions.get? f with
      | none => exact .inl (h₂ hk)
      | some k =>
        obtain ⟨fn, hfn, -⟩ := (hb.registry f k).1 hk
        exact .inr ⟨k, fn, rfl, hfn, h₃ k fn hk hfn⟩

/-! ### Every run -/

/-- Inference from the checked builder only settles kinds, whatever calls it was given. -/
theorem Wf.settles_inferIn (hb : b.Wf) {v : VisitOrder} (hv : v.Lawful)
    (bs : List (NodeId × Nat)) :
    Resolver.Settles { b.resolver with bindings := bs }
      ({ b.resolver with bindings := bs }.inferIn v b.program 0).2 b.program :=
  (Resolver.inferIn_settles hv _ 0).1

theorem Wf.inferIn (hb : b.Wf) {v : VisitOrder} (hv : v.Lawful) (bs : List (NodeId × Nat)) :
    { b with resolver := ({ b.resolver with bindings := bs }.inferIn v b.program 0).2 }.Wf := by
  obtain ⟨κ, hκ, -⟩ := hb.settles_inferIn hv bs
  rw [hκ]
  exact (hb.bindings bs).mapEntries _ (fun _ _ _ => rfl) (fun _ _ _ _ => rfl)

theorem Wf.inferIn_of_eq (hb : b.Wf) {v : VisitOrder} (hv : v.Lawful) {bs : List (NodeId × Nat)}
    {out : Except Error Unit} {r : Resolver}
    (hi : { b.resolver with bindings := bs }.inferIn v b.program 0 = (out, r)) :
    ({ b with resolver := r } : Builder).Wf := by
  have := hb.inferIn hv bs
  rwa [hi] at this

/-- A successful resolution gives slots to a builder that satisfies the invariant. -/
theorem Wf.resolveIn_eq_ok (hb : b.Wf) {v : VisitOrder} (hv : v.Lawful) {b' : Builder}
    (h : b.resolveIn v = (.ok (), b')) :
    ∃ b₃ : Builder, b₃.Wf ∧
      b' = (b₃.assignGlobalSlotsIn (v.globals b₃.resolver.symbols)).assignLocalSlots.patch := by
  obtain ⟨bs, r, -, hi, rfl⟩ := Builder.resolveIn_eq_ok h
  exact ⟨_, (hb.inferIn_of_eq hv hi).bindCalls, rfl⟩

/-- **Resolution keeps the invariant**, whether it succeeds or fails. -/
theorem Wf.resolveIn (hb : b.Wf) {v : VisitOrder} (hv : v.Lawful) : (b.resolveIn v).2.Wf := by
  rcases h : b.resolveIn v with ⟨out, b'⟩
  cases out with
  | ok u =>
    obtain ⟨b₃, h₃, rfl⟩ := hb.resolveIn_eq_ok hv h
    exact ((h₃.assignGlobalSlotsIn (hv _).2).assignLocalSlots).patch
  | error e =>
    rcases resolveIn_eq_error h with ⟨-, rfl⟩ | ⟨bs, -, hi, hb'⟩
    · exact hb
    · rw [hb']
      exact hb.inferIn_of_eq hv hi

/-- Every step keeps the invariant, resolving in a lawful order. -/
theorem Wf.stepIn (hb : b.Wf) {v : VisitOrder} (hv : v.Lawful) (s : Step) :
    (b.stepIn v s).2.Wf := by
  by_cases hs : s = .resolve
  · subst hs
    exact hb.resolveIn hv
  · exact hb.stepIn_of_ne_resolve v hs

/-- The configuration, as a relation every primitive keeps. -/
theorem respects_config (c : Config) :
    Respects fun b₁ b₂ => b₁ = b₂ ∧ b₁.resolver.config = c :=
  Respects.of_invariant (fun _ _ _ h => h) (fun _ _ h => h) (fun _ _ h => h)
    (fun b f args pos h => (b.call_config f args pos).trans h) (fun _ _ _ _ h _ => h) (fun _ h => h) (fun _ _ _ _ h _ => h)
    (fun _ _ _ h => h)

/-- Resolution changes only the resolver's symbol table and its bindings of call nodes. -/
theorem Wf.resolveIn_resolver (hb : b.Wf) {v : VisitOrder} (hv : v.Lawful) :
    ∃ t bs, (b.resolveIn v).2.resolver = { b.resolver with symbols := t, bindings := bs } := by
  rcases h : b.resolveIn v with ⟨out, b'⟩
  cases out with
  | ok u =>
    obtain ⟨bs, r, -, hi, rfl⟩ := Builder.resolveIn_eq_ok h
    obtain ⟨κ, hκ, -⟩ := hb.settles_inferIn hv bs
    rw [hi] at hκ
    subst hκ
    -- inference set kinds, and the slot phases rewrite the symbols and nothing else
    refine ⟨?t, bs, ?eq⟩
    case eq =>
      rw [patch_resolver, assignLocalSlots_eq, assignGlobalSlotsIn_eq]
      simp only [bindCalls_resolver]
      rfl
  | error e =>
    rcases resolveIn_eq_error h with ⟨-, rfl⟩ | ⟨bs, -, hi, -⟩
    · exact ⟨_, _, rfl⟩
    · obtain ⟨κ, hκ, -⟩ := hb.settles_inferIn hv bs
      rw [hi] at hκ
      exact ⟨_, bs, hκ⟩

theorem Wf.resolveIn_config (hb : b.Wf) {v : VisitOrder} (hv : v.Lawful) :
    (b.resolveIn v).2.resolver.config = b.resolver.config := by
  obtain ⟨t, bs, h⟩ := hb.resolveIn_resolver hv
  rw [h]

/-- **Every builder a run reaches satisfies the invariant.** -/
theorem Wf.stepsIn {v : VisitOrder} (hv : v.Lawful) :
    ∀ {b : Builder} (ops : List Step), b.Wf → (b.stepsIn v ops).2.Wf
  | _, [], hb => hb
  | _, s :: rest, hb => Wf.stepsIn hv rest (hb.stepIn hv s)

/-- Every operation keeps the invariant. -/
theorem Performs.wf {b b' : Builder} {op : Op} (hp : b.Performs op b') (hb : b.Wf) : b'.Wf :=
  hp.invariant respects_wf (fun hq hc => hc.program hq) hb hb.resolveIn

/-- **Every builder a run of operations reaches satisfies the invariant**, whatever was
resolved while a body was open. -/
theorem Runs.wf {ok : Op → Prop} {b b' : Builder} (hr : b.Runs ok b') (hb : b.Wf) : b'.Wf :=
  hr.invariant (fun _ hp hb => hp.wf hb) hb

/-- What every operation keeps on a well-formed builder, a run from one keeps. -/
theorem Runs.invariant_of_wf {ok : Op → Prop} {P : Builder → Prop}
    (hP : ∀ {b b' : Builder} {op : Op}, ok op → b.Performs op b' → b.Wf → P b → P b')
    {b b' : Builder} (hr : b.Runs ok b') (hb : b.Wf) (h : P b) : P b' :=
  (hr.invariant (P := fun c => c.Wf ∧ P c) (fun hop hp hc => ⟨hp.wf hc.1, hP hop hp hc.1 hc.2⟩)
    ⟨hb, h⟩).2

/-- No operation changes the configuration. -/
theorem Performs.config {b b' : Builder} {op : Op} (hp : b.Performs op b') (hb : b.Wf) :
    b'.resolver.config = b.resolver.config :=
  hp.invariant (respects_config _) (fun _ h => h) rfl hb.resolveIn_config

theorem Runs.config {ok : Op → Prop} {b b' : Builder} (hr : b.Runs ok b') (hb : b.Wf) :
    b'.resolver.config = b.resolver.config :=
  hr.invariant_of_wf (P := fun c => c.resolver.config = b.resolver.config)
    (fun _ hp hc h => (hp.config hc).trans h) hb rfl

/-- Resolution neither adds nor removes nodes. -/
@[simp]
theorem resolveIn_size (v : VisitOrder) (b : Builder) :
    (b.resolveIn v).2.ast.size = b.ast.size := by
  rcases h : b.resolveIn v with ⟨out, b'⟩
  cases out with
  | ok u =>
    obtain ⟨bs, r, -, -, rfl⟩ := resolveIn_eq_ok h
    rw [patch_size, assignLocalSlots_eq, assignGlobalSlotsIn_eq, bindCalls_size]
  | error e =>
    rcases resolveIn_eq_error h with ⟨-, rfl⟩ | ⟨bs, -, -, hb'⟩
    · rfl
    · rw [hb']

/-- The arena only grows along a step. -/
theorem size_le_stepIn (v : VisitOrder) (b : Builder) (s : Step) :
    b.ast.size ≤ (b.stepIn v s).2.ast.size := by
  by_cases hs : s = .resolve
  · subst hs
    exact (resolveIn_size v b).ge
  · exact (respects_size _).invariant_stepIn (Nat.le_refl _) v hs

/-- The arena only grows along a run. -/
theorem size_le_stepsIn (v : VisitOrder) :
    ∀ (b : Builder) (ops : List Step), b.ast.size ≤ (b.stepsIn v ops).2.ast.size
  | _, [] => Nat.le_refl _
  | b, s :: rest => (size_le_stepIn v b s).trans (size_le_stepsIn v _ rest)

/-! ### What a successful resolution leaves behind -/

/-- Which table a global lands in: the scalar table exactly when it takes a scalar slot, the
array table exactly when it takes an array slot. -/
theorem assignGlobalSlotsIn_isSome {l : List String}
    (hl : l.Perm b.resolver.symbols.globals.keys) {x : String} {s : Symbol}
    (hx : b.resolver.symbols.globals.get? x = some s) :
    (((b.assignGlobalSlotsIn l).program.scalars.get? x).isSome ↔ GlobalSlots.TakesScalar s) ∧
      (((b.assignGlobalSlotsIn l).program.arrays.get? x).isSome ↔ GlobalSlots.TakesArray s) := by
  have hnd : l.Nodup := hl.nodup_iff.2 (NameMap.nodup_keys _)
  have hmem : x ∈ l := hl.mem_iff.2 (NameMap.mem_keys.2 (by simp [hx]))
  rw [assignGlobalSlotsIn_eq]
  simp only
  rw [placeGlobals_scalars_isSome hnd, placeGlobals_arrays_isSome hnd]
  simp [hmem, hx]

/-- Both slot tables are dense. -/
theorem assignGlobalSlotsIn_dense {l : List String} (hl : l.Nodup) :
    (b.assignGlobalSlotsIn l).program.scalars.Dense ∧
      (b.assignGlobalSlotsIn l).program.arrays.Dense := by
  rw [assignGlobalSlotsIn_eq]
  exact placeGlobals_dense hl NameMap.dense_empty NameMap.dense_empty (fun _ _ => ⟨rfl, rfl⟩)

/-- After a successful resolution a global's symbol is the one the global phase settled, and
it sits in the program's scalar table exactly when it takes a scalar slot, in its array table
exactly when it takes an array slot. -/
theorem Wf.resolveIn_settled (hb : b.Wf) {v : VisitOrder} (hv : v.Lawful) {b' : Builder}
    (h : b.resolveIn v = (.ok (), b')) {x : String} {s : Symbol}
    (hx : b'.resolver.symbols.get? none x = some s) :
    ∃ s₀, s = GlobalSlots.settled b'.resolver.config.specialSlot b'.globalSlots x s₀ ∧
      (((b'.program.scalars.get? x).isSome ↔ GlobalSlots.TakesScalar s₀) ∧
        ((b'.program.arrays.get? x).isSome ↔ GlobalSlots.TakesArray s₀)) := by
  obtain ⟨b₃, h₃, rfl⟩ := hb.resolveIn_eq_ok hv h
  have hl := (hv b₃.resolver.symbols).2
  rw [patch_resolver, SymbolTable.get?, assignLocalSlots_globals,
    assignGlobalSlotsIn_globals hl, NameMap.get?_mapValues] at hx
  obtain ⟨s₀, hs₀, rfl⟩ := Option.map_eq_some_iff.1 hx
  refine ⟨s₀, ?_, ?_⟩
  · simp only [globalSlots, patch_program, patch_resolver, assignLocalSlots_scalars,
      assignLocalSlots_arrays]
    rfl
  · simpa only [patch_program, assignLocalSlots_scalars, assignLocalSlots_arrays] using
      assignGlobalSlotsIn_isSome hl hs₀

/-- **A special variable after a successful resolution** holds its fixed slot. -/
theorem Wf.resolveIn_special (hb : b.Wf) {v : VisitOrder} (hv : v.Lawful) {b' : Builder}
    (h : b.resolveIn v = (.ok (), b')) {x : String} {s : Symbol}
    (hx : b'.resolver.symbols.get? none x = some s) (hs : s.scope = .special) :
    s.slot = b'.resolver.config.specialSlot x := by
  obtain ⟨s₀, rfl, -⟩ := hb.resolveIn_settled hv h hx
  rw [settled_scope] at hs
  simp [GlobalSlots.settled, hs]

/-- **Any other global after a successful resolution** is an array or a scalar, and its slot is
its value in exactly the matching table of the program. -/
theorem Wf.resolveIn_global (hb : b.Wf) {v : VisitOrder} (hv : v.Lawful) {b' : Builder}
    (h : b.resolveIn v = (.ok (), b')) {x : String} {s : Symbol}
    (hx : b'.resolver.symbols.get? none x = some s) (hs : s.scope ≠ .special) :
    (s.kind = .array ∧ b'.program.arrays.get? x = some s.slot ∧
        b'.program.scalars.get? x = none) ∨
      (s.kind = .scalar ∧ b'.program.scalars.get? x = some s.slot ∧
        b'.program.arrays.get? x = none) := by
  obtain ⟨s₀, rfl, hsc, har⟩ := hb.resolveIn_settled hv h hx
  rw [settled_scope] at hs
  by_cases hk : s₀.kind = .array
  · obtain ⟨a, ha⟩ := Option.isSome_iff_exists.1 (har.2 ⟨hs, hk⟩)
    refine .inl ⟨by simp [GlobalSlots.settled, hs, hk], ?_, ?_⟩
    · simp [GlobalSlots.settled, hs, hk, globalSlots, ha]
    · simpa using mt hsc.1 fun h => h.2 hk
  · obtain ⟨a, ha⟩ := Option.isSome_iff_exists.1 (hsc.2 ⟨hs, hk⟩)
    refine .inr ⟨by simp [GlobalSlots.settled, hs, hk], ?_, ?_⟩
    · simp [GlobalSlots.settled, hs, hk, globalSlots, ha]
    · simpa using mt har.1 fun h => hk h.2

/-- **The parameters after a successful resolution**: the `j`-th parameter of a declared
function is a scalar or an array, and its slot is the number of earlier parameters of its
kind. -/
theorem Wf.resolveIn_param (hb : b.Wf) {v : VisitOrder} (hv : v.Lawful) {b' : Builder}
    (h : b.resolveIn v = (.ok (), b')) {f : String} {k : Nat} {fn : UserFunction}
    (hk : b'.resolver.functions.get? f = some k) (hfn : b'.program.functions[k]? = some fn)
    {j : Nat} (hj : j < fn.params.length) :
    ∃ s, b'.resolver.symbols.get? (some f) fn.params[j] = some s ∧
      (s.kind = .scalar ∨ s.kind = .array) ∧
      s.slot = (fn.params.take j).countP fun q => b'.resolver.symbols.kind (some f) q == s.kind := by
  obtain ⟨b₃, h₃, rfl⟩ := hb.resolveIn_eq_ok hv h
  have h₄ := h₃.assignGlobalSlotsIn (hv _).2
  rw [patch_resolver] at hk ⊢
  rw [patch_program] at hfn
  exact h₄.assignLocalSlots_param hk hfn hj

/-- **The uses after a successful resolution**: every variable or array node holds the slot of
its name's symbol in its scope, or slot `0` where the name has none. -/
theorem Wf.resolveIn_use (hb : b.Wf) {v : VisitOrder} (hv : v.Lawful) {b' : Builder}
    (h : b.resolveIn v = (.ok (), b')) (hsz : b'.ast.size ≤ UInt32.size) {i : NodeId} {u : Use}
    (hu : b'.ast.IsUse i u) :
    u.slot = ((b'.resolver.symbols.get? u.scope.owner u.name).map (·.slot)).getD 0 := by
  obtain ⟨b₃, h₃, rfl⟩ := hb.resolveIn_eq_ok hv h
  have h₅ := (h₃.assignGlobalSlotsIn (hv _).2).assignLocalSlots
  rw [patch_size] at hsz
  obtain ⟨u₀, hu₀, rfl⟩ := h₅.patch_isUse hsz hu
  rw [patch_resolver]
  simp only [slotIn]
  cases hs : (b₃.assignGlobalSlotsIn _).assignLocalSlots.resolver.symbols.get? u₀.scope.owner
    u₀.name with
  | some s => rfl
  | none =>
    simp only [Option.map_none, Option.getD_none]
    cases hsc : u₀.scope with
    | param f =>
      rcases h₅.param_use hsz i u₀ f hu₀ hsc with h0 | ⟨k, fn, hk, hfn, hmem⟩
      · exact h0
      · obtain ⟨j, hj, hjn⟩ := List.getElem_of_mem hmem
        obtain ⟨s, hs', -⟩ := (h₃.assignGlobalSlotsIn (hv _).2).assignLocalSlots_param
          hk hfn hj
        rw [hsc, Scope.owner_param, ← hjn, hs'] at hs
        cases hs
    | global | special =>
      have hown : u₀.scope.owner = none := by rw [hsc]; rfl
      have := (h₅.outer_use i u₀ hu₀ hown).2
      rw [hown] at hs
      simp [hs] at this

end Builder

end AwkNames
