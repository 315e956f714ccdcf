import AwkNames.Proofs.Footprint

/-!
# Every entry agrees with the tree

An entry of the symbol table records more than a kind: the parameter it waits on, the node of
its first scalar use and its scope. These fields agree with each other and with the tree in
every builder the interface reaches whose tree holds at most `2 ^ 32` nodes, including when a
test drives the resolver directly, runs its phases one at a time in any order, or passes any
node to a call:

* an entry of unknown kind waits on a parameter, and an entry that waits was first used as a
  scalar, at a scalar node of its own name in its own table;
* an entry of a function's table has that function's scope, and a global entry is special
  exactly when the configuration gives its name a fixed slot.

`Symbol.Fits` states this of one entry and `Builder.Coherent` of the whole table. Every
operation keeps it: an entry is only ever made by a use of its name, at that use's node, given
a kind (or a wait) when it is made, and later changed only in its kind (from unknown to a
known one, or to unknown with a wait) and its slot, while the tree only grows and has slots and
ordinals written into it. Past `2 ^ 32` nodes a scalar use records as its first use an id
that names an earlier node. `Builder.Reaches` lists the operations, and
`Builder.Reaches.symbols_agree` is the result.
-/

namespace AwkNames

/-! ### Trees that keep their nodes -/

namespace Ast

/-- `t'` keeps every node of `t`, up to what resolution writes into it. -/
def Keeps (t t' : Ast) : Prop :=
  ∀ n e, t.get? n = some e → ∃ e', t'.get? n = some e' ∧ e'.unresolved = e.unresolved

theorem Keeps.refl (t : Ast) : t.Keeps t := fun _ e h => ⟨e, h, rfl⟩

theorem Keeps.trans {t t' t'' : Ast} (h : t.Keeps t') (h' : t'.Keeps t'') : t.Keeps t'' := by
  intro n e he
  obtain ⟨e', he', heq⟩ := h n e he
  obtain ⟨e'', he'', heq'⟩ := h' n e' he'
  exact ⟨e'', he'', heq'.trans heq⟩

theorem keeps_push (t : Ast) (e : Expr) : t.Keeps (t.push e) :=
  fun _ e' h => ⟨e', get?_push_of_get? h, rfl⟩

theorem keeps_of_unresolved {t t' : Ast} (h : t'.unresolved = t.unresolved) : t.Keeps t' := by
  intro n e he
  have hn := congrArg (·.get? n) h
  simp only [get?_unresolved, he, Option.map_some] at hn
  obtain ⟨e', he', heq⟩ := Option.map_eq_some_iff.1 hn
  exact ⟨e', he', heq⟩

/-- A scalar use that a tree keeps stays a scalar use of its name in its scope. -/
theorem Keeps.var {t t' : Ast} (h : t.Keeps t') {n : NodeId} {u : Use}
    (hn : t.get? n = some (.var u)) :
    ∃ u', t'.get? n = some (.var u') ∧ u'.name = u.name ∧ u'.scope = u.scope := by
  obtain ⟨e', he', heq⟩ := h n _ hn
  obtain ⟨u', rfl, hname, hscope⟩ := Expr.unresolved_eq_var heq
  exact ⟨u', he', hname, hscope⟩

end Ast

/-! ### One entry -/

/-- What the entry `s` of `x` in the table of `o` says about itself and the tree `t`, where
`outer` is the scope of a name outside every parameter list: an unknown kind waits on a
parameter, a wait comes with a first scalar use, that use is a scalar node of `x` written where
the table of `o` holds it, and the entry has its table's scope. -/
structure Symbol.Fits (t : Ast) (outer : String → Scope) (o : Option String) (x : String)
    (s : Symbol) : Prop where
  /-- An unknown kind waits on a parameter. -/
  waits : s.kind = .unknown → s.waitsOn.isSome
  /-- An entry that waits was first used as a scalar. -/
  used : s.waitsOn.isSome → s.firstUse.isSome
  /-- The first scalar use is a scalar node of the name in the table's owner. -/
  firstUse : ∀ n, s.firstUse = some n →
    ∃ u, t.get? n = some (.var u) ∧ u.name = x ∧ u.scope.owner = o
  /-- A function's table holds its parameters; the global table holds names at their
  top-level scope. -/
  scope : s.scope = o.elim (outer x) Scope.param

namespace Symbol.Fits

variable {t : Ast} {outer : String → Scope} {o : Option String} {x : String} {s : Symbol}

theorem of_keeps (h : s.Fits t outer o x) {t' : Ast} (ht : t.Keeps t') : s.Fits t' outer o x := by
  refine ⟨h.waits, h.used, fun n hn => ?_, h.scope⟩
  obtain ⟨u, hu, hname, howner⟩ := h.firstUse n hn
  obtain ⟨u', hu', hname', hscope'⟩ := ht.var hu
  exact ⟨u', hu', hname'.trans hname, by rw [hscope', howner]⟩

/-- Giving an entry a known kind keeps it fitting. -/
theorem withKind (h : s.Fits t outer o x) {k : Kind} (hk : k ≠ .unknown) :
    ({ s with kind := k } : Symbol).Fits t outer o x :=
  ⟨fun h' => absurd h' hk, h.used, h.firstUse, h.scope⟩

theorem withSlot (h : s.Fits t outer o x) (k : Nat) : ({ s with slot := k } : Symbol).Fits t outer o x :=
  ⟨h.waits, h.used, h.firstUse, h.scope⟩

end Symbol.Fits

/-- A parameter numbered without an entry of its own fits its function's table. -/
theorem Symbol.fits_fresh_param (t : Ast) (outer : String → Scope) (f x : String) (k : Nat) :
    ({ kind := .scalar, scope := .param f, slot := k } : Symbol).Fits t outer (some f) x :=
  ⟨nofun, nofun, nofun, rfl⟩

/-! ### The whole table -/

namespace SymbolTable

/-- Every entry of the table fits the tree. -/
def Fits (T : SymbolTable) (t : Ast) (outer : String → Scope) : Prop :=
  ∀ o x s, T.get? o x = some s → s.Fits t outer o x

variable {T : SymbolTable} {t : Ast} {outer : String → Scope}

theorem Fits.of_keeps (h : T.Fits t outer) {t' : Ast} (ht : t.Keeps t') : T.Fits t' outer :=
  fun o x s hs => (h o x s hs).of_keeps ht

theorem Fits.insert (h : T.Fits t outer) {o : Option String} {x : String} {s : Symbol}
    (hs : s.Fits t outer o x) : (T.insert o x s).Fits t outer := by
  intro o' x' s' hs'
  rw [get?_insert] at hs'
  split at hs'
  · obtain ⟨rfl, rfl⟩ := ‹_ ∧ _›
    cases hs'
    exact hs
  · exact h o' x' s' hs'

theorem Fits.addFunction (h : T.Fits t outer) (f : String) : (T.addFunction f).Fits t outer := by
  intro o x s hs
  rw [get?_addFunction] at hs
  split at hs
  · cases hs
  · exact h o x s hs

end SymbolTable

/-! ### Inference gives kinds and nothing else -/

namespace Resolver

variable {p : Program}

/-- Settling an entry changes nothing, or gives a present entry a known kind. -/
theorem settle_cases (r : Resolver) (p : Program) (e : Option String × String) :
    r.settle p e = r ∨ ∃ s k, r.symbols.get? e.1 e.2 = some s ∧ k ≠ .unknown ∧
      r.settle p e = { r with symbols := r.symbols.insert e.1 e.2 { s with kind := k } } := by
  unfold settle
  split
  · rename_i s hs
    split
    · dsimp only
      split
      · exact .inl rfl
      · rename_i hk
        exact .inr ⟨s, _, hs, hk, rfl⟩
    · exact .inl rfl
  · exact .inl rfl

/-- What every settling keeps, inference keeps, in any order and whatever its outcome. -/
theorem inferIn_induct {P : Resolver → Prop} (hP : ∀ r e, P r → P (r.settle p e))
    (v : VisitOrder) (r : Resolver) (done : Nat) (h : P r) : P (r.inferIn v p done).2 := by
  have hpass : ∀ (work : List (Option String × String)) (r : Resolver), P r →
      P (r.passOver p work) := by
    intro work
    induction work with
    | nil => exact fun _ h => h
    | cons e rest ih => exact fun r h => ih _ (hP r e h)
  fun_induction Resolver.inferIn v r p done with
  | case1 r done r' hlt hmax => exact hpass _ r h
  | case2 r done r' hlt hmax ih => exact ih (hpass _ r h)
  | case3 r done r' hnlt => exact hpass _ r h

/-- Inference changes only the symbol table. -/
theorem inferIn_eq_withSymbols (v : VisitOrder) (r : Resolver) (done : Nat) :
    ∃ T, (r.inferIn v p done).2 = { r with symbols := T } := by
  refine inferIn_induct (P := fun r' => ∃ T, r' = { r with symbols := T })
    (fun r' e ⟨T, hT⟩ => ?_) v r done ⟨r.symbols, rfl⟩
  rcases settle_cases r' p e with h | ⟨s, k, -, -, h⟩
  · exact ⟨T, h.trans hT⟩
  · exact ⟨_, by rw [h, hT]⟩

/-- Inference keeps every entry fitting: it only gives known kinds. -/
theorem inferIn_fits {t : Ast} {outer : String → Scope} (v : VisitOrder) (r : Resolver)
    (done : Nat) (h : r.symbols.Fits t outer) : (r.inferIn v p done).2.symbols.Fits t outer := by
  refine inferIn_induct (P := fun r' => r'.symbols.Fits t outer) (fun r' e h' => ?_) v r done h
  rcases settle_cases r' p e with hs | ⟨s, k, hget, hk, hs⟩
  · rw [hs]
    exact h'
  · rw [hs]
    exact h'.insert ((h' _ _ _ hget).withKind hk)

end Resolver

/-! ### Slots keep every entry fitting -/

namespace Builder

variable {t : Ast} {outer : String → Scope}

/-- Placing a global gives it a slot, and a scalar kind unless it keeps its own. -/
theorem place_fst (special : String → Nat) (acc : GlobalSlots) (n : String) (s : Symbol) :
    ∃ k, (GlobalSlots.place special acc n s).1 = { s with slot := k } ∨
      (GlobalSlots.place special acc n s).1 = { s with kind := .scalar, slot := k } := by
  rcases GlobalSlots.special_or_takes s with hs | hs | hs
  · exact ⟨_, .inl (by rw [GlobalSlots.place_special hs])⟩
  · exact ⟨_, .inl (by rw [GlobalSlots.place_array hs])⟩
  · exact ⟨_, .inr (by rw [GlobalSlots.place_scalar hs])⟩

theorem placeGlobals_fits (special : String → Nat) :
    ∀ (l : List String) {g : NameMap Symbol} {acc : GlobalSlots},
      (∀ x s, g.get? x = some s → s.Fits t outer none x) →
      ∀ x s, (placeGlobals special l g acc).1.get? x = some s → s.Fits t outer none x
  | [], _, _, h => h
  | m :: rest, g, acc, h => by
    cases hm : g.get? m with
    | none =>
      rw [placeGlobals_cons_none hm]
      exact placeGlobals_fits special rest h
    | some s =>
      rw [placeGlobals_cons_some hm]
      refine placeGlobals_fits special rest fun x s' hs' => ?_
      rw [NameMap.get?_insert] at hs'
      split at hs'
      · subst x
        cases hs'
        obtain ⟨k, hk | hk⟩ := place_fst special acc m s <;> rw [hk]
        · exact (h m s hm).withSlot k
        · exact ((h m s hm).withKind (by simp)).withSlot k
      · exact h x s' hs'

theorem placeParams_fits (function : String) :
    ∀ (ps : List String) {m : NameMap Symbol} {ns na : Nat},
      (∀ x s, m.get? x = some s → s.Fits t outer (some function) x) →
      ∀ x s, (placeParams function ps m ns na).1.get? x = some s →
        s.Fits t outer (some function) x
  | [], _, _, _, h => h
  | q :: ps, m, ns, na, h => by
    rw [placeParams_cons]
    -- the numbered parameter is its old entry with a slot, or a fresh scalar
    have hq : ∀ (k : Nat) (kind : Kind), kind ≠ .unknown →
        (paramSymbol function m q).kind = .unknown → kind = .scalar →
        ({ paramSymbol function m q with kind := kind, slot := k } : Symbol).Fits t outer
          (some function) q := by
      intro k kind hk _ hs
      cases hget : m.get? q with
      | none =>
        simp only [paramSymbol, NameMap.getD, hget, Option.getD_none, hs]
        exact Symbol.fits_fresh_param t outer function q k
      | some s =>
        simp only [paramSymbol, NameMap.getD, hget, Option.getD_some]
        exact ((h q s hget).withKind hk).withSlot k
    split
    · rename_i harr
      refine placeParams_fits function ps fun x s hs => ?_
      rw [NameMap.get?_insert] at hs
      split at hs
      · subst x
        cases hs
        have hkind : (paramSymbol function m q).kind = .array := by
          simpa [paramIsArray] using harr
        cases hget : m.get? q with
        | none => simp [paramSymbol, NameMap.getD, hget] at hkind
        | some s =>
          have hsym : paramSymbol function m q = s := by
            simp [paramSymbol, NameMap.getD, hget]
          rw [hsym]
          exact (h q s hget).withSlot na
      · exact h x s hs
    · refine placeParams_fits function ps fun x s hs => ?_
      rw [NameMap.get?_insert] at hs
      split at hs
      · subst x
        cases hs
        cases hget : m.get? q with
        | none =>
          simp only [paramSymbol, NameMap.getD, hget, Option.getD_none]
          exact Symbol.fits_fresh_param t outer function q ns
        | some s =>
          simp only [paramSymbol, NameMap.getD, hget, Option.getD_some]
          exact ((h q s hget).withKind (by simp)).withSlot ns
      · exact h x s hs

theorem placeFunctions_fits :
    ∀ (fs : List UserFunction) {T : SymbolTable}, T.Fits t outer →
      (placeFunctions fs T).2.Fits t outer
  | [], _, h => h
  | f :: fs, T, h => by
    rw [placeFunctions_cons]
    refine placeFunctions_fits fs fun o x s hs => ?_
    cases o with
    | none => exact h none x s hs
    | some g =>
      simp only [SymbolTable.get?, NameMap.get?_insert] at hs
      split at hs
      · subst g
        refine placeParams_fits f.name f.params (fun x s hs => h (some f.name) x s ?_) x s hs
        simpa [SymbolTable.get?_scopes_getD] using hs
      · exact h (some g) x s hs

end Builder

/-! ### The whole builder -/

namespace Builder

/-- Every entry of the symbol table fits the tree. -/
def Coherent (b : Builder) : Prop := b.resolver.symbols.Fits b.ast b.resolver.outerScope

variable {b : Builder}

/-- An operation that keeps the table and the settings, and keeps every node of the tree,
keeps the table fitting. -/
theorem Coherent.congr (h : b.Coherent) {b' : Builder}
    (hsym : b'.resolver.symbols = b.resolver.symbols)
    (hcfg : b'.resolver.config = b.resolver.config) (hast : b.ast.Keeps b'.ast) :
    b'.Coherent := by
  have houter : b'.resolver.outerScope = b.resolver.outerScope := by
    funext n
    simp [Resolver.outerScope, hcfg]
  unfold Coherent
  rw [hsym, houter]
  exact SymbolTable.Fits.of_keeps h hast

theorem Coherent.alloc (h : b.Coherent) (e : Expr) : (b.alloc e).2.Coherent :=
  h.congr rfl rfl (Ast.keeps_push _ _)

/-- The scope a name gets where it is written is the one its table gives it. -/
theorem scopeOf_eq_elim (r : Resolver) (n : String) :
    r.scopeOf n = (r.scopeOf n).owner.elim (r.outerScope n) Scope.param := by
  cases hs : r.scopeOf n with
  | param f => rfl
  | global | special =>
    have h := Resolver.scopeOf_of_owner_none (r := r) (n := n) (by rw [hs]; rfl)
    rw [hs] at h
    exact h

/-- A use makes an entry only when its name has no kind, at its own node and scope. -/
theorem Coherent.use (h : b.Coherent) (n : String) {s : Symbol} {e : Expr}
    (hs : s.Fits (b.ast.push e) b.resolver.outerScope (b.resolver.scopeOf n).owner n) :
    let sc := b.resolver.scopeOf n
    (if b.resolver.symbols.kind sc.owner n = .unknown then
      b.resolver.symbols.insert sc.owner n s else b.resolver.symbols).Fits (b.ast.push e)
        b.resolver.outerScope := by
  intro sc
  have hold := SymbolTable.Fits.of_keeps h (Ast.keeps_push b.ast e)
  split
  · exact hold.insert hs
  · exact hold

/-- A scalar use is its name's first use at its own node, which needs an id of its own. -/
theorem Coherent.varRef (h : b.Coherent) (hsz : b.ast.size < UInt32.size) (n : String) :
    (b.varRef n).2.Coherent := by
  refine h.use n ⟨nofun, nofun, fun i hi => ?_, scopeOf_eq_elim _ n⟩
  cases hi
  exact ⟨_, Ast.get?_push_nextId hsz _, rfl, rfl⟩

theorem Coherent.arrayRef (h : b.Coherent) (n : String) : (b.arrayRef n).2.Coherent :=
  h.use n ⟨nofun, nofun, nofun, scopeOf_eq_elim _ n⟩

/-- Deferring the first scalar use of a name makes it wait, and keeps its first use. -/
theorem Coherent.deferArg (h : b.Coherent) (callee : String) (arg : NodeId) (i : Nat) :
    (b.deferArg callee arg i).Coherent := by
  unfold Builder.deferArg
  split
  · split
    · rename_i s hs
      split
      · rename_i hfirst
        have hfit := h _ _ _ hs
        exact SymbolTable.Fits.insert h ⟨fun _ => rfl, fun _ => by simp [hfirst],
          hfit.firstUse, hfit.scope⟩
      · exact h
    · exact h
  · exact h

theorem Coherent.deferArgs (callee : String) :
    ∀ (i : Nat) (args : List NodeId) {b : Builder}, b.Coherent →
      (b.deferArgs callee i args).Coherent
  | _, [], _, h => h
  | i, a :: rest, _, h => Coherent.deferArgs callee (i + 1) rest (h.deferArg callee a i)

theorem Coherent.recordCall (h : b.Coherent) (node : NodeId) (pos : Position) :
    (b.recordCall node pos).Coherent := by
  unfold Builder.recordCall
  split
  · exact h
  · exact h

theorem Coherent.call (h : b.Coherent) (callee : String) (args : List NodeId) (pos : Position) :
    (b.call callee args pos).2.Coherent :=
  (((h.deferArgs callee 0 args).alloc _).recordCall _ _)

theorem Coherent.openFunction (h : b.Coherent) (name : String) (params : List String) :
    (b.openFunction name params).Coherent :=
  SymbolTable.Fits.addFunction h name

theorem Coherent.closeFunction (h : b.Coherent) : b.closeFunction.Coherent := h

theorem Coherent.addFunction (h : b.Coherent) (name : String) (k : Nat) :
    (b.addFunction name k).Coherent := h

theorem Coherent.pushFunction (h : b.Coherent) (name : String) (params : List String)
    (body : List Stmt) : (b.pushFunction name params body).Coherent := h

theorem Coherent.program (h : b.Coherent) (q : Program) : { b with program := q }.Coherent := h

/-! ### Resolution, phase by phase -/

theorem Coherent.resolveCalls (h : b.Coherent) : b.resolveCalls.2.Coherent := by
  unfold Builder.resolveCalls
  split
  · exact h
  · exact h

theorem Coherent.inferKindsIn (h : b.Coherent) (v : VisitOrder) : (b.inferKindsIn v).2.Coherent := by
  have hfit := Resolver.inferIn_fits v b.resolver 0 (p := b.program) h
  obtain ⟨T, hT⟩ := Resolver.inferIn_eq_withSymbols v b.resolver 0 (p := b.program)
  change ({ b with resolver := (b.resolver.inferIn v b.program 0).2 } : Builder).Coherent
  unfold Coherent
  simp only
  rw [hT] at hfit ⊢
  exact hfit

theorem Coherent.bindCalls (h : b.Coherent) : b.bindCalls.Coherent :=
  h.congr (by rw [bindCalls_resolver]) (by rw [bindCalls_resolver])
    (Ast.keeps_of_unresolved (bindCalls_unresolved b))

theorem Coherent.assignGlobalSlotsIn (h : b.Coherent) (l : List String) :
    (b.assignGlobalSlotsIn l).Coherent := by
  rw [assignGlobalSlotsIn_eq]
  intro o x s hs
  cases o with
  | none => exact placeGlobals_fits _ l (fun x s hs => h none x s hs) x s hs
  | some f => exact h (some f) x s hs

theorem Coherent.assignLocalSlots (h : b.Coherent) : b.assignLocalSlots.Coherent := by
  rw [assignLocalSlots_eq]
  exact placeFunctions_fits b.program.functions h

theorem Coherent.patch (h : b.Coherent) : b.patch.Coherent :=
  h.congr (by rw [patch_resolver]) (by rw [patch_resolver])
    (Ast.keeps_of_unresolved (patch_unresolved b))

/-- What every phase of resolution keeps, resolution keeps. -/
theorem resolveIn_induct {P : Builder → Prop} (hcalls : ∀ b, P b → P b.resolveCalls.2)
    (hinfer : ∀ b v, P b → P (b.inferKindsIn v).2) (hbind : ∀ b, P b → P b.bindCalls)
    (hglobal : ∀ b l, P b → P (b.assignGlobalSlotsIn l))
    (hlocal : ∀ b, P b → P b.assignLocalSlots) (hpatch : ∀ b, P b → P b.patch)
    (v : VisitOrder) (b : Builder) (h : P b) : P (b.resolveIn v).2 := by
  have h₁ := hcalls b h
  unfold Builder.resolveIn
  split
  · rename_i e b₁ heq
    rw [heq] at h₁
    exact h₁
  · rename_i b₁ heq
    rw [heq] at h₁
    have h₂ := hinfer b₁ v h₁
    split
    · rename_i e b₂ heq₂
      rw [heq₂] at h₂
      exact h₂
    · rename_i b₂ heq₂
      rw [heq₂] at h₂
      exact hpatch _ (hlocal _ (hglobal _ _ (hbind _ h₂)))

theorem Coherent.resolveIn (h : b.Coherent) (v : VisitOrder) : (b.resolveIn v).2.Coherent :=
  resolveIn_induct (fun _ h => h.resolveCalls) (fun _ v h => h.inferKindsIn v)
    (fun _ h => h.bindCalls) (fun _ l h => h.assignGlobalSlotsIn l) (fun _ h => h.assignLocalSlots)
    (fun _ h => h.patch) v b h

/-- Every step keeps every entry fitting while the tree holds at most `2 ^ 32` nodes,
resolving in any order. -/
theorem Coherent.stepIn (v : VisitOrder) (s : Step) (h : b.ast.size ≤ UInt32.size → b.Coherent) :
    (b.stepIn v s).2.ast.size ≤ UInt32.size → (b.stepIn v s).2.Coherent := by
  by_cases hs : s = .resolve
  · subst hs
    intro hsz
    exact (h ((resolveIn_size v b).symm.trans_le hsz)).resolveIn v
  · refine (Respects.of_invariant (P := fun c => c.ast.size ≤ UInt32.size → c.Coherent)
      (fun _ e _ h hsz => (h (Ast.size_lt_of_push hsz).le).alloc e)
      (fun _ n h hsz => (h (Ast.size_lt_of_push hsz).le).varRef (Ast.size_lt_of_push hsz) n)
      (fun _ n h hsz => (h (Ast.size_lt_of_push hsz).le).arrayRef n)
      (fun _ f args pos h hsz =>
        (h (Ast.size_lt_of_push (by rwa [call_ast] at hsz)).le).call f args pos)
      (fun _ name params _ h _ hsz => (h hsz).openFunction name params)
      (fun _ h hsz => (h hsz).closeFunction)
      (fun c name params stmts h _ hsz =>
        ((h hsz).closeFunction.pushFunction name params stmts).addFunction name
          c.program.functions.length)
      (fun _ q _ h hsz => (h hsz).program q)).invariant_stepIn h v hs

/-! ### Every builder the interface reaches -/

theorem resolveCalls_config (b : Builder) :
    b.resolveCalls.2.resolver.config = b.resolver.config := by
  unfold Builder.resolveCalls
  split <;> rfl

theorem inferKindsIn_config (v : VisitOrder) (b : Builder) :
    (b.inferKindsIn v).2.resolver.config = b.resolver.config := by
  -- inference, failed or not, replaces the symbol table and nothing else
  obtain ⟨T, hT⟩ := Resolver.inferIn_eq_withSymbols v b.resolver 0 (p := b.program)
  change (b.resolver.inferIn v b.program 0).2.config = _
  rw [hT]

/-- Resolution keeps the settings. -/
theorem resolveIn_config (v : VisitOrder) (b : Builder) :
    (b.resolveIn v).2.resolver.config = b.resolver.config :=
  resolveIn_induct (P := fun c => c.resolver.config = b.resolver.config)
    (fun c h => (resolveCalls_config c).trans h) (fun c w h => (inferKindsIn_config w c).trans h)
    (fun c h => by rw [bindCalls_resolver]; exact h) (fun _ _ h => h) (fun _ h => h)
    (fun c h => by rw [patch_resolver]; exact h) v b rfl

/-- No step changes the settings. -/
theorem stepIn_config (v : VisitOrder) (s : Step) (b : Builder) :
    (b.stepIn v s).2.resolver.config = b.resolver.config := by
  by_cases hs : s = .resolve
  · subst hs
    exact resolveIn_config v b
  · exact (respects_config _).invariant_stepIn rfl v hs

/-- The builders reached from a resolver made over any tree and program by the builder's steps
and by the resolver's own operations, in any order and with any arguments. A front end or a test can drive the resolver
directly: append any node, record a call at any node, pass any node as an argument, open a
body while another is open, give a function any ordinal, append any function to the program,
and run the phases of resolution one at a time, in any order, visiting names in any order. -/
inductive Reaches (config : Config) : Builder → Prop where
  /-- A resolver made over a tree and a program that may hold anything already, with `ARGV`
  recorded; the fresh builder is the one over an empty tree and program. -/
  | start (ast : Ast) (program : Program) :
      Reaches config (({ ast, program, resolver := { config } } : Builder).arrayRef "ARGV").2
  | step {b : Builder} (v : VisitOrder) (s : Step) : Reaches config b →
      Reaches config (b.stepIn v s).2
  | alloc {b : Builder} (e : Expr) : Reaches config b → Reaches config (b.alloc e).2
  | varRef {b : Builder} (name : String) : Reaches config b → Reaches config (b.varRef name).2
  | arrayRef {b : Builder} (name : String) : Reaches config b →
      Reaches config (b.arrayRef name).2
  | recordCall {b : Builder} (node : NodeId) (pos : Position) : Reaches config b →
      Reaches config (b.recordCall node pos)
  | deferArg {b : Builder} (callee : String) (arg : NodeId) (i : Nat) : Reaches config b →
      Reaches config (b.deferArg callee arg i)
  | openFunction {b : Builder} (name : String) (params : List String) : Reaches config b →
      Reaches config (b.openFunction name params)
  | closeFunction {b : Builder} : Reaches config b → Reaches config b.closeFunction
  | addFunction {b : Builder} (name : String) (ordinal : Nat) : Reaches config b →
      Reaches config (b.addFunction name ordinal)
  | pushFunction {b : Builder} (name : String) (params : List String) (body : List Stmt) :
      Reaches config b → Reaches config (b.pushFunction name params body)
  | resolveCalls {b : Builder} : Reaches config b → Reaches config b.resolveCalls.2
  | inferKindsIn {b : Builder} (v : VisitOrder) : Reaches config b →
      Reaches config (b.inferKindsIn v).2
  | bindCalls {b : Builder} : Reaches config b → Reaches config b.bindCalls
  | assignGlobalSlotsIn {b : Builder} (order : List String) : Reaches config b →
      Reaches config (b.assignGlobalSlotsIn order)
  | assignLocalSlots {b : Builder} : Reaches config b → Reaches config b.assignLocalSlots
  | patch {b : Builder} : Reaches config b → Reaches config b.patch

/-- The nodes a tree holds before its resolver is made name no entry: only `ARGV` is recorded. -/
theorem coherent_start (config : Config) (ast : Ast) (program : Program) :
    (({ ast, program, resolver := { config } } : Builder).arrayRef "ARGV").2.Coherent := by
  have hempty : ({ ast, program, resolver := { config } } : Builder).Coherent := by
    intro o x s hs
    cases o <;> simp [SymbolTable.get?] at hs
  exact hempty.arrayRef "ARGV"

theorem resolveCalls_ast (b : Builder) : b.resolveCalls.2.ast = b.ast := by
  unfold Builder.resolveCalls
  split <;> rfl

/-- Every operation keeps the settings, and every entry fitting while the tree holds at most
`2 ^ 32` nodes: no operation shrinks the tree. -/
theorem Reaches.coherent {config : Config} (h : b.Reaches config) :
    (b.ast.size ≤ UInt32.size → b.Coherent) ∧ b.resolver.config = config := by
  induction h with
  | start ast program => exact ⟨fun _ => coherent_start config ast program, rfl⟩
  | step v s _ ih => exact ⟨Coherent.stepIn v s ih.1, (stepIn_config v s _).trans ih.2⟩
  | alloc e _ ih => exact ⟨fun hsz => (ih.1 (Ast.size_lt_of_push hsz).le).alloc e, ih.2⟩
  | varRef name _ ih =>
    exact ⟨fun hsz => (ih.1 (Ast.size_lt_of_push hsz).le).varRef (Ast.size_lt_of_push hsz) name,
      ih.2⟩
  | arrayRef name _ ih => exact ⟨fun hsz => (ih.1 (Ast.size_lt_of_push hsz).le).arrayRef name, ih.2⟩
  | recordCall node pos _ ih =>
    refine ⟨fun hsz => (ih.1 (by rwa [recordCall_ast] at hsz)).recordCall node pos, ?_⟩
    unfold Builder.recordCall
    split <;> exact ih.2
  | deferArg callee arg i _ ih =>
    obtain ⟨T, hT⟩ := Builder.deferArg_eq _ callee arg i
    refine ⟨fun hsz => (ih.1 (by rwa [hT] at hsz)).deferArg callee arg i, ?_⟩
    rw [hT]
    exact ih.2
  | openFunction name params _ ih => exact ⟨fun hsz => (ih.1 hsz).openFunction name params, ih.2⟩
  | closeFunction _ ih => exact ⟨fun hsz => (ih.1 hsz).closeFunction, ih.2⟩
  | addFunction name k _ ih => exact ⟨fun hsz => (ih.1 hsz).addFunction name k, ih.2⟩
  | pushFunction name params body _ ih =>
    exact ⟨fun hsz => (ih.1 hsz).pushFunction name params body, ih.2⟩
  | resolveCalls _ ih =>
    exact ⟨fun hsz => (ih.1 (by rwa [resolveCalls_ast] at hsz)).resolveCalls,
      (resolveCalls_config _).trans ih.2⟩
  | inferKindsIn v _ ih =>
    exact ⟨fun hsz => (ih.1 hsz).inferKindsIn v, (inferKindsIn_config v _).trans ih.2⟩
  | bindCalls _ ih =>
    exact ⟨fun hsz => (ih.1 (by rwa [bindCalls_size] at hsz)).bindCalls,
      by rw [bindCalls_resolver]; exact ih.2⟩
  | assignGlobalSlotsIn order _ ih =>
    exact ⟨fun hsz => (ih.1 hsz).assignGlobalSlotsIn order, ih.2⟩
  | assignLocalSlots _ ih => exact ⟨fun hsz => (ih.1 hsz).assignLocalSlots, ih.2⟩
  | patch _ ih =>
    exact ⟨fun hsz => (ih.1 (by rwa [patch_size] at hsz)).patch,
      by rw [patch_resolver]; exact ih.2⟩

/-- **Every entry agrees with the tree.** In every builder that the builder's steps and the
resolver's own operations reach, in any order and with any arguments, while the tree holds at
most `2 ^ 32` nodes (past that a scalar use records as its first use an id that names an
earlier node), every entry of the
symbol table, for name `x` in the table of `o`: waits on a parameter when its kind is unknown;
was first used as a scalar when it waits; has as its first use a scalar node of `x` whose scope
belongs to `o`; and has its table's scope, that of function `f` in the table of `f`, and in
the global table a special scope exactly when the configuration gives `x` a fixed slot. -/
theorem Reaches.symbols_agree {config : Config} (h : b.Reaches config)
    (hsz : b.ast.size ≤ UInt32.size) :
    ∀ o x s, b.resolver.symbols.get? o x = some s →
      (s.kind = .unknown → s.waitsOn.isSome) ∧
      (s.waitsOn.isSome → s.firstUse.isSome) ∧
      (∀ n, s.firstUse = some n →
        ∃ u, b.ast.get? n = some (.var u) ∧ u.name = x ∧ u.scope.owner = o) ∧
      (∀ f, o = some f → s.scope = .param f) ∧
      (o = none → s.scope = if 0 < config.specialSlot x then .special else .global) := by
  obtain ⟨hc, hcfg⟩ := h.coherent
  intro o x s hs
  have hfit := hc hsz o x s hs
  refine ⟨hfit.waits, hfit.used, hfit.firstUse, fun f hf => ?_, fun ho => ?_⟩
  · rw [hfit.scope, hf]
    rfl
  · rw [hfit.scope, ho, ← hcfg]
    rfl

/-- The resolver driven directly: a use of `x` at node 1, that node passed as argument 0 of
`f`, and an inference pass that leaves `x` waiting. -/
theorem Reaches.symbols_agree_direct :
    let b := ((((Builder.new {}).varRef "x").2.deferArg "f" ⟨1⟩ 0).inferKindsIn .sorted).2
    b.Reaches {} ∧ b.ast.size ≤ UInt32.size ∧
      ∀ o x s, b.resolver.symbols.get? o x = some s →
        (s.kind = .unknown → s.waitsOn.isSome) ∧
        (s.waitsOn.isSome → s.firstUse.isSome) ∧
        (∀ n, s.firstUse = some n →
          ∃ u, b.ast.get? n = some (.var u) ∧ u.name = x ∧ u.scope.owner = o) ∧
        (∀ f, o = some f → s.scope = .param f) ∧
        (o = none → s.scope = if 0 < ({} : Config).specialSlot x then .special else .global) :=
  have h : Reaches {} ((((Builder.new {}).varRef "x").2.deferArg "f" ⟨1⟩ 0).inferKindsIn
      .sorted).2 := .inferKindsIn _ (.deferArg _ _ _ (.varRef _ (.start {} {})))
  have hsz : ((((Builder.new {}).varRef "x").2.deferArg "f" ⟨1⟩ 0).inferKindsIn
      .sorted).2.ast.size ≤ UInt32.size := by cbv
  ⟨h, hsz, h.symbols_agree hsz⟩

end Builder

end AwkNames
