import AwkNames.Proofs.Numbering

/-!
# Builders equal but for their global slots

Global slots are handed out in the order the globals are visited, which the program leaves
open, and nothing reads them back except to copy them into uses. `Builder.eraseSlots` forgets
exactly them: the slot of every global use and global symbol, and the values of the program's
two slot tables. This module shows that the rest of a builder does not depend on them:

* every primitive maps builders equal up to global slots to builders equal up to global slots
  with the same answer (`Builder.respects_eraseSlots`);
* inference ends at one resolver up to global slots, whatever lawful order it visits names in
  (`Resolver.inferIn_eraseSlots`), and so do the global phase and the others
  (`Builder.Wf.assignGlobalSlotsIn_eraseSlots`);
* hence resolution, and every run, gives the same answers and builders equal up to global slots
  in any two lawful orders, unless a resolution stops at its pass limit
  (`Builder.Wf.resolveIn_eraseSlots`, `Builder.Wf.stepsIn_eraseSlots`), while the arena holds
  at most `2 ^ 32` nodes: past that, a use shares its id with an earlier node, which is then
  patched with the use's slot, a global slot that the order decides.
-/

namespace AwkNames

/-- A use with its slot forgotten when it is a global. -/
def Use.eraseSlot (u : Use) : Use := if u.scope = .global then { u with slot := 0 } else u

/-- A node with the slot of a global use forgotten. -/
def Expr.eraseSlot : Expr → Expr
  | .var u => .var u.eraseSlot
  | .array u => .array u.eraseSlot
  | e => e

/-- A symbol with its slot forgotten when it is a global. -/
def Symbol.eraseSlot (s : Symbol) : Symbol := if s.scope = .global then { s with slot := 0 } else s

namespace Use

@[simp] theorem name_eraseSlot (u : Use) : u.eraseSlot.name = u.name := by
  unfold eraseSlot; split <;> rfl

@[simp] theorem scope_eraseSlot (u : Use) : u.eraseSlot.scope = u.scope := by
  unfold eraseSlot; split <;> rfl

@[simp] theorem eraseSlot_eraseSlot (u : Use) : u.eraseSlot.eraseSlot = u.eraseSlot := by
  unfold eraseSlot; split <;> simp_all

/-- Writing a slot and then forgetting it forgets the slot written. -/
@[simp] theorem eraseSlot_withSlot (u : Use) (k : Nat) :
    ({ u with slot := k } : Use).eraseSlot =
      { u.eraseSlot with slot := if u.scope = .global then 0 else k } := by
  unfold eraseSlot; split <;> simp_all

end Use

namespace Symbol

@[simp] theorem kind_eraseSlot (s : Symbol) : s.eraseSlot.kind = s.kind := by
  unfold eraseSlot; split <;> rfl

@[simp] theorem scope_eraseSlot (s : Symbol) : s.eraseSlot.scope = s.scope := by
  unfold eraseSlot; split <;> rfl

@[simp] theorem firstUse_eraseSlot (s : Symbol) : s.eraseSlot.firstUse = s.firstUse := by
  unfold eraseSlot; split <;> rfl

@[simp] theorem waitsOn_eraseSlot (s : Symbol) : s.eraseSlot.waitsOn = s.waitsOn := by
  unfold eraseSlot; split <;> rfl

@[simp] theorem isPending_eraseSlot (s : Symbol) : s.eraseSlot.isPending = s.isPending := by
  simp [isPending]

@[simp] theorem eraseSlot_eraseSlot (s : Symbol) : s.eraseSlot.eraseSlot = s.eraseSlot := by
  unfold eraseSlot; split <;> simp_all

/-- Forgetting the slot commutes with setting the kind. -/
theorem eraseSlot_withKind (s : Symbol) (k : Kind) :
    ({ s with kind := k } : Symbol).eraseSlot = { s.eraseSlot with kind := k } := by
  unfold eraseSlot; split <;> simp_all

end Symbol

namespace Expr

@[simp] theorem eraseSlot_eraseSlot (e : Expr) : e.eraseSlot.eraseSlot = e.eraseSlot := by
  cases e <;> simp [eraseSlot]

theorem eraseSlot_of_plain {e : Expr} (he : e.Plain) : e.eraseSlot = e := by
  cases e <;> simp_all [eraseSlot, Plain]

end Expr

/-- The arena with the slot of every global use forgotten. -/
def Ast.eraseSlots (t : Ast) : Ast := ⟨t.nodes.map Expr.eraseSlot⟩

namespace Ast

@[simp] theorem size_eraseSlots (t : Ast) : t.eraseSlots.size = t.size := by
  simp [eraseSlots, size]

@[simp] theorem nextId_eraseSlots (t : Ast) : t.eraseSlots.nextId = t.nextId := by
  simp [eraseSlots, nextId]

@[simp] theorem get?_eraseSlots (t : Ast) (i : NodeId) :
    t.eraseSlots.get? i = (t.get? i).map Expr.eraseSlot := by
  simp [eraseSlots, get?]

theorem eraseSlots_push (t : Ast) (e : Expr) :
    (t.push e).eraseSlots = t.eraseSlots.push e.eraseSlot := by
  simp [eraseSlots, push]

theorem eraseSlots_set (t : Ast) (i : NodeId) (e : Expr) :
    (t.set i e).eraseSlots = t.eraseSlots.set i e.eraseSlot := by
  simp [eraseSlots, set, Array.map_setIfInBounds]

@[simp] theorem eraseSlots_eraseSlots (t : Ast) : t.eraseSlots.eraseSlots = t.eraseSlots := by
  simp [eraseSlots, Function.comp_def]

end Ast

theorem NameMap.mapValues_insert {α β : Type} (f : String → α → β) (m : NameMap α) (k : String)
    (v : α) : (m.insert k v).mapValues f = (m.mapValues f).insert k (f k v) := by
  obtain ⟨l, hl⟩ := m
  simp only [insert, mapValues, NameMap.mk.injEq]
  clear hl
  induction l with
  | nil => rfl
  | cons e rest ih =>
    obtain ⟨k', v'⟩ := e
    simp only [insertEntry, List.map_cons]
    by_cases hk : k = k'
    · subst hk
      simp
    · by_cases hlt : k < k' <;> simp [hk, hlt, ih]

/-- Two tables with the same names are equal once every value is replaced by `c`. -/
theorem NameMap.mapValues_const_eq {α β : Type} {m₁ m₂ : NameMap α} (c : β)
    (h : ∀ k, (m₁.get? k).isSome ↔ (m₂.get? k).isSome) :
    m₁.mapValues (fun _ _ => c) = m₂.mapValues (fun _ _ => c) := by
  refine NameMap.ext_get? fun k => ?_
  have hk := h k
  rw [NameMap.get?_mapValues, NameMap.get?_mapValues]
  cases hk₁ : m₁.get? k <;> cases hk₂ : m₂.get? k <;> simp_all

/-- The symbol table with the slot of every global forgotten. -/
def SymbolTable.eraseSlots (t : SymbolTable) : SymbolTable :=
  { t with globals := t.globals.mapValues fun _ s => s.eraseSlot }

namespace SymbolTable

@[simp] theorem scopes_eraseSlots (t : SymbolTable) : t.eraseSlots.scopes = t.scopes := rfl

@[simp] theorem get?_none_eraseSlots (t : SymbolTable) (n : String) :
    t.eraseSlots.get? none n = (t.get? none n).map Symbol.eraseSlot := by
  simp [eraseSlots, get?, NameMap.get?_mapValues]

@[simp] theorem get?_some_eraseSlots (t : SymbolTable) (f n : String) :
    t.eraseSlots.get? (some f) n = t.get? (some f) n := rfl

@[simp] theorem kind_eraseSlots (t : SymbolTable) (o : Option String) (n : String) :
    t.eraseSlots.kind o n = t.kind o n := by
  cases o with
  | none => cases h : t.get? none n <;> simp [kind, h]
  | some f => rfl

theorem eraseSlots_insert_none (t : SymbolTable) (n : String) (s : Symbol) :
    (t.insert none n s).eraseSlots = t.eraseSlots.insert none n s.eraseSlot := by
  simp [eraseSlots, insert, NameMap.mapValues_insert]

theorem eraseSlots_insert_some (t : SymbolTable) (f n : String) (s : Symbol) :
    (t.insert (some f) n s).eraseSlots = t.eraseSlots.insert (some f) n s := rfl

theorem get?_eraseSlots (t : SymbolTable) (o : Option String) (n : String) :
    t.eraseSlots.get? o n = (t.get? o n).map fun s => if o = none then s.eraseSlot else s := by
  cases o <;> simp

theorem eraseSlots_insert (t : SymbolTable) (o : Option String) (n : String) (s : Symbol) :
    (t.insert o n s).eraseSlots =
      t.eraseSlots.insert o n (if o = none then s.eraseSlot else s) := by
  cases o with
  | none => simp [eraseSlots_insert_none]
  | some f => simp [eraseSlots_insert_some]

@[simp] theorem eraseSlots_eraseSlots (t : SymbolTable) :
    t.eraseSlots.eraseSlots = t.eraseSlots := by
  simp [eraseSlots, NameMap.mapValues_mapValues]

end SymbolTable

/-- The program with the values of its global slot tables forgotten; their names stay. -/
def Program.eraseSlots (p : Program) : Program :=
  { p with
    scalars := p.scalars.mapValues fun _ _ => 0
    arrays := p.arrays.mapValues fun _ _ => 0 }

@[simp] theorem Program.functions_eraseSlots (p : Program) :
    p.eraseSlots.functions = p.functions := rfl

@[simp] theorem Program.eraseSlots_eraseSlots (p : Program) :
    p.eraseSlots.eraseSlots = p.eraseSlots := by
  simp [eraseSlots, NameMap.mapValues_mapValues]

/-- The resolver with the slot of every global forgotten. -/
def Resolver.eraseSlots (r : Resolver) : Resolver := { r with symbols := r.symbols.eraseSlots }

namespace Resolver

variable {p : Program}

@[simp] theorem symbols_eraseSlots (r : Resolver) : r.eraseSlots.symbols = r.symbols.eraseSlots :=
  rfl

@[simp] theorem paramName?_eraseSlots (r : Resolver) (d : Deferral) :
    r.eraseSlots.paramName? p d = r.paramName? p d := rfl

@[simp] theorem paramKind_eraseSlots (r : Resolver) (d : Deferral) :
    r.eraseSlots.paramKind p d = r.paramKind p d := by
  simp only [paramKind_eq, paramName?_eraseSlots, symbols_eraseSlots, SymbolTable.kind_eraseSlots]

theorem withKinds_eraseSlots (r : Resolver) (κ : Option String → String → Kind) :
    (r.withKinds κ).eraseSlots = r.eraseSlots.withKinds κ := by
  simp only [eraseSlots, withKinds, SymbolTable.eraseSlots, SymbolTable.mapEntries,
    NameMap.mapValues_mapValues, Symbol.eraseSlot_withKind]

theorem ResolvesTo.eraseSlots {r : Resolver} {e : Option String × String} {k : Kind}
    (h : r.ResolvesTo p e k) : r.eraseSlots.ResolvesTo p e k := by
  induction h with
  | @known o n s hs hk =>
    have hs' : r.eraseSlots.symbols.get? o n = some (if o = none then s.eraseSlot else s) := by
      simp [SymbolTable.get?_eraseSlots, hs]
    have hkind : (if o = none then s.eraseSlot else s).kind = s.kind := by split <;> simp
    rw [← hkind]
    exact .known hs' (by rw [hkind]; exact hk)
  | @follow o n s d q k hs hu hw hq _ ih =>
    have hs' : r.eraseSlots.symbols.get? o n = some (if o = none then s.eraseSlot else s) := by
      simp [SymbolTable.get?_eraseSlots, hs]
    exact .follow hs' (by split <;> simpa) (by split <;> simpa) hq ih

/-- **Inference never reads a global slot**: a resolver part way through inference is so with
its global slots forgotten. -/
theorem Settles.eraseSlots {r₀ r : Resolver} (h : Settles r₀ r p) :
    Settles r₀.eraseSlots r.eraseSlots p := by
  obtain ⟨κ, rfl, hκ⟩ := h
  refine ⟨κ, withKinds_eraseSlots r₀ κ, fun o n s hs => ?_⟩
  rw [symbols_eraseSlots, SymbolTable.get?_eraseSlots, Option.map_eq_some_iff] at hs
  obtain ⟨s₀, hs₀, rfl⟩ := hs
  rcases hκ o n s₀ hs₀ with hk | ⟨hp, hres⟩
  · exact .inl (by split <;> simpa)
  · exact .inr ⟨by split <;> simpa, hres.eraseSlots⟩

theorem Closed.eraseSlots {r : Resolver} (h : Closed r p) : Closed r.eraseSlots p := by
  intro o n s d hs hk hw
  rw [symbols_eraseSlots, SymbolTable.get?_eraseSlots, Option.map_eq_some_iff] at hs
  obtain ⟨s₀, hs₀, rfl⟩ := hs
  rw [paramKind_eraseSlots]
  exact h o n s₀ d hs₀ (by split at hk <;> simpa using hk) (by split at hw <;> simpa using hw)

/-- Inference reads the program only through its functions. -/
theorem settle_congr {q : Program} (hq : q.functions = p.functions) (r : Resolver)
    (e : Option String × String) : r.settle q e = r.settle p e := by
  simp only [settle, paramKind_congr rfl rfl hq]

theorem passOver_congr {q : Program} (hq : q.functions = p.functions) (r : Resolver)
    (work : List (Option String × String)) : r.passOver q work = r.passOver p work := by
  simp only [passOver, settle_congr hq]

theorem inferIn_congr {q : Program} (hq : q.functions = p.functions) (v : VisitOrder)
    (r : Resolver) (done : Nat) : r.inferIn v q done = r.inferIn v p done := by
  fun_induction Resolver.inferIn v r p done with
  | case1 r done r' hlt hmax =>
    rw [Resolver.inferIn, passOver_congr hq]
    simp [hlt, hmax, r']
  | case2 r done r' hlt hmax ih =>
    rw [Resolver.inferIn, passOver_congr hq]
    simp only [r'] at hlt ih
    simp [hlt, hmax, ih, r']
  | case3 r done r' hnlt =>
    rw [Resolver.inferIn, passOver_congr hq]
    simp [hnlt, r']

/-- Inference fails only by diverging. -/
theorem inferIn_error {v : VisitOrder} {r : Resolver} {done : Nat} {e : Error}
    (h : (r.inferIn v p done).1 = .error e) : ∃ k, e = ⟨.divergence k, .null⟩ := by
  fun_induction Resolver.inferIn v r p done with
  | case1 r done r' hlt hmax =>
    cases h
    exact ⟨_, rfl⟩
  | case2 r done r' hlt hmax ih => exact ih h
  | case3 r done r' hnlt => cases h

/-- **Inference ends up to global slots where it would from the other resolver.** Two
resolvers equal up to global slots, each run to the end of inference in its own lawful order,
end equal up to global slots. -/
theorem inferIn_eraseSlots {r₁ r₂ : Resolver} (he : r₁.eraseSlots = r₂.eraseSlots)
    {v w : VisitOrder} (hv : v.Lawful) (hw : w.Lawful)
    {m n : Nat} (ok₁ : (r₁.inferIn v p m).1 = .ok ()) (ok₂ : (r₂.inferIn w p n).1 = .ok ()) :
    (r₁.inferIn v p m).2.eraseSlots = (r₂.inferIn w p n).2.eraseSlots := by
  obtain ⟨s₁, c₁⟩ := inferIn_settles (p := p) hv r₁ m
  obtain ⟨s₂, c₂⟩ := inferIn_settles (p := p) hw r₂ n
  -- both settle the one erased resolver, and nothing more can be settled in either
  have e₁ := s₁.eraseSlots
  rw [he] at e₁
  exact Settles.eq_of_closed e₁ s₂.eraseSlots (c₁ ok₁).eraseSlots (c₂ ok₂).eraseSlots

end Resolver

/-- Where a name is written does not depend on the symbol table. -/
@[simp] theorem Resolver.scopeOf_withSymbols (r : Resolver) (t : SymbolTable) (n : String) :
    ({ r with symbols := t } : Resolver).scopeOf n = r.scopeOf n := rfl

/-- Whether an answer is a resolution stopped at its pass limit. -/
def Answer.diverged : Answer → Bool
  | .resolved (.error ⟨.divergence _, _⟩) => true
  | _ => false

namespace GlobalSlots

/-- Settling a global and then forgetting its slot reads neither the slots handed out so far nor
the slot it had. -/
theorem eraseSlot_settled (special : String → Nat) (acc acc' : GlobalSlots) (n : String)
    {s : Symbol} (hs : s.scope = .global ∨ s.scope = .special) :
    (settled special acc n s).eraseSlot = (settled special acc' n s.eraseSlot).eraseSlot := by
  by_cases hk : s.kind = .array <;> rcases hs with hs | hs <;>
    simp [settled, Symbol.eraseSlot, hs, hk]

@[simp] theorem takesScalar_eraseSlot (s : Symbol) : TakesScalar s.eraseSlot ↔ TakesScalar s := by
  simp [TakesScalar]

@[simp] theorem takesArray_eraseSlot (s : Symbol) : TakesArray s.eraseSlot ↔ TakesArray s := by
  simp [TakesArray]

end GlobalSlots

namespace Builder

/-- The builder with every global slot forgotten: what no visiting order can change. -/
def eraseSlots (b : Builder) : Builder :=
  { ast := b.ast.eraseSlots
    program := b.program.eraseSlots
    resolver := { b.resolver with symbols := b.resolver.symbols.eraseSlots } }

@[simp] theorem eraseSlots_eraseSlots (b : Builder) : b.eraseSlots.eraseSlots = b.eraseSlots := by
  simp [eraseSlots]

/-! ### Every primitive keeps builders equal up to global slots -/

theorem alloc_eraseSlots (b : Builder) {e : Expr} (he : e.Plain) :
    (b.alloc e).2.eraseSlots = (b.eraseSlots.alloc e).2.eraseSlots := by
  simp [alloc, eraseSlots, Ast.eraseSlots_push, Expr.eraseSlot_of_plain he]

theorem varRef_eraseSlots (b : Builder) (n : String) :
    (b.varRef n).2.eraseSlots = (b.eraseSlots.varRef n).2.eraseSlots := by
  simp only [varRef, eraseSlots, Ast.eraseSlots_push, Ast.eraseSlots_eraseSlots,
    SymbolTable.kind_eraseSlots]
  by_cases hk : b.resolver.symbols.kind (b.resolver.scopeOf n).owner n = .unknown
  · simp [hk, SymbolTable.eraseSlots_insert]
  · simp [hk]

theorem arrayRef_eraseSlots (b : Builder) (n : String) :
    (b.arrayRef n).2.eraseSlots = (b.eraseSlots.arrayRef n).2.eraseSlots := by
  simp only [arrayRef, eraseSlots, Ast.eraseSlots_push, Ast.eraseSlots_eraseSlots,
    SymbolTable.kind_eraseSlots]
  by_cases hk : b.resolver.symbols.kind (b.resolver.scopeOf n).owner n = .unknown
  · simp [hk, SymbolTable.eraseSlots_insert]
  · simp [hk]

/-- Deferring an argument reads the node's name and scope and the symbol's first use, none of
which is a slot. -/
theorem deferArg_eraseSlots (b : Builder) (f : String) (a : NodeId) (i : Nat) :
    (b.deferArg f a i).eraseSlots = (b.eraseSlots.deferArg f a i).eraseSlots := by
  cases hx : b.ast.get? a with
  | none =>
    have hx' : b.eraseSlots.ast.get? a = none := by simp [eraseSlots, hx]
    simp only [deferArg, hx, hx', eraseSlots_eraseSlots]
  | some x =>
    cases x
    case var u =>
      have hx' : b.eraseSlots.ast.get? a = some (.var u.eraseSlot) := by
        simp [eraseSlots, hx, Expr.eraseSlot]
      cases hs : b.resolver.symbols.get? u.scope.owner u.name with
      | none =>
        have hs' : b.eraseSlots.resolver.symbols.get? u.eraseSlot.scope.owner u.eraseSlot.name =
            none := by
          simp [eraseSlots, SymbolTable.get?_eraseSlots, hs]
        simp only [deferArg, hx, hx', hs, hs', eraseSlots_eraseSlots]
      | some s =>
        have hs' : b.eraseSlots.resolver.symbols.get? u.eraseSlot.scope.owner u.eraseSlot.name =
            some (if u.scope.owner = none then s.eraseSlot else s) := by
          simp [eraseSlots, SymbolTable.get?_eraseSlots, hs]
        by_cases hfu : s.firstUse = some a
        · have hfu' : (if u.scope.owner = none then s.eraseSlot else s).firstUse = some a := by
            split <;> simp [hfu]
          simp only [deferArg, hx, hx', hs, hs', hfu, hfu', if_true]
          by_cases ho : u.scope.owner = none
          · simp [eraseSlots, SymbolTable.eraseSlots_insert, ho]
            congr 1
            unfold Symbol.eraseSlot
            split_ifs <;> simp_all
          · simp [eraseSlots, SymbolTable.eraseSlots_insert, ho]
        · have hfu' : ¬(if u.scope.owner = none then s.eraseSlot else s).firstUse = some a := by
            split <;> simp [hfu]
          simp only [deferArg, hx, hx', hs, hs', hfu, hfu', if_false, eraseSlots_eraseSlots]
    case array u =>
      have hx' : b.eraseSlots.ast.get? a = some (.array u.eraseSlot) := by
        simp [eraseSlots, hx, Expr.eraseSlot]
      simp only [deferArg, hx, hx', eraseSlots_eraseSlots]
    all_goals
      have hx' : b.eraseSlots.ast.get? a = b.ast.get? a := by simp [eraseSlots, hx, Expr.eraseSlot]
      simp only [deferArg, hx, hx', eraseSlots_eraseSlots]

theorem deferArgs_eraseSlots (f : String) : ∀ (b : Builder) (i : Nat) (args : List NodeId),
    (b.deferArgs f i args).eraseSlots = (b.eraseSlots.deferArgs f i args).eraseSlots
  | b, _, [] => by simp [deferArgs]
  | b, i, a :: rest => by
    rw [deferArgs, deferArgs, deferArgs_eraseSlots f _ (i + 1) rest, deferArg_eraseSlots,
      deferArgs_eraseSlots f (b.eraseSlots.deferArg f a i) (i + 1) rest]

/-- Forgetting global slots leaves call nodes alone, so the call a log records is the same. -/
theorem recordCall_eraseSlots (b : Builder) (node : NodeId) (pos : Position) :
    (b.recordCall node pos).eraseSlots = b.eraseSlots.recordCall node pos := by
  unfold recordCall
  cases h : b.ast.get? node with
  | none => simp [eraseSlots, h]
  | some e => cases e <;> simp [eraseSlots, h, Expr.eraseSlot]

theorem call_eraseSlots (b : Builder) (f : String) (args : List NodeId) (pos : Position) :
    (b.call f args pos).2.eraseSlots = (b.eraseSlots.call f args pos).2.eraseSlots := by
  have h := congrArg (fun b => b.resolver.symbols) (deferArgs_eraseSlots f b 0 args)
  simp only [eraseSlots] at h
  rw [call_eq, call_eq]
  simp only [recordCall_eraseSlots]
  congr 1
  · simp [eraseSlots, Ast.eraseSlots_push, Expr.eraseSlot, h]
  · simp [eraseSlots]

theorem openFunction_eraseSlots (b : Builder) (name : String) (params : List String) :
    (b.openFunction name params).eraseSlots = b.eraseSlots.openFunction name params := rfl

theorem closeFunction_eraseSlots (b : Builder) :
    b.closeFunction.eraseSlots = b.eraseSlots.closeFunction := rfl

theorem register_eraseSlots (b : Builder) (name : String) (params : List String)
    (stmts : List Stmt) :
    (b.register name params stmts).eraseSlots = b.eraseSlots.register name params stmts := rfl

theorem declarationFault_eraseSlots (b : Builder) (name : String) (params : List String)
    (pos : Position) :
    b.eraseSlots.declarationFault name params pos = b.declarationFault name params pos := rfl

theorem nextId_of_eraseSlots {b₁ b₂ : Builder} (h : b₁.eraseSlots = b₂.eraseSlots) :
    b₁.ast.nextId = b₂.ast.nextId := by
  simpa [eraseSlots] using congrArg (fun b => b.ast.nextId) h

/-- **Global slots are never read while building.** Every primitive maps two builders that are
equal up to global slots to two such builders, with the same answer. -/
theorem respects_eraseSlots : Respects fun b₁ b₂ => b₁.eraseSlots = b₂.eraseSlots where
  scopeOf n h := by simpa [eraseSlots] using congrArg (fun b => b.resolver.scopeOf n) h
  hasFunction n h := congrArg (fun b => b.resolver.hasFunction n) h
  fault name params pos h := by
    rw [← declarationFault_eraseSlots, h, declarationFault_eraseSlots]
  alloc e he h :=
    ⟨nextId_of_eraseSlots h, by rw [alloc_eraseSlots _ he, h, ← alloc_eraseSlots _ he]⟩
  varRef n h := ⟨nextId_of_eraseSlots h, by rw [varRef_eraseSlots, h, ← varRef_eraseSlots]⟩
  arrayRef n h := ⟨nextId_of_eraseSlots h, by rw [arrayRef_eraseSlots, h, ← arrayRef_eraseSlots]⟩
  call f args pos h := by
    refine ⟨by rw [call_eq, call_eq, nextId_of_eraseSlots h], ?_⟩
    rw [call_eraseSlots, h, ← call_eraseSlots]
  openFunction name params pos h _ := by
    rw [openFunction_eraseSlots, h, ← openFunction_eraseSlots]
  closeFunction h := by rw [closeFunction_eraseSlots, h, ← closeFunction_eraseSlots]
  register name params stmts h _ := by
    rw [register_eraseSlots, closeFunction_eraseSlots, h, ← closeFunction_eraseSlots,
      ← register_eraseSlots]
  begin stmts h := by simpa [eraseSlots, Program.eraseSlots] using h
  action a h := by simpa [eraseSlots, Program.eraseSlots] using h
  final stmts h := by simpa [eraseSlots, Program.eraseSlots] using h

/-! ### Every phase of resolution keeps builders equal up to global slots -/

@[simp] theorem ast_eraseSlots (b : Builder) : b.eraseSlots.ast = b.ast.eraseSlots := rfl

@[simp] theorem program_eraseSlots (b : Builder) : b.eraseSlots.program = b.program.eraseSlots :=
  rfl

@[simp] theorem resolver_eraseSlots (b : Builder) :
    b.eraseSlots.resolver = b.resolver.eraseSlots := rfl

theorem eraseSlots_withResolver (b : Builder) (r : Resolver) :
    ({ b with resolver := r } : Builder).eraseSlots = { b.eraseSlots with resolver := r.eraseSlots } :=
  rfl

/-- Calls are checked against the function table and the arities, never a slot. -/
theorem checkCalls_eraseSlots (b : Builder) :
    b.eraseSlots.resolver.checkCalls b.eraseSlots.program = b.resolver.checkCalls b.program := rfl

theorem setOrdinal_eraseSlots (b : Builder) (node : NodeId) (k : Nat) :
    (b.setOrdinal node k).eraseSlots = b.eraseSlots.setOrdinal node k := by
  cases hx : b.ast.get? node with
  | none =>
    have hx' : b.eraseSlots.ast.get? node = none := by simp [hx]
    simp only [setOrdinal, hx, hx']
  | some x =>
    cases x
    case call c =>
      have hx' : b.eraseSlots.ast.get? node = some (.call c) := by simp [hx, Expr.eraseSlot]
      simp only [setOrdinal, hx, hx']
      simp [eraseSlots, Ast.eraseSlots_set, Expr.eraseSlot]
    all_goals simp [setOrdinal, hx, Expr.eraseSlot]

theorem bindCalls_eraseSlots (b : Builder) : b.bindCalls.eraseSlots = b.eraseSlots.bindCalls := by
  unfold bindCalls
  change _ = b.resolver.bindings.foldl _ b.eraseSlots
  generalize b.resolver.bindings = bs
  induction bs generalizing b with
  | nil => rfl
  | cons e rest ih => rw [List.foldl_cons, List.foldl_cons, ih, setOrdinal_eraseSlots]

/-- The global phase rewrites the globals and the two slot tables, and nothing else. -/
theorem eraseSlots_assignGlobalSlotsIn (l : List String) (b : Builder) :
    (b.assignGlobalSlotsIn l).eraseSlots =
      { b.eraseSlots with
        program := { b.eraseSlots.program with
          scalars := (b.assignGlobalSlotsIn l).program.scalars.mapValues fun _ _ => 0
          arrays := (b.assignGlobalSlotsIn l).program.arrays.mapValues fun _ _ => 0 }
        resolver := { b.eraseSlots.resolver with
          symbols := { b.eraseSlots.resolver.symbols with
            globals := (b.assignGlobalSlotsIn l).resolver.symbols.globals.mapValues
              fun _ s => s.eraseSlot } } } := rfl

/-- The globals after the global phase, up to slots, are read off the globals before it, up to
slots. -/
theorem Wf.globals_assignGlobalSlotsIn_eraseSlots {b : Builder} (hb : b.Wf) {l : List String}
    (hl : l.Perm b.resolver.symbols.globals.keys) (acc : GlobalSlots) :
    (b.assignGlobalSlotsIn l).resolver.symbols.globals.mapValues (fun _ s => s.eraseSlot) =
      b.eraseSlots.resolver.symbols.globals.mapValues fun n s =>
        (GlobalSlots.settled b.resolver.config.specialSlot acc n s).eraseSlot := by
  rw [assignGlobalSlotsIn_globals hl, NameMap.mapValues_mapValues]
  change _ = (b.resolver.symbols.globals.mapValues fun _ s => s.eraseSlot).mapValues _
  rw [NameMap.mapValues_mapValues]
  refine NameMap.mapValues_congr _ fun n s hs => ?_
  have hscope : s.scope = .global ∨ s.scope = .special := by
    rw [hb.global_scope n s hs, Resolver.outerScope]
    split <;> simp
  exact GlobalSlots.eraseSlot_settled _ _ _ n hscope

/-- A visited global with a property that erasure keeps is a global of the erased builder with
that property. -/
theorem mem_globals_iff_eraseSlots {b : Builder} {l : List String}
    (hl : l.Perm b.resolver.symbols.globals.keys) {P : Symbol → Prop}
    (hP : ∀ s, P s.eraseSlot ↔ P s) (x : String) :
    (x ∈ l ∧ ∃ s, b.resolver.symbols.globals.get? x = some s ∧ P s) ↔
      ∃ s, b.eraseSlots.resolver.symbols.get? none x = some s ∧ P s := by
  simp only [hl.mem_iff, NameMap.mem_keys, resolver_eraseSlots, Resolver.symbols_eraseSlots,
    SymbolTable.get?_none_eraseSlots, Option.map_eq_some_iff]
  constructor
  · rintro ⟨-, s, hs, hp⟩
    exact ⟨s.eraseSlot, ⟨s, hs, rfl⟩, (hP s).2 hp⟩
  · rintro ⟨-, ⟨s, hs, rfl⟩, hp⟩
    have hg : b.resolver.symbols.globals.get? x = some s := hs
    exact ⟨by simp [hg], s, hg, (hP s).1 hp⟩

/-- A name lands in the scalar table exactly when it is a global that takes a scalar slot. -/
theorem isSome_scalars_assignGlobalSlotsIn {b : Builder} {l : List String}
    (hl : l.Perm b.resolver.symbols.globals.keys) (x : String) :
    ((b.assignGlobalSlotsIn l).program.scalars.get? x).isSome ↔
      ∃ s, b.eraseSlots.resolver.symbols.get? none x = some s ∧ GlobalSlots.TakesScalar s := by
  rw [assignGlobalSlotsIn_eq]
  simp only
  rw [placeGlobals_scalars_isSome (hl.nodup_iff.2 (NameMap.nodup_keys _)),
    ← mem_globals_iff_eraseSlots hl
    GlobalSlots.takesScalar_eraseSlot]
  simp [NameMap.get?_empty]

/-- A name lands in the array table exactly when it is a global that takes an array slot. -/
theorem isSome_arrays_assignGlobalSlotsIn {b : Builder} {l : List String}
    (hl : l.Perm b.resolver.symbols.globals.keys) (x : String) :
    ((b.assignGlobalSlotsIn l).program.arrays.get? x).isSome ↔
      ∃ s, b.eraseSlots.resolver.symbols.get? none x = some s ∧ GlobalSlots.TakesArray s := by
  rw [assignGlobalSlotsIn_eq]
  simp only
  rw [placeGlobals_arrays_isSome (hl.nodup_iff.2 (NameMap.nodup_keys _)),
    ← mem_globals_iff_eraseSlots hl
    GlobalSlots.takesArray_eraseSlot]
  simp [NameMap.get?_empty]

/-- **Global slots are handed out the same up to their values.** Two checked builders equal up
to global slots stay so through the global phase, whatever lawful orders they visit their
globals in. -/
theorem Wf.assignGlobalSlotsIn_eraseSlots {b₁ b₂ : Builder} (hb₁ : b₁.Wf) (hb₂ : b₂.Wf)
    (he : b₁.eraseSlots = b₂.eraseSlots) {l₁ l₂ : List String}
    (hl₁ : l₁.Perm b₁.resolver.symbols.globals.keys)
    (hl₂ : l₂.Perm b₂.resolver.symbols.globals.keys) :
    (b₁.assignGlobalSlotsIn l₁).eraseSlots = (b₂.assignGlobalSlotsIn l₂).eraseSlots := by
  have hconfig : b₁.resolver.config = b₂.resolver.config :=
    congrArg (fun b => b.resolver.config) he
  have hsc : (b₁.assignGlobalSlotsIn l₁).program.scalars.mapValues (fun _ _ => 0) =
      (b₂.assignGlobalSlotsIn l₂).program.scalars.mapValues (fun _ _ => 0) :=
    NameMap.mapValues_const_eq 0 fun x => by
      rw [isSome_scalars_assignGlobalSlotsIn hl₁, isSome_scalars_assignGlobalSlotsIn hl₂, he]
  have har : (b₁.assignGlobalSlotsIn l₁).program.arrays.mapValues (fun _ _ => 0) =
      (b₂.assignGlobalSlotsIn l₂).program.arrays.mapValues (fun _ _ => 0) :=
    NameMap.mapValues_const_eq 0 fun x => by
      rw [isSome_arrays_assignGlobalSlotsIn hl₁, isSome_arrays_assignGlobalSlotsIn hl₂, he]
  rw [eraseSlots_assignGlobalSlotsIn, eraseSlots_assignGlobalSlotsIn,
    hb₁.globals_assignGlobalSlotsIn_eraseSlots hl₁ {},
    hb₂.globals_assignGlobalSlotsIn_eraseSlots hl₂ {}, hsc, har, hconfig, he]

theorem SymbolTable.eraseSlots_withScopes (t : SymbolTable) (sc : NameMap (NameMap Symbol)) :
    ({ t.eraseSlots with scopes := sc } : SymbolTable) =
      ({ t with scopes := sc } : SymbolTable).eraseSlots := rfl

/-- Numbering the parameters reads and writes the functions' tables only. -/
theorem placeFunctions_eraseSlots : ∀ (fs : List UserFunction) (t : SymbolTable),
    placeFunctions fs t.eraseSlots = ((placeFunctions fs t).1, (placeFunctions fs t).2.eraseSlots)
  | [], _ => rfl
  | f :: fs, t => by
    simp only [placeFunctions_cons, SymbolTable.scopes_eraseSlots,
      SymbolTable.eraseSlots_withScopes, placeFunctions_eraseSlots fs]

theorem assignLocalSlots_eraseSlots (b : Builder) :
    b.assignLocalSlots.eraseSlots = b.eraseSlots.assignLocalSlots := by
  rw [assignLocalSlots_eq, assignLocalSlots_eq, program_eraseSlots, Program.functions_eraseSlots,
    resolver_eraseSlots, Resolver.symbols_eraseSlots, placeFunctions_eraseSlots]
  rfl

theorem Use.eraseSlot_of_ne {u : Use} (h : u.scope ≠ .global) : u.eraseSlot = u := by
  simp [Use.eraseSlot, h]

/-- A use that is no global reads a slot that erasure keeps, provided a name outside every
function has a symbol of its own scope. -/
theorem slotIn_eraseSlots {t : SymbolTable} {u : Use} (hu : u.scope ≠ .global)
    (hs : u.scope.owner = none → ∀ s, t.get? none u.name = some s → s.scope = u.scope) :
    slotIn t.eraseSlots u = slotIn t u := by
  unfold slotIn
  cases ho : u.scope.owner with
  | some f => rfl
  | none =>
    rw [SymbolTable.get?_none_eraseSlots]
    cases hg : t.get? none u.name with
    | none => rfl
    | some s =>
      have hne : s.scope ≠ .global := by rw [hs ho s hg]; exact hu
      simp [Symbol.eraseSlot, hne]

theorem Use.eraseSlot_slotIn (t : SymbolTable) (u : Use)
    (hs : u.scope.owner = none → ∀ s, t.get? none u.name = some s → s.scope = u.scope) :
    ({ u with slot := slotIn t u } : Use).eraseSlot =
      ({ u.eraseSlot with slot := slotIn t.eraseSlots u.eraseSlot } : Use).eraseSlot := by
  by_cases hg : u.scope = .global
  · simp [hg, Use.eraseSlot]
  · rw [Use.eraseSlot_of_ne hg, slotIn_eraseSlots hg hs]

theorem eraseSlots_patch (b : Builder) :
    b.patch.eraseSlots = { b.eraseSlots with ast := b.patch.ast.eraseSlots } := by
  simp only [eraseSlots, patch_program, patch_resolver]

/-- Up to global slots, patching writes into each node what the node and the table give up to
global slots. -/
theorem Wf.patch_get?_eraseSlots {b : Builder} (hb : b.Wf) (hsz : b.ast.size ≤ UInt32.size)
    (i : NodeId) :
    b.patch.ast.eraseSlots.get? i =
      (b.eraseSlots.ast.get? i).map fun e => (e.withSlot b.eraseSlots.resolver.symbols).eraseSlot := by
  rw [Ast.get?_eraseSlots, hb.patch_get? hsz, ast_eraseSlots, Ast.get?_eraseSlots, Option.map_map,
    Option.map_map]
  cases hx : b.ast.get? i with
  | none => rfl
  | some e =>
    simp only [Option.map_some, Function.comp_apply, resolver_eraseSlots,
      Resolver.symbols_eraseSlots]
    congr 1
    have hscope : ∀ u, b.ast.IsUse i u → u.scope.owner = none →
        ∀ s, b.resolver.symbols.get? none u.name = some s → s.scope = u.scope :=
      fun u hu ho s hs => by rw [hb.global_scope _ s hs, (hb.outer_use i u hu ho).1]
    cases e
    case var u =>
      rw [withSlot_var, Expr.eraseSlot, Expr.eraseSlot, withSlot_var, Expr.eraseSlot,
        Use.eraseSlot_slotIn _ _ (hscope u (.inl hx))]
    case array u =>
      rw [withSlot_array, Expr.eraseSlot, Expr.eraseSlot, withSlot_array, Expr.eraseSlot,
        Use.eraseSlot_slotIn _ _ (hscope u (.inr hx))]
    all_goals rfl

theorem size_of_eraseSlots {b₁ b₂ : Builder} (he : b₁.eraseSlots = b₂.eraseSlots) :
    b₁.ast.size = b₂.ast.size := by
  simpa [eraseSlots] using congrArg (fun b => b.ast.size) he

theorem Wf.patch_eraseSlots {b₁ b₂ : Builder} (hb₁ : b₁.Wf) (hb₂ : b₂.Wf)
    (he : b₁.eraseSlots = b₂.eraseSlots) (hsz : b₁.ast.size ≤ UInt32.size) :
    b₁.patch.eraseSlots = b₂.patch.eraseSlots := by
  have hsize := size_of_eraseSlots he
  have hast : b₁.patch.ast.eraseSlots = b₂.patch.ast.eraseSlots :=
    Ast.ext_get? (fun i => by
      rw [hb₁.patch_get?_eraseSlots hsz, hb₂.patch_get?_eraseSlots (hsize ▸ hsz), he])
      fun n hn => by
        have h := congrArg (fun b => b.ast.nodes[n]?) he
        simpa [eraseSlots, Ast.eraseSlots, patch_nodes_of_le _ hn] using h
  rw [eraseSlots_patch, eraseSlots_patch, he, hast]

/-! ### Resolution and runs -/

/-- A resolution that does not stop at its pass limit either fails on a call, changing nothing,
or gets through every phase. -/
theorem resolveIn_cases {b : Builder} {v : VisitOrder}
    (nd : (Answer.resolved (b.resolveIn v).1).diverged = false) :
    (∃ e, b.resolver.checkCalls b.program = .error e ∧ b.resolveIn v = (.error e, b)) ∨
      ∃ bs r, b.resolver.checkCalls b.program = .ok bs ∧
        { b.resolver with bindings := bs }.inferIn v b.program 0 = (.ok (), r) ∧
        b.resolveIn v = (.ok (), (({ b with resolver := r }.bindCalls).assignGlobalSlotsIn
          (v.globals { b with resolver := r }.bindCalls.resolver.symbols)).assignLocalSlots.patch) := by
  rcases h : b.resolveIn v with ⟨out, b'⟩
  rw [h] at nd
  cases out with
  | ok u =>
    cases u
    obtain ⟨bs, r, hc, hi, rfl⟩ := resolveIn_eq_ok h
    exact .inr ⟨bs, r, hc, hi, rfl⟩
  | error e =>
    rcases resolveIn_eq_error h with ⟨hc, rfl⟩ | ⟨bs, -, hi, -⟩
    · exact .inl ⟨e, hc, rfl⟩
    · obtain ⟨k, rfl⟩ := Resolver.inferIn_error (by rw [hi])
      simp [Answer.diverged] at nd

/-- Up to global slots, inference ends at one resolver from two checked builders equal up to
global slots, in any two lawful orders that both get through. -/
theorem inferIn_eraseSlots {b₁ b₂ : Builder} (he : b₁.eraseSlots = b₂.eraseSlots) {v w : VisitOrder} (hv : v.Lawful) (hw : w.Lawful)
    {bs : List (NodeId × Nat)} {r₁ r₂ : Resolver}
    (hi₁ : { b₁.resolver with bindings := bs }.inferIn v b₁.program 0 = (.ok (), r₁))
    (hi₂ : { b₂.resolver with bindings := bs }.inferIn w b₂.program 0 = (.ok (), r₂)) :
    r₁.eraseSlots = r₂.eraseSlots := by
  -- inference reads the program only through its functions, which the two share
  have hfun : b₂.program.functions = b₁.program.functions :=
    congrArg (fun b => b.program.functions) he.symm
  have hres : b₁.resolver.eraseSlots = b₂.resolver.eraseSlots := congrArg Builder.resolver he
  rw [Resolver.inferIn_congr hfun] at hi₂
  have h := Resolver.inferIn_eraseSlots
    (show ({ b₁.resolver.eraseSlots with bindings := bs } : Resolver) =
      { b₂.resolver.eraseSlots with bindings := bs } by rw [hres]) hv hw
    (by rw [hi₁]) (by rw [hi₂])
  rwa [hi₁, hi₂] at h

/-- Up to global slots, the phases after checking the calls end where they would from the
other builder, once inference gets through in both. -/
theorem Wf.phases_eraseSlots {b₁ b₂ : Builder} (hb₁ : b₁.Wf) (hb₂ : b₂.Wf)
    (he : b₁.eraseSlots = b₂.eraseSlots) (hsz : b₁.ast.size ≤ UInt32.size) {v w : VisitOrder}
    (hv : v.Lawful) (hw : w.Lawful)
    {bs : List (NodeId × Nat)} {r₁ r₂ : Resolver}
    (hi₁ : { b₁.resolver with bindings := bs }.inferIn v b₁.program 0 = (.ok (), r₁))
    (hi₂ : { b₂.resolver with bindings := bs }.inferIn w b₂.program 0 = (.ok (), r₂)) :
    ((({ b₁ with resolver := r₁ } : Builder).bindCalls.assignGlobalSlotsIn
        (v.globals ({ b₁ with resolver := r₁ } : Builder).bindCalls.resolver.symbols)).assignLocalSlots.patch).eraseSlots =
      ((({ b₂ with resolver := r₂ } : Builder).bindCalls.assignGlobalSlotsIn
        (w.globals ({ b₂ with resolver := r₂ } : Builder).bindCalls.resolver.symbols)).assignLocalSlots.patch).eraseSlots := by
  have hr := Builder.inferIn_eraseSlots he hv hw hi₁ hi₂
  have hw₁ := hb₁.inferIn_of_eq hv hi₁
  have hw₂ := hb₂.inferIn_of_eq hw hi₂
  -- inference leaves the two equal up to global slots, and so does every later phase
  have h₃ : ({ b₁ with resolver := r₁ } : Builder).bindCalls.eraseSlots =
      ({ b₂ with resolver := r₂ } : Builder).bindCalls.eraseSlots := by
    rw [bindCalls_eraseSlots, bindCalls_eraseSlots, eraseSlots_withResolver b₁ r₁,
      eraseSlots_withResolver b₂ r₂, he, hr]
  have h₄ := hw₁.bindCalls.assignGlobalSlotsIn_eraseSlots hw₂.bindCalls h₃ (hv _).2 (hw _).2
  refine ((hw₁.bindCalls.assignGlobalSlotsIn (hv _).2).assignLocalSlots).patch_eraseSlots
    ((hw₂.bindCalls.assignGlobalSlotsIn (hw _).2).assignLocalSlots) ?_ ?_
  · rw [assignLocalSlots_eraseSlots, assignLocalSlots_eraseSlots, h₄]
  · rw [assignLocalSlots_eq, assignGlobalSlotsIn_eq, bindCalls_size]
    exact hsz

/-- **Resolution does not depend on the visiting order, up to global slots.** Two checked
builders equal up to global slots, resolved in any two lawful orders, give the same outcome and
stay equal up to global slots, unless one of them stops at its pass limit. -/
theorem Wf.resolveIn_eraseSlots {b₁ b₂ : Builder} (hb₁ : b₁.Wf) (hb₂ : b₂.Wf)
    (he : b₁.eraseSlots = b₂.eraseSlots) (hsz : b₁.ast.size ≤ UInt32.size) {v w : VisitOrder}
    (hv : v.Lawful) (hw : w.Lawful)
    (nd₁ : (Answer.resolved (b₁.resolveIn v).1).diverged = false)
    (nd₂ : (Answer.resolved (b₂.resolveIn w).1).diverged = false) :
    (b₁.resolveIn v).1 = (b₂.resolveIn w).1 ∧
      (b₁.resolveIn v).2.eraseSlots = (b₂.resolveIn w).2.eraseSlots := by
  have hc : b₂.resolver.checkCalls b₂.program = b₁.resolver.checkCalls b₁.program := by
    rw [← checkCalls_eraseSlots b₂, ← he, checkCalls_eraseSlots]
  rcases resolveIn_cases nd₁ with ⟨e₁, hc₁, h₁⟩ | ⟨bs, r₁, hc₁, hi₁, h₁⟩ <;>
    rcases resolveIn_cases nd₂ with ⟨e₂, hc₂, h₂⟩ | ⟨bs₂, r₂, hc₂, hi₂, h₂⟩ <;>
    rw [hc, hc₁] at hc₂ <;> cases hc₂
  · rw [h₁, h₂]
    exact ⟨rfl, he⟩
  · rw [h₁, h₂]
    exact ⟨rfl, hb₁.phases_eraseSlots hb₂ he hsz hv hw hi₁ hi₂⟩

theorem stepIn_resolve (v : VisitOrder) (b : Builder) :
    b.stepIn v .resolve = (.resolved (b.resolveIn v).1, (b.resolveIn v).2) := rfl

theorem stepsIn_cons (v : VisitOrder) (b : Builder) (s : Step) (rest : List Step) :
    b.stepsIn v (s :: rest) =
      ((b.stepIn v s).1 :: ((b.stepIn v s).2.stepsIn v rest).1,
        ((b.stepIn v s).2.stepsIn v rest).2) := rfl

/-- One step of two checked builders equal up to global slots, in any two lawful orders. -/
theorem Wf.stepIn_eraseSlots {b₁ b₂ : Builder} (hb₁ : b₁.Wf) (hb₂ : b₂.Wf)
    (he : b₁.eraseSlots = b₂.eraseSlots) {v w : VisitOrder} (hv : v.Lawful) (hw : w.Lawful)
    (s : Step) (hsz : (b₁.stepIn v s).2.ast.size ≤ UInt32.size)
    (nd₁ : (b₁.stepIn v s).1.diverged = false)
    (nd₂ : (b₂.stepIn w s).1.diverged = false) :
    (b₁.stepIn v s).1 = (b₂.stepIn w s).1 ∧
      (b₁.stepIn v s).2.eraseSlots = (b₂.stepIn w s).2.eraseSlots := by
  by_cases hs : s = .resolve
  · subst hs
    rw [stepIn_resolve] at nd₁ nd₂ hsz ⊢
    rw [stepIn_resolve]
    rw [resolveIn_size] at hsz
    obtain ⟨hout, hend⟩ := hb₁.resolveIn_eraseSlots hb₂ he hsz hv hw nd₁ nd₂
    exact ⟨by rw [hout], hend⟩
  · exact respects_eraseSlots.stepIn s hs he

/-- **A run does not depend on the visiting order, up to global slots.** Two checked builders
equal up to global slots, run through the same steps in any two lawful orders, give the same
answers and end equal up to global slots, unless a resolution stops at its pass limit or the
run makes more than `2 ^ 32` nodes. -/
theorem Wf.stepsIn_eraseSlots {v w : VisitOrder} (hv : v.Lawful) (hw : w.Lawful) :
    ∀ (ops : List Step) {b₁ b₂ : Builder}, b₁.Wf → b₂.Wf → b₁.eraseSlots = b₂.eraseSlots →
      (b₁.stepsIn v ops).2.ast.size ≤ UInt32.size →
      (∀ a ∈ (b₁.stepsIn v ops).1, a.diverged = false) →
      (∀ a ∈ (b₂.stepsIn w ops).1, a.diverged = false) →
      (b₁.stepsIn v ops).1 = (b₂.stepsIn w ops).1 ∧
        (b₁.stepsIn v ops).2.eraseSlots = (b₂.stepsIn w ops).2.eraseSlots
  | [], _, _, _, _, he, _, _, _ => ⟨rfl, he⟩
  | s :: rest, b₁, b₂, hb₁, hb₂, he, hsz, nd₁, nd₂ => by
    rw [stepsIn_cons] at nd₁ nd₂ hsz ⊢
    rw [stepsIn_cons]
    simp only [List.mem_cons, forall_eq_or_imp] at nd₁ nd₂
    obtain ⟨ha, hb⟩ := hb₁.stepIn_eraseSlots hb₂ he hv hw s
      ((size_le_stepsIn v _ rest).trans hsz) nd₁.1 nd₂.1
    obtain ⟨has, hbs⟩ :=
      Wf.stepsIn_eraseSlots hv hw rest (hb₁.stepIn hv s) (hb₂.stepIn hw s) hb hsz nd₁.2 nd₂.2
    exact ⟨by rw [ha, has], hbs⟩

end Builder

end AwkNames

