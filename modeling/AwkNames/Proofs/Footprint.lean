import AwkNames.Proofs.SlotErasure

/-!
# What resolution writes

Resolution is meant to write three things and nothing else: the slot of every use, the
ordinal of every call and the program's slot tables with each function's array flags. It
writes them all at once, after every check has passed. So a failed resolution leaves the tree
and the program as they were, and a failed call check leaves the whole builder as it was. A
successful one changes no node's kind, no name, scope, argument or child, and no statement
of the program.

`Expr.unresolved`, `Ast.unresolved` and `Program.unresolved` clear what resolution writes.
Each phase keeps them (`Builder.bindCalls_unresolved`, `Builder.patch_unresolved`,
`Builder.assignGlobalSlotsIn_unresolved`, `Builder.assignLocalSlots_unresolved`), so the
whole resolution does (`Builder.resolveIn_footprint`). None of this needs the builder to be
reachable: it holds for every builder and every visiting order.
-/

namespace AwkNames

/-- A node with what resolution writes into it cleared: the slot of a use and the ordinal of
a call. -/
def Expr.unresolved : Expr → Expr
  | .var u => .var { u with slot := 0 }
  | .array u => .array { u with slot := 0 }
  | .call c => .call { c with ordinal := none }
  | e => e

/-- The arena with what resolution writes cleared from every node. -/
def Ast.unresolved (t : Ast) : Ast := ⟨t.nodes.map Expr.unresolved⟩

/-- A program with what resolution writes cleared: the two slot tables and the array flags of
each function. -/
def Program.unresolved (p : Program) : Program :=
  { p with
    scalars := ∅
    arrays := ∅
    functions := p.functions.map fun f => { f with arrays := [] } }

namespace Expr

@[simp] theorem unresolved_var (u : Use) (k : Nat) :
    (Expr.var { u with slot := k }).unresolved = (Expr.var u).unresolved := rfl

@[simp] theorem unresolved_array (u : Use) (k : Nat) :
    (Expr.array { u with slot := k }).unresolved = (Expr.array u).unresolved := rfl

@[simp] theorem unresolved_call (c : CallNode) (k : Option Nat) :
    (Expr.call { c with ordinal := k }).unresolved = (Expr.call c).unresolved := rfl

/-- Clearing keeps a scalar use a scalar use of the same name in the same scope. -/
theorem unresolved_eq_var {e : Expr} {u : Use} (h : e.unresolved = (Expr.var u).unresolved) :
    ∃ u', e = .var u' ∧ u'.name = u.name ∧ u'.scope = u.scope := by
  cases e <;> simp only [unresolved, reduceCtorEq, Expr.var.injEq] at h
  case var u' =>
    have hname := congrArg Use.name h
    have hscope := congrArg Use.scope h
    exact ⟨u', rfl, hname, hscope⟩

end Expr

namespace Ast

@[simp] theorem get?_unresolved (t : Ast) (i : NodeId) :
    t.unresolved.get? i = (t.get? i).map Expr.unresolved := by
  simp [unresolved, get?]

@[simp] theorem unresolved_push (t : Ast) (e : Expr) :
    (t.push e).unresolved = t.unresolved.push e.unresolved := by
  simp [unresolved, push]

theorem unresolved_set (t : Ast) (i : NodeId) (e : Expr) :
    (t.set i e).unresolved = t.unresolved.set i e.unresolved := by
  simp [unresolved, set, Array.map_setIfInBounds]

/-- Writing a node over itself changes nothing. -/
theorem set_of_get? {t : Ast} {i : NodeId} {e : Expr} (h : t.get? i = some e) : t.set i e = t := by
  obtain ⟨a⟩ := t
  unfold get? at h
  obtain ⟨hi, rfl⟩ := Array.getElem?_eq_some_iff.1 h
  simp [set, Array.setIfInBounds_def, hi]

/-- Rewriting a node into one that differs only in what resolution writes keeps the cleared
arena. -/
theorem unresolved_set_of_get? {t : Ast} {i : NodeId} {e e' : Expr} (h : t.get? i = some e)
    (he : e'.unresolved = e.unresolved) : (t.set i e').unresolved = t.unresolved := by
  rw [unresolved_set, he]
  exact set_of_get? (by simp [h])

end Ast

namespace Builder

/-! ### Each phase -/

theorem setOrdinal_unresolved (b : Builder) (node : NodeId) (k : Nat) :
    (b.setOrdinal node k).ast.unresolved = b.ast.unresolved := by
  unfold setOrdinal
  split
  · exact Ast.unresolved_set_of_get? ‹_› (Expr.unresolved_call _ _)
  · rfl

/-- Binding calls writes ordinals only. -/
theorem bindCalls_unresolved (b : Builder) : b.bindCalls.ast.unresolved = b.ast.unresolved := by
  unfold bindCalls
  generalize b.resolver.bindings = bs
  induction bs generalizing b with
  | nil => rfl
  | cons e rest ih => rw [List.foldl_cons, ih, setOrdinal_unresolved]

theorem patchVar_unresolved (b : Builder) (r : Ref) :
    (b.patchVar r).ast.unresolved = b.ast.unresolved := by
  unfold patchVar
  split
  · split
    · exact Ast.unresolved_set_of_get? ‹_› (Expr.unresolved_var _ _)
    · rfl
  · rfl

theorem patchArray_unresolved (b : Builder) (r : Ref) :
    (b.patchArray r).ast.unresolved = b.ast.unresolved := by
  unfold patchArray
  split
  · split
    · exact Ast.unresolved_set_of_get? ‹_› (Expr.unresolved_array _ _)
    · rfl
  · rfl

/-- Patching writes slots only. -/
theorem patch_unresolved (b : Builder) : b.patch.ast.unresolved = b.ast.unresolved := by
  have hvar : ∀ (refs : List Ref) (c : Builder),
      (refs.foldl patchVar c).ast.unresolved = c.ast.unresolved := by
    intro refs
    induction refs with
    | nil => intro c; rfl
    | cons r rest ih => intro c; rw [List.foldl_cons, ih, patchVar_unresolved]
  have harr : ∀ (refs : List Ref) (c : Builder),
      (refs.foldl patchArray c).ast.unresolved = c.ast.unresolved := by
    intro refs
    induction refs with
    | nil => intro c; rfl
    | cons r rest ih => intro c; rw [List.foldl_cons, ih, patchArray_unresolved]
  unfold patch
  rw [harr, hvar]

/-- The global phase writes the globals' symbols and the slot tables. -/
theorem assignGlobalSlotsIn_unresolved (l : List String) (b : Builder) :
    (b.assignGlobalSlotsIn l).ast = b.ast ∧
      (b.assignGlobalSlotsIn l).program.unresolved = b.program.unresolved :=
  ⟨rfl, rfl⟩

/-- Numbering parameters gives back the functions in order, changing only their flags. -/
theorem placeFunctions_unresolved :
    ∀ (fs : List UserFunction) (T : SymbolTable),
      (placeFunctions fs T).1.map (fun f => { f with arrays := [] }) =
        fs.map fun f => { f with arrays := [] }
  | [], _ => rfl
  | f :: fs, T => by
    rw [placeFunctions_cons]
    simp only [List.map_cons, placeFunctions_unresolved fs]

/-- The parameter phase writes the functions' flags and their tables. -/
theorem assignLocalSlots_unresolved (b : Builder) :
    b.assignLocalSlots.ast = b.ast ∧
      b.assignLocalSlots.program.unresolved = b.program.unresolved := by
  refine ⟨rfl, ?_⟩
  rw [assignLocalSlots_eq]
  simp only [Program.unresolved, placeFunctions_unresolved]

/-- A successful resolution keeps every node but the slots of uses and the ordinals of calls,
and the program but its slot tables and the functions' array flags. -/
theorem resolveIn_unresolved_of_ok {v : VisitOrder} {b b' : Builder}
    (h : b.resolveIn v = (.ok (), b')) :
    b'.ast.unresolved = b.ast.unresolved ∧ b'.program.unresolved = b.program.unresolved := by
  obtain ⟨bs, r, -, -, rfl⟩ := resolveIn_eq_ok h
  set c := ({ b with resolver := r } : Builder).bindCalls
  obtain ⟨hgast, hgprog⟩ := assignGlobalSlotsIn_unresolved (v.globals c.resolver.symbols) c
  obtain ⟨hlast, hlprog⟩ := assignLocalSlots_unresolved (c.assignGlobalSlotsIn
    (v.globals c.resolver.symbols))
  refine ⟨?_, ?_⟩
  · rw [patch_unresolved, hlast, hgast, bindCalls_unresolved]
  · rw [patch_program, hlprog, hgprog, bindCalls_program]

/-- **What resolution writes.** A failed resolution leaves the tree and the program as they
were, and one whose call check failed leaves the whole builder as it was. A successful one
keeps every node but the slots of uses and the ordinals of calls, and keeps the program but
its slot tables and the functions' array flags. This holds for every builder and every
visiting order. -/
theorem resolveIn_footprint (v : VisitOrder) (b : Builder) :
    (∀ e b', b.resolveIn v = (.error e, b') →
      b'.ast = b.ast ∧ b'.program = b.program ∧
        ((∃ f, e.fault = .undefinedFunction f) ∨
          (∃ f declared given, e.fault = .tooManyArguments f declared given) → b' = b)) ∧
    (∀ b', b.resolveIn v = (.ok (), b') →
      b'.ast.unresolved = b.ast.unresolved ∧ b'.program.unresolved = b.program.unresolved) := by
  refine ⟨fun e b' h => ?_, fun b' h => ?_⟩
  · rcases resolveIn_eq_error h with ⟨-, rfl⟩ | ⟨bs, -, hinf, hb'⟩
    · exact ⟨rfl, rfl, fun _ => rfl⟩
    · refine ⟨by rw [hb'], by rw [hb'], ?_⟩
      -- inference fails only by diverging, which is neither call fault
      obtain ⟨k, rfl⟩ := Resolver.inferIn_error (congrArg Prod.fst hinf)
      rintro (⟨f, hf⟩ | ⟨f, m, n, hf⟩) <;> cases hf
  · exact resolveIn_unresolved_of_ok h

end Builder

end AwkNames
