import Mathlib.Logic.Equiv.Defs
import AwkNames.Proofs.SlotErasure

/-!
# Resolution does not depend on the visiting order, up to renaming global slots

Kind inference and slot assignment visit names in an order the program leaves open
(`VisitOrder`). This module shows what the order can change: only which slot each global gets.
Two runs of the same steps in two lawful orders give the same answers, as long as no resolution
stops at its pass limit and the runs make at most `2 ^ 32` nodes, and after a successful
resolution the second builder is the first with its global scalar slots renamed by one
permutation and its global array slots by another (`Builder.renameSlots`).

* `NameMap.exists_perm_mapValues` : two dense slot tables over the same names differ by a
  permutation of the slots;
* `Builder.eq_of_eraseSlots` : a builder is determined by what it is up to global slots, its
  slot tables, and the slots of its global symbols and uses;
* `Builder.stepsIn_resolve_orderIndependent` : the main statement;
* `Builder.stepsIn_resolve_passLimit_orderDependent` : with a pass limit of one, a chain of
  three functions resolves in one order and stops at the limit in the other.
-/

namespace AwkNames

/-! ### Renaming the slots of a dense table -/

namespace NameMap

/-- The name that holds slot `i`, if any. -/
def keyOf? (m : NameMap Nat) (i : Nat) : Option String := (m.entries.find? (·.2 == i)).map (·.1)

/-- The renaming that gives each slot of `m₁` the slot its name holds in `m₂`, and leaves every
other number alone. -/
def slotRenaming (m₁ m₂ : NameMap Nat) (i : Nat) : Nat :=
  match m₁.keyOf? i with
  | some x => (m₂.get? x).getD i
  | none => i

theorem Dense.keyOf?_eq_some {m : NameMap Nat} (hm : m.Dense) {i : Nat} {x : String} :
    m.keyOf? i = some x ↔ m.get? x = some i := by
  rw [keyOf?]
  constructor
  · intro h
    obtain ⟨⟨y, j⟩, hf, rfl⟩ := Option.map_eq_some_iff.1 h
    have hj : j = i := by simpa using List.find?_some hf
    subst hj
    exact m.mem_iff_get?.1 (List.mem_of_find?_eq_some hf)
  · intro h
    have hmem : (x, i) ∈ m.entries := m.mem_iff_get?.2 h
    have hsome : (m.entries.find? (·.2 == i)).isSome := List.find?_isSome.2 ⟨(x, i), hmem, by simp⟩
    obtain ⟨⟨y, j⟩, hf⟩ := Option.isSome_iff_exists.1 hsome
    have hj : j = i := by simpa using List.find?_some hf
    subst hj
    have hy := m.mem_iff_get?.1 (List.mem_of_find?_eq_some hf)
    rw [hf, hm.injective y x j hy h]
    rfl

/-- Tables with the same names have the same size. -/
theorem size_eq_of_isSome_iff {α β : Type} {m₁ : NameMap α} {m₂ : NameMap β}
    (hk : ∀ k, (m₁.get? k).isSome ↔ (m₂.get? k).isSome) : m₁.size = m₂.size := by
  have hperm : m₁.keys.Perm m₂.keys :=
    (List.perm_ext_iff_of_nodup m₁.nodup_keys m₂.nodup_keys).2 fun k => by
      rw [mem_keys, mem_keys, hk]
  simpa [size, keys] using hperm.length_eq

section Renaming

variable {m₁ m₂ : NameMap Nat}

theorem slotRenaming_of_get? (h₁ : m₁.Dense) (hk : ∀ k, (m₁.get? k).isSome ↔ (m₂.get? k).isSome)
    {x : String} {i : Nat} (hx : m₁.get? x = some i) :
    m₂.get? x = some (slotRenaming m₁ m₂ i) := by
  obtain ⟨j, hj⟩ := Option.isSome_iff_exists.1 ((hk x).1 (by simp [hx]))
  simp only [slotRenaming, h₁.keyOf?_eq_some.2 hx, hj, Option.getD_some]

theorem slotRenaming_of_le (h₁ : m₁.Dense) {i : Nat} (hi : m₁.size ≤ i) :
    slotRenaming m₁ m₂ i = i := by
  cases hkey : m₁.keyOf? i with
  | none => simp [slotRenaming, hkey]
  | some x => exact absurd (h₁.lt_size x i (h₁.keyOf?_eq_some.1 hkey)) (by omega)

theorem mapValues_slotRenaming (h₁ : m₁.Dense) (h₂ : m₂.Dense)
    (hk : ∀ k, (m₁.get? k).isSome ↔ (m₂.get? k).isSome) :
    m₂ = m₁.mapValues fun _ i => slotRenaming m₁ m₂ i := by
  refine ext_get? fun x => ?_
  rw [get?_mapValues]
  cases hx : m₁.get? x with
  | some i => exact slotRenaming_of_get? h₁ hk hx
  | none => simpa [hx] using hk x

/-- The renaming between two dense tables over the same names is a bijection of the numbers:
it permutes the slots below the common size and fixes the rest. -/
theorem slotRenaming_bijective (h₁ : m₁.Dense) (h₂ : m₂.Dense)
    (hk : ∀ k, (m₁.get? k).isSome ↔ (m₂.get? k).isSome) :
    Function.Bijective (slotRenaming m₁ m₂) := by
  have hsize := size_eq_of_isSome_iff hk
  -- a slot of `m₁` goes to the slot its name holds in `m₂`, below the common size
  have hslot : ∀ i, i < m₁.size → ∃ x, m₁.get? x = some i ∧
      m₂.get? x = some (slotRenaming m₁ m₂ i) ∧ slotRenaming m₁ m₂ i < m₁.size := by
    intro i hi
    obtain ⟨x, hx⟩ := h₁.exists_of_lt i hi
    have hx₂ := slotRenaming_of_get? h₁ hk hx
    exact ⟨x, hx, hx₂, hsize ▸ h₂.lt_size x _ hx₂⟩
  refine ⟨fun i j hij => ?_, fun j => ?_⟩
  · rcases lt_or_ge i m₁.size with hi | hi <;> rcases lt_or_ge j m₁.size with hj | hj
    · obtain ⟨x, hx, hx₂, -⟩ := hslot i hi
      obtain ⟨y, hy, hy₂, -⟩ := hslot j hj
      rw [hij] at hx₂
      obtain rfl := h₂.injective x y _ hx₂ hy₂
      rw [hx] at hy
      exact Option.some.inj hy
    · obtain ⟨-, -, -, hlt⟩ := hslot i hi
      rw [hij, slotRenaming_of_le h₁ hj] at hlt
      omega
    · obtain ⟨-, -, -, hlt⟩ := hslot j hj
      rw [← hij, slotRenaming_of_le h₁ hi] at hlt
      omega
    · rwa [slotRenaming_of_le h₁ hi, slotRenaming_of_le h₁ hj] at hij
  · rcases lt_or_ge j m₁.size with hj | hj
    · obtain ⟨y, hy⟩ := h₂.exists_of_lt j (hsize ▸ hj)
      obtain ⟨i, hi⟩ := Option.isSome_iff_exists.1 ((hk y).2 (by simp [hy]))
      have := slotRenaming_of_get? h₁ hk hi
      rw [hy] at this
      exact ⟨i, (Option.some.inj this).symm⟩
    · exact ⟨j, slotRenaming_of_le h₁ hj⟩

/-- **Two dense slot tables over the same names differ by a permutation of the slots.** -/
theorem exists_perm_mapValues (h₁ : m₁.Dense) (h₂ : m₂.Dense)
    (hk : ∀ k, (m₁.get? k).isSome ↔ (m₂.get? k).isSome) :
    ∃ σ : Equiv.Perm Nat, m₂ = m₁.mapValues fun _ i => σ i :=
  ⟨Equiv.ofBijective _ (slotRenaming_bijective h₁ h₂ hk), mapValues_slotRenaming h₁ h₂ hk⟩

end Renaming

end NameMap

/-! ### Renaming global slots -/

/-- The new slot of a global of this kind: arrays are renamed by `τ`, anything else by `σ`. -/
def Kind.renameSlot (k : Kind) (σ τ : Nat → Nat) (i : Nat) : Nat := if k = .array then τ i else σ i

/-- A use with its slot renamed when it is a global, whose name has kind `k`. -/
def Use.renameSlot (σ τ : Nat → Nat) (k : Kind) (u : Use) : Use :=
  if u.scope = .global then { u with slot := k.renameSlot σ τ u.slot } else u

/-- A symbol with its slot renamed when it is a global. -/
def Symbol.renameSlot (σ τ : Nat → Nat) (s : Symbol) : Symbol :=
  if s.scope = .global then { s with slot := s.kind.renameSlot σ τ s.slot } else s

/-- A node with the slot of a global use renamed by the kind its name has in `t`. -/
def Expr.renameSlot (σ τ : Nat → Nat) (t : SymbolTable) : Expr → Expr
  | .var u => .var (u.renameSlot σ τ (t.kind none u.name))
  | .array u => .array (u.renameSlot σ τ (t.kind none u.name))
  | e => e

/-- The builder with every global scalar slot renamed by `σ` and every global array slot by `τ`:
in the program's slot tables, in the global symbols, and in every global use. -/
def Builder.renameSlots (σ τ : Nat → Nat) (b : Builder) : Builder :=
  { ast := ⟨b.ast.nodes.map (Expr.renameSlot σ τ b.resolver.symbols)⟩
    program := { b.program with
      scalars := b.program.scalars.mapValues fun _ i => σ i
      arrays := b.program.arrays.mapValues fun _ i => τ i }
    resolver := { b.resolver with
      symbols := { b.resolver.symbols with
        globals := b.resolver.symbols.globals.mapValues fun _ s => s.renameSlot σ τ } } }

@[simp] theorem Use.eraseSlot_renameSlot (σ τ : Nat → Nat) (k : Kind) (u : Use) :
    (u.renameSlot σ τ k).eraseSlot = u.eraseSlot := by
  unfold renameSlot eraseSlot
  split <;> simp_all

@[simp] theorem Symbol.eraseSlot_renameSlot (σ τ : Nat → Nat) (s : Symbol) :
    (s.renameSlot σ τ).eraseSlot = s.eraseSlot := by
  unfold renameSlot eraseSlot
  split <;> simp_all

@[simp] theorem Expr.eraseSlot_renameSlot (σ τ : Nat → Nat) (t : SymbolTable) (e : Expr) :
    (e.renameSlot σ τ t).eraseSlot = e.eraseSlot := by
  cases e <;> simp [renameSlot, eraseSlot]

namespace Builder

variable {σ τ : Nat → Nat}

theorem get?_renameSlots (b : Builder) (i : NodeId) :
    (b.renameSlots σ τ).ast.get? i = (b.ast.get? i).map (Expr.renameSlot σ τ b.resolver.symbols) := by
  simp [renameSlots, Ast.get?]

theorem globals_get?_renameSlots (b : Builder) (x : String) :
    (b.renameSlots σ τ).resolver.symbols.get? none x =
      (b.resolver.symbols.get? none x).map (Symbol.renameSlot σ τ) := by
  simp [renameSlots, SymbolTable.get?, NameMap.get?_mapValues]

/-- Renaming global slots changes nothing that erasing them keeps. -/
@[simp] theorem eraseSlots_renameSlots (b : Builder) :
    (b.renameSlots σ τ).eraseSlots = b.eraseSlots := by
  simp [renameSlots, eraseSlots, Ast.eraseSlots, Program.eraseSlots, SymbolTable.eraseSlots,
    NameMap.mapValues_mapValues, Function.comp_def]

end Builder

/-! ### A builder is what it is up to global slots, with its global slots -/

/-- Two optional values with the same image are equal when the values they hold are, as soon
as their images are. -/
theorem Option.eq_of_map_eq {α β : Type} {f : α → β} {o₁ o₂ : Option α}
    (h : o₁.map f = o₂.map f) (hinj : ∀ a₁ a₂, o₁ = some a₁ → o₂ = some a₂ → f a₁ = f a₂ → a₁ = a₂) :
    o₁ = o₂ := by
  cases o₁ <;> cases o₂ <;>
    simp only [Option.map_none, Option.map_some, reduceCtorEq, Option.some.injEq] at h
  · rfl
  · exact congrArg some (hinj _ _ rfl rfl h)

theorem Use.eq_of_eraseSlot {u₁ u₂ : Use} (he : u₁.eraseSlot = u₂.eraseSlot)
    (hs : u₁.slot = u₂.slot) : u₁ = u₂ := by
  have hn := congrArg Use.name he
  have hsc := congrArg Use.scope he
  simp only [name_eraseSlot, scope_eraseSlot] at hn hsc
  cases u₁
  cases u₂
  simp_all

theorem Symbol.eq_of_eraseSlot {s₁ s₂ : Symbol} (he : s₁.eraseSlot = s₂.eraseSlot)
    (hs : s₁.slot = s₂.slot) : s₁ = s₂ := by
  have hk := congrArg Symbol.kind he
  have hf := congrArg Symbol.firstUse he
  have hsc := congrArg Symbol.scope he
  have hw := congrArg Symbol.waitsOn he
  simp only [kind_eraseSlot, firstUse_eraseSlot, scope_eraseSlot, waitsOn_eraseSlot] at hk hf hsc hw
  cases s₁
  cases s₂
  simp_all

theorem Expr.eq_of_eraseSlot {e₁ e₂ : Expr} (he : e₁.eraseSlot = e₂.eraseSlot)
    (hs : ∀ u₁ u₂, e₁ = .var u₁ ∧ e₂ = .var u₂ ∨ e₁ = .array u₁ ∧ e₂ = .array u₂ →
      u₁.slot = u₂.slot) : e₁ = e₂ := by
  cases e₁
  case var u₁ =>
    cases e₂ <;> simp only [eraseSlot, reduceCtorEq, Expr.var.injEq] at he
    exact congrArg Expr.var (Use.eq_of_eraseSlot he (hs _ _ (.inl ⟨rfl, rfl⟩)))
  case array u₁ =>
    cases e₂ <;> simp only [eraseSlot, reduceCtorEq, Expr.array.injEq] at he
    exact congrArg Expr.array (Use.eq_of_eraseSlot he (hs _ _ (.inr ⟨rfl, rfl⟩)))
  all_goals cases e₂ <;> simp_all [eraseSlot]

theorem Program.eq_of_eraseSlots {p₁ p₂ : Program} (he : p₁.eraseSlots = p₂.eraseSlots)
    (hs : p₁.scalars = p₂.scalars) (ha : p₁.arrays = p₂.arrays) : p₁ = p₂ := by
  cases p₁
  cases p₂
  simp_all [eraseSlots]

theorem Resolver.eq_of_eraseSlots {r₁ r₂ : Resolver} (he : r₁.eraseSlots = r₂.eraseSlots)
    (hs : r₁.symbols = r₂.symbols) : r₁ = r₂ := by
  cases r₁
  cases r₂
  simp_all [eraseSlots]

theorem SymbolTable.eq_of_eraseSlots {t₁ t₂ : SymbolTable} (he : t₁.eraseSlots = t₂.eraseSlots)
    (hs : ∀ x s₁ s₂, t₁.get? none x = some s₁ → t₂.get? none x = some s₂ → s₁.slot = s₂.slot) :
    t₁ = t₂ := by
  have hg : t₁.globals = t₂.globals := NameMap.ext_get? fun x => by
    have hx := congrArg (fun t => t.get? none x) he
    simp only [get?_none_eraseSlots] at hx
    exact Option.eq_of_map_eq hx fun s₁ s₂ hs₁ hs₂ hes =>
      Symbol.eq_of_eraseSlot hes (hs x s₁ s₂ hs₁ hs₂)
  have hsc : t₁.scopes = t₂.scopes := by simpa using congrArg SymbolTable.scopes he
  cases t₁
  cases t₂
  simp_all

namespace Builder

/-- **A builder is determined by what it is up to global slots**, together with its slot tables
and the slots of its global symbols and of its uses, while every node has an id. -/
theorem eq_of_eraseSlots {c₁ c₂ : Builder} (he : c₁.eraseSlots = c₂.eraseSlots)
    (hsz : c₁.ast.size ≤ UInt32.size)
    (hsc : c₁.program.scalars = c₂.program.scalars) (har : c₁.program.arrays = c₂.program.arrays)
    (hsym : ∀ x s₁ s₂, c₁.resolver.symbols.get? none x = some s₁ →
      c₂.resolver.symbols.get? none x = some s₂ → s₁.slot = s₂.slot)
    (huse : ∀ i u₁ u₂, c₁.ast.get? i = some (.var u₁) ∧ c₂.ast.get? i = some (.var u₂) ∨
      c₁.ast.get? i = some (.array u₁) ∧ c₂.ast.get? i = some (.array u₂) → u₁.slot = u₂.slot) :
    c₁ = c₂ := by
  have hnone : ∀ (t : Ast), t.size ≤ UInt32.size → ∀ n, UInt32.size ≤ n → t.nodes[n]? = none :=
    fun t ht n hn => Array.getElem?_eq_none (Nat.le_trans ht hn)
  have hsz₂ : c₂.ast.size ≤ UInt32.size := size_of_eraseSlots he ▸ hsz
  have hast : c₁.ast = c₂.ast := by
    refine Ast.ext_get? (fun i => ?_) fun n hn => by rw [hnone _ hsz n hn, hnone _ hsz₂ n hn]
    have hx := congrArg (fun b => b.ast.get? i) he
    simp only [ast_eraseSlots, Ast.get?_eraseSlots] at hx
    refine Option.eq_of_map_eq hx fun e₁ e₂ hx₁ hx₂ hes => Expr.eq_of_eraseSlot hes ?_
    rintro u₁ u₂ (⟨rfl, rfl⟩ | ⟨rfl, rfl⟩)
    · exact huse i u₁ u₂ (.inl ⟨hx₁, hx₂⟩)
    · exact huse i u₁ u₂ (.inr ⟨hx₁, hx₂⟩)
  have hprog : c₁.program = c₂.program :=
    Program.eq_of_eraseSlots (congrArg Builder.program he) hsc har
  have hsym' : c₁.resolver.symbols = c₂.resolver.symbols :=
    SymbolTable.eq_of_eraseSlots (congrArg (fun b => b.resolver.symbols) he) hsym
  have hres : c₁.resolver = c₂.resolver :=
    Resolver.eq_of_eraseSlots (congrArg Builder.resolver he) hsym'
  cases c₁
  cases c₂
  simp_all

theorem Expr.renameSlot_eq_var {σ τ : Nat → Nat} {t : SymbolTable} {e : Expr} {u' : Use}
    (h : e.renameSlot σ τ t = .var u') :
    ∃ u, e = .var u ∧ u' = u.renameSlot σ τ (t.kind none u.name) := by
  cases e <;> simp_all [Expr.renameSlot]

theorem Expr.renameSlot_eq_array {σ τ : Nat → Nat} {t : SymbolTable} {e : Expr} {u' : Use}
    (h : e.renameSlot σ τ t = .array u') :
    ∃ u, e = .array u ∧ u' = u.renameSlot σ τ (t.kind none u.name) := by
  cases e <;> simp_all [Expr.renameSlot]

/-! ### Resolved builders -/

/-- What a resolved builder says about its global slots: both slot tables are dense, every
global symbol holds its value in the table of its kind, and every global use holds the slot of
its name's symbol. -/
structure GlobalsNumbered (b : Builder) : Prop where
  /-- The two slot tables are dense. -/
  dense : b.program.scalars.Dense ∧ b.program.arrays.Dense
  /-- A global symbol holds its value in the array table if it is an array, in the scalar
  table otherwise. -/
  symbol : ∀ x s, b.resolver.symbols.get? none x = some s → s.scope = .global →
    (if s.kind = .array then b.program.arrays else b.program.scalars).get? x = some s.slot
  /-- A global use holds the slot of its name's symbol, a global too. -/
  use : ∀ i u, b.ast.IsUse i u → u.scope = .global →
    ∃ s, b.resolver.symbols.get? none u.name = some s ∧ s.scope = .global ∧ u.slot = s.slot

/-- A successful resolution of a builder that satisfies the invariant and holds at most
`2 ^ 32` nodes numbers its globals. -/
theorem Wf.resolveIn_globalsNumbered {b : Builder} (hb : b.Wf) {v : VisitOrder} (hv : v.Lawful)
    {b' : Builder} (h : b.resolveIn v = (.ok (), b')) (hsz : b'.ast.size ≤ UInt32.size) :
    b'.GlobalsNumbered := by
  have hb' : b'.Wf := by
    have := hb.resolveIn hv
    rwa [h] at this
  refine ⟨?dense, ?symbol, ?use⟩
  case dense =>
    obtain ⟨b₃, h₃, rfl⟩ := hb.resolveIn_eq_ok hv h
    rw [patch_program, assignLocalSlots_scalars, assignLocalSlots_arrays]
    exact assignGlobalSlotsIn_dense ((hv _).2.nodup_iff.2 (NameMap.nodup_keys _))
  case symbol =>
    intro x s hs hg
    rcases hb.resolveIn_global hv h hs (by simp [hg]) with
      ⟨hk, ha, -⟩ | ⟨hk, hsc, -⟩
    · rwa [if_pos hk]
    · rwa [if_neg (by simp [hk])]
  case use =>
    intro i u hu hg
    have hown : u.scope.owner = none := by rw [hg]; rfl
    obtain ⟨hscope, hsome⟩ := hb'.outer_use i u hu hown
    obtain ⟨s, hs⟩ := Option.isSome_iff_exists.1 hsome
    have hslot := hb.resolveIn_use hv h hsz hu
    rw [hown, hs] at hslot
    exact ⟨s, hs, by rw [hb'.global_scope _ _ hs, ← hscope, hg], hslot⟩

section Renaming

variable {b₁ b₂ : Builder} {σ τ : Nat → Nat}

/-- A global symbol of the second builder is that of the first renamed, once the slot tables
are. -/
theorem GlobalsNumbered.symbol_renameSlot (h₁ : b₁.GlobalsNumbered) (h₂ : b₂.GlobalsNumbered)
    (he : b₁.eraseSlots = b₂.eraseSlots)
    (hσ : b₂.program.scalars = b₁.program.scalars.mapValues fun _ i => σ i)
    (hτ : b₂.program.arrays = b₁.program.arrays.mapValues fun _ i => τ i)
    {x : String} {s₁ s₂ : Symbol} (hs₁ : b₁.resolver.symbols.get? none x = some s₁)
    (hs₂ : b₂.resolver.symbols.get? none x = some s₂) : s₂ = s₁.renameSlot σ τ := by
  have hes : s₁.eraseSlot = s₂.eraseSlot := by
    have hx := congrArg (fun b => b.resolver.symbols.get? none x) he
    simp only [resolver_eraseSlots, Resolver.symbols_eraseSlots, SymbolTable.get?_none_eraseSlots,
      hs₁, hs₂, Option.map_some, Option.some.injEq] at hx
    exact hx
  have hscope : s₂.scope = s₁.scope := by
    simpa using (congrArg Symbol.scope hes).symm
  have hkind : s₂.kind = s₁.kind := by
    simpa using (congrArg Symbol.kind hes).symm
  by_cases hg : s₁.scope = .global
  · have ht₁ := h₁.symbol x s₁ hs₁ hg
    have ht₂ := h₂.symbol x s₂ hs₂ (hscope ▸ hg)
    have hslot : s₂.slot = s₁.kind.renameSlot σ τ s₁.slot := by
      by_cases ha : s₁.kind = .array
      · rw [if_pos ha] at ht₁
        rw [hkind, if_pos ha, hτ, NameMap.get?_mapValues, ht₁] at ht₂
        simpa [Kind.renameSlot, ha] using ht₂.symm
      · rw [if_neg ha] at ht₁
        rw [hkind, if_neg ha, hσ, NameMap.get?_mapValues, ht₁] at ht₂
        simpa [Kind.renameSlot, ha] using ht₂.symm
    refine Symbol.eq_of_eraseSlot (by rw [Symbol.eraseSlot_renameSlot, hes]) ?_
    simp [Symbol.renameSlot, hg, hslot]
  · have hs : s₂ = s₁ := by
      have e₁ : s₁.eraseSlot = s₁ := by simp [Symbol.eraseSlot, hg]
      have e₂ : s₂.eraseSlot = s₂ := by simp [Symbol.eraseSlot, hscope, hg]
      rw [← e₂, ← hes, e₁]
    simp [Symbol.renameSlot, hg, hs]

/-- A global use of the second builder holds the slot of the first renamed. -/
theorem GlobalsNumbered.use_renameSlot (h₁ : b₁.GlobalsNumbered) (h₂ : b₂.GlobalsNumbered)
    (he : b₁.eraseSlots = b₂.eraseSlots)
    (hσ : b₂.program.scalars = b₁.program.scalars.mapValues fun _ i => σ i)
    (hτ : b₂.program.arrays = b₁.program.arrays.mapValues fun _ i => τ i)
    {i : NodeId} {u₁ u₂ : Use} (hu₁ : b₁.ast.IsUse i u₁) (hu₂ : b₂.ast.IsUse i u₂)
    (hes : u₁.eraseSlot = u₂.eraseSlot) :
    u₂.slot = (u₁.renameSlot σ τ (b₁.resolver.symbols.kind none u₁.name)).slot := by
  have hscope : u₂.scope = u₁.scope := by simpa using (congrArg Use.scope hes).symm
  have hname : u₂.name = u₁.name := by simpa using (congrArg Use.name hes).symm
  by_cases hg : u₁.scope = .global
  · obtain ⟨s₁, hs₁, hg₁, hslot₁⟩ := h₁.use i u₁ hu₁ hg
    obtain ⟨s₂, hs₂, -, hslot₂⟩ := h₂.use i u₂ hu₂ (hscope ▸ hg)
    rw [hname] at hs₂
    have hren := h₁.symbol_renameSlot h₂ he hσ hτ hs₁ hs₂
    rw [hslot₂, hren, SymbolTable.kind_of_get? hs₁]
    simp [Symbol.renameSlot, Use.renameSlot, hg, hg₁, hslot₁]
  · have e₁ : u₁.eraseSlot = u₁ := Use.eraseSlot_of_ne hg
    have e₂ : u₂.eraseSlot = u₂ := Use.eraseSlot_of_ne (hscope ▸ hg)
    rw [← e₂, ← hes, e₁]
    simp [Use.renameSlot, hg]

/-- **Two resolved builders equal up to global slots are one renaming apart**, once their
slot tables are. -/
theorem GlobalsNumbered.eq_renameSlots (h₁ : b₁.GlobalsNumbered) (h₂ : b₂.GlobalsNumbered)
    (he : b₁.eraseSlots = b₂.eraseSlots) (hsz : b₂.ast.size ≤ UInt32.size)
    (hσ : b₂.program.scalars = b₁.program.scalars.mapValues fun _ i => σ i)
    (hτ : b₂.program.arrays = b₁.program.arrays.mapValues fun _ i => τ i) :
    b₂ = b₁.renameSlots σ τ := by
  refine eq_of_eraseSlots (by rw [eraseSlots_renameSlots, he]) hsz hσ hτ
    (fun x s₂ s' hs₂ hs' => ?_) (fun i u₂ u' h => ?_)
  · rw [globals_get?_renameSlots, Option.map_eq_some_iff] at hs'
    obtain ⟨s₁, hs₁, rfl⟩ := hs'
    rw [h₁.symbol_renameSlot h₂ he hσ hτ hs₁ hs₂]
  · have hnode := congrArg (fun b => b.ast.get? i) he
    simp only [ast_eraseSlots, Ast.get?_eraseSlots] at hnode
    rcases h with ⟨hx₂, hx'⟩ | ⟨hx₂, hx'⟩
    · rw [get?_renameSlots, Option.map_eq_some_iff] at hx'
      obtain ⟨e₁, hx₁, hren⟩ := hx'
      obtain ⟨u₁, rfl, rfl⟩ := Expr.renameSlot_eq_var hren
      rw [hx₁, hx₂] at hnode
      simp only [Option.map_some, Option.some.injEq, Expr.eraseSlot, Expr.var.injEq] at hnode
      exact h₁.use_renameSlot h₂ he hσ hτ (.inl hx₁) (.inl hx₂) hnode
    · rw [get?_renameSlots, Option.map_eq_some_iff] at hx'
      obtain ⟨e₁, hx₁, hren⟩ := hx'
      obtain ⟨u₁, rfl, rfl⟩ := Expr.renameSlot_eq_array hren
      rw [hx₁, hx₂] at hnode
      simp only [Option.map_some, Option.some.injEq, Expr.eraseSlot, Expr.array.injEq] at hnode
      exact h₁.use_renameSlot h₂ he hσ hτ (.inr hx₁) (.inr hx₂) hnode

end Renaming

/-- Erasing slots keeps which names a slot table holds. -/
theorem isSome_of_mapValues_eq {m₁ m₂ : NameMap Nat}
    (h : m₁.mapValues (fun _ _ => 0) = m₂.mapValues (fun _ _ => 0)) (x : String) :
    (m₁.get? x).isSome ↔ (m₂.get? x).isSome := by
  have hx := congrArg (fun m => (m.get? x).isSome) h
  simpa using hx

/-- Two resolved builders equal up to global slots differ by one permutation of the scalar
slots and one of the array slots. -/
theorem GlobalsNumbered.exists_renameSlots {b₁ b₂ : Builder} (h₁ : b₁.GlobalsNumbered)
    (h₂ : b₂.GlobalsNumbered) (he : b₁.eraseSlots = b₂.eraseSlots) (hsz : b₂.ast.size ≤ UInt32.size) :
    ∃ σ τ : Equiv.Perm Nat, b₂ = b₁.renameSlots σ τ := by
  have hp := congrArg Builder.program he
  obtain ⟨σ, hσ⟩ := NameMap.exists_perm_mapValues h₁.dense.1 h₂.dense.1
    (isSome_of_mapValues_eq (congrArg Program.scalars hp))
  obtain ⟨τ, hτ⟩ := NameMap.exists_perm_mapValues h₁.dense.2 h₂.dense.2
    (isSome_of_mapValues_eq (congrArg Program.arrays hp))
  exact ⟨σ, τ, h₁.eq_renameSlots h₂ he hsz hσ hτ⟩

end Builder

/-! ### Runs in two orders -/

/-- Table order backwards: a pass visits the pending names from last to first, and the globals
get their slots from the last name to the first. -/
def VisitOrder.reversed : VisitOrder := ⟨fun t => t.pending.reverse, fun t => t.globals.keys.reverse⟩

theorem VisitOrder.reversed_lawful : VisitOrder.reversed.Lawful := fun _ =>
  ⟨List.reverse_perm _, List.reverse_perm _⟩

namespace Builder

/-- **The visiting order changes nothing but the global slots.** Two runs of the same steps from
a new builder, resolving in any two lawful orders, give the same answers as long as no
resolution stops at its pass limit and the runs make at most `2 ^ 32` nodes. When the last step
resolves successfully, the second run
ends with the builder of the first, its global scalar slots renamed by one permutation and its
global array slots by another: kinds, call ordinals, special and parameter slots and the
functions' array flags are the same. -/
theorem stepsIn_resolve_orderIndependent (config : Config) {v w : VisitOrder} (hv : v.Lawful)
    (hw : w.Lawful) (ops : List Step)
    (nd₁ : ((Builder.new config).stepsIn v (ops ++ [.resolve])).1.all (fun a => !a.diverged) = true)
    (nd₂ : ((Builder.new config).stepsIn w (ops ++ [.resolve])).1.all (fun a => !a.diverged) = true)
    (hsz : ((Builder.new config).stepsIn v (ops ++ [.resolve])).2.ast.size ≤ UInt32.size) :
    ((Builder.new config).stepsIn v (ops ++ [.resolve])).1 =
        ((Builder.new config).stepsIn w (ops ++ [.resolve])).1 ∧
      (((Builder.new config).stepsIn v (ops ++ [.resolve])).1.getLast? = some (.resolved (.ok ())) →
        ∃ σ τ : Equiv.Perm Nat, ((Builder.new config).stepsIn w (ops ++ [.resolve])).2 =
          ((Builder.new config).stepsIn v (ops ++ [.resolve])).2.renameSlots σ τ) := by
  have hall : ∀ l : List Answer, l.all (fun a => !a.diverged) = true → ∀ a ∈ l, a.diverged = false :=
    fun l h a ha => by simpa using List.all_eq_true.1 h a ha
  obtain ⟨hans, hend⟩ := Wf.stepsIn_eraseSlots hv hw (ops ++ [.resolve]) (wf_new config)
    (wf_new config) rfl hsz (hall _ nd₁) (hall _ nd₂)
  have hsz₂ := size_of_eraseSlots hend ▸ hsz
  refine ⟨hans, fun hok => ?_⟩
  have hok₂ : ((Builder.new config).stepsIn w (ops ++ [.resolve])).1.getLast? =
      some (.resolved (.ok ())) := by
    rw [← hans]
    exact hok
  have g₁ := ((wf_new config).stepsIn hv ops).resolveIn_globalsNumbered hv
    (stepsIn_resolve_eq_ok v _ ops hok) hsz
  have g₂ := ((wf_new config).stepsIn hw ops).resolveIn_globalsNumbered hw
    (stepsIn_resolve_eq_ok w _ ops hok₂) hsz₂
  exact g₁.exists_renameSlots g₂ hend hsz₂

/-- A global passed down a chain of three functions, the last of which indexes its parameter,
settles in three passes in table order and in one backwards; the arrays `ARGV` and `y` swap
slots. -/
theorem stepsIn_resolve_orderIndependent_chain :
    VisitOrder.sorted.Lawful ∧ VisitOrder.reversed.Lawful ∧
      ((Builder.new {}).stepsIn .sorted
        ([Step.declare "a" ["p"] .null [.expr (.call "b" [.var "p"] .null)],
          .declare "b" ["p"] .null [.expr (.call "c" [.var "p"] .null)],
          .declare "c" ["p"] .null [.expr (.subscript "p" [.num ⟨1⟩])],
          .begin [.expr (.assign (.var "x") (.num ⟨1⟩)), .expr (.call "a" [.var "y"] .null)]] ++
          [.resolve])).1.all (fun a => !a.diverged) = true ∧
      ((Builder.new {}).stepsIn .reversed
        ([Step.declare "a" ["p"] .null [.expr (.call "b" [.var "p"] .null)],
          .declare "b" ["p"] .null [.expr (.call "c" [.var "p"] .null)],
          .declare "c" ["p"] .null [.expr (.subscript "p" [.num ⟨1⟩])],
          .begin [.expr (.assign (.var "x") (.num ⟨1⟩)), .expr (.call "a" [.var "y"] .null)]] ++
          [.resolve])).1.all (fun a => !a.diverged) = true ∧
      ((Builder.new {}).stepsIn .sorted
        ([Step.declare "a" ["p"] .null [.expr (.call "b" [.var "p"] .null)],
          .declare "b" ["p"] .null [.expr (.call "c" [.var "p"] .null)],
          .declare "c" ["p"] .null [.expr (.subscript "p" [.num ⟨1⟩])],
          .begin [.expr (.assign (.var "x") (.num ⟨1⟩)), .expr (.call "a" [.var "y"] .null)]] ++
          [.resolve])).2.ast.size ≤ UInt32.size ∧
      (((Builder.new {}).stepsIn .sorted
        ([Step.declare "a" ["p"] .null [.expr (.call "b" [.var "p"] .null)],
          .declare "b" ["p"] .null [.expr (.call "c" [.var "p"] .null)],
          .declare "c" ["p"] .null [.expr (.subscript "p" [.num ⟨1⟩])],
          .begin [.expr (.assign (.var "x") (.num ⟨1⟩)), .expr (.call "a" [.var "y"] .null)]] ++
          [.resolve])).1 =
        ((Builder.new {}).stepsIn .reversed
          ([Step.declare "a" ["p"] .null [.expr (.call "b" [.var "p"] .null)],
            .declare "b" ["p"] .null [.expr (.call "c" [.var "p"] .null)],
            .declare "c" ["p"] .null [.expr (.subscript "p" [.num ⟨1⟩])],
            .begin [.expr (.assign (.var "x") (.num ⟨1⟩)), .expr (.call "a" [.var "y"] .null)]] ++
            [.resolve])).1 ∧
      (((Builder.new {}).stepsIn .sorted
        ([Step.declare "a" ["p"] .null [.expr (.call "b" [.var "p"] .null)],
          .declare "b" ["p"] .null [.expr (.call "c" [.var "p"] .null)],
          .declare "c" ["p"] .null [.expr (.subscript "p" [.num ⟨1⟩])],
          .begin [.expr (.assign (.var "x") (.num ⟨1⟩)), .expr (.call "a" [.var "y"] .null)]] ++
          [.resolve])).1.getLast? = some (.resolved (.ok ())) →
        ∃ σ τ : Equiv.Perm Nat, ((Builder.new {}).stepsIn .reversed
          ([Step.declare "a" ["p"] .null [.expr (.call "b" [.var "p"] .null)],
            .declare "b" ["p"] .null [.expr (.call "c" [.var "p"] .null)],
            .declare "c" ["p"] .null [.expr (.subscript "p" [.num ⟨1⟩])],
            .begin [.expr (.assign (.var "x") (.num ⟨1⟩)), .expr (.call "a" [.var "y"] .null)]] ++
            [.resolve])).2 =
          ((Builder.new {}).stepsIn .sorted
            ([Step.declare "a" ["p"] .null [.expr (.call "b" [.var "p"] .null)],
              .declare "b" ["p"] .null [.expr (.call "c" [.var "p"] .null)],
              .declare "c" ["p"] .null [.expr (.subscript "p" [.num ⟨1⟩])],
              .begin [.expr (.assign (.var "x") (.num ⟨1⟩)),
                .expr (.call "a" [.var "y"] .null)]] ++
              [.resolve])).2.renameSlots σ τ)) := by
  refine ⟨VisitOrder.sorted_lawful, VisitOrder.reversed_lawful, ?nd₁, ?nd₂, ?size,
    stepsIn_resolve_orderIndependent {} VisitOrder.sorted_lawful VisitOrder.reversed_lawful _
      ?nd₁ ?nd₂ ?size⟩
  all_goals cbv

example :
    ((Builder.new {}).stepsIn .sorted
      [Step.begin [.expr (.assign (.var "x") (.num ⟨1⟩)), .expr (.assign (.var "y") (.num ⟨1⟩))],
        .resolve]).2.program.scalars.get? "x" = some 0 ∧
    ((Builder.new {}).stepsIn .reversed
      [Step.begin [.expr (.assign (.var "x") (.num ⟨1⟩)), .expr (.assign (.var "y") (.num ⟨1⟩))],
        .resolve]).2.program.scalars.get? "x" = some 1 := by
  cbv

/-- **The pass limit depends on the order.** With a limit of one pass, a chain of three
functions, each passing its parameter to the next and the last indexing it, stops at the limit
in table order, which settles one link of the chain per pass, and resolves when the pending
names are visited from last to first. -/
theorem stepsIn_resolve_passLimit_orderDependent :
    ((Builder.new { maxPasses := 1 }).stepsIn .sorted
      [Step.declare "a" ["p"] .null [.expr (.call "b" [.var "p"] .null)],
        .declare "b" ["p"] .null [.expr (.call "c" [.var "p"] .null)],
        .declare "c" ["p"] .null [.expr (.subscript "p" [.num ⟨1⟩])],
        .resolve]).1.getLast? = some (.resolved (.error ⟨.divergence 1, .null⟩)) ∧
    ((Builder.new { maxPasses := 1 }).stepsIn .reversed
      [Step.declare "a" ["p"] .null [.expr (.call "b" [.var "p"] .null)],
        .declare "b" ["p"] .null [.expr (.call "c" [.var "p"] .null)],
        .declare "c" ["p"] .null [.expr (.subscript "p" [.num ⟨1⟩])],
        .resolve]).1.getLast? = some (.resolved (.ok ())) :=
  ⟨by cbv, by cbv⟩

end Builder

end AwkNames
