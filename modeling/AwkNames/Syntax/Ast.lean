import AwkNames.Syntax.Node

/-!
# The node arena

`Ast` holds every expression node of a program in the order they were made. A new node gets
the number of nodes made before it as its id, cut to 32 bits: while the arena holds at most
`2 ^ 32` nodes every node has its position as its own id, and from then on a new node gets the
id of a node made earlier (`Ast.get?_push_nextId_of_le`), though ids are meant to name one
node for the arena's whole life. Nodes are only ever appended, or rewritten in place when
resolution writes slots and call ordinals into them.
-/

namespace AwkNames

/-- The arena of expression nodes. -/
structure Ast where
  /-- The nodes, in the order they were made. -/
  nodes : Array Expr := #[]
deriving Repr, Inhabited

namespace Ast

/-- The number of nodes. -/
def size (t : Ast) : Nat := t.nodes.size

/-- The id the next node will get: the number of nodes, cut to 32 bits. -/
def nextId (t : Ast) : NodeId := .ofNat t.nodes.size

/-- The node with an id, if there is one. -/
def get? (t : Ast) (id : NodeId) : Option Expr := t.nodes[id.val]?

/-- Appends a node; it gets the id `t.nextId`. -/
def push (t : Ast) (e : Expr) : Ast := ⟨t.nodes.push e⟩

/-- Replaces the node with an id; an id past the end changes nothing. -/
def set (t : Ast) (id : NodeId) (e : Expr) : Ast := ⟨t.nodes.setIfInBounds id.val e⟩

@[simp]
theorem size_push (t : Ast) (e : Expr) : (t.push e).size = t.size + 1 := by
  simp [size, push]

theorem val_nextId (t : Ast) : t.nextId.val = t.size % UInt32.size := by
  simp [nextId, size]

/-- Below `2 ^ 32` nodes the next id is the next position. -/
theorem val_nextId_of_lt {t : Ast} (h : t.size < UInt32.size) : t.nextId.val = t.size :=
  NodeId.val_ofNat_of_lt h

/-- The id of the node at position `t.size`, when one names it, is the next id. -/
theorem nextId_eq_of_val {t : Ast} {i : NodeId} (h : i.val = t.size) : t.nextId = i :=
  NodeId.val_inj.1 (by rw [val_nextId_of_lt (h ▸ i.val_lt), h])

theorem size_lt_of_push {t : Ast} {e : Expr} (h : (t.push e).size ≤ UInt32.size) : t.size < UInt32.size := by
  rw [size_push] at h
  exact Nat.lt_of_succ_le h

theorem lt_size_of_get? {t : Ast} {i : NodeId} {e : Expr} (h : t.get? i = some e) :
    i.val < t.size := by
  simp only [get?, size] at *
  rw [Array.getElem?_eq_some_iff] at h
  exact h.1

/-- Appending a node adds the node at position `t.size`; every other id names what it did. -/
theorem get?_push (t : Ast) (e : Expr) (i : NodeId) :
    (t.push e).get? i = if i.val = t.size then some e else t.get? i := by
  unfold get? push size
  by_cases h : i.val = t.nodes.size <;> simp [Array.getElem?_push, h]

theorem get?_push_of_get? {t : Ast} {i : NodeId} {e e' : Expr} (h : t.get? i = some e) :
    (t.push e').get? i = some e := by
  rw [get?_push, if_neg (Nat.ne_of_lt (lt_size_of_get? h)), h]

@[simp]
theorem get?_push_nextId {t : Ast} (h : t.size < UInt32.size) (e : Expr) :
    (t.push e).get? t.nextId = some e := by
  rw [get?_push, if_pos (val_nextId_of_lt h)]

/-- **Ids run out at `2 ^ 32` nodes.** From then on the id a new node gets names a node made
earlier, and reading it gives back that earlier node. -/
theorem get?_push_nextId_of_le {t : Ast} (h : UInt32.size ≤ t.size) (e : Expr) :
    (t.push e).get? t.nextId = t.get? t.nextId ∧ (t.get? t.nextId).isSome := by
  have hlt : t.nextId.val < t.size := Nat.lt_of_lt_of_le t.nextId.val_lt h
  refine ⟨by rw [get?_push, if_neg (Nat.ne_of_lt hlt)], ?_⟩
  simp only [get?, size] at hlt ⊢
  simp [hlt]

theorem get?_set (t : Ast) (id : NodeId) (e : Expr) (j : NodeId) :
    (t.set id e).get? j = if id = j ∧ id.val < t.size then some e else t.get? j := by
  simp only [get?, set, size, Array.getElem?_setIfInBounds, ← NodeId.val_inj]
  split <;> simp_all

@[simp]
theorem size_set (t : Ast) (id : NodeId) (e : Expr) : (t.set id e).size = t.size := by
  simp [size, set]

/-- Writing through an id leaves alone every position past the ids. -/
theorem nodes_set_of_le (t : Ast) (id : NodeId) (e : Expr) {n : Nat} (h : UInt32.size ≤ n) :
    (t.set id e).nodes[n]? = t.nodes[n]? := by
  have hne : id.val ≠ n := by
    have := id.val_lt
    omega
  simp [set, hne]

/-- Two arenas are equal when every id reads the same node in both, and so does every
position past the ids. -/
theorem ext_get? {t t' : Ast} (h : ∀ i, t.get? i = t'.get? i)
    (hhigh : ∀ n, UInt32.size ≤ n → t.nodes[n]? = t'.nodes[n]?) : t = t' := by
  obtain ⟨a⟩ := t
  obtain ⟨a'⟩ := t'
  congr 1
  refine Array.ext_getElem? fun n => ?_
  by_cases hn : n < UInt32.size
  · simpa [get?, NodeId.val_ofNat_of_lt hn] using h (.ofNat n)
  · exact hhigh n (Nat.le_of_not_lt hn)

end Ast

end AwkNames
