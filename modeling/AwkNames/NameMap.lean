/-!
# Tables keyed by names

A `NameMap α` is an association list from names to values whose names ascend strictly, so each
name occurs at most once; the table carries the proof of that order. Iterating over it
therefore visits names in sorted order, which is the order in which every pass over a table of
symbols runs.

* `NameMap.insert` places a new name at its sorted position and replaces the value of a name
  already present (`sorted_insertEntry` says the order survives);
* `NameMap.get?` finds a name's value; `get?_insert` says how the two meet.
-/

namespace AwkNames

/-- A table from names to values, in ascending name order. -/
structure NameMap (α : Type) where
  /-- The entries, in ascending name order. -/
  entries : List (String × α)
  /-- The names ascend strictly. -/
  sorted : entries.Pairwise fun a b => a.1 < b.1
deriving DecidableEq, Repr

namespace NameMap

variable {α : Type}

/-- The empty table. -/
def empty : NameMap α := ⟨[], .nil⟩

instance : EmptyCollection (NameMap α) := ⟨empty⟩

instance : Inhabited (NameMap α) := ⟨empty⟩

/-- The value of the first entry named `k`. -/
def find? (k : String) : List (String × α) → Option α
  | [] => none
  | (k', v) :: rest => if k' = k then some v else find? k rest

/-- Puts `(k, v)` at its sorted place, replacing the value of an entry named `k`. -/
def insertEntry (k : String) (v : α) : List (String × α) → List (String × α)
  | [] => [(k, v)]
  | (k', v') :: rest =>
    if k = k' then (k, v) :: rest
    else if k < k' then (k, v) :: (k', v') :: rest
    else (k', v') :: insertEntry k v rest

/-- The value of a name. -/
def get? (m : NameMap α) (k : String) : Option α := find? k m.entries

/-- The value of a name, or `d` when it is absent. -/
def getD (m : NameMap α) (k : String) (d : α) : α := (m.get? k).getD d

/-- Whether a name is present. -/
def contains (m : NameMap α) (k : String) : Bool := (m.get? k).isSome

/-- The names, in table order. -/
def keys (m : NameMap α) : List String := m.entries.map (·.1)

/-- The number of entries. -/
def size (m : NameMap α) : Nat := m.entries.length

/-- Changes the entries' values and keeps their names. -/
def mapValues {β : Type} (f : String → α → β) (m : NameMap α) : NameMap β :=
  ⟨m.entries.map fun e => (e.1, f e.1 e.2), List.pairwise_map.2 m.sorted⟩

theorem mem_insertEntry {l : List (String × α)} {k : String} {v : α} {e : String × α} :
    e ∈ insertEntry k v l → e = (k, v) ∨ e ∈ l := by
  induction l with
  | nil => simp [insertEntry]
  | cons e' rest ih =>
    obtain ⟨k', v'⟩ := e'
    simp only [insertEntry]
    split
    · intro he
      rcases List.mem_cons.1 he with he | he
      · exact .inl he
      · exact .inr (List.mem_cons_of_mem _ he)
    · split
      · intro he
        rcases List.mem_cons.1 he with he | he
        · exact .inl he
        · exact .inr he
      · intro he
        rcases List.mem_cons.1 he with he | he
        · exact .inr (he ▸ List.mem_cons_self)
        · rcases ih he with h | h
          · exact .inl h
          · exact .inr (List.mem_cons_of_mem _ h)

theorem sorted_insertEntry {l : List (String × α)} (hl : l.Pairwise fun a b => a.1 < b.1)
    (k : String) (v : α) : (insertEntry k v l).Pairwise fun a b => a.1 < b.1 := by
  induction l with
  | nil => simp [insertEntry]
  | cons e rest ih =>
    obtain ⟨k', v'⟩ := e
    rw [List.pairwise_cons] at hl
    simp only [insertEntry]
    split
    · rename_i h₁
      subst h₁
      exact List.pairwise_cons.2 ⟨hl.1, hl.2⟩
    · rename_i h₁
      split
      · rename_i h₂
        refine List.pairwise_cons.2 ⟨?_, List.pairwise_cons.2 hl⟩
        intro b hb
        rcases List.mem_cons.1 hb with rfl | hb
        · exact h₂
        · exact String.lt_trans h₂ (hl.1 b hb)
      · rename_i h₂
        -- `k` is neither `k'` nor below it, so it is above it
        have hk' : k' < k := Decidable.byContradiction fun h =>
          h₁ (String.le_antisymm (String.not_lt.1 h) (String.not_lt.1 h₂))
        refine List.pairwise_cons.2 ⟨?_, ih hl.2⟩
        intro b hb
        rcases mem_insertEntry hb with rfl | hb
        · exact hk'
        · exact hl.1 b hb

/-- Sets the value of a name. -/
def insert (m : NameMap α) (k : String) (v : α) : NameMap α :=
  ⟨insertEntry k v m.entries, sorted_insertEntry m.sorted k v⟩

theorem find?_insertEntry (k j : String) (v : α) (l : List (String × α)) :
    find? j (insertEntry k v l) = if k = j then some v else find? j l := by
  induction l with
  | nil => simp [insertEntry, find?]
  | cons e rest ih =>
    obtain ⟨k', v'⟩ := e
    by_cases hk : k = k'
    · subst hk
      by_cases hj : k = j <;> simp [insertEntry, find?, hj]
    · by_cases hlt : k < k'
      · simp [insertEntry, find?, hk, hlt]
      · simp only [insertEntry, hk, hlt, if_false, find?, ih]
        by_cases hj : k' = j
        · subst hj
          simp [hk]
        · simp [hj]

@[simp]
theorem get?_insert (m : NameMap α) (k j : String) (v : α) :
    (m.insert k v).get? j = if k = j then some v else m.get? j :=
  find?_insertEntry k j v m.entries

@[simp]
theorem get?_empty (k : String) : (∅ : NameMap α).get? k = none := rfl

end NameMap

end AwkNames
