import AwkNames.NameMap
import Mathlib.Data.String.Basic

/-!
# Sorted tables

A `NameMap` keeps its entries in strictly ascending name order, so a table is determined by
its lookups (`NameMap.ext_get?`): two tables that give every name the same value are the same
list, whatever order their names were inserted in. This is what lets two runs that fill a table
in different orders end with equal tables.

* `NameMap.mem_iff_get?` : an entry is exactly a lookup;
* `NameMap.ext_get?` : tables with the same lookups are equal;
* `NameMap.size_insert` : inserting a new name adds one entry, an old one none;
* `NameMap.insert_eq_mapValues` : inserting a present name updates it in place.
-/

namespace AwkNames

namespace NameMap

variable {α β : Type}

/-! ### Entries and lookups -/

theorem find?_eq_some_of_mem {l : List (String × α)} (hl : l.Pairwise fun a b => a.1 < b.1)
    {k : String} {v : α} (h : (k, v) ∈ l) : find? k l = some v := by
  induction l with
  | nil => simp at h
  | cons e rest ih =>
    obtain ⟨k', v'⟩ := e
    rw [List.pairwise_cons] at hl
    rcases List.mem_cons.1 h with h | h
    · cases h
      simp [find?]
    · -- the head's name is smaller than every later name, so it is not `k`
      have hlt : k' < k := hl.1 (k, v) h
      simp [find?, ne_of_lt hlt, ih hl.2 h]

theorem mem_of_find?_eq_some {l : List (String × α)} {k : String} {v : α}
    (h : find? k l = some v) : (k, v) ∈ l := by
  induction l with
  | nil => simp [find?] at h
  | cons e rest ih =>
    obtain ⟨k', v'⟩ := e
    simp only [find?] at h
    split at h
    · rename_i hk
      cases h
      subst hk
      exact List.mem_cons_self
    · exact List.mem_cons_of_mem _ (ih h)

theorem mem_iff_get? (m : NameMap α) {k : String} {v : α} :
    (k, v) ∈ m.entries ↔ m.get? k = some v :=
  ⟨find?_eq_some_of_mem m.sorted, mem_of_find?_eq_some⟩

theorem find?_isSome_of_mem {l : List (String × α)} {k : String} {v : α} (h : (k, v) ∈ l) :
    (find? k l).isSome := by
  induction l with
  | nil => simp at h
  | cons e rest ih =>
    obtain ⟨k', v'⟩ := e
    simp only [find?]
    split
    · rfl
    · rename_i hk
      rcases List.mem_cons.1 h with h | h
      · cases h; exact absurd rfl hk
      · exact ih h

theorem mem_keys {m : NameMap α} {k : String} : k ∈ m.keys ↔ (m.get? k).isSome := by
  simp only [keys, List.mem_map]
  constructor
  · rintro ⟨⟨k', v⟩, hmem, rfl⟩
    exact find?_isSome_of_mem hmem
  · intro h
    obtain ⟨v, hv⟩ := Option.isSome_iff_exists.1 h
    exact ⟨(k, v), mem_of_find?_eq_some hv, rfl⟩

theorem keys_pairwise (m : NameMap α) : m.keys.Pairwise (· < ·) :=
  List.pairwise_map.2 m.sorted

theorem nodup_keys (m : NameMap α) : m.keys.Nodup :=
  m.keys_pairwise.imp ne_of_lt

/-! ### Insertion -/

theorem find?_eq_none_of_lt {l : List (String × α)} {k : String} (h : ∀ e ∈ l, k < e.1) :
    find? k l = none := by
  induction l with
  | nil => rfl
  | cons e rest ih =>
    have hne : e.1 ≠ k := ne_of_gt (h e List.mem_cons_self)
    simp only [find?, hne, if_false]
    exact ih fun e' he' => h e' (List.mem_cons_of_mem _ he')

theorem length_insertEntry {l : List (String × α)} (hl : l.Pairwise fun a b => a.1 < b.1)
    (k : String) (v : α) :
    (insertEntry k v l).length = if (find? k l).isSome then l.length else l.length + 1 := by
  induction l with
  | nil => simp [insertEntry, find?]
  | cons e rest ih =>
    obtain ⟨k', v'⟩ := e
    rw [List.pairwise_cons] at hl
    simp only [insertEntry, find?]
    by_cases h₁ : k = k'
    · subst h₁; simp
    · have h₁' : k' ≠ k := Ne.symm h₁
      by_cases h₂ : k < k'
      · -- a name below the head is below every later name, so it is new
        have hnone : find? k rest = none :=
          find?_eq_none_of_lt fun e he => lt_trans h₂ (hl.1 e he)
        simp [h₁, h₂, h₁', hnone]
      · simp only [h₁, h₂, if_false, h₁', List.length_cons, ih hl.2]
        split <;> rfl

theorem size_insert (m : NameMap α) (k : String) (v : α) :
    (m.insert k v).size = if (m.get? k).isSome then m.size else m.size + 1 :=
  length_insertEntry m.sorted k v

/-! ### Tables equal by their lookups -/

theorem nodup_entries (m : NameMap α) : m.entries.Nodup :=
  m.sorted.imp fun h he => ne_of_lt h (congrArg Prod.fst he)

/-- **Tables are equal when their lookups are**: the order names were inserted in leaves no
trace. -/
theorem ext_get? {m₁ m₂ : NameMap α} (h : ∀ k, m₁.get? k = m₂.get? k) : m₁ = m₂ := by
  have hperm : m₁.entries.Perm m₂.entries := by
    rw [List.perm_ext_iff_of_nodup m₁.nodup_entries m₂.nodup_entries]
    rintro ⟨k, v⟩
    rw [m₁.mem_iff_get?, m₂.mem_iff_get?, h k]
  have heq : m₁.entries = m₂.entries := by
    refine hperm.eq_of_pairwise ?_ m₁.sorted m₂.sorted
    intro a b _ _ hab hba
    exact absurd (lt_trans hab hba) (lt_irrefl _)
  cases m₁
  cases m₂
  simpa using heq

/-! ### Changing values -/

@[simp]
theorem get?_mapValues (f : String → α → β) (m : NameMap α) (k : String) :
    (m.mapValues f).get? k = (m.get? k).map (f k) := by
  simp only [get?, mapValues]
  induction m.entries with
  | nil => rfl
  | cons e rest ih =>
    by_cases hk : e.1 = k
    · simp [find?, hk]
    · simp [find?, hk, ih]

@[simp]
theorem keys_mapValues (f : String → α → β) (m : NameMap α) : (m.mapValues f).keys = m.keys := by
  simp [keys, mapValues, Function.comp_def]

@[simp]
theorem size_mapValues (f : String → α → β) (m : NameMap α) : (m.mapValues f).size = m.size := by
  simp [size, mapValues]

@[simp]
theorem mapValues_id (m : NameMap α) : m.mapValues (fun _ v => v) = m := by
  simp [NameMap.mapValues]

theorem mapValues_mapValues {γ : Type} (f : String → α → β) (g : String → β → γ) (m : NameMap α) :
    (m.mapValues f).mapValues g = m.mapValues fun k v => g k (f k v) := by
  simp [NameMap.mapValues]

theorem mapValues_congr (m : NameMap α) {f g : String → α → β}
    (h : ∀ k v, m.get? k = some v → f k v = g k v) : m.mapValues f = m.mapValues g := by
  simp only [NameMap.mapValues, mk.injEq]
  refine List.map_congr_left fun e he => ?_
  rw [h e.1 e.2 (m.mem_iff_get?.1 he)]

/-- Inserting a name that is present changes its value in place. -/
theorem insert_eq_mapValues (m : NameMap α) {k : String} (hk : (m.get? k).isSome) (v : α) :
    m.insert k v = m.mapValues fun k' v' => if k' = k then v else v' := by
  refine ext_get? fun j => ?_
  rw [get?_insert, get?_mapValues]
  by_cases hj : k = j
  · subst hj
    obtain ⟨w, hw⟩ := Option.isSome_iff_exists.1 hk
    simp [hw]
  · cases m.get? j <;> simp [hj, Ne.symm hj]

end NameMap

end AwkNames
