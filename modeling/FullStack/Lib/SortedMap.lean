import Mathlib.Data.List.Sort
import Mathlib.Data.Prod.Lex
import Mathlib.Order.Defs.LinearOrder

/-!
# Finite maps kept in key order

`SortedMap κ β`: an association list whose keys strictly increase. The order is a field, so two maps
with the same lookups are equal (`ext_find?`), a map can be listed in key order (`entries`), and a
range of keys is a `filter`. `filter_insert` and `filter_erase` say what a write does to such a
range: it is the write done on the range, or nothing.
-/

/-- A finite map, listed in strictly increasing key order. -/
structure SortedMap (κ : Type*) (β : Type*) [LinearOrder κ] where
  entries : List (κ × β)
  sorted : entries.Pairwise fun a b => a.1 < b.1

namespace SortedMap

variable {κ β : Type*} [LinearOrder κ]

def assoc (k : κ) : List (κ × β) → Option β
  | [] => none
  | (k', v) :: rest => if k = k' then some v else assoc k rest

def insertEntry (k : κ) (v : β) : List (κ × β) → List (κ × β)
  | [] => [(k, v)]
  | (k', v') :: rest =>
    if k < k' then (k, v) :: (k', v') :: rest
    else if k = k' then (k, v) :: rest
    else (k', v') :: insertEntry k v rest

theorem assoc_insertEntry (k : κ) (v : β) (k' : κ) (l : List (κ × β)) :
    assoc k' (insertEntry k v l) = if k' = k then some v else assoc k' l := by
  induction l with
  | nil => rfl
  | cons e rest ih =>
    obtain ⟨k₁, v₁⟩ := e
    rw [insertEntry]
    split_ifs <;> simp only [assoc] <;> grind

theorem mem_insertEntry {k : κ} {v : β} {e : κ × β} {l : List (κ × β)}
    (h : e ∈ insertEntry k v l) : e = (k, v) ∨ e ∈ l := by
  induction l with
  | nil => simpa [insertEntry] using h
  | cons e' rest ih =>
    obtain ⟨k₁, v₁⟩ := e'
    rw [insertEntry] at h
    split_ifs at h <;> grind

theorem sorted_insertEntry (k : κ) (v : β) {l : List (κ × β)}
    (h : l.Pairwise fun a b => a.1 < b.1) : (insertEntry k v l).Pairwise fun a b => a.1 < b.1 := by
  induction l with
  | nil => exact List.pairwise_singleton _ _
  | cons e rest ih =>
    obtain ⟨k₁, v₁⟩ := e
    obtain ⟨hlt, hrest⟩ := List.pairwise_cons.1 h
    rw [insertEntry]
    split_ifs with h1 h2
    · refine List.pairwise_cons.2 ⟨fun e he => ?_, h⟩
      rcases List.mem_cons.1 he with rfl | he
      · exact h1
      · exact h1.trans (hlt e he)
    · subst h2
      exact List.pairwise_cons.2 ⟨hlt, hrest⟩
    · refine List.pairwise_cons.2 ⟨fun e he => ?_, ih hrest⟩
      rcases mem_insertEntry he with rfl | he
      · exact lt_of_le_of_ne (not_lt.1 h1) (Ne.symm h2)
      · exact hlt e he

theorem assoc_eq_some_iff {l : List (κ × β)} (h : l.Pairwise fun a b => a.1 < b.1) (k : κ) (v : β) :
    assoc k l = some v ↔ (k, v) ∈ l := by
  induction l with
  | nil => simp [assoc]
  | cons e rest ih =>
    obtain ⟨k₁, v₁⟩ := e
    obtain ⟨hlt, hrest⟩ := List.pairwise_cons.1 h
    rw [assoc]
    split_ifs with hk
    · subst hk
      have : (k, v) ∉ rest := fun hm => lt_irrefl k (hlt (k, v) hm)
      simp [this, eq_comm]
    · simp [ih hrest, hk]

def empty : SortedMap κ β := ⟨[], .nil⟩

def find? (m : SortedMap κ β) (k : κ) : Option β := assoc k m.entries

def insert (m : SortedMap κ β) (k : κ) (v : β) : SortedMap κ β :=
  ⟨insertEntry k v m.entries, sorted_insertEntry k v m.sorted⟩

def filter (m : SortedMap κ β) (p : κ → Bool) : SortedMap κ β :=
  ⟨m.entries.filter fun e => p e.1, m.sorted.filter _⟩

def erase (m : SortedMap κ β) (k : κ) : SortedMap κ β := m.filter fun k' => k' ≠ k

@[simp] theorem find?_empty (k : κ) : (empty : SortedMap κ β).find? k = none := rfl

theorem find?_insert (m : SortedMap κ β) (k : κ) (v : β) (k' : κ) :
    (m.insert k v).find? k' = if k' = k then some v else m.find? k' :=
  assoc_insertEntry k v k' m.entries

@[simp] theorem find?_insert_self (m : SortedMap κ β) (k : κ) (v : β) :
    (m.insert k v).find? k = some v := by
  rw [find?_insert, if_pos rfl]

theorem find?_insert_of_ne (m : SortedMap κ β) {k k' : κ} (v : β) (h : k' ≠ k) :
    (m.insert k v).find? k' = m.find? k' := by
  rw [find?_insert, if_neg h]

theorem mem_entries_iff {m : SortedMap κ β} {k : κ} {v : β} :
    (k, v) ∈ m.entries ↔ m.find? k = some v :=
  (assoc_eq_some_iff m.sorted k v).symm

theorem find?_filter (m : SortedMap κ β) (p : κ → Bool) (k : κ) :
    (m.filter p).find? k = if p k then m.find? k else none := by
  refine Option.ext fun v => ?_
  rw [← mem_entries_iff, filter, List.mem_filter, mem_entries_iff]
  cases p k <;> simp

theorem find?_erase (m : SortedMap κ β) (k k' : κ) :
    (m.erase k).find? k' = if k' = k then none else m.find? k' := by
  rw [erase, find?_filter]
  by_cases h : k' = k <;> simp [h]

@[simp] theorem find?_erase_self (m : SortedMap κ β) (k : κ) : (m.erase k).find? k = none := by
  rw [find?_erase, if_pos rfl]

theorem find?_erase_of_ne (m : SortedMap κ β) {k k' : κ} (h : k' ≠ k) :
    (m.erase k).find? k' = m.find? k' := by
  rw [find?_erase, if_neg h]

theorem nodup_entries (m : SortedMap κ β) : m.entries.Nodup :=
  m.sorted.imp fun h he => (ne_of_lt h) (congrArg Prod.fst he)

/-- Lookups determine the map: both entry lists are sorted and have the same members. -/
theorem ext_find? {m m' : SortedMap κ β} (h : ∀ k, m.find? k = m'.find? k) : m = m' := by
  obtain ⟨l, hl⟩ := m
  obtain ⟨l', hl'⟩ := m'
  have hperm : l.Perm l' := by
    refine (List.perm_ext_iff_of_nodup (nodup_entries ⟨l, hl⟩) (nodup_entries ⟨l', hl'⟩)).2 ?_
    rintro ⟨k, v⟩
    exact (mem_entries_iff (m := ⟨l, hl⟩)).trans
      ((by rw [h k] : _ ↔ _).trans (mem_entries_iff (m := ⟨l', hl'⟩)).symm)
  have : l = l' := hperm.eq_of_pairwise (fun a b _ _ hab hba => absurd hab (not_lt.2 hba.le)) hl hl'
  subst this
  rfl

theorem filter_insert (m : SortedMap κ β) (p : κ → Bool) (k : κ) (v : β) :
    (m.insert k v).filter p = if p k then (m.filter p).insert k v else m.filter p := by
  refine ext_find? fun k' => ?_
  by_cases hk : k' = k
  · subst hk
    cases hp : p k' <;> simp [find?_filter, hp]
  · split_ifs <;> simp [find?_filter, find?_insert_of_ne _ _ hk]

theorem filter_erase (m : SortedMap κ β) (p : κ → Bool) (k : κ) :
    (m.erase k).filter p = if p k then (m.filter p).erase k else m.filter p := by
  refine ext_find? fun k' => ?_
  by_cases hk : k' = k
  · subst hk
    cases hp : p k' <;> simp [find?_filter, hp]
  · split_ifs <;> simp [find?_filter, find?_erase_of_ne _ hk]

end SortedMap
