import TrackedDelivery.TextMap
import Mathlib.Data.List.Nodup
/-!
# The entries of a map

A map holds one entry for every key that is found, so a look-up is membership among the entries.
An insertion under a free key adds one entry, and an erasure takes one away.
-/
namespace TrackedDelivery.TextMap

universe u v
variable {α : Type u} {β : Type v}

theorem lookup_eq_some_iff {key : String} {value : α} {entries : List (String × α)}
    (h : Ascending entries) : lookup key entries = some value ↔ (key, value) ∈ entries := by
  induction entries with
  | nil => simp [lookup]
  | cons e rest ih =>
      obtain ⟨k, v⟩ := e
      obtain ⟨hk, hrest⟩ := List.pairwise_cons.mp h
      by_cases he : key = k
      · subst he
        have hnot : (key, value) ∉ rest := fun hmem => String.lt_irrefl key (hk _ hmem)
        simp [lookup, hnot, eq_comm]
      · simp [lookup, he, ih hrest]

theorem find?_eq_some_iff {m : TextMap α} {key : String} {value : α} :
    m.find? key = some value ↔ (key, value) ∈ m.entries :=
  lookup_eq_some_iff m.ascending

theorem contains_iff {m : TextMap α} {key : String} :
    m.contains key = true ↔ ∃ value, m.find? key = some value := by
  rw [contains, Option.isSome_iff_exists]

theorem nodup_entries (m : TextMap α) : m.entries.Nodup := by
  refine m.ascending.imp fun h he => ?_
  rw [he] at h
  exact String.lt_irrefl _ h

theorem mem_values {m : TextMap α} {value : α} :
    value ∈ m.values ↔ ∃ key, m.find? key = some value := by
  simp [values, find?_eq_some_iff]

theorem perm_place {key : String} (f : Option α → α) {entries : List (String × α)}
    (h : ∀ p ∈ entries, p.1 ≠ key) : (place key f entries).Perm ((key, f none) :: entries) := by
  induction entries with
  | nil => exact .refl _
  | cons e rest ih =>
      obtain ⟨k, v⟩ := e
      have hk : k ≠ key := h (k, v) (List.mem_cons_self ..)
      simp only [place, if_neg hk]
      split
      · exact .refl _
      · exact ((ih fun p hp => h p (List.mem_cons_of_mem _ hp)).cons _).trans (.swap ..)

/-- An insertion under a free key adds its entry. -/
theorem perm_entries_insert {m : TextMap α} {key : String} (value : α) (h : m.find? key = none) :
    (m.insert key value).entries.Perm ((key, value) :: m.entries) := by
  refine perm_place (fun _ => value) fun p hp he => ?_
  have hfind : m.find? key = some p.2 := find?_eq_some_iff.mpr (he ▸ hp)
  rw [h] at hfind
  cases hfind

/-- An erasure takes away the entry that is found. -/
theorem perm_entries_erase {m : TextMap α} {key : String} {value : α}
    (h : m.find? key = some value) : m.entries.Perm ((key, value) :: (m.erase key).entries) := by
  have hmem := find?_eq_some_iff.mp h
  refine (List.perm_ext_iff_of_nodup m.nodup_entries ?_).mpr fun p => ?_
  · refine List.nodup_cons.mpr ⟨?_, (m.erase key).nodup_entries⟩
    simp [erase]
  · simp only [erase, List.mem_cons, List.mem_filter, decide_eq_true_eq]
    constructor
    · intro hp
      by_cases he : p.1 = key
      · left
        have hp' : m.find? key = some p.2 := find?_eq_some_iff.mpr (he ▸ hp)
        rw [h] at hp'
        exact Prod.ext he (Option.some.inj hp').symm
      · exact .inr ⟨hp, he⟩
    · rintro (rfl | ⟨hp, -⟩)
      · exact hmem
      · exact hp

/-- The first entry is taken away alone. -/
theorem entries_erase_head {m : TextMap α} {key : String} {value : α}
    {rest : List (String × α)} (h : m.entries = (key, value) :: rest) :
    (m.erase key).entries = rest := by
  have hasc := m.ascending
  rw [h] at hasc
  change m.entries.filter _ = rest
  rw [h, List.filter_cons_of_neg (by simp)]
  refine List.filter_eq_self.mpr fun p hp => ?_
  have hlt := List.rel_of_pairwise_cons hasc hp
  rw [decide_eq_true_iff]
  rintro rfl
  exact String.lt_irrefl _ hlt

/-- Maps in which the same is found are equal. -/
theorem eq_of_find?_eq {m n : TextMap α} (h : ∀ key, m.find? key = n.find? key) : m = n := by
  have hperm : m.entries.Perm n.entries := by
    refine (List.perm_ext_iff_of_nodup m.nodup_entries n.nodup_entries).mpr fun p => ?_
    rw [← find?_eq_some_iff, ← find?_eq_some_iff, h]
  refine ext (hperm.eq_of_pairwise (fun a b _ _ hab hba => ?_) m.ascending n.ascending)
  exact absurd (String.lt_trans hab hba) (String.lt_irrefl _)

/-- Of two insertions under one key the later one counts. -/
theorem insert_insert (m : TextMap α) (key : String) (value value' : α) :
    (m.insert key value).insert key value' = m.insert key value' := by
  refine eq_of_find?_eq fun other => ?_
  simp only [find?_insert]
  split <;> rfl

theorem insert_of_find? {m : TextMap α} {key : String} {value : α} (h : m.find? key = some value) :
    m.insert key value = m := by
  refine eq_of_find?_eq fun other => ?_
  rw [find?_insert]
  split
  · rename_i hother
    rw [hother, h]
  · rfl

/-- An insertion puts its entry in the place of the one that stands under the key, if one does. -/
theorem perm_entries_insert_erase (m : TextMap α) (key : String) (value : α) :
    (m.insert key value).entries.Perm ((key, value) :: (m.erase key).entries) := by
  have hfind : (m.insert key value).find? key = some value := by rw [find?_insert, if_pos rfl]
  have herase : (m.insert key value).erase key = m.erase key := by
    refine eq_of_find?_eq fun other => ?_
    simp only [find?_erase, find?_insert]
    split <;> rfl
  have hperm := perm_entries_erase hfind
  rwa [herase] at hperm

/-- An insertion under a key that is taken adds no entry. -/
theorem size_insert {m : TextMap α} {key : String} {value : α} (h : m.find? key = some value)
    (value' : α) : (m.insert key value').size = m.size := by
  have hinsert := (perm_entries_insert_erase m key value').length_eq
  have herase := (perm_entries_erase h).length_eq
  rw [size, size, hinsert, herase, List.length_cons, List.length_cons]

/-! ## Keys -/

theorem mem_keys {m : TextMap α} {key : String} : key ∈ m.keys ↔ m.contains key = true := by
  rw [contains_iff, keys, List.mem_map]
  constructor
  · rintro ⟨e, he, rfl⟩
    exact ⟨e.2, find?_eq_some_iff.mpr he⟩
  · rintro ⟨value, hvalue⟩
    exact ⟨(key, value), find?_eq_some_iff.mp hvalue, rfl⟩

theorem ascending_keys (m : TextMap α) : m.keys.Pairwise (· < ·) :=
  List.pairwise_map.mpr m.ascending

theorem length_keys (m : TextMap α) : m.keys.length = m.size := List.length_map _

/-! ## Other values under the same keys -/

def map (f : α → β) (m : TextMap α) : TextMap β :=
  ⟨m.entries.map (Prod.map id f), List.pairwise_map.mpr m.ascending⟩

@[simp] theorem find?_map (f : α → β) (m : TextMap α) (key : String) :
    (m.map f).find? key = (m.find? key).map f := by
  obtain ⟨entries, hentries⟩ := m
  simp only [find?, map]
  clear hentries
  induction entries with
  | nil => rfl
  | cons e rest ih =>
      simp only [List.map_cons, Prod.map, id_eq, lookup, ih]
      split <;> rfl

@[simp] theorem contains_map (f : α → β) (m : TextMap α) (key : String) :
    (m.map f).contains key = m.contains key := by
  rw [contains, find?_map, Option.isSome_map, contains]

theorem insert_map (f : α → β) (m : TextMap α) (key : String) (value : α) :
    (m.map f).insert key (f value) = (m.insert key value).map f := by
  refine eq_of_find?_eq fun other => ?_
  simp only [find?_insert, find?_map]
  split <;> rfl

theorem erase_map (f : α → β) (m : TextMap α) (key : String) :
    (m.map f).erase key = (m.erase key).map f := by
  refine eq_of_find?_eq fun other => ?_
  simp only [find?_erase, find?_map]
  split <;> rfl

end TrackedDelivery.TextMap
