/-!
# Finite maps from text to values

A `TextMap` is an association list whose keys ascend strictly, so a key occurs at most once and
equal maps have equal lists. Keys are compared by code point. All operations but `erase` are one
walk, `alter`, that decides what happens at a key; `find?_alter` says what a look-up sees of it.
-/
namespace TrackedDelivery

universe u

variable {α : Type u}

/-- Entries whose keys ascend strictly. -/
abbrev Ascending (entries : List (String × α)) : Prop :=
  entries.Pairwise (fun a b => a.1 < b.1)

structure TextMap (α : Type u) where
  entries : List (String × α)
  ascending : Ascending entries

namespace TextMap

@[ext] theorem ext {m n : TextMap α} (h : m.entries = n.entries) : m = n := by
  cases m; cases n; cases h; rfl

instance [DecidableEq α] : DecidableEq (TextMap α) := fun m n =>
  decidable_of_iff (m.entries = n.entries) ⟨ext, fun h => h ▸ rfl⟩

/-- Replaces what stands at `key`, given what stood there, in an ascending list. -/
def place (key : String) (f : Option α → α) : List (String × α) → List (String × α)
  | [] => [(key, f none)]
  | (k, v) :: rest =>
      if key < k then (key, f none) :: (k, v) :: rest
      else if k = key then (key, f (some v)) :: rest
      else (k, v) :: place key f rest

theorem mem_place {key : String} {f : Option α → α} {entries : List (String × α)}
    {p : String × α} (h : p ∈ place key f entries) : p.1 = key ∨ p ∈ entries := by
  induction entries with
  | nil => simp [place] at h; simp [h]
  | cons e rest ih =>
    obtain ⟨k, v⟩ := e
    simp only [place] at h
    split at h
    · simp only [List.mem_cons] at h ⊢
      rcases h with h | h | h <;> simp [h]
    · split at h <;> simp only [List.mem_cons] at h ⊢ <;> rcases h with h | h
      · simp [h]
      · simp [h]
      · simp [h]
      · rcases ih h with h | h <;> simp [h]

theorem ascending_place (key : String) (f : Option α → α) {entries : List (String × α)}
    (h : Ascending entries) : Ascending (place key f entries) := by
  induction entries with
  | nil => simp [place, Ascending]
  | cons e rest ih =>
    obtain ⟨k, v⟩ := e
    have hk : ∀ p ∈ rest, k < p.1 := fun p hp => List.rel_of_pairwise_cons h hp
    have hrest : Ascending rest := List.Pairwise.of_cons h
    simp only [place]
    split
    · rename_i hlt
      refine List.Pairwise.cons ?_ h
      intro p hp
      rcases List.mem_cons.mp hp with rfl | hp
      · exact hlt
      · exact String.lt_trans hlt (hk p hp)
    · split
      · rename_i heq
        exact List.Pairwise.cons (fun p hp => heq ▸ hk p hp) hrest
      · rename_i hnot hne
        refine List.Pairwise.cons ?_ (ih hrest)
        intro p hp
        rcases mem_place hp with hp | hp
        · rcases String.le_total key k with hle | hle
          · exact absurd (String.le_antisymm (String.not_lt.mp hnot) hle) hne
          · rw [hp]
            exact Decidable.byContradiction fun hlt =>
              hne (String.le_antisymm hle (String.not_lt.mp hlt))
        · exact hk p hp

/-- The value of the first entry under `key`. -/
def lookup (key : String) : List (String × α) → Option α
  | [] => none
  | (k, v) :: rest => if key = k then some v else lookup key rest

theorem lookup_eq_none {key : String} {entries : List (String × α)}
    (h : ∀ p ∈ entries, key < p.1) : lookup key entries = none := by
  induction entries with
  | nil => rfl
  | cons e rest ih =>
    have hne : key ≠ e.1 := fun he => String.lt_irrefl key (he ▸ h e (List.mem_cons_self ..))
    rw [lookup, if_neg hne]
    exact ih fun p hp => h p (List.mem_cons_of_mem _ hp)

theorem lookup_place (key other : String) (f : Option α → α) {entries : List (String × α)}
    (h : Ascending entries) :
    lookup other (place key f entries)
      = if other = key then some (f (lookup key entries)) else lookup other entries := by
  induction entries with
  | nil => by_cases ho : other = key <;> simp [place, lookup, ho]
  | cons e rest ih =>
    obtain ⟨k, v⟩ := e
    simp only [place]
    split
    · rename_i hlt
      have absent : lookup key ((k, v) :: rest) = none := by
        refine lookup_eq_none fun p hp => ?_
        rcases List.mem_cons.mp hp with rfl | hp
        · exact hlt
        · exact String.lt_trans hlt (List.rel_of_pairwise_cons h hp)
      rw [absent]
      by_cases ho : other = key <;> simp [lookup, ho]
    · split
      · rename_i heq
        subst heq
        by_cases ho : other = k <;> simp [lookup, ho]
      · rename_i hne
        have ih := ih (List.Pairwise.of_cons h)
        by_cases ho : other = key
        · subst ho; simp [lookup, Ne.symm hne, ih]
        · rw [lookup, ih, if_neg ho, if_neg ho, lookup]

def empty : TextMap α := ⟨[], .nil⟩

instance : EmptyCollection (TextMap α) := ⟨empty⟩
instance : Inhabited (TextMap α) := ⟨empty⟩

def find? (m : TextMap α) (key : String) : Option α := lookup key m.entries

def contains (m : TextMap α) (key : String) : Bool := (m.find? key).isSome

/-- Puts at `key` what `f` makes of the value there. -/
def alter (m : TextMap α) (key : String) (f : Option α → α) : TextMap α :=
  ⟨place key f m.entries, ascending_place key f m.ascending⟩

/-- The new value takes the place of an old one. -/
def insert (m : TextMap α) (key : String) (value : α) : TextMap α := m.alter key fun _ => value

def erase (m : TextMap α) (key : String) : TextMap α :=
  ⟨m.entries.filter (·.1 ≠ key), m.ascending.filter _⟩

def keys (m : TextMap α) : List String := m.entries.map (·.1)

def values (m : TextMap α) : List α := m.entries.map (·.2)

def size (m : TextMap α) : Nat := m.entries.length

def isEmpty (m : TextMap α) : Bool := m.entries.isEmpty

/-- Of two entries under one key the later one counts. -/
def ofList (pairs : List (String × α)) : TextMap α :=
  pairs.foldl (fun m p => m.insert p.1 p.2) empty

@[simp] theorem find?_empty (key : String) : (∅ : TextMap α).find? key = none := rfl

theorem find?_alter (m : TextMap α) (key other : String) (f : Option α → α) :
    (m.alter key f).find? other = if other = key then some (f (m.find? key)) else m.find? other :=
  lookup_place key other f m.ascending

theorem find?_insert (m : TextMap α) (key other : String) (value : α) :
    (m.insert key value).find? other = if other = key then some value else m.find? other :=
  find?_alter ..

theorem find?_erase (m : TextMap α) (key other : String) :
    (m.erase key).find? other = if other = key then none else m.find? other := by
  obtain ⟨entries, h⟩ := m
  simp only [find?, erase]
  clear h
  induction entries with
  | nil => simp [lookup]
  | cons e rest ih =>
    obtain ⟨k, v⟩ := e
    by_cases hk : k = key
    · subst hk
      by_cases ho : other = k <;> simp_all [lookup]
    · by_cases ho : other = key
      · subst ho; simp_all [lookup, Ne.symm hk]
      · by_cases hko : other = k <;> simp_all [lookup]

end TextMap
end TrackedDelivery
