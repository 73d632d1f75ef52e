import TrackedDelivery.Proofs.Number.Numeral
import TrackedDelivery.Record
import Mathlib.Algebra.Order.Ring.Int
/-!
# Times of creation

Metadata keep the time of creation as a numeral of any length, and read it in 64 bits. So a time
from the epoch on is read back exactly if it lies less than 2^64 nanoseconds after it, and later
times are lost, although nothing else is written under their key. What is written under the other
keys has no part in it.
-/
namespace TrackedDelivery.Metadata

/-! ## Changes of metadata -/

/-- One change of metadata. -/
inductive Write
  | insert (key value : String)
  | createdAt (t : Time)
  deriving DecidableEq, Repr

/-- The key that a change writes under. -/
def Write.key : Write → String
  | insert key _ => key
  | createdAt _ => createdAtKey

def write (m : Metadata) : Write → Metadata
  | .insert key value => m.insert key value
  | .createdAt t => m.setCreatedAt t

/-- Changes one after another. -/
def writes (m : Metadata) (changes : List Write) : Metadata := changes.foldl write m

theorem find?_write {m : Metadata} {w : Write} {key : String} (h : w.key ≠ key) :
    (m.write w).find? key = m.find? key := by
  cases w with
  | insert other value => exact (TextMap.find?_insert ..).trans (if_neg (Ne.symm h))
  | createdAt t => exact (TextMap.find?_insert ..).trans (if_neg (Ne.symm h))

/-- What is written under a key stays until the key is written under again. -/
theorem find?_writes {m : Metadata} {changes : List Write} {key : String}
    (h : ∀ w ∈ changes, w.key ≠ key) : (m.writes changes).find? key = m.find? key := by
  induction changes generalizing m with
  | nil => rfl
  | cons w rest ih =>
      have hfirst : (m.write w).find? key = m.find? key := find?_write (h w (List.mem_cons_self ..))
      have hrest : ((m.write w).writes rest).find? key = (m.write w).find? key :=
        ih fun w' hw' => h w' (List.mem_cons_of_mem _ hw')
      exact hrest.trans hfirst

/-! ## The time that is read -/

theorem find?_setCreatedAt (m : Metadata) (t : Time) (key : String) :
    (m.setCreatedAt t).find? key =
      if key = createdAtKey then some (toString t.toNat) else m.find? key :=
  TextMap.find?_insert ..

theorem createdAt_congr {m m' : Metadata} (h : m'.find? createdAtKey = m.find? createdAtKey) :
    m'.createdAt = m.createdAt := by
  rw [createdAt, h, createdAt]

/-- A time is read back if it fits 64 bits. One before the epoch is read as the epoch. -/
theorem createdAt_setCreatedAt (m : Metadata) (t : Time) :
    (m.setCreatedAt t).createdAt = if t < 2 ^ 64 then some (max t 0) else none := by
  have hfound : (m.setCreatedAt t).find? createdAtKey = some (toString t.toNat) :=
    (find?_setCreatedAt m t createdAtKey).trans (if_pos rfl)
  have hlimit : t.toNat ≤ Number.maxWord64 ↔ t < 2 ^ 64 := by
    rw [Int.toNat_le, show (Number.maxWord64 : Int) = 2 ^ 64 - 1 from rfl, Int.le_sub_one_iff]
  rw [createdAt, hfound, Option.map_some, Number.unsigned_toString]
  simp only [hlimit]
  split
  · rename_i hread
    split at hread
    · cases hread
      rw [if_pos ‹_›, Int.toNat_eq_max]
    · cases hread
  · rename_i hread
    split at hread
    · exact absurd rfl (hread _)
    · rw [if_neg ‹_›]

theorem createdAt_setCreatedAt_eq_some (m : Metadata) {t : Time} (ht : 0 ≤ t) :
    (m.setCreatedAt t).createdAt = some t ↔ t < 2 ^ 64 := by
  rw [createdAt_setCreatedAt, Int.max_eq_left ht]
  by_cases hfits : t < 2 ^ 64
  · rw [if_pos hfits]
    exact iff_of_true rfl hfits
  · rw [if_neg hfits]
    exact iff_of_false nofun hfits

/-- Whatever has been written before, and whatever is written under other keys afterwards, a time
from the epoch on is read back if and only if it lies less than 2^64 nanoseconds after the epoch;
of a later time nothing is read, and an earlier one is read as the epoch. All other keys keep what
stands under them. The record of a message was created at the time that the producer gave, or else
when it was published, within the same limit. -/
theorem createdAt_within_word (past : List Write) (t : Time) :
    (∀ since : List Write, (∀ w ∈ since, w.key ≠ createdAtKey) →
      ((setCreatedAt (writes ∅ past) t).writes since).createdAt =
          (if t < 2 ^ 64 then some (max t 0) else none) ∧
        (0 ≤ t → (((setCreatedAt (writes ∅ past) t).writes since).createdAt = some t ↔
          t < 2 ^ 64))) ∧
    (∀ key, key ≠ createdAtKey →
      (setCreatedAt (writes ∅ past) t).find? key = (writes ∅ past).find? key) ∧
    ∀ (ι : Type) (message : Message ι) (position : Bytes),
      message.eventTime.getD message.publishTime = t → 0 ≤ t →
      ((Record.ofMessage message position).metadata.createdAt = some t ↔ t < 2 ^ 64) := by
  refine ⟨fun since hsince => ?_, fun key hkey => ?_, fun ι message position hmessage ht => ?_⟩
  · rw [createdAt_congr (find?_writes hsince)]
    exact ⟨createdAt_setCreatedAt _ t, createdAt_setCreatedAt_eq_some _⟩
  · rw [find?_setCreatedAt, if_neg hkey]
  · rw [Record.ofMessage, hmessage]
    exact createdAt_setCreatedAt_eq_some _ ht

/-- A message of the greatest time that 64 bits hold. -/
def latestMessage : Message ℕ where
  id := 0
  topic := "t"
  eventTime := some (2 ^ 64 - 1)
  publishTime := 0
  key := []
  payload := []

theorem createdAt_of_latest :
    let m := setCreatedAt (writes ∅ [.createdAt 7, .insert "a" "1"]) (2 ^ 64 - 1)
    (m.writes [.insert "b" "2"]).createdAt = some (2 ^ 64 - 1) ∧ m.find? "a" = some "1" ∧
      (Record.ofMessage latestMessage []).metadata.createdAt = some (2 ^ 64 - 1) := by
  intro m
  have hother : ∀ w ∈ [Write.insert "b" "2"], w.key ≠ createdAtKey := by decide
  have hbefore : (writes ∅ [.createdAt 7, .insert "a" "1"]).find? "a" = some "1" := by decide
  obtain ⟨hread, hkept, hrecord⟩ :=
    createdAt_within_word [.createdAt 7, .insert "a" "1"] (2 ^ 64 - 1)
  refine ⟨?_, ?_, ?_⟩
  · exact ((hread _ hother).2 (by decide)).mpr (by decide)
  · exact (hkept "a" (by decide)).trans hbefore
  · exact (hrecord ℕ latestMessage [] rfl (by decide)).mpr (by decide)

/-- Of the first time that takes more than 64 bits nothing is read. -/
theorem createdAt_lost_beyond_word :
    createdAt (setCreatedAt ∅ (2 ^ 64)) = none ∧
      ¬ ∀ (m : Metadata) (t : Time), 0 ≤ t → (m.setCreatedAt t).createdAt = some t := by
  have hlost : createdAt (setCreatedAt ∅ (2 ^ 64)) = none := by decide +kernel
  refine ⟨hlost, fun h => ?_⟩
  cases hlost.symm.trans (h ∅ (2 ^ 64) (by decide))

end TrackedDelivery.Metadata
