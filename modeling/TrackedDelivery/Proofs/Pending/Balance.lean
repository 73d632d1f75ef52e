import TrackedDelivery.Pending
import TrackedDelivery.Proofs.TextMap
import Mathlib.Data.List.Range
/-!
# The balance of a pending set

A pending set that starts empty goes through insertions, removals and drains. Each of them keeps the
balance: what is added by it and what was there before is what it hands out and what is there after
it. So over a whole run, the entries that were added are those that were handed out and those that
are still in the set.
-/
namespace TrackedDelivery.PendingSet

universe u v

variable {α : Type u} {β : Type v}

inductive Operation (α : Type u)
  | insertIfAbsent (key : String) (value : α)
  | remove (key : String)
  | drain
  deriving DecidableEq, Repr

inductive Answer (α : Type u)
  | inserted (added : Bool)
  | removed (value : Option α)
  | drained (entries : List (String × α))
  deriving DecidableEq, Repr

def act (set : PendingSet α) : Operation α → Answer α × PendingSet α
  | .insertIfAbsent key value =>
      let (added, set) := set.insertIfAbsent key value
      (.inserted added, set)
  | .remove key =>
      let (value, set) := set.remove key
      (.removed value, set)
  | .drain =>
      let (entries, set) := set.drain
      (.drained entries, set)

/-- The entries that an operation adds, by its answer. -/
def Operation.added : Operation α → Answer α → List (String × α)
  | insertIfAbsent key value, .inserted true => [(key, value)]
  | _, _ => []

/-- The entries that an operation hands out, by its answer. -/
def Operation.handedOut : Operation α → Answer α → List (String × α)
  | remove key, .removed (some value) => [(key, value)]
  | drain, .drained entries => entries
  | _, _ => []

theorem balance_act (set : PendingSet α) (op : Operation α) :
    (op.added (set.act op).1 ++ set.entries).Perm
      (op.handedOut (set.act op).1 ++ (set.act op).2.entries) := by
  cases op with
  | insertIfAbsent key value =>
      simp only [act, insertIfAbsent]
      split
      case isTrue => exact .refl _
      case isFalse hfree =>
        have hnone : set.find? key = none := by simpa [TextMap.contains] using hfree
        exact (TextMap.perm_entries_insert value hnone).symm
  | remove key =>
      simp only [act, remove]
      cases hfind : set.find? key with
      | none =>
          have hsame : set.erase key = set := by
            refine TextMap.eq_of_find?_eq fun other => ?_
            rw [TextMap.find?_erase]
            split
            case isTrue h => rw [h, hfind]
            case isFalse => rfl
          rw [hsame]
          exact .refl _
      | some value => exact TextMap.perm_entries_erase hfind
  | drain => exact .of_eq (List.append_nil _).symm

/-! ## Runs -/

/-- A fresh set after the operations. -/
def after (ops : List (Operation α)) : PendingSet α := ops.foldl (fun set op => (set.act op).2) ∅

theorem after_concat (ops : List (Operation α)) (op : Operation α) :
    after (ops ++ [op]) = ((after ops).act op).2 := by
  rw [after, List.foldl_append]
  rfl

/-- What the operation at a place of the list answers. -/
def answerAt? (ops : List (Operation α)) (i : ℕ) : Option (Answer α) :=
  ops[i]?.map fun op => ((after (ops.take i)).act op).1

/-- Later operations do not change an answer. -/
theorem answerAt?_take {ops : List (Operation α)} {i n : ℕ} (h : i < n) :
    answerAt? (ops.take n) i = answerAt? ops i := by
  rw [answerAt?, List.getElem?_take_of_lt h, List.take_take, Nat.min_eq_left (Nat.le_of_lt h),
    answerAt?]

section

variable (see : Operation α → Answer α → List (String × α))

/-- What is seen of the operation at a place of the list and of its answer. -/
def seenAt (ops : List (Operation α)) (i : ℕ) : List (String × α) :=
  (ops[i]?.map fun op => see op ((after (ops.take i)).act op).1).getD []

/-- What is seen of all operations. -/
def seen (ops : List (Operation α)) : List (String × α) :=
  (List.range ops.length).flatMap (seenAt see ops)

theorem mem_seenAt {ops : List (Operation α)} {i : ℕ} {e : String × α} :
    e ∈ seenAt see ops i ↔
      ∃ op, ops[i]? = some op ∧ e ∈ see op ((after (ops.take i)).act op).1 := by
  rw [seenAt]
  cases ops[i]? <;> simp

/-- Later operations do not change what has been seen. -/
theorem seenAt_take {ops : List (Operation α)} {i n : ℕ} (h : i < n) :
    seenAt see (ops.take n) i = seenAt see ops i := by
  rw [seenAt, List.getElem?_take_of_lt h, List.take_take, Nat.min_eq_left (Nat.le_of_lt h), seenAt]

theorem seen_concat (ops : List (Operation α)) (op : Operation α) :
    seen see (ops ++ [op]) = seen see ops ++ see op ((after ops).act op).1 := by
  have hbefore : ∀ i ∈ List.range ops.length, seenAt see (ops ++ [op]) i = seenAt see ops i := by
    intro i hi
    rw [← seenAt_take see (List.mem_range.mp hi), List.take_left]
  have hlast : seenAt see (ops ++ [op]) ops.length = see op ((after ops).act op).1 := by
    rw [seenAt, List.getElem?_concat_length, List.take_left]
    rfl
  rw [seen, List.length_append, List.length_singleton, List.range_succ, List.flatMap_append,
    List.flatMap_singleton, hlast, List.flatMap_congr hbefore, seen]

end

/-- What has been added has been handed out or is in the set. -/
theorem balance (ops : List (Operation α)) :
    (seen Operation.added ops).Perm (seen Operation.handedOut ops ++ (after ops).entries) := by
  induction ops using List.reverseRecOn with
  | nil => exact .refl _
  | append_singleton ops op ih =>
      -- What the last operation adds is balanced against the set that the others leave.
      rw [seen_concat, seen_concat, after_concat, List.append_assoc]
      have hact := balance_act (after ops) op
      refine (ih.append_right _).trans ?_
      rw [List.append_assoc]
      exact (List.perm_append_comm.trans hact).append_left _

end TrackedDelivery.PendingSet
