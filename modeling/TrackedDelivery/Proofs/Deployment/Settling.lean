import TrackedDelivery.Proofs.Deployment.Fencing
/-!
# Acknowledging one position after another

While the consumer of a tracker is attached and no failure is arranged for, an acknowledgment
succeeds exactly if it names a pending message. So of any list of positions those succeed that are
the first to name some pending message, and what they leave behind depends on which messages were
named and not on the order, but for the list in which the broker notes the acknowledgments.
-/
namespace TrackedDelivery.Memory

/-! ## Settling several messages -/

namespace Subscription

/-- Settles messages one after another. -/
def settleAll (s : Subscription) (ids : List EntryId) : Subscription := ids.foldl settle s

theorem settleAll_eq (s : Subscription) (ids : List EntryId) :
    s.settleAll ids = { s with
      unacked := s.unacked.filter fun e => ∀ id ∈ ids, e ≠ id.entry.toNat
      redeliver := s.redeliver.filter fun e => ∀ id ∈ ids, e ≠ id.entry.toNat
      acked := s.acked ++ ids } := by
  induction ids generalizing s with
  | nil => simp [settleAll]
  | cons id rest ih =>
      change (s.settle id).settleAll rest = _
      rw [ih]
      simp [settle, List.filter_filter, Bool.and_comm]

/-- Messages may be settled in any order, but for the list of the acknowledged. -/
theorem settleAll_perm (s : Subscription) {ids ids' : List EntryId} (h : ids.Perm ids') :
    s.settleAll ids' = { s.settleAll ids with acked := s.acked ++ ids' } := by
  rw [settleAll_eq, settleAll_eq]
  simp only [h.mem_iff]

theorem Sound.settleAll {s : Subscription} {length : ℕ} (h : s.Sound length) (ids : List EntryId) :
    (s.settleAll ids).Sound length := by
  induction ids generalizing s with
  | nil => exact h
  | cons id rest ih => exact ih (h.settle id)

end Subscription
end TrackedDelivery.Memory

namespace TrackedDelivery

open Memory

/-- The pending message that a position names to a tracker. -/
def Tracker.meant? (t : Tracker Store) (position : Bytes) : Option EntryId :=
  (t.named? position).filter fun id => t.pending.contains id.text

theorem Tracker.meant?_eq_some {t : Tracker Store} {position : Bytes} {id : EntryId} :
    t.meant? position = some id ↔
      t.named? position = some id ∧ t.pending.contains id.text = true := by
  simp [meant?, Option.filter_eq_some_iff]

/-- An acknowledgment has succeeded. -/
def AckCall.isOk : AckCall Store → Bool
  | .settled (.ok ()) => true
  | _ => false

/-- How many of the positions that name a message were acknowledged, given how each call ended. -/
def Tracker.successes (t : Tracker Store) (id : EntryId) (positions : List Bytes)
    (calls : List (AckCall Store)) : ℕ :=
  (positions.zip calls).countP fun c => decide (t.named? c.1 = some id) && c.2.isOk

theorem Tracker.successes_cons (t : Tracker Store) (id : EntryId) (position : Bytes)
    (positions : List Bytes) (call : AckCall Store) (calls : List (AckCall Store)) :
    t.successes id (position :: positions) (call :: calls) = t.successes id positions calls +
      if decide (t.named? position = some id) && call.isOk then 1 else 0 :=
  List.countP_cons

theorem Tracker.count_meant? (t : Tracker Store) (id : EntryId) (position : Bytes) :
    (t.meant? position).toList.count id =
      if decide (t.named? position = some id) && (t.meant? position).isSome then 1 else 0 := by
  cases hmeant : t.meant? position with
  | none => simp
  | some other =>
      have hnamed := (meant?_eq_some.mp hmeant).1
      simp [hnamed, List.count_singleton]

namespace Memory

/-! ## One acknowledgment -/

/-- A delivery whose consumer is attached, while the broker refuses no acknowledgment. Nothing
that is pending is queued for redelivery. -/
structure Ready (w : Delivery Store) (options : SubscribeOptions) : Prop where
  sound : w.broker.Sound
  attached : w.broker.attached? w.tracker.consumer = some options
  willing : w.broker.failAcknowledges = []
  keyed : Keyed w.tracker
  unqueued : ∀ id : EntryId, w.tracker.pending.contains id.text = true →
    id.entry.toNat ∉ (w.broker.subscriptionOrNew options.topic options.subscription).redeliver

/-- What a delivery has become when pending messages have been acknowledged. -/
structure Acknowledges (w : Delivery Store) (options : SubscribeOptions) (ids : List EntryId)
    (after : Delivery Store) : Prop where
  consumer : after.tracker.consumer = w.tracker.consumer
  subscription : after.tracker.subscription = w.tracker.subscription
  pending : ∀ id ∈ ids, w.tracker.pending.contains id.text = true
  nodup : ids.Nodup
  find : ∀ key, after.tracker.pending.find? key =
    if key ∈ ids.map EntryId.text then none else w.tracker.pending.find? key
  broker : after.broker = w.broker.put options.topic options.subscription
    ((w.broker.subscriptionOrNew options.topic options.subscription).settleAll ids)

theorem tracker_ext {t u : Tracker Store} (hconsumer : u.consumer = t.consumer)
    (hsubscription : u.subscription = t.subscription)
    (hpending : ∀ key, u.pending.find? key = t.pending.find? key) : u = t := by
  obtain ⟨consumer, subscription, pending⟩ := t
  obtain ⟨consumer', subscription', pending'⟩ := u
  obtain rfl : consumer' = consumer := hconsumer
  obtain rfl : subscription' = subscription := hsubscription
  obtain rfl : pending' = pending := TextMap.eq_of_find?_eq hpending
  rfl

section

variable {w after last : Delivery Store} {options : SubscribeOptions} {ids rest : List EntryId}
  {position : Bytes}

namespace Acknowledges

theorem named? (h : Acknowledges w options ids after) (position : Bytes) :
    after.tracker.named? position = w.tracker.named? position := by
  rw [Tracker.named?, h.subscription, Tracker.named?]

theorem contains (h : Acknowledges w options ids after) (id : EntryId) :
    after.tracker.pending.contains id.text = true ↔
      w.tracker.pending.contains id.text = true ∧ id ∉ ids := by
  have hmem : id.text ∈ ids.map EntryId.text ↔ id ∈ ids := by
    simp [List.mem_map, EntryId.text_inj]
  rw [TextMap.contains, h.find, TextMap.contains]
  split <;> simp_all

theorem successes (h : Acknowledges w options ids after) (id : EntryId) (positions : List Bytes)
    (calls : List (AckCall Store)) :
    after.tracker.successes id positions calls = w.tracker.successes id positions calls := by
  simp only [Tracker.successes, h.named?]

theorem settled (h : Acknowledges w options ids after) :
    after.broker.subscriptionOrNew options.topic options.subscription =
      (w.broker.subscriptionOrNew options.topic options.subscription).settleAll ids := by
  rw [h.broker, Store.subscriptionOrNew_put, if_pos ⟨rfl, rfl⟩]

theorem trans (h : Acknowledges w options ids after) (h' : Acknowledges after options rest last) :
    Acknowledges w options (ids ++ rest) last where
  consumer := h'.consumer.trans h.consumer
  subscription := h'.subscription.trans h.subscription
  pending id hid := by
    rcases List.mem_append.mp hid with hid | hid
    · exact h.pending id hid
    · exact ((h.contains id).mp (h'.pending id hid)).1
  nodup := by
    refine List.nodup_append.mpr ⟨h.nodup, h'.nodup, ?_⟩
    rintro id hid _ hrest rfl
    exact ((h.contains id).mp (h'.pending id hrest)).2 hid
  find key := by
    rw [h'.find, h.find, List.map_append]
    simp only [List.mem_append]
    by_cases hkey : key ∈ rest.map EntryId.text
    · rw [if_pos hkey, if_pos (.inr hkey)]
    · simp only [hkey, if_false, or_false]
  broker := by
    rw [h'.broker, h.settled, h.broker, Store.put_put, Subscription.settleAll,
      Subscription.settleAll, Subscription.settleAll, List.foldl_append]

/-- Trackers from which the same messages have gone are the same. -/
theorem tracker_eq (h : Acknowledges w options ids after) (h' : Acknowledges w options rest last)
    (hmem : ∀ id, id ∈ ids ↔ id ∈ rest) : last.tracker = after.tracker := by
  refine tracker_ext (h'.consumer.trans h.consumer.symm)
    (h'.subscription.trans h.subscription.symm) fun key => ?_
  have hkeys : key ∈ rest.map EntryId.text ↔ key ∈ ids.map EntryId.text := by
    simp only [List.mem_map, hmem]
  simp only [h.find, h'.find, hkeys]

end Acknowledges

namespace Ready

theorem subscription? (h : Ready w options) :
    w.broker.subscription? options.topic options.subscription =
      some (w.broker.subscriptionOrNew options.topic options.subscription) :=
  h.sound.subscription?_of_attached h.attached

/-- Whatever leaves tracker and broker as they are acknowledges nothing. -/
theorem unchanged (h : Ready w options) (log : List Event) :
    Acknowledges w options [] { w with log } where
  consumer := rfl
  subscription := rfl
  pending _ hid := by cases hid
  nodup := .nil
  find _ := rfl
  broker := (Store.put_of_subscription? h.subscription?).symm

theorem acknowledgeId (h : Ready w options) {id : EntryId}
    (hpending : w.tracker.pending.contains id.text = true) :
    (w.acknowledgeId id).1 = .settled (.ok ()) ∧
      Acknowledges w options [id] (w.acknowledgeId id).2 := by
  obtain ⟨m, hm⟩ := TextMap.contains_iff.mp hpending
  have hid : m.id = id := (EntryId.text_inj.mp (h.keyed _ m hm)).symm
  have hack : w.broker.acknowledge w.tracker.consumer m.id = (.ok (),
      w.broker.put options.topic options.subscription
        ((w.broker.subscriptionOrNew options.topic options.subscription).settle id)) := by
    rw [Store.acknowledge, h.attached, h.willing, hid]
    dsimp only
    rw [Store.modifySubscription_eq_put h.subscription?]
  rw [acknowledgeId_eq, hm]
  dsimp only
  rw [confirm_of_ok (d := takeOut w id) hack]
  refine ⟨rfl, rfl, rfl, ?_, List.nodup_singleton _, fun key => ?_, rfl⟩
  · simpa using hpending
  · simp [takeOut, TextMap.find?_erase]

/-- An acknowledgment succeeds exactly if its position names a pending message, and then it
acknowledges this one. -/
theorem acknowledge (h : Ready w options) (position : Bytes) :
    (w.acknowledge position).1.isOk = (w.tracker.meant? position).isSome ∧
      Acknowledges w options (w.tracker.meant? position).toList (w.acknowledge position).2 := by
  rw [acknowledge_eq]
  cases hmeaning : w.tracker.meaning position with
  | error e =>
      have hnone : w.tracker.meant? position = none := by
        rw [Tracker.meant?, Tracker.named?_eq, hmeaning]
        rfl
      rw [hnone]
      exact ⟨rfl, h.unchanged w.log⟩
  | ok id =>
      have hnamed : w.tracker.named? position = some id := Tracker.named?_eq_some.mpr hmeaning
      dsimp only
      cases hpending : w.tracker.pending.contains id.text with
      | true =>
          obtain ⟨hok, hacknowledges⟩ := h.acknowledgeId hpending
          rw [Tracker.meant?_eq_some.mpr ⟨hnamed, hpending⟩, hok]
          exact ⟨rfl, hacknowledges⟩
      | false =>
          have hnone : w.tracker.meant? position = none := by
            simp [Tracker.meant?, hnamed, hpending]
          have hfree : w.tracker.pending.find? id.text = none := by
            simpa [TextMap.contains] using hpending
          rw [hnone, acknowledgeId_eq, hfree]
          exact ⟨rfl, h.unchanged _⟩

theorem of_acknowledges (h : Ready w options) (ha : Acknowledges w options ids after) :
    Ready after options where
  sound := by
    rw [ha.broker]
    refine h.sound.put ((h.sound.subscription _ _).settleAll ids) ?_
    rw [Subscription.settleAll_eq]
  attached := by
    rw [ha.broker, ha.consumer]
    exact h.attached
  willing := by
    rw [ha.broker]
    exact h.willing
  keyed key m hm := by
    rw [ha.find] at hm
    split at hm
    · cases hm
    · exact h.keyed key m hm
  unqueued id hid := by
    rw [ha.settled, Subscription.settleAll_eq]
    intro hmem
    exact h.unqueued id ((ha.contains id).mp hid).1 (List.mem_filter.mp hmem).1

end Ready

/-! ## Acknowledgments one after another -/

theorem acknowledgeBatch_cons (w : Delivery Store) (position : Bytes) (positions : List Bytes) :
    w.acknowledgeBatch (position :: positions) =
      ((w.acknowledge position).1 :: ((w.acknowledge position).2.acknowledgeBatch positions).1,
        ((w.acknowledge position).2.acknowledgeBatch positions).2) := rfl

/-- Of positions that are acknowledged one after another, those succeed that are the first to name
some pending message. -/
theorem Ready.acknowledgeBatch (h : Ready w options) (positions : List Bytes) : ∃ ids,
    Acknowledges w options ids (w.acknowledgeBatch positions).2 ∧
    (∀ id, id ∈ ids ↔ w.tracker.pending.contains id.text = true ∧
      ∃ p ∈ positions, w.tracker.named? p = some id) ∧
    (w.acknowledgeBatch positions).1.countP AckCall.isOk = ids.length ∧
    ∀ id, w.tracker.successes id positions (w.acknowledgeBatch positions).1 = ids.count id := by
  induction positions generalizing w with
  | nil => exact ⟨[], h.unchanged w.log, by simp, rfl, fun _ => rfl⟩
  | cons position rest ih =>
      obtain ⟨hok, hfirst⟩ := h.acknowledge position
      obtain ⟨ids, hrest, hmem, hcount, hsuccesses⟩ := ih (h.of_acknowledges hfirst)
      have hhead : ∀ id, id ∈ (w.tracker.meant? position).toList ↔
          w.tracker.named? position = some id ∧ w.tracker.pending.contains id.text = true :=
        fun id => Option.mem_toList.trans Tracker.meant?_eq_some
      refine ⟨_, hfirst.trans hrest, fun id => ?_, ?_, fun id => ?_⟩
      · simp only [List.mem_append, hmem, hfirst.contains, hfirst.named?, hhead, List.mem_cons,
          exists_eq_or_imp]
        tauto
      · rw [acknowledgeBatch_cons, List.countP_cons, hcount, hok, List.length_append, Nat.add_comm]
        cases w.tracker.meant? position <;> rfl
      · rw [acknowledgeBatch_cons, Tracker.successes_cons, ← hfirst.successes, hsuccesses, hok,
          List.count_append, Nat.add_comm, w.tracker.count_meant?]

/-- Positions in another order are positions that name the same pending messages. -/
theorem Ready.acknowledgeBatch_perm (h : Ready w options) {positions positions' : List Bytes}
    (hperm : positions.Perm positions') : ∃ ids ids', ids.Perm ids' ∧
      Acknowledges w options ids (w.acknowledgeBatch positions).2 ∧
      Acknowledges w options ids' (w.acknowledgeBatch positions').2 ∧
      (w.acknowledgeBatch positions).1.countP AckCall.isOk =
        (w.acknowledgeBatch positions').1.countP AckCall.isOk ∧
      ∀ id, w.tracker.successes id positions (w.acknowledgeBatch positions).1 ≤ 1 := by
  obtain ⟨ids, hacknowledges, hmem, hcount, hsuccesses⟩ := h.acknowledgeBatch positions
  obtain ⟨ids', hacknowledges', hmem', hcount', -⟩ := h.acknowledgeBatch positions'
  have hids : ids.Perm ids' := by
    refine (List.perm_ext_iff_of_nodup hacknowledges.nodup hacknowledges'.nodup).mpr fun id => ?_
    simp only [hmem, hmem', hperm.mem_iff]
  refine ⟨ids, ids', hids, hacknowledges, hacknowledges', ?_, fun id => ?_⟩
  · rw [hcount, hcount', hids.length_eq]
  · rw [hsuccesses]
    exact List.nodup_iff_count_le_one.mp hacknowledges.nodup id

end
end Memory
end TrackedDelivery
