import TrackedDelivery.Memory.Broker
import TrackedDelivery.Proofs.TextMap
/-!
# Sound stores

What holds of the in-memory broker whatever is done to it, raw consumers included. The messages
of a log carry their own places; a subscription stays within its log and queues for redelivery
only what is unacknowledged; and its count of active consumers is that of the consumers which are
attached. Main statement: every operation of the store keeps a store sound.
-/
namespace TrackedDelivery.Memory

/-! ## Subscriptions -/

/-- A subscription of a log that holds `length` messages. -/
structure Subscription.Sound (length : ℕ) (s : Subscription) : Prop where
  cursor_le : s.cursor ≤ length
  unacked_ascending : s.unacked.Pairwise (· < ·)
  unacked_below : ∀ e ∈ s.unacked, e < s.cursor
  redeliver_ascending : s.redeliver.Pairwise (· < ·)
  redeliver_subset : ∀ e ∈ s.redeliver, e ∈ s.unacked

/-- What it is for a subscription to give out an entry: one that nobody has received, or one
that is queued for redelivery. -/
structure Subscription.Gives (s : Subscription) (entry : ℕ) (s' : Subscription) : Prop where
  new_or_queued : s.cursor ≤ entry ∨ entry ∈ s.redeliver
  lt_cursor : ∀ e, e < s'.cursor ↔ e = entry ∨ e < s.cursor
  mem_unacked : ∀ e, e ∈ s'.unacked ↔ e = entry ∨ e ∈ s.unacked
  mem_redeliver : ∀ e, e ∈ s'.redeliver ↔ e ∈ s.redeliver ∧ e ≠ entry
  acked : s'.acked = s.acked
  activeConsumers : s'.activeConsumers = s.activeConsumers

namespace Subscription

theorem next?_cases {s s' : Subscription} {length entry : ℕ}
    (h : s.next? length = some (entry, s')) :
    (∃ rest, s.redeliver = entry :: rest ∧
      s' = { s with redeliver := rest, unacked := insertEntry entry s.unacked }) ∨
    (s.redeliver = [] ∧ entry = s.cursor ∧ s.cursor < length ∧
      s' = { s with cursor := s.cursor + 1, unacked := insertEntry s.cursor s.unacked }) := by
  unfold next? at h
  split at h
  · rename_i e rest hr
    cases h
    exact .inl ⟨rest, hr, rfl⟩
  · rename_i hr
    split at h
    · cases h
      exact .inr ⟨hr, rfl, ‹_›, rfl⟩
    · cases h

theorem Sound.next {s s' : Subscription} {length entry : ℕ} (h : s.Sound length)
    (hn : s.next? length = some (entry, s')) : s'.Sound length := by
  rcases next?_cases hn with ⟨rest, hr, rfl⟩ | ⟨hr, rfl, hlt, rfl⟩
  · have hmem : entry ∈ s.unacked := h.redeliver_subset entry (by simp [hr])
    have hasc := h.redeliver_ascending
    rw [hr] at hasc
    refine ⟨h.cursor_le, ascending_insertEntry h.unacked_ascending, ?_, hasc.of_cons, ?_⟩
    · intro e he
      rcases mem_insertEntry.mp he with rfl | he
      · exact h.unacked_below _ hmem
      · exact h.unacked_below e he
    · intro e he
      exact mem_insertEntry.mpr (.inr (h.redeliver_subset e (by simp [hr, he])))
  · refine ⟨hlt, ascending_insertEntry h.unacked_ascending, ?_, h.redeliver_ascending, ?_⟩
    · intro e he
      rcases mem_insertEntry.mp he with rfl | he
      · exact Nat.lt_succ_self _
      · exact Nat.lt_succ_of_lt (h.unacked_below e he)
    · simp [hr]

theorem Sound.gives {s s' : Subscription} {length entry : ℕ} (h : s.Sound length)
    (hn : s.next? length = some (entry, s')) : s.Gives entry s' := by
  rcases next?_cases hn with ⟨rest, hr, rfl⟩ | ⟨hr, rfl, -, rfl⟩
  · have hlt : entry < s.cursor :=
      h.unacked_below _ (h.redeliver_subset entry (by simp [hr]))
    have hasc := h.redeliver_ascending
    rw [hr] at hasc
    have hnot : ∀ e ∈ rest, e ≠ entry := fun e he =>
      Nat.ne_of_gt (List.rel_of_pairwise_cons hasc he)
    refine ⟨.inr (by simp [hr]), fun e => ?_, fun e => mem_insertEntry, fun e => ?_, rfl, rfl⟩
    · constructor
      · exact .inr
      · rintro (rfl | he)
        · exact hlt
        · exact he
    · rw [hr]
      constructor
      · exact fun he => ⟨List.mem_cons_of_mem _ he, hnot e he⟩
      · exact fun ⟨he, hne⟩ => (List.mem_cons.mp he).resolve_left hne
  · refine ⟨.inl (Nat.le_refl _), fun e => ?_, fun e => mem_insertEntry, fun e => ?_, rfl, rfl⟩
    · change e < s.cursor + 1 ↔ _
      omega
    · simp [hr]

theorem Gives.cursor_le {s s' : Subscription} {entry : ℕ} (h : s.Gives entry s') :
    s.cursor ≤ s'.cursor := by
  by_contra hlt
  exact Nat.lt_irrefl _ ((h.lt_cursor s'.cursor).mpr (.inr (Nat.lt_of_not_le hlt)))

theorem Sound.settle {s : Subscription} {length : ℕ} (h : s.Sound length) (id : EntryId) :
    (s.settle id).Sound length where
  cursor_le := h.cursor_le
  unacked_ascending := h.unacked_ascending.filter _
  unacked_below e he := h.unacked_below e (List.mem_filter.mp he).1
  redeliver_ascending := h.redeliver_ascending.filter _
  redeliver_subset e he := by
    obtain ⟨hr, hne⟩ := List.mem_filter.mp he
    exact List.mem_filter.mpr ⟨h.redeliver_subset e hr, hne⟩

theorem Sound.attach {s : Subscription} {length : ℕ} (h : s.Sound length) :
    s.attach.Sound length where
  cursor_le := h.cursor_le
  unacked_ascending := h.unacked_ascending
  unacked_below := h.unacked_below
  redeliver_ascending := by
    unfold Subscription.attach
    split
    · exact h.unacked_ascending
    · exact h.redeliver_ascending
  redeliver_subset := by
    unfold Subscription.attach
    split
    · exact fun e he => he
    · exact h.redeliver_subset

theorem Sound.detach {s : Subscription} {length : ℕ} (h : s.Sound length) :
    s.detach.Sound length :=
  ⟨h.cursor_le, h.unacked_ascending, h.unacked_below, h.redeliver_ascending, h.redeliver_subset⟩

theorem Sound.empty (length : ℕ) : ({} : Subscription).Sound length :=
  ⟨Nat.zero_le _, .nil, by simp, .nil, by simp⟩

theorem Sound.mono {s : Subscription} {length length' : ℕ} (h : s.Sound length)
    (hle : length ≤ length') : s.Sound length' :=
  { h with cursor_le := Nat.le_trans h.cursor_le hle }

end Subscription

/-! ## Topics -/

structure Topic.Sound (name : String) (t : Topic) : Prop where
  length_le : t.log.length ≤ Store.logCapacity
  message : ∀ (i : ℕ) (m : Message EntryId), t.log[i]? = some m →
    m.id = ⟨t.ledger, UInt64.ofNat i⟩ ∧ m.topic = name
  subscription : ∀ n s, t.subscriptions.find? n = some s → s.Sound t.log.length

namespace Topic

theorem Sound.new (name : String) (ledger : UInt64) : ({ ledger } : Topic).Sound name :=
  ⟨Nat.zero_le _, by simp, by simp⟩

/-- A place in a log is not lost in the word that numbers it. -/
theorem Sound.toNat_entry {name : String} {t : Topic} (h : t.Sound name) {i : ℕ}
    {m : Message EntryId} (hm : t.log[i]? = some m) : m.id.entry.toNat = i := by
  have hlt : i < 2 ^ 64 :=
    Nat.lt_of_lt_of_le (List.getElem?_eq_some_iff.mp hm).1 h.length_le
  rw [(h.message i m hm).1]
  exact UInt64.toNat_ofNat_of_lt' hlt

theorem Sound.publish {name : String} {t : Topic} (h : t.Sound name)
    (hroom : t.log.length < Store.logCapacity) {m : Message EntryId}
    (hid : m.id = ⟨t.ledger, UInt64.ofNat t.log.length⟩) (ht : m.topic = name) :
    ({ t with log := t.log ++ [m] } : Topic).Sound name where
  length_le := by
    rw [List.length_append, List.length_singleton]
    exact hroom
  message i m' hm := by
    rcases Nat.lt_or_ge i t.log.length with hlt | hge
    · rw [List.getElem?_append_left hlt] at hm
      exact h.message i m' hm
    · rw [List.getElem?_append_right hge] at hm
      have hi : i = t.log.length := by
        have hlt := (List.getElem?_eq_some_iff.mp hm).1
        simp only [List.length_singleton] at hlt
        omega
      subst hi
      simp only [Nat.sub_self, List.getElem?_cons_zero, Option.some.injEq] at hm
      subst hm
      exact ⟨hid, ht⟩
  subscription n s hs := (h.subscription n s hs).mono (by simp)

theorem Sound.insert {name : String} {t : Topic} (h : t.Sound name) {n : String}
    {s : Subscription} (hs : s.Sound t.log.length) :
    ({ t with subscriptions := t.subscriptions.insert n s } : Topic).Sound name where
  length_le := h.length_le
  message := h.message
  subscription n' s' hs' := by
    rw [TextMap.find?_insert] at hs'
    split at hs'
    · cases hs'
      exact hs
    · exact h.subscription n' s' hs'

end Topic

/-! ## Stores -/

namespace Store

/-- How many consumers are attached to a subscription. -/
def attachments (b : Store) (topic name : String) : ℕ :=
  b.consumers.countP fun a =>
    !a.closed && (topic == a.options.topic && name == a.options.subscription)

def ledger? (b : Store) (topic : String) : Option UInt64 :=
  (b.topics.find? topic).map (·.ledger)

/-- A subscription as a consumer that attaches would find it. -/
def subscriptionOrNew (b : Store) (topic name : String) : Subscription :=
  (b.subscription? topic name).getD {}

structure Sound (b : Store) : Prop where
  topic : ∀ name t, b.topics.find? name = some t → t.Sound name
  counted : ∀ topic name,
    (b.subscriptionOrNew topic name).activeConsumers = b.attachments topic name

/-- Puts a subscription in place, on a new topic if need be. All changes of subscriptions are
of this form. -/
def put (b : Store) (topic name : String) (s : Subscription) : Store :=
  b.setTopic topic { b.topicOrNew topic with
    subscriptions := (b.topicOrNew topic).subscriptions.insert name s }

theorem subscription?_eq (b : Store) (topic name : String) :
    b.subscription? topic name = (b.topicOrNew topic).subscriptions.find? name := by
  unfold subscription? topicOrNew
  cases b.topics.find? topic <;> simp

theorem subscription?_eq_some {b : Store} {topic name : String} {s : Subscription} :
    b.subscription? topic name = some s ↔
      ∃ t, b.topics.find? topic = some t ∧ t.subscriptions.find? name = some s := by
  simp only [subscription?, Option.bind_eq_some_iff]

theorem subscriptionOrNew_of_some {b : Store} {topic name : String} {s : Subscription}
    (h : b.subscription? topic name = some s) : b.subscriptionOrNew topic name = s := by
  simp [subscriptionOrNew, h]

theorem subscriptionOrNew_congr {b b' : Store} (h : b'.topics = b.topics) (topic name : String) :
    b'.subscriptionOrNew topic name = b.subscriptionOrNew topic name := by
  simp only [subscriptionOrNew, subscription?, h]

/-- The identifier of an entry of a topic. -/
def idAt (b : Store) (topic : String) (entry : ℕ) : EntryId :=
  ⟨(b.topicOrNew topic).ledger, UInt64.ofNat entry⟩

theorem unacknowledged_eq (b : Store) (topic name : String) : b.unacknowledged topic name =
    (b.subscriptionOrNew topic name).unacked.map (b.idAt topic) := by
  unfold unacknowledged subscriptionOrNew subscription? idAt topicOrNew
  cases b.topics.find? topic with
  | none => rfl
  | some t =>
      rw [Option.bind_some]
      cases t.subscriptions.find? name <;> rfl

theorem attachments_congr {b b' : Store} (h : b'.consumers = b.consumers) (topic name : String) :
    b'.attachments topic name = b.attachments topic name := by
  simp only [attachments, h]

theorem subscription?_put (b : Store) (topic name t n : String) (s : Subscription) :
    (b.put topic name s).subscription? t n
      = if t = topic ∧ n = name then some s else b.subscription? t n := by
  rw [put, subscription?_setTopic]
  by_cases ht : t = topic
  · subst ht
    rw [if_pos rfl, TextMap.find?_insert, subscription?_eq]
    simp
  · simp [ht]

theorem subscriptionOrNew_put (b : Store) (topic name t n : String) (s : Subscription) :
    (b.put topic name s).subscriptionOrNew t n
      = if t = topic ∧ n = name then s else b.subscriptionOrNew t n := by
  rw [subscriptionOrNew, subscription?_put]
  split <;> rfl

theorem ledger?_put {b : Store} {topic name t : String} {s : Subscription} {ledger : UInt64}
    (h : b.ledger? t = some ledger) : (b.put topic name s).ledger? t = some ledger := by
  unfold ledger? put setTopic at *
  rw [TextMap.find?_insert]
  split
  · rename_i ht
    subst ht
    obtain ⟨old, hold, rfl⟩ := Option.map_eq_some_iff.mp h
    simp [topicOrNew, hold]
  · exact h

theorem modifySubscription_eq_put {b : Store} {topic name : String} {s : Subscription}
    (h : b.subscription? topic name = some s) (f : Subscription → Subscription) :
    b.modifySubscription topic name f = b.put topic name (f s) := by
  obtain ⟨t, ht, hs⟩ := subscription?_eq_some.mp h
  simp [modifySubscription, put, topicOrNew, ht, hs]

/-- A subscription that does not exist is not replaced. -/
theorem modifySubscription_cases (b : Store) (topic name : String)
    (f : Subscription → Subscription) :
    b.modifySubscription topic name f = b ∨
      ∃ s, b.modifySubscription topic name f = b.put topic name (f s) := by
  cases hs : b.subscription? topic name with
  | none =>
      left
      unfold modifySubscription
      split
      · rfl
      · rename_i found ht
        rw [subscription?, ht, Option.bind_some] at hs
        rw [hs]
  | some s => exact .inr ⟨s, modifySubscription_eq_put hs f⟩

theorem put_put (b : Store) (topic name : String) (s s' : Subscription) :
    (b.put topic name s).put topic name s' = b.put topic name s' := by
  have htopic : (b.put topic name s).topicOrNew topic = { b.topicOrNew topic with
      subscriptions := (b.topicOrNew topic).subscriptions.insert name s } := by
    simp [put, setTopic, topicOrNew, TextMap.find?_insert]
  rw [put, htopic]
  simp only [put, setTopic, TextMap.insert_insert]

/-- Putting a subscription where it stands changes nothing. -/
theorem put_of_subscription? {b : Store} {topic name : String} {s : Subscription}
    (h : b.subscription? topic name = some s) : b.put topic name s = b := by
  obtain ⟨t, ht, hs⟩ := subscription?_eq_some.mp h
  simp only [put, setTopic, topicOrNew, ht, Option.getD_some, TextMap.insert_of_find? hs]
  rw [TextMap.insert_of_find? ht]

theorem attached?_eq_some {b : Store} {consumer : ℕ} {options : SubscribeOptions} :
    b.attached? consumer = some options ↔
      b.consumers[consumer]? = some { options, closed := false } := by
  unfold attached?
  split
  · rename_i o h
    simp [h]
  · rename_i h
    constructor
    · intro hn
      cases hn
    · exact fun hs => absurd hs (h options)

theorem attachments_pos {b : Store} {consumer : ℕ} {options : SubscribeOptions}
    (h : b.attached? consumer = some options) :
    0 < b.attachments options.topic options.subscription :=
  List.countP_pos_iff.mpr ⟨_, List.mem_of_getElem? (attached?_eq_some.mp h), by simp⟩

/-- Somebody is attached to a subscription that counts attachments. -/
theorem exists_attached {b : Store} {topic name : String} (h : 0 < b.attachments topic name) :
    ∃ consumer options, b.attached? consumer = some options ∧
      options.topic = topic ∧ options.subscription = name := by
  obtain ⟨⟨options, closed⟩, hmem, ha⟩ := List.countP_pos_iff.mp h
  obtain ⟨consumer, hc⟩ := List.getElem?_of_mem hmem
  simp only [Bool.and_eq_true, Bool.not_eq_true', beq_iff_eq] at ha
  obtain ⟨rfl, ht, hn⟩ := ha
  exact ⟨consumer, options, attached?_eq_some.mpr hc, ht.symm, hn.symm⟩

namespace Sound

variable {b b' : Store} {topic name : String}

theorem topicOrNew (h : b.Sound) (topic : String) : (b.topicOrNew topic).Sound topic := by
  unfold Store.topicOrNew
  cases ht : b.topics.find? topic with
  | none => exact .new topic _
  | some t => exact h.topic topic t ht

theorem subscription (h : b.Sound) (topic name : String) :
    (b.subscriptionOrNew topic name).Sound (b.topicOrNew topic).log.length := by
  unfold subscriptionOrNew
  rw [subscription?_eq]
  cases hs : (b.topicOrNew topic).subscriptions.find? name with
  | none => exact .empty _
  | some s => exact (h.topicOrNew topic).subscription name s hs

/-- The subscription of an attached consumer exists. -/
theorem subscription?_of_attached (h : b.Sound) {consumer : ℕ} {options : SubscribeOptions}
    (ha : b.attached? consumer = some options) :
    b.subscription? options.topic options.subscription =
      some (b.subscriptionOrNew options.topic options.subscription) := by
  have hpos := attachments_pos ha
  rw [← h.counted, subscriptionOrNew] at hpos
  unfold subscriptionOrNew
  cases hs : b.subscription? options.topic options.subscription with
  | none => simp [hs] at hpos
  | some s => rfl

theorem of_eq (h : b.Sound) (ht : b'.topics = b.topics) (hc : b'.consumers = b.consumers) :
    b'.Sound where
  topic := ht ▸ h.topic
  counted topic name := by
    rw [subscriptionOrNew_congr ht, attachments_congr hc]
    exact h.counted topic name

/-- Whoever counts the consumers anew after a change of one subscription keeps the store sound. -/
theorem of_put (h : b.Sound) {s : Subscription} (hs : s.Sound (b.topicOrNew topic).log.length)
    (ht : b'.topics = (b.put topic name s).topics)
    (hc : ∀ t n, b'.attachments t n =
      if t = topic ∧ n = name then s.activeConsumers else b.attachments t n) : b'.Sound where
  topic other t' ht' := by
    rw [ht, Store.put, setTopic, TextMap.find?_insert] at ht'
    split at ht'
    · rename_i ho
      cases ht'
      exact ho ▸ (h.topicOrNew topic).insert hs
    · exact h.topic other t' ht'
  counted t n := by
    rw [subscriptionOrNew_congr ht, subscriptionOrNew_put, hc]
    split
    · rfl
    · exact h.counted t n

/-- A change of a subscription that leaves its consumers alone keeps the store sound. -/
theorem put (h : b.Sound) {s : Subscription} (hs : s.Sound (b.topicOrNew topic).log.length)
    (ha : s.activeConsumers = (b.subscriptionOrNew topic name).activeConsumers) :
    (b.put topic name s).Sound := by
  refine h.of_put hs rfl fun t n => ?_
  have hc : (b.put topic name s).attachments t n = b.attachments t n := rfl
  rw [hc]
  split
  · rename_i hw
    rw [hw.1, hw.2, ha, h.counted]
  · rfl

end Sound
end Store
end TrackedDelivery.Memory
