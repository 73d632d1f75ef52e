import TrackedDelivery.Proofs.TextMap
import TrackedDelivery.Proofs.Memory.Isolation
/-!
# Ledgers

A topic gets the count of the topics that there are as its ledger when it is created, by a publish
or by a subscribe, and keeps it. So the ledgers in use are the numbers below the count of topics, in
words of 64 bits, and as long as the words suffice no two topics have the same one.
-/
namespace TrackedDelivery.Memory.Store

variable {b b' : Store} {gone : ℕ → Prop}

def ledgers (b : Store) : List UInt64 := b.topics.values.map (·.ledger)

/-- The ledgers in use are the numbers below the count of topics. -/
def Numbered (b : Store) : Prop :=
  b.ledgers.Perm ((List.range b.topics.size).map UInt64.ofNat)

/-! ## One topic at a time -/

/-- Topics stay as they are, but for one that may be put in place with the ledger that it has or
would get. -/
def KeepsLedgers (b b' : Store) : Prop :=
  b'.topics = b.topics ∨ ∃ name t, t.ledger = (b.topicOrNew name).ledger ∧
    b'.topics = (b.setTopic name t).topics

theorem keepsLedgers_of_put {topic name : String} {s : Subscription}
    (h : b'.topics = (b.put topic name s).topics) : b.KeepsLedgers b' :=
  .inr ⟨topic, { b.topicOrNew topic with
    subscriptions := (b.topicOrNew topic).subscriptions.insert name s }, rfl, h⟩

theorem keepsLedgers_modifySubscription (b : Store) (topic name : String)
    (f : Subscription → Subscription) :
    b.KeepsLedgers (b.modifySubscription topic name f) := by
  rcases b.modifySubscription_cases topic name f with h | ⟨s, h⟩
  · exact .inl (congrArg topics h)
  · exact keepsLedgers_of_put (congrArg topics h)

theorem keepsLedgers_release (b : Store) (consumer : ℕ) : b.KeepsLedgers (b.release consumer) := by
  unfold release
  split
  · exact .inl rfl
  · exact b.keepsLedgers_modifySubscription ..

theorem keepsLedgers_subscribe (b : Store) (client : ℕ) (options : SubscribeOptions) :
    b.KeepsLedgers (b.subscribe client options).2 := by
  rcases b.subscribe_cases client options with ⟨e, -, haway⟩ | ⟨-, hattach⟩
  · rcases haway.topics with ht | ht
    · exact .inl ht
    · exact keepsLedgers_of_put ht
  · exact keepsLedgers_of_put hattach.topics

theorem keepsLedgers_acknowledge (b : Store) (consumer : ℕ) (id : EntryId) :
    b.KeepsLedgers (b.acknowledge consumer id).2 := by
  unfold acknowledge
  split
  · exact .inl rfl
  · split
    · exact .inl rfl
    · exact b.keepsLedgers_modifySubscription ..

theorem keepsLedgers_stimulate (b : Store) (stimulus : Stimulus) :
    b.KeepsLedgers (b.stimulate stimulus).2 := by
  cases stimulus with
  | publish topic key payload eventTime now =>
      change b.KeepsLedgers (b.publish topic key payload eventTime now).2
      rcases b.publish_cases topic key payload eventTime now with h | ⟨m, -, -, -, h⟩
      · exact .inl (congrArg topics h)
      · rw [h]
        exact .inr ⟨topic, { b.topicOrNew topic with log := (b.topicOrNew topic).log ++ [m] }, rfl,
          rfl⟩
  | _ => exact .inl rfl

/-- No operation changes a ledger, and none creates two topics. -/
theorem Operation.keepsLedgers (h : Operation gone b b') : b.KeepsLedgers b' := by
  cases h with
  | connect options => exact .inl (b.connect_quiet options).1
  | subscribe client options => exact b.keepsLedgers_subscribe client options
  | receive consumer =>
      rcases b.tryReceive_puts consumer with hquiet | ⟨options, s, -, hput⟩
      · exact .inl hquiet.1
      · exact keepsLedgers_of_put (congrArg topics hput)
  | acknowledge consumer id => exact b.keepsLedgers_acknowledge consumer id
  | close consumer => exact b.keepsLedgers_release consumer
  | drop _ => exact b.keepsLedgers_release _
  | closeClient client => exact .inl (b.closeClient_quiet client).1
  | stimulate stimulus => exact b.keepsLedgers_stimulate stimulus

/-! ## The numbers of the ledgers -/

theorem numbered_empty : ({} : Store).Numbered := List.Perm.nil

theorem numbered_congr (h : b'.topics = b.topics) (hb : b.Numbered) : b'.Numbered := by
  rwa [Numbered, ledgers, h]

theorem ledgers_eq (b : Store) : b.ledgers = b.topics.entries.map (·.2.ledger) := by
  rw [ledgers, TextMap.values, List.map_map]
  rfl

/-- The ledger of a topic that is created is the next number. -/
theorem Numbered.setTopic (h : b.Numbered) {name : String} {t : Topic}
    (ht : t.ledger = (b.topicOrNew name).ledger) : (b.setTopic name t).Numbered := by
  have hsize : (b.setTopic name t).topics.size = (b.topics.insert name t).entries.length := rfl
  rw [Numbered, ledgers_eq] at h ⊢
  rw [topicOrNew] at ht
  cases hold : b.topics.find? name with
  | none =>
      have hperm := TextMap.perm_entries_insert t hold
      rw [hold, Option.getD_none] at ht
      rw [hsize, hperm.length_eq, List.length_cons, List.range_succ, List.map_append]
      refine (hperm.map _).trans ?_
      rw [List.map_cons, ht]
      exact (h.cons _).trans (List.perm_append_singleton _ _).symm
  | some old =>
      have hperm := TextMap.perm_entries_insert_erase b.topics name t
      have hperm' := TextMap.perm_entries_erase hold
      rw [hold, Option.getD_some] at ht
      rw [hsize, hperm.length_eq, List.length_cons, ← List.length_cons, ← hperm'.length_eq]
      refine (hperm.map _).trans (.trans ?_ h)
      rw [List.map_cons, ht]
      exact (hperm'.map (·.2.ledger)).symm

theorem KeepsLedgers.numbered (h : b.KeepsLedgers b') (hb : b.Numbered) : b'.Numbered := by
  rcases h with h | ⟨name, t, ht, h⟩
  · exact numbered_congr h hb
  · exact numbered_congr h (hb.setTopic ht)

/-- As long as the words suffice, the ledger tells the topic. -/
theorem Numbered.ledger_inj (h : b.Numbered) (hsize : b.topics.size ≤ UInt64.size)
    {t u : String} {ledger : UInt64} (ht : b.ledger? t = some ledger)
    (hu : b.ledger? u = some ledger) : t = u := by
  obtain ⟨x, hx, hxledger⟩ := Option.map_eq_some_iff.mp ht
  obtain ⟨y, hy, hyledger⟩ := Option.map_eq_some_iff.mp hu
  have hnodup : b.ledgers.Nodup := by
    refine h.nodup_iff.mpr (List.Nodup.map_on ?_ List.nodup_range)
    intro m hm n hn heq
    have hmlt := Nat.lt_of_lt_of_le (List.mem_range.mp hm) hsize
    have hnlt := Nat.lt_of_lt_of_le (List.mem_range.mp hn) hsize
    rw [← UInt64.toNat_ofNat_of_lt' hmlt, heq, UInt64.toNat_ofNat_of_lt' hnlt]
  rw [ledgers_eq] at hnodup
  have hsame : (t, x) = (u, y) :=
    List.inj_on_of_nodup_map hnodup (TextMap.find?_eq_some_iff.mp hx)
      (TextMap.find?_eq_some_iff.mp hy) (hxledger.trans hyledger.symm)
  exact congrArg Prod.fst hsame

/-! ## The identifiers of a log -/

/-- A topic of which there is a message exists. -/
theorem ledger?_of_mem_log {topic : String} {m : Message EntryId} (hm : m ∈ b.log topic) :
    b.ledger? topic = some (b.topicOrNew topic).ledger := by
  rw [log, topicOrNew] at hm
  rw [ledger?, topicOrNew]
  cases ht : b.topics.find? topic with
  | none =>
      rw [ht] at hm
      cases hm
  | some t => rfl

/-- The entries of a log are numbered as they stand. -/
theorem Sound.map_entry_log (h : b.Sound) (topic : String) :
    (b.log topic).map (fun m => m.id.entry.toNat) = List.range (b.log topic).length := by
  refine List.ext_getElem (by simp) fun i hi _ => ?_
  rw [List.length_map] at hi
  rw [List.getElem_map, List.getElem_range]
  exact (h.topicOrNew topic).toNat_entry (List.getElem?_eq_getElem hi)

theorem Sound.nodup_ids (h : b.Sound) (topic : String) : ((b.log topic).map (·.id)).Nodup := by
  refine List.Nodup.of_map (·.entry.toNat) ?_
  rw [List.map_map]
  refine (h.map_entry_log topic).symm ▸ List.nodup_range

/-- Messages with one identifier are of one topic. -/
theorem Sound.topic_of_id (h : b.Sound) (hnumbered : b.Numbered)
    (hsize : b.topics.size ≤ UInt64.size) {t u : String} {m m' : Message EntryId}
    (hm : m ∈ b.log t) (hm' : m' ∈ b.log u) (hid : m.id = m'.id) : t = u := by
  obtain ⟨i, hi⟩ := List.getElem?_of_mem hm
  obtain ⟨j, hj⟩ := List.getElem?_of_mem hm'
  have hmid := ((h.topicOrNew t).message i m hi).1
  have hmid' := ((h.topicOrNew u).message j m' hj).1
  rw [hmid, hmid'] at hid
  have hledger := ledger?_of_mem_log hm'
  rw [← (EntryId.mk.inj hid).1] at hledger
  exact hnumbered.ledger_inj hsize (ledger?_of_mem_log hm) hledger

end TrackedDelivery.Memory.Store
