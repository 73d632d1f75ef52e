import TrackedDelivery.Proofs.Deployment.Accounting
import TrackedDelivery.Proofs.Deployment.Reports
import Mathlib.Data.List.Range
/-!
# What a tracker-driven run guarantees

Delivery is at least once, and no message is acknowledged twice at the broker: the entries that a
subscription has given out are those not acknowledged and those acknowledged. Nor does a tracker
ever get a message again that it got before: what it got is pending, confirmed or refused.
-/
namespace TrackedDelivery.Memory

/-! ## Subscriptions -/

theorem Settled.perm_range {b : Store} {topic name : String} (h : Settled b topic name)
    (hb : b.Sound) :
    ((b.subscriptionOrNew topic name).unacked ++
      (b.subscriptionOrNew topic name).acked.map (·.entry.toNat)).Perm
        (List.range (b.subscriptionOrNew topic name).cursor) := by
  have hinj : ∀ id ∈ (b.subscriptionOrNew topic name).acked,
      ∀ id' ∈ (b.subscriptionOrNew topic name).acked,
        id.entry.toNat = id'.entry.toNat → id = id' := by
    intro id hid id' hid' he
    have hledger := (h.ledger id hid).symm.trans (h.ledger id' hid')
    obtain ⟨ledger, entry⟩ := id
    obtain ⟨ledger', entry'⟩ := id'
    rw [EntryId.mk.injEq]
    exact ⟨Option.some.inj hledger, UInt64.toNat_inj.mp he⟩
  have hnodup : ((b.subscriptionOrNew topic name).unacked ++
      (b.subscriptionOrNew topic name).acked.map (·.entry.toNat)).Nodup := by
    refine List.nodup_append.mpr ⟨?_, ?_, ?_⟩
    · exact (hb.subscription topic name).unacked_ascending.imp Nat.ne_of_lt
    · exact h.nodup.map_on hinj
    · rintro e he e' he' rfl
      obtain ⟨id, hid, rfl⟩ := List.mem_map.mp he'
      exact h.disjoint id hid he
  refine (List.perm_ext_iff_of_nodup hnodup List.nodup_range).mpr fun e => ?_
  rw [List.mem_range, h.given, List.mem_append, List.mem_map]

/-- In every state of a tracker-driven run, a subscription has given out the entries below its
cursor, and these are the unacknowledged entries and the acknowledged ones, which are all of the
topic's ledger and acknowledged once. What is queued is unacknowledged, and whatever was received
from the subscription is one or the other. -/
theorem entries_unacknowledged_or_acknowledged {steps : List (Step Store)}
    (hs : ∀ s ∈ steps, s.TrackerDriven) {topic name : String} {t : Topic} {s : Subscription}
    (ht : (Deployment.fresh.run steps).2.broker.topics.find? topic = some t)
    (hsub : t.subscriptions.find? name = some s) :
    s.cursor ≤ t.log.length ∧
    (s.unacked ++ s.acked.map (·.entry.toNat)).Perm (List.range s.cursor) ∧
    s.acked.Nodup ∧ (∀ id ∈ s.acked, id.ledger = t.ledger) ∧
    s.redeliver.Pairwise (· < ·) ∧ s.redeliver ⊆ s.unacked ∧
    ∀ r, .received r ∈ Deployment.fresh.history steps →
      ∀ a, (Deployment.fresh.run steps).2.broker.consumers[r.consumer]? = some a →
        a.options.topic = topic → a.options.subscription = name →
          r.id.ledger = t.ledger ∧ (r.entry ∈ s.unacked ∨ r.id ∈ s.acked) := by
  have h := accounted_run hs
  have hold : (Deployment.fresh.run steps).2.broker.subscriptionOrNew topic name = s :=
    Store.subscriptionOrNew_of_some (Store.subscription?_eq_some.mpr ⟨t, ht, hsub⟩)
  have hledger : (Deployment.fresh.run steps).2.broker.ledger? topic = some t.ledger := by
    rw [Store.ledger?, ht, Option.map_some]
  have hsettled := h.settled topic name
  have hperm := hsettled.perm_range h.sound
  have hsound := (h.sound.topic topic t ht).subscription name s hsub
  change (Deployment.fresh.run steps).2.floor.broker.subscriptionOrNew topic name = s at hold
  have hacked : ∀ id ∈ s.acked, id.ledger = t.ledger := by
    intro id hid
    rw [← hold] at hid
    exact Option.some.inj ((hsettled.ledger id hid).symm.trans hledger)
  rw [hold] at hperm
  refine ⟨hsound.cursor_le, hperm, hold ▸ hsettled.nodup, hacked, hsound.redeliver_ascending,
    hsound.redeliver_subset, fun r hr a ha hatopic haname => ?_⟩
  obtain ⟨a', ha', hrledger, hentry⟩ := h.attended.vouched r hr
  have heq : a' = a := Option.some.inj (ha'.symm.trans ha)
  rw [heq, hatopic] at hrledger
  rw [heq, hatopic, haname, hsettled.given, hold] at hentry
  have hr' : r.id.ledger = t.ledger := Option.some.inj (hrledger.symm.trans hledger)
  refine ⟨hr', hentry.imp_right ?_⟩
  rintro ⟨id, hid, he⟩
  have hidr : id = r.id := by
    obtain ⟨consumer, reader, ledger', entry'⟩ := r
    obtain ⟨ledger, entry⟩ := id
    rw [EntryId.mk.injEq]
    exact ⟨(hacked _ hid).trans hr'.symm, UInt64.toNat_inj.mp he⟩
  exact hidr ▸ hid

/-- A source of a shared subscription. -/
def sampleConfig : Config :=
  ((Config.minimal "url" "t").withSubscriptionName "s").withSubscriptionType .shared

/-- A source of an exclusive subscription. -/
def exclusiveConfig : Config := (Config.minimal "url" "t").withSubscriptionName "s"

/-- One source reads three of four messages and another one the last. The first message is
acknowledged, and the broker refuses the acknowledgment of the second. -/
def sampleRun : List (Step Store) :=
  [.create "a" (some sampleConfig), .create "b" (some sampleConfig),
    .openSource "a" none "", .openSource "b" none "",
    .stimulate (Stimulus.publish "t" [] [1] none 0),
    .stimulate (Stimulus.publish "t" [] [2] none 0),
    .stimulate (Stimulus.publish "t" [] [3] none 0),
    .stimulate (Stimulus.publish "t" [] [4] none 0),
    .ask (.source "a") .read false, .ask (.source "a") .read false,
    .ask (.source "a") .read false, .ask (.source "b") .read false,
    .ask (.source "a") (.acknowledge (Position.forMessage "s" (⟨0, 0⟩ : EntryId)).encode) false,
    .stimulate (Stimulus.failNextAcknowledge "refused"),
    .ask (.source "a") (.acknowledge (Position.forMessage "s" (⟨0, 1⟩ : EntryId)).encode) false]

theorem trackerDriven_sampleRun : ∀ s ∈ sampleRun, s.TrackerDriven := by
  simp [sampleRun, Step.TrackerDriven]

set_option maxRecDepth 10000 in
theorem entries_of_sampleRun : ∃ t s,
    (Deployment.fresh.run sampleRun).2.broker.topics.find? "t" = some t ∧
      t.subscriptions.find? "s" = some s ∧ s.unacked = [1, 2, 3] ∧ s.acked = [⟨0, 0⟩] ∧
      (s.unacked ++ s.acked.map (·.entry.toNat)).Perm (List.range s.cursor) := by
  have hlists : ((Deployment.fresh.run sampleRun).2.broker.subscription? "t" "s").map
      (fun s => (s.unacked, s.acked)) = some ([1, 2, 3], [⟨0, 0⟩]) := by
    decide +kernel
  obtain ⟨s, hs, hs'⟩ := Option.map_eq_some_iff.mp hlists
  obtain ⟨t, ht, hsub⟩ := Store.subscription?_eq_some.mp hs
  have h := entries_unacknowledged_or_acknowledged trackerDriven_sampleRun ht hsub
  exact ⟨t, s, ht, hsub, congrArg Prod.fst hs', congrArg Prod.snd hs', h.2.1⟩

/-! ## Trackers -/

section

variable {f : Floor} {past : List Deed} {n : ℕ} {t : Tracker Store} {id : EntryId}
  {options : SubscribeOptions}

/-- What the broker would hand out to a tracker is never pending there. -/
theorem Accounted.unexpecting (h : Accounted f past) (ht : f.trackers[n]? = some t) :
    Unexpecting f.broker t := by
  intro m b hm
  obtain ⟨_, _, hout⟩ := Store.handsOut_of_tryReceive h.sound hm
  exact (h.accounts n t ht).find?_eq_none (h.not_mem_pulled ht hout)

theorem acknowledged_eq (b : Store) (topic name : String) :
    b.acknowledged topic name = (b.subscriptionOrNew topic name).acked := by
  unfold Store.acknowledged Store.subscriptionOrNew
  cases b.subscription? topic name <;> rfl

/-- An unacknowledged entry of the topic's ledger is reported as unacknowledged. -/
theorem mem_unacknowledged {b : Store} (hb : b.Sound) {consumer : ℕ}
    (ha : b.attached? consumer = some options)
    (hledger : b.ledger? options.topic = some id.ledger)
    (hentry : id.entry.toNat ∈ (b.subscriptionOrNew options.topic options.subscription).unacked) :
    id ∈ b.unacknowledged options.topic options.subscription := by
  have hsub := hb.subscription?_of_attached ha
  obtain ⟨t, ht, -⟩ := Store.subscription?_eq_some.mp hsub
  rw [Store.ledger?, ht, Option.map_some, Option.some.injEq] at hledger
  unfold Store.unacknowledged
  rw [hsub, ht]
  refine List.mem_map.mpr ⟨_, hentry, ?_⟩
  rw [hledger, UInt64.ofNat_toNat]

theorem Accounted.count_acknowledged (h : Accounted f past) (ht : f.trackers[n]? = some t)
    (ha : f.broker.attached? t.consumer = some options) (hid : id ∈ confirmed n past) :
    (f.broker.acknowledged options.topic options.subscription).count id = 1 := by
  rw [acknowledged_eq]
  exact List.count_eq_one_of_mem (h.settled _ _).nodup ((h.accounts n t ht).acked _ ha id hid)

theorem Accounted.unacknowledged (h : Accounted f past) (ht : f.trackers[n]? = some t)
    (ha : f.broker.attached? t.consumer = some options)
    (hid : id ∈ pendingIds t ++ refused n past) :
    id ∈ f.broker.unacknowledged options.topic options.subscription := by
  have haccount := h.accounts n t ht
  have hpulled : id ∈ pulled n past := (List.mem_append.mp hid).elim
    haccount.mem_pulled_of_pending haccount.mem_pulled_of_refused
  exact mem_unacknowledged h.sound ha (h.ledger_of_pulled ht ha hpulled)
    (haccount.unacked _ ha id hid)

end

/-- In every state of a tracker-driven run, the next step reports no message redelivered while
still pending, and every tracker whose consumer is attached keeps account: what its reads
returned is pairwise distinct and split into what is pending, what was confirmed and what was
refused. What was confirmed is acknowledged once at the broker, and the rest is unacknowledged
there. Trackers attached to one subscription have nothing pending in common. -/
theorem pulled_split {steps : List (Step Store)} (hs : ∀ s ∈ steps, s.TrackerDriven) :
    let d := (Deployment.fresh.run steps).2
    let past := Deployment.fresh.history steps
    (∀ s key, .redelivered key ∉ (d.step s).2.log) ∧
    ∀ n t options, d.trackers[n]? = some t → d.broker.attached? t.consumer = some options →
      (pulled n past).Nodup ∧
      (pulled n past).Perm (pendingIds t ++ (confirmed n past ++ refused n past)) ∧
      t.pending.size + (confirmed n past).length + (refused n past).length =
        (pulled n past).length ∧
      (∀ id ∈ confirmed n past,
        (d.broker.acknowledged options.topic options.subscription).count id = 1) ∧
      (∀ id ∈ pendingIds t ++ refused n past,
        id ∈ d.broker.unacknowledged options.topic options.subscription) ∧
      ∀ k u options', d.trackers[k]? = some u → k ≠ n →
        d.broker.attached? u.consumer = some options' →
        options'.topic = options.topic → options'.subscription = options.subscription →
          ∀ key, t.pending.contains key → ¬ u.pending.contains key := by
  intro d past
  have h : Accounted d.floor past := accounted_run hs
  refine ⟨Deployment.unrepeated_step fun t ht => ?_, fun n t options ht ha => ?_⟩
  · obtain ⟨n, hn⟩ := List.getElem?_of_mem ht
    exact h.unexpecting hn
  have haccount := h.accounts n t ht
  have hlength := haccount.balance.length_eq
  have hsize : (pendingIds t).length = t.pending.size := by
    simp [pendingIds, TextMap.values, TextMap.size]
  refine ⟨haccount.nodup _ ha, haccount.balance, ?_, fun id hid => h.count_acknowledged ht ha hid,
    fun id hid => h.unacknowledged ht ha hid,
    fun k u options' hu hk ha' htopic hname key hc hc' => ?_⟩
  · rw [List.length_append, List.length_append, hsize] at hlength
    omega
  · obtain ⟨m, hm⟩ := TextMap.contains_iff.mp hc
    obtain ⟨m', hm'⟩ := TextMap.contains_iff.mp hc'
    have haccount' := h.accounts k u hu
    have hid : m.id = m'.id := EntryId.text_inj.mp
      ((haccount.keyed _ m hm).symm.trans (haccount'.keyed _ m' hm'))
    have hpulled := haccount.mem_pulled_of_pending (mem_pendingIds.mpr ⟨_, m, hm, rfl⟩)
    have hpulled' := haccount'.mem_pulled_of_pending (mem_pendingIds.mpr ⟨_, m', hm', rfl⟩)
    exact hk (h.pulled_entry_inj hu ht ha' ha htopic hname hpulled' hpulled (by rw [hid])).1

set_option maxRecDepth 10000 in
theorem split_of_sampleRun : ∃ t u,
    (Deployment.fresh.run sampleRun).2.trackers[0]? = some t ∧
      (Deployment.fresh.run sampleRun).2.trackers[1]? = some u ∧
      pendingIds t = [⟨0, 2⟩] ∧ pendingIds u = [⟨0, 3⟩] ∧
      (pulled 0 (Deployment.fresh.history sampleRun)).Perm (pendingIds t ++
        (confirmed 0 (Deployment.fresh.history sampleRun) ++
          refused 0 (Deployment.fresh.history sampleRun))) ∧
      ∀ key, t.pending.contains key → ¬ u.pending.contains key := by
  have ht : (Deployment.fresh.run sampleRun).2.trackers[0]?.map (fun t => (pendingIds t,
      (Deployment.fresh.run sampleRun).2.broker.attached? t.consumer)) =
        some ([⟨0, 2⟩], some (sampleConfig.subscribeOptions "s")) := by
    decide +kernel
  have hu : (Deployment.fresh.run sampleRun).2.trackers[1]?.map (fun t => (pendingIds t,
      (Deployment.fresh.run sampleRun).2.broker.attached? t.consumer)) =
        some ([⟨0, 3⟩], some (sampleConfig.subscribeOptions "s")) := by
    decide +kernel
  obtain ⟨t, ht, ht'⟩ := Option.map_eq_some_iff.mp ht
  obtain ⟨u, hu, hu'⟩ := Option.map_eq_some_iff.mp hu
  obtain ⟨-, hbalance, -, -, -, hdisjoint⟩ := (pulled_split trackerDriven_sampleRun).2 0 t _ ht
    (congrArg Prod.snd ht')
  exact ⟨t, u, ht, hu, congrArg Prod.fst ht', congrArg Prod.fst hu', hbalance,
    hdisjoint 1 u _ hu (by decide) (congrArg Prod.snd hu') rfl rfl⟩

end TrackedDelivery.Memory
