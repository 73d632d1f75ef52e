import TrackedDelivery.Proofs.Deployment.Batches
/-!
# Acknowledging all that is pending

All pending messages are taken out at once and acknowledged in the order of their keys, which is an
order of texts and not of numbers. The failures that are arranged for meet the first of them, one
each, and the broker settles the rest. While all acknowledgments go through trackers, what is
pending in a tracker is unacknowledged at the broker, each message under an entry of its own, so
that the refused messages stay there.
-/
namespace TrackedDelivery

/-! ## Reports of failures that come first -/

section Reports

variable {ε : Type}

theorem failuresFrom_append (results others : List (Except (AckError ε) Unit)) (index : ℕ) :
    failuresFrom index (results ++ others) =
      failuresFrom index results ++ failuresFrom (index + results.length) others := by
  induction results generalizing index with
  | nil => rfl
  | cons r rest ih =>
      have hindex : index + 1 + rest.length = index + (r :: rest).length := by
        rw [List.length_cons]
        omega
      cases r with
      | ok => rw [List.cons_append, failuresFrom, failuresFrom, ih, hindex]
      | error e => rw [List.cons_append, failuresFrom, failuresFrom, ih, hindex, List.cons_append]

end Reports

namespace Memory

/-- The ends of acknowledgments of which the first ones have failed. -/
def endings (errors : List (AckError Failure)) (settled : ℕ) : List (AckCall Store) :=
  errors.map (fun e => .settled (.error e)) ++ List.replicate settled (.settled (.ok ()))

theorem length_endings (errors : List (AckError Failure)) (settled : ℕ) :
    (endings errors settled).length = errors.length + settled := by
  simp [endings]

theorem ofCall_ofAll (errors : List (AckError Failure)) (settled : ℕ) :
    Answer.ofCall (Call.ofAll (endings errors settled)) =
      .ofFailures errors (.acknowledgedAll (errors.length + settled)) := by
  let failed : List (Except (AckError Failure) Unit) := errors.map .error
  let accepted : List (Except (AckError Failure) Unit) := List.replicate settled (.ok ())
  have hendings : endings errors settled =
      (failed ++ accepted).map (AckCall.settled (β := Store)) := by
    simp [endings, failed, accepted]
  have hnone : failuresFrom (0 + failed.length) accepted = [] :=
    failuresFrom_eq_nil.mpr fun r hr => List.eq_of_mem_replicate hr
  have hcollect : collectFailures (failed ++ accepted) = collectFailures failed := by
    rw [collectFailures, failuresFrom_append, hnone, List.append_nil, collectFailures]
  rw [Call.ofAll, length_endings, hendings, settledResults_map_settled]
  dsimp only
  rw [hcollect, ofCall_collectFailures]

/-! ## Confirming what was drained -/

section

variable {w : Delivery Store} {t : Tracker Store} {options : SubscribeOptions}

/-- The refusals of the first messages, one for each failure that is arranged for. -/
def refusals (keys reasons : List String) : List (AckError Failure) :=
  List.zipWith (fun key reason => .rejected key (.acknowledgeRejected reason)) keys reasons

/-- Of messages that are confirmed one after another, the first ones meet the arranged failures, and
the rest are settled. -/
theorem each_confirm_of_attached {s : Subscription} {reasons : List String}
    (ha : w.broker.attached? w.tracker.consumer = some options)
    (hs : w.broker.subscription? options.topic options.subscription = some s)
    (hreasons : w.broker.failAcknowledges = reasons) (entries : List (String × Message EntryId)) :
    Delivery.each (fun w e => w.confirm e.1 e.2) w entries =
      (endings (refusals (entries.map (·.1)) reasons) (entries.length - reasons.length),
        { w with broker := { w.broker.put options.topic options.subscription
            (s.settleAll ((entries.map (·.2.id)).drop reasons.length)) with
          failAcknowledges := reasons.drop entries.length } }) := by
  -- Either end changes the broker, so the induction is over every state that it may be in.
  induction entries generalizing w s reasons with
  | nil =>
      obtain ⟨tracker, broker, log⟩ := w
      obtain rfl : broker.failAcknowledges = reasons := hreasons
      have hput : broker.put options.topic options.subscription s = broker :=
        Store.put_of_subscription? hs
      simp only [List.map_nil, List.drop_nil, List.length_nil, List.drop_zero, Nat.zero_sub,
        Subscription.settleAll, List.foldl_nil, hput]
      rfl
  | cons e rest ih =>
      obtain ⟨key, m⟩ := e
      cases reasons with
      | nil =>
          have hack : w.broker.acknowledge w.tracker.consumer m.id =
              (.ok (), w.broker.put options.topic options.subscription (s.settle m.id)) := by
            rw [Store.acknowledge, ha, hreasons]
            dsimp only
            rw [Store.modifySubscription_eq_put hs]
          have hsettled : (w.broker.put options.topic options.subscription
              (s.settle m.id)).subscription? options.topic options.subscription =
                some (s.settle m.id) := by
            rw [Store.subscription?_put, if_pos ⟨rfl, rfl⟩]
          have hnext := ih
            (w := { w with
              broker := w.broker.put options.topic options.subscription (s.settle m.id) })
            ha hsettled hreasons
          rw [Delivery.each, confirm_of_ok hack]
          dsimp only
          rw [hnext]
          simp only [refusals, endings, List.zipWith_nil_right, List.map_nil, List.nil_append,
            List.length_nil, Nat.sub_zero, List.length_cons, List.replicate_succ, List.drop_zero,
            List.drop_nil, List.map_cons, Store.put_put]
          rfl
      | cons reason reasons =>
          have hack : w.broker.acknowledge w.tracker.consumer m.id =
              (.error (.acknowledgeRejected reason),
                { w.broker with failAcknowledges := reasons }) := by
            rw [Store.acknowledge, ha, hreasons]
          have hnext := ih (w := { w with broker := { w.broker with failAcknowledges := reasons } })
            ha hs rfl
          rw [Delivery.each, confirm_of_error hack]
          dsimp only
          rw [hnext]
          simp only [refusals, endings, List.map_cons, List.zipWith_cons_cons, List.cons_append,
            List.length_cons, Nat.add_sub_add_right, List.drop_succ_cons]
          rfl

end

/-! ## What is pending -/

section

variable {t : Tracker Store}

theorem length_pendingIds (t : Tracker Store) : (pendingIds t).length = t.pending.size := by
  simp [pendingIds, TextMap.values, TextMap.size]

theorem pendingIds_eq (t : Tracker Store) :
    pendingIds t = t.pending.entries.map (·.2.id) := by
  rw [pendingIds, TextMap.values, List.map_map]
  rfl

/-- The keys are the texts of the identifiers. -/
theorem map_text_pendingIds (h : Keyed t) : (pendingIds t).map EntryId.text = t.pending.keys := by
  rw [pendingIds_eq, List.map_map, TextMap.keys]
  refine List.map_congr_left fun e he => ?_
  exact (h e.1 e.2 (TextMap.find?_eq_some_iff.mpr he)).symm

theorem pairwise_keys (t : Tracker Store) : t.pending.keys.Pairwise (· < ·) :=
  t.pending.ascending_keys

theorem nodup_pendingIds (h : Keyed t) : (pendingIds t).Nodup := by
  refine List.Nodup.of_map EntryId.text ?_
  rw [map_text_pendingIds h]
  refine (pairwise_keys t).imp fun {key other} hlt heq => ?_
  rw [heq] at hlt
  exact String.lt_irrefl other hlt

end

section

variable {w : Delivery Store} {options : SubscribeOptions}

theorem acknowledgeAll_of_unattached (h : w.broker.attached? w.tracker.consumer = none) :
    w.acknowledgeAll =
      (endings (w.tracker.pending.keys.map fun key => .rejected key .closed) 0, takeAll w) := by
  have hall := each_confirm_of_unattached (w := takeAll w) h w.tracker.pending.entries
  refine Eq.trans hall ?_
  simp [endings, TextMap.keys]

theorem acknowledgeAll_of_attached {s : Subscription}
    (ha : w.broker.attached? w.tracker.consumer = some options)
    (hs : w.broker.subscription? options.topic options.subscription = some s) :
    w.acknowledgeAll =
      (endings (refusals w.tracker.pending.keys w.broker.failAcknowledges)
          (w.tracker.pending.size - w.broker.failAcknowledges.length),
        { takeAll w with broker := { w.broker.put options.topic options.subscription
            (s.settleAll ((pendingIds w.tracker).drop w.broker.failAcknowledges.length)) with
          failAcknowledges := w.broker.failAcknowledges.drop w.tracker.pending.size } }) := by
  have hall := each_confirm_of_attached (w := takeAll w) ha hs rfl w.tracker.pending.entries
  rw [pendingIds_eq]
  exact hall

end

/-- The messages pending in a tracker have entries of their own. -/
theorem Accounted.pending_entry_inj {f : Floor} {past : List Deed} {n : ℕ} {t : Tracker Store}
    {options : SubscribeOptions} {id id' : EntryId} (h : Accounted f past)
    (ht : f.trackers[n]? = some t) (ha : f.broker.attached? t.consumer = some options)
    (hid : id ∈ pendingIds t) (hid' : id' ∈ pendingIds t) (he : id.entry.toNat = id'.entry.toNat) :
    id = id' :=
  have haccount := h.accounts n t ht
  (h.pulled_entry_inj ht ht ha ha rfl rfl (haccount.mem_pulled_of_pending hid)
    (haccount.mem_pulled_of_pending hid') he).2

/-- Where the last of what is pending is settled, the first of it stays unacknowledged. -/
theorem Accounted.unacked_settleAll {f : Floor} {past : List Deed} {n : ℕ} {t : Tracker Store}
    {options : SubscribeOptions} {id : EntryId} {k : ℕ} (h : Accounted f past)
    (ht : f.trackers[n]? = some t) (ha : f.broker.attached? t.consumer = some options)
    (hid : id ∈ (pendingIds t).take k) :
    id.entry.toNat ∈ ((f.broker.subscriptionOrNew options.topic options.subscription).settleAll
      ((pendingIds t).drop k)).unacked := by
  have haccount := h.accounts n t ht
  have hpending := List.mem_of_mem_take hid
  rw [Subscription.settleAll_eq]
  refine List.mem_filter.mpr ⟨haccount.unacked _ ha id (List.mem_append_left _ hpending), ?_⟩
  rw [decide_eq_true_iff]
  intro other hother he
  -- The broker settles by entries, so that the other message is the same one.
  obtain rfl := h.pending_entry_inj ht ha hpending (List.mem_of_mem_drop hother) he
  exact List.disjoint_take_drop (nodup_pendingIds haccount.keyed) (Nat.le_refl _) hid hother

/-- In every state of a tracker-driven run, let a tracker be asked to acknowledge all that is
pending. Nothing is pending afterwards. If the consumer is closed, every acknowledgment fails, and
the broker is as it was. Otherwise as many acknowledgments as failures are arranged for fail, in the
order of the keys and each under its own key and place. The other messages are acknowledged at the
broker in that order and are neither unacknowledged nor queued any more, and the refused ones are
unacknowledged as before. The request succeeds exactly if nothing failed, with the number of
messages, and reports the failures otherwise. -/
theorem acknowledge_all_once {steps : List (Step Store)} (hs : ∀ s ∈ steps, s.TrackerDriven)
    {target : Target} {n : ℕ} {t : Tracker Store}
    (hn : (Deployment.fresh.run steps).2.trackerNumber? target = some n)
    (ht : (Deployment.fresh.run steps).2.trackers[n]? = some t) (cancelled : Bool) :
    let d := (Deployment.fresh.run steps).2
    let ended := d.step (.ask target .acknowledgeAll cancelled)
    let keys := t.pending.keys
    let ids := pendingIds t
    let reasons := d.broker.failAcknowledges
    keys.Pairwise (· < ·) ∧ ids.map EntryId.text = keys ∧ ids.length = t.pending.size ∧
    (d.broker.attached? t.consumer = none →
      ended.1 = .ofFailures (keys.map fun key => .rejected key .closed)
        (.acknowledgedAll t.pending.size) ∧
      { ended.2 with log := d.log } =
        { d with trackers := d.trackers.set n { t with pending := ∅ } }) ∧
    ∀ options, d.broker.attached? t.consumer = some options → ∃ s s' : Subscription,
      d.broker.subscription? options.topic options.subscription = some s ∧
      (∀ id ∈ ids, d.broker.ledger? options.topic = some id.ledger ∧ id.entry.toNat ∈ s.unacked) ∧
      s' = { s with
        unacked := s.unacked.filter fun e => ∀ id ∈ ids.drop reasons.length, e ≠ id.entry.toNat
        redeliver := s.redeliver.filter fun e => ∀ id ∈ ids.drop reasons.length, e ≠ id.entry.toNat
        acked := s.acked ++ ids.drop reasons.length } ∧
      (∀ id ∈ ids.take reasons.length, id.entry.toNat ∈ s'.unacked) ∧
      ended.1 = .ofFailures (refusals keys reasons) (.acknowledgedAll t.pending.size) ∧
      { ended.2 with log := d.log } = { d with
        broker := { d.broker.put options.topic options.subscription s' with
          failAcknowledges := reasons.drop t.pending.size }
        trackers := d.trackers.set n { t with pending := ∅ } } := by
  intro d ended keys ids reasons
  have haccounted : Accounted d.floor (Deployment.fresh.history steps) := accounted_run hs
  have haccount := haccounted.accounts n t ht
  have htidy : d.Tidy := Deployment.tidy_run Deployment.tidy_fresh
  let w : Delivery Store := { tracker := t, broker := d.broker }
  have hended : ended = (.ofCall (Call.ofAll w.acknowledgeAll.1), d.worked n w.acknowledgeAll.2) :=
    htidy.step_ask hn ht .acknowledgeAll cancelled
  refine ⟨pairwise_keys t, map_text_pendingIds haccount.keyed, length_pendingIds t, fun hgone => ?_,
    fun options ha => ?_⟩
  · rw [hended, acknowledgeAll_of_unattached (w := w) hgone, ofCall_ofAll]
    have hlength : (keys.map fun key => AckError.rejected key Failure.closed).length + 0 =
        t.pending.size := by
      simp [keys, TextMap.keys, TextMap.size]
    rw [← hlength]
    exact ⟨rfl, rfl⟩
  · have hsub := haccounted.sound.subscription?_of_attached ha
    have hrefusals : (refusals keys reasons).length + (t.pending.size - reasons.length) =
        t.pending.size := by
      simp only [refusals, List.length_zipWith, keys, TextMap.keys, List.length_map, TextMap.size]
      omega
    rw [hended, acknowledgeAll_of_attached (w := w) ha hsub, ofCall_ofAll, hrefusals]
    refine ⟨_, _, hsub, fun id hid => ⟨?_, ?_⟩, Subscription.settleAll_eq _ _,
      fun id hid => haccounted.unacked_settleAll ht ha hid, rfl, rfl⟩
    · exact haccounted.ledger_of_pulled ht ha (haccount.mem_pulled_of_pending hid)
    · exact haccount.unacked _ ha id (List.mem_append_left _ hid)

/-- A source reads eleven messages, and the broker is to refuse three acknowledgments. -/
def crowdedRun : List (Step Store) :=
  [.create "a" (some sampleConfig), .openSource "a" none ""] ++
    List.replicate 11 (.stimulate (Stimulus.publish "t" [] [1] none 0)) ++
    List.replicate 11 (.ask (.source "a") .read false) ++
    ["first", "second", "third"].map fun reason =>
      .stimulate (Stimulus.failNextAcknowledge reason)

set_option maxRecDepth 10000 in
/-- The texts of the identifiers put entry 10 before entry 2. -/
theorem drained_of_crowdedRun :
    let d := (Deployment.fresh.run crowdedRun).2
    let ended := d.step (.ask (.source "a") .acknowledgeAll false)
    ended.1 = .failed (.batch [(0, .rejected "0:0" (.acknowledgeRejected "first")),
      (1, .rejected "0:1" (.acknowledgeRejected "second")),
      (2, .rejected "0:10" (.acknowledgeRejected "third"))]) ∧
    ended.2.broker.acknowledged "t" "s" =
      [⟨0, 2⟩, ⟨0, 3⟩, ⟨0, 4⟩, ⟨0, 5⟩, ⟨0, 6⟩, ⟨0, 7⟩, ⟨0, 8⟩, ⟨0, 9⟩] := by
  have hdriven : ∀ s ∈ crowdedRun, s.TrackerDriven := by
    simp [crowdedRun, Step.TrackerDriven]
  have hn : (Deployment.fresh.run crowdedRun).2.trackerNumber? (.source "a") = some 0 := by
    decide +kernel
  have hstate : (Deployment.fresh.run crowdedRun).2.trackers[0]?.map (fun t =>
      ((Deployment.fresh.run crowdedRun).2.broker.attached? t.consumer, t.pending.keys,
        pendingIds t)) =
      some (some (sampleConfig.subscribeOptions "s"),
        ["0:0", "0:1", "0:10", "0:2", "0:3", "0:4", "0:5", "0:6", "0:7", "0:8", "0:9"],
        [0, 1, 10, 2, 3, 4, 5, 6, 7, 8, 9].map (⟨0, ·⟩)) := by
    decide +kernel
  have hreasons : (Deployment.fresh.run crowdedRun).2.broker.failAcknowledges =
      ["first", "second", "third"] := by
    decide +kernel
  have hacknowledged : (Deployment.fresh.run crowdedRun).2.broker.acknowledged "t" "s" = [] := by
    decide +kernel
  obtain ⟨t, ht, hstate⟩ := Option.map_eq_some_iff.mp hstate
  simp only [Prod.mk.injEq] at hstate
  obtain ⟨ha, hkeys, hids⟩ := hstate
  obtain ⟨-, -, -, -, hopen⟩ := acknowledge_all_once hdriven hn ht false
  obtain ⟨s, s', hs, -, hs', -, hanswer, hafter⟩ := hopen _ ha
  -- The state is not to be computed any more.
  generalize (Deployment.fresh.run crowdedRun).2 = d at *
  intro d' ended
  have hacked : s'.acked = d.broker.acknowledged "t" "s" ++
      (pendingIds t).drop d.broker.failAcknowledges.length := by
    rw [hs', Store.acknowledged, show d.broker.subscription? "t" "s" = some s from hs]
    rfl
  have hsettled : ended.2.broker.subscription? "t" "s" = some s' := by
    have htopics : ended.2.broker.topics = (d.broker.put "t" "s" s').topics :=
      congrArg (fun after : Deployment Store => after.broker.topics) hafter
    rw [Store.subscription?, htopics, ← Store.subscription?, Store.subscription?_put,
      if_pos ⟨rfl, rfl⟩]
  refine ⟨?_, ?_⟩
  · rw [hkeys, hreasons] at hanswer
    exact hanswer
  · rw [Store.acknowledged, hsettled, Option.map_some, Option.getD_some, hacked, hacknowledged,
      hids, hreasons]
    rfl

end Memory
end TrackedDelivery
