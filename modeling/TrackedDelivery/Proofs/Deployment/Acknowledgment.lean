import TrackedDelivery.Proofs.Deployment.Guarantees
/-!
# Acknowledgments go where they are meant

An acknowledgment that succeeds settles the one pending message that its position names, and it
changes nothing else. Conversely the position of a record that is still pending is acknowledged,
whatever happened since it was read: it is read back as the subscription and the identifier that
it was written for, and the identifier has the key of the pending message.
-/
namespace TrackedDelivery.Memory

/-! ## Acknowledgments that succeed -/

/-- A success names a pending message of the tracker's own subscription, which the broker was
asked to acknowledge. -/
theorem acknowledge_ok {d d' : Delivery Store} {position : Bytes}
    (h : d.acknowledge position = (.settled (.ok ()), d')) :
    ∃ p id m b, Position.decode position = .ok p ∧ p.subscription = d.tracker.subscription ∧
      p.readMessageId EntryId = .ok id ∧ d.tracker.pending.find? id.text = some m ∧
      d.broker.acknowledge d.tracker.consumer m.id = (.ok (), b) ∧
      d' = { takeOut d id with broker := b } := by
  rw [acknowledge_eq] at h
  cases hmeaning : d.tracker.meaning position with
  | error e =>
      rw [hmeaning] at h
      cases h
  | ok id =>
      obtain ⟨p, hp, hown, hid⟩ := Tracker.meaning_eq_ok.mp hmeaning
      rw [hmeaning] at h
      dsimp only at h
      rw [acknowledgeId_eq] at h
      cases hm : d.tracker.pending.find? id.text with
      | none =>
          rw [hm] at h
          cases h
      | some m =>
          rw [hm] at h
          dsimp only at h
          rcases ha : d.broker.acknowledge d.tracker.consumer m.id with ⟨result, b⟩
          match result with
          | .error e =>
              rw [confirm_of_error (d := takeOut d id) ha] at h
              cases h
          | .ok () =>
              rw [confirm_of_ok (d := takeOut d id) ha] at h
              exact ⟨p, id, m, b, hp, hown, hid, hm, ha, (congrArg Prod.snd h).symm⟩

/-- A position of the tracker's own that names a pending message is acknowledged, if the broker
is willing. -/
theorem acknowledge_encode {d : Delivery Store} {id : EntryId}
    (hpending : d.tracker.pending.contains id.text)
    (hattached : (d.broker.attached? d.tracker.consumer).isSome)
    (hwilling : d.broker.failAcknowledges = []) :
    (d.acknowledge (Position.forMessage d.tracker.subscription id).encode).1 =
      .settled (.ok ()) := by
  obtain ⟨m, hm⟩ := TextMap.contains_iff.mp hpending
  obtain ⟨options, ha⟩ := Option.isSome_iff_exists.mp hattached
  have hack : d.broker.acknowledge d.tracker.consumer m.id = (.ok (),
      d.broker.modifySubscription options.topic options.subscription (·.settle m.id)) := by
    simp [Store.acknowledge, ha, hwilling]
  rw [acknowledge_eq, Tracker.meaning_encode]
  dsimp only
  rw [acknowledgeId_eq, hm]
  dsimp only
  rw [confirm_of_ok (d := takeOut d id) hack]

/-! ## Acknowledgments in a run -/

/-- A success finds its message unacknowledged in the subscription of the tracker's consumer. -/
theorem Accounted.acknowledge_ok {f : Floor} {past : List Deed} {n : ℕ} {t : Tracker Store}
    (h : Accounted f past) (ht : f.trackers[n]? = some t) {id : EntryId} {key : String}
    {m : Message EntryId} (hm : t.pending.find? key = some m) (hid : m.id = id) {b : Store}
    (hack : f.broker.acknowledge t.consumer m.id = (.ok (), b)) :
    ∃ options topic s, f.broker.attached? t.consumer = some options ∧
      f.broker.topics.find? options.topic = some topic ∧
      topic.subscriptions.find? options.subscription = some s ∧
      id.ledger = topic.ledger ∧ id.entry.toNat ∈ s.unacked ∧ id ∉ s.acked ∧
      b = f.broker.setTopic options.topic
        { topic with
          subscriptions := topic.subscriptions.insert options.subscription (s.settle id) } := by
  have haccount := h.accounts n t ht
  obtain ⟨options, hsettles⟩ := Store.settles_of_acknowledge h.sound hack
  obtain ⟨topic, htopic, hs⟩ :=
    Store.subscription?_eq_some.mp (h.sound.subscription?_of_attached hsettles.attached)
  have hpending : id ∈ pendingIds t := mem_pendingIds.mpr ⟨_, m, hm, hid⟩
  have hledger := h.ledger_of_pulled ht hsettles.attached
    (haccount.mem_pulled_of_pending hpending)
  have hunacked := haccount.unacked _ hsettles.attached id (List.mem_append_left _ hpending)
  have hafter := hsettles.after
  rw [Store.ledger?, htopic, Option.map_some, Option.some.injEq] at hledger
  rw [Store.put, Store.topicOrNew, htopic, Option.getD_some, hid] at hafter
  exact ⟨options, topic, _, hsettles.attached, htopic, hs, hledger.symm, hunacked,
    fun hmem => (h.settled _ _).disjoint id hmem hunacked, hafter⟩

/-- An acknowledgment that succeeds names the tracker's own subscription and a message that is
pending there and unacknowledged at the broker. It takes that message out of the tracker and
settles its entry in the subscription of the tracker's consumer; all else stays. Conversely the
position of a record that the tracker handed out in any earlier step of the run is acknowledged
while the record's message is pending, the consumer attached and no failure arranged. -/
theorem acknowledge_exactly {steps : List (Step Store)} (hs : ∀ s ∈ steps, s.TrackerDriven)
    {n : ℕ} {t : Tracker Store} (ht : (Deployment.fresh.run steps).2.trackers[n]? = some t)
    (log : List Event) (position : Bytes) :
    let d := (Deployment.fresh.run steps).2
    let ended := Delivery.acknowledge { tracker := t, broker := d.broker, log } position
    (∀ after, ended = (.settled (.ok ()), after) →
      ∃ p id m options topic s, Position.decode position = .ok p ∧
        p.subscription = t.subscription ∧ p.readMessageId EntryId = .ok id ∧
        t.pending.find? id.text = some m ∧ m.id = id ∧
        d.broker.attached? t.consumer = some options ∧
        d.broker.topics.find? options.topic = some topic ∧
        topic.subscriptions.find? options.subscription = some s ∧
        id.ledger = topic.ledger ∧ id.entry.toNat ∈ s.unacked ∧ id ∉ s.acked ∧
        after =
          { tracker := { t with pending := t.pending.erase id.text }
            broker :=
              { d.broker with
                topics :=
                  d.broker.topics.insert options.topic
                    { topic with
                      subscriptions :=
                        topic.subscriptions.insert options.subscription
                          { s with
                            unacked := s.unacked.filter (· ≠ id.entry.toNat)
                            redeliver := s.redeliver.filter (· ≠ id.entry.toNat)
                            acked := s.acked ++ [id] } } }
            log := log ++ [.acknowledging id.text] }) ∧
    ∀ before s rest request, steps = before ++ s :: rest →
      let earlier := (Deployment.fresh.run before).2
      earlier.asked? s = some (n, request) → position? (earlier.step s).1 = some position →
      ∃ id : EntryId, position = (Position.forMessage t.subscription id).encode ∧
        (t.pending.contains id.text → (d.broker.attached? t.consumer).isSome →
          d.broker.failAcknowledges = [] → ended.1 = .settled (.ok ())) := by
  intro d ended
  have h := accounted_run hs
  refine ⟨fun after hafter => ?_, ?_⟩
  · obtain ⟨p, id, m, b, hp, hsub, hid, hm, hack, hafter⟩ := acknowledge_ok hafter
    have hmid : m.id = id := (EntryId.text_inj.mp ((h.accounts n t ht).keyed _ m hm)).symm
    obtain ⟨options, topic, s, ha, htopic, hs', hledger, hunacked, hnot, hb⟩ :=
      h.acknowledge_ok ht hm hmid hack
    refine ⟨p, id, m, options, topic, s, hp, hsub, hid, hm, hmid, ha, htopic, hs', hledger,
      hunacked, hnot, ?_⟩
    rw [hafter, hb]
    rfl
  · intro before s rest request hsteps earlier hasked hposition
    obtain ⟨u, id, hu, hid⟩ :=
      (Deployment.acts { earlier with log := [] } s).position? hasked hposition
    have hbefore : Accounted (Deployment.fresh.run before).2.floor _ :=
      accounted_run fun s' hs' => hs s' (by simp [hsteps, hs'])
    have hmoves : Moves _ ((Deployment.fresh.run before).2.history (s :: rest)) _ :=
      Deployment.moves_run hbefore.allKeyed fun s' hs' =>
        hs s' (by simp [hsteps, List.mem_cons.mp hs'])
    rw [← Deployment.run_append, ← hsteps] at hmoves
    obtain ⟨v, hv, -, hsub⟩ := hmoves.tracker hu
    have hvt : v = t := Option.some.inj (hv.symm.trans ht)
    rw [hvt] at hsub
    rw [← hsub] at hid
    refine ⟨id, hid, fun hpending hattached hwilling => ?_⟩
    change (Delivery.acknowledge _ position).1 = _
    rw [hid]
    exact acknowledge_encode hpending hattached hwilling

set_option maxRecDepth 10000 in
/-- The third record that the first source read is still pending and can be acknowledged. -/
theorem acknowledged_of_sampleRun : ∃ t after p id,
    (Deployment.fresh.run sampleRun).2.trackers[0]? = some t ∧
      Delivery.acknowledge
          { tracker := t, broker := (Deployment.fresh.run sampleRun).2.broker, log := [] }
          (Position.forMessage "s" (⟨0, 2⟩ : EntryId)).encode = (.settled (.ok ()), after) ∧
      Position.decode (Position.forMessage "s" (⟨0, 2⟩ : EntryId)).encode = .ok p ∧
      p.subscription = t.subscription ∧ p.readMessageId EntryId = .ok id ∧
      t.pending.contains id.text := by
  have hstate : (Deployment.fresh.run sampleRun).2.trackers[0]?.map (fun t =>
      (t.subscription, t.pending.contains (⟨0, 2⟩ : EntryId).text,
        ((Deployment.fresh.run sampleRun).2.broker.attached? t.consumer).isSome)) =
          some ("s", true, true) := by
    decide +kernel
  have hwilling : (Deployment.fresh.run sampleRun).2.broker.failAcknowledges = [] := by
    decide +kernel
  have hasked : (Deployment.fresh.run (sampleRun.take 10)).2.asked?
      (.ask (.source "a") .read false) = some (0, .read) := by
    decide +kernel
  have hposition : position? ((Deployment.fresh.run (sampleRun.take 10)).2.step
      (.ask (.source "a") .read false)).1 =
        some (Position.forMessage "s" (⟨0, 2⟩ : EntryId)).encode := by
    decide +kernel
  obtain ⟨t, ht, hstate⟩ := Option.map_eq_some_iff.mp hstate
  obtain ⟨hname, hpending, hattached⟩ : t.subscription = "s" ∧
      t.pending.contains (⟨0, 2⟩ : EntryId).text = true ∧
      ((Deployment.fresh.run sampleRun).2.broker.attached? t.consumer).isSome = true := by
    simpa using hstate
  have h := acknowledge_exactly trackerDriven_sampleRun ht []
    (Position.forMessage "s" (⟨0, 2⟩ : EntryId)).encode
  obtain ⟨id, hid, hack⟩ := h.2 _ _ (sampleRun.drop 11) _ rfl hasked hposition
  rw [hname] at hid
  have hid' : id = ⟨0, 2⟩ := by
    have := congrArg messageAt? hid
    simpa using this.symm
  rw [hid'] at hack
  have hok := hack hpending hattached hwilling
  obtain ⟨p, id, m, -, -, -, hp, hsub, hpid, hm, -⟩ := h.1 _ (Prod.ext hok rfl)
  exact ⟨t, _, p, id, ht, Prod.ext hok rfl, hp, hsub, hpid, TextMap.contains_iff.mpr ⟨m, hm⟩⟩

end TrackedDelivery.Memory
