import TrackedDelivery.Proofs.Deployment.Guarantees
import TrackedDelivery.Proofs.Deployment.Opening
/-!
# Which messages are redelivered

What is unacknowledged is queued anew when a consumer attaches to a subscription that nobody is
attached to, and at no other time. Hence an entry that was received in the shift and whose
receiver has gone is stranded: it is not queued, and nobody who is attached has it, until the
last consumer has left and the next one comes. All other unacknowledged entries are safe.
-/
namespace TrackedDelivery.Memory

/-! ## What stays unacknowledged -/

/-- Only what is confirmed ceases to be unacknowledged. -/
theorem Move.unacked_subset {f g : Floor} {deeds : List Deed} (m : Move f deeds g)
    (hb : f.broker.Sound) (h : ∀ n id, .confirmed n id ∉ deeds) (topic name : String) :
    (f.broker.subscriptionOrNew topic name).unacked ⊆
      (g.broker.subscriptionOrNew topic name).unacked := by
  cases m with
  | quiet topics =>
      rw [Store.subscriptionOrNew_congr topics]
      exact List.Subset.refl _
  | publish appends =>
      rw [appends.subscription]
      exact List.Subset.refl _
  | turnAway away =>
      rw [away.subscription]
      exact List.Subset.refl _
  | attach attaches =>
      rw [attaches.subscription]
      split <;> exact List.Subset.refl _
  | release consumer =>
      rw [Store.subscription_release hb]
      exact List.Subset.refl _
  | track => exact List.Subset.refl _
  | receive received | pull _ received =>
      obtain ⟨options, s, hout⟩ := Store.handsOut_of_tryReceive hb received
      rw [hout.subscription]
      split
      · rename_i hw
        obtain ⟨rfl, rfl⟩ := hw
        exact fun e he => (hout.gives.mem_unacked e).mpr (.inr he)
      · exact List.Subset.refl _
  | confirm => exact absurd (List.mem_singleton_self _) (h _ _)
  | refuse _ _ rejected =>
      rw [Store.subscriptionOrNew_congr (Store.acknowledge_quiet rejected).1]
      exact List.Subset.refl _

theorem Moves.unacked_subset {f g : Floor} {deeds : List Deed} (m : Moves f deeds g)
    (hb : f.broker.Sound) (h : ∀ n id, .confirmed n id ∉ deeds) (topic name : String) :
    (f.broker.subscriptionOrNew topic name).unacked ⊆
      (g.broker.subscriptionOrNew topic name).unacked := by
  induction m with
  | nil => exact List.Subset.refl _
  | cons m _ ih =>
      have hfirst := m.unacked_subset hb (fun n id hmem => h n id (List.mem_append_left _ hmem))
      have hrest := ih (m.sound hb) fun n id hmem => h n id (List.mem_append_right _ hmem)
      exact List.Subset.trans (hfirst topic name) hrest

/-- A consumer that has to wait finds nothing queued. -/
theorem Store.Sound.redeliver_eq_nil {b : Store} (hb : b.Sound) {consumer : ℕ}
    {options : SubscribeOptions} (ha : b.attached? consumer = some options)
    (h : (b.tryReceive consumer).1 = none) :
    (b.subscriptionOrNew options.topic options.subscription).redeliver = [] := by
  obtain ⟨t, ht, hs⟩ := Store.subscription?_eq_some.mp (hb.subscription?_of_attached ha)
  have hsound := (hb.topic _ t ht).subscription _ _ hs
  cases hq : (b.subscriptionOrNew options.topic options.subscription).redeliver with
  | nil => rfl
  | cons e rest =>
      have hmem := hsound.redeliver_subset e (by simp [hq])
      have hlt := Nat.lt_of_lt_of_le (hsound.unacked_below e hmem) hsound.cursor_le
      simp only [Store.tryReceive, ha] at h
      split at h
      · cases h
      · simp [ht, hs, Subscription.next?, hq, hlt] at h

section

variable {b : Store} {past : List Deed} {topic name : String} {e : ℕ}

/-- An unacknowledged entry is queued or held by somebody who is attached, unless it was received
in the shift by somebody who has gone. -/
theorem Attended.queued_or_held_iff (h : Attended b past) {c : ℕ} (hc : b.Serves topic name c)
    (he : e ∈ (b.subscriptionOrNew topic name).unacked) :
    (e ∈ (b.subscriptionOrNew topic name).redeliver ∨
      ∃ r, .received r ∈ past ∧ r.entry = e ∧ b.Serves topic name r.consumer) ↔
    ∀ r ∈ (shift topic name past).receipts, r.entry = e → b.Serves topic name r.consumer := by
  constructor
  · rintro (hqueued | ⟨r, hr, hre, hserves⟩) r' hr' hre'
    · exact absurd (hre' ▸ hqueued) (h.unqueued topic name r' hr')
    · have hmem := h.current topic name r hr ((h.present ..).mpr hserves)
      have heq := List.inj_on_of_nodup_map (h.distinct topic name) hr' hmem (hre'.trans hre.symm)
      rwa [heq]
  · intro hheld
    have hsomeone := List.ne_nil_of_mem ((h.present topic name c).mpr hc)
    refine (h.covered topic name hsomeone e he).imp_right ?_
    rintro ⟨r, hr, hre⟩
    exact ⟨r, (h.taken topic name r hr).1, hre, hheld r hr hre⟩

/-- When nobody comes or goes and the queue is emptied, an entry is received anew unless it was
received in the shift before. -/
theorem Attended.received_iff {b' : Store} {deeds : List Deed} (h : Attended b' (past ++ deeds))
    (hdeeds : ∀ deed ∈ deeds, ∃ r, deed = .received r) {c : ℕ} (hc : b'.Serves topic name c)
    (hempty : (b'.subscriptionOrNew topic name).redeliver = [])
    (he : e ∈ (b'.subscriptionOrNew topic name).unacked) :
    (∃ r, .received r ∈ deeds ∧ r.entry = e ∧ b'.Serves topic name r.consumer) ↔
      ∀ r ∈ (shift topic name past).receipts, r.entry ≠ e := by
  have hshift := shift_append_receipts hdeeds topic name past
  have hdistinct := h.distinct topic name
  have hpresent : ∀ c, c ∈ (shift topic name past).present ↔ b'.Serves topic name c := by
    intro c
    rw [Store.Serves, ← h.present, hshift]
  have hcovered := h.covered topic name (List.ne_nil_of_mem ((h.present ..).mpr hc)) e he
  rw [hshift] at hdistinct hcovered
  dsimp only at hdistinct hcovered
  rw [List.map_append, List.nodup_append] at hdistinct
  constructor
  · rintro ⟨r, hr, hre, hserves⟩ r' hr' hre'
    have hnew : r ∈ (deeds.filterMap Deed.receipt?).filter
        (·.consumer ∈ (shift topic name past).present) :=
      List.mem_filter.mpr ⟨mem_receipts.mpr hr, decide_eq_true ((hpresent _).mpr hserves)⟩
    exact hdistinct.2.2 _ (List.mem_map_of_mem hr') _ (List.mem_map_of_mem hnew)
      (hre'.trans hre.symm)
  · intro hnot
    rcases hcovered with hqueued | ⟨r, hr, hre⟩
    · rw [hempty] at hqueued
      cases hqueued
    · rcases List.mem_append.mp hr with hr | hr
      · exact absurd hre (hnot r hr)
      · obtain ⟨hr, hserves⟩ := List.mem_filter.mp hr
        exact ⟨r, mem_receipts.mp hr, hre, (hpresent _).mp (of_decide_eq_true hserves)⟩

end

theorem Accounted.received_iff {f g : Floor} {past deeds : List Deed} (h : Accounted f past)
    (m : Moves f deeds g) (hdeeds : ∀ deed ∈ deeds, ∃ r, deed = .received r) {topic name : String}
    {c e : ℕ} (hc : f.broker.Serves topic name c) (hwaits : (g.broker.tryReceive c).1 = none)
    (he : e ∈ (f.broker.subscriptionOrNew topic name).unacked) :
    (∃ r, .received r ∈ deeds ∧ r.entry = e ∧ g.broker.Serves topic name r.consumer) ↔
      ∀ r ∈ (shift topic name past).receipts, r.entry ≠ e := by
  have hafter := h.moves m
  have hpresent := (h.attended.present topic name c).mpr hc
  have hstays : c ∈ (shift topic name (past ++ deeds)).present := by
    rwa [shift_append_receipts hdeeds]
  have hunacked := m.unacked_subset h.sound (fun n id hmem => by
    obtain ⟨r, hr⟩ := hdeeds _ hmem
    cases hr) topic name he
  obtain ⟨options, ha, rfl, rfl⟩ := (hafter.attended.present topic name c).mp hstays
  exact hafter.attended.received_iff hdeeds ⟨options, ha, rfl, rfl⟩
    (hafter.sound.redeliver_eq_nil ha hwaits) hunacked

/-- In every state of a tracker-driven run, an unacknowledged entry of a subscription to which
somebody is attached is queued or was received by somebody who is attached, exactly if nobody who
has gone received it in the shift. Once those who are attached have read until one of them has to
wait, they have received exactly those unacknowledged entries that were not received in the shift
before. And a source that opened where nobody but itself was attached has begun a shift. -/
theorem redelivered_unless_received {steps : List (Step Store)}
    (hs : ∀ s ∈ steps, s.TrackerDriven) {topic name : String} {s : Subscription}
    (hsub : (Deployment.fresh.run steps).2.broker.subscription? topic name = some s) {c : ℕ}
    (hc : (Deployment.fresh.run steps).2.broker.Serves topic name c) :
    (∀ e ∈ s.unacked,
      (e ∈ s.redeliver ∨ ∃ r, .received r ∈ Deployment.fresh.history steps ∧ r.entry = e ∧
        (Deployment.fresh.run steps).2.broker.Serves topic name r.consumer) ↔
      ∀ r ∈ (shift topic name (Deployment.fresh.history steps)).receipts, r.entry = e →
        (Deployment.fresh.run steps).2.broker.Serves topic name r.consumer) ∧
    (∀ reads : List (Step Store), (∀ s ∈ reads, s.Reads) →
      ((Deployment.fresh.run (steps ++ reads)).2.broker.tryReceive c).1 = none →
      ∀ e ∈ s.unacked,
        (∃ r, .received r ∈ (Deployment.fresh.run steps).2.history reads ∧ r.entry = e ∧
          (Deployment.fresh.run (steps ++ reads)).2.broker.Serves topic name r.consumer) ↔
        ∀ r ∈ (shift topic name (Deployment.fresh.history steps)).receipts, r.entry ≠ e) ∧
    ∀ before source position fresh, steps = before ++ [.openSource source position fresh] →
      ((Deployment.fresh.run before).2.step (.openSource source position fresh)).1 = .done →
      (Deployment.fresh.run steps).2.consumerOf? (.source source) = some c →
      (∀ k, (Deployment.fresh.run before).2.broker.Serves topic name k →
        (Deployment.fresh.run before).2.consumerOf? (.source source) = some k) →
      (shift topic name (Deployment.fresh.history steps)).receipts = [] := by
  have h := accounted_run hs
  have hold : (Deployment.fresh.run steps).2.floor.broker.subscriptionOrNew topic name = s :=
    Store.subscriptionOrNew_of_some hsub
  refine ⟨fun e he => ?_, fun reads hreads hblocked e he => ?_,
    fun before source position fresh hsteps hdone hof hown => ?_⟩
  · rw [← hold] at he ⊢
    exact h.attended.queued_or_held_iff hc he
  · have hreceived : ∀ deed ∈ (Deployment.fresh.run steps).2.history reads,
        ∃ r, deed = .received r := fun _ =>
      Deployment.received_of_history h.sound h.allKeyed
        (Deployment.tidy_run Deployment.tidy_fresh) hreads
    have hmoves : Moves _ ((Deployment.fresh.run steps).2.history reads) _ :=
      Deployment.moves_run h.allKeyed fun s hs => (hreads s hs).trackerDriven
    rw [← Deployment.run_append] at hmoves
    rw [← hold] at he
    exact h.received_iff hmoves hreceived hc hblocked he
  · subst hsteps
    have hbefore : Accounted (Deployment.fresh.run before).2.floor _ :=
      accounted_run fun s hmem => hs s (by simp [hmem])
    rw [Deployment.run_append] at hof hc
    rw [Deployment.history_append]
    have hreceipts := Deployment.receipts_openSource hbefore.attended hdone hof hc hown
    simpa [Deployment.history] using hreceipts

/-- A source reads a message, is torn down and opened again. Nobody else is attached. -/
def reopeningRun : List (Step Store) :=
  [.create "a" (some sampleConfig), .openSource "a" none "",
    .stimulate (Stimulus.publish "t" [] [1] none 0),
    .ask (.source "a") .read false, .teardown "a", .openSource "a" none ""]

set_option maxRecDepth 10000 in
/-- The message is received again. -/
theorem redelivered_of_reopeningRun : ∃ r,
    .received r ∈
        (Deployment.fresh.run reopeningRun).2.history [.ask (.source "a") .read false] ∧
      r.entry = 0 ∧ (Deployment.fresh.run (reopeningRun ++
        [.ask (.source "a") .read false])).2.broker.Serves "t" "s" r.consumer := by
  have hunacked : ((Deployment.fresh.run reopeningRun).2.broker.subscription? "t" "s").map
      (·.unacked) = some [0] := by
    decide +kernel
  have hserves : (Deployment.fresh.run reopeningRun).2.broker.Serves "t" "s" 1 := by
    decide +kernel
  have hwaits : ((Deployment.fresh.run (reopeningRun ++
      [.ask (.source "a") .read false])).2.broker.tryReceive 1).1.isNone := by
    decide +kernel
  have hdone : ((Deployment.fresh.run (reopeningRun.take 5)).2.step
      (.openSource "a" none "")).1 = .done :=
    rfl
  have hof : (Deployment.fresh.run reopeningRun).2.consumerOf? (.source "a") = some 1 := by
    decide +kernel
  have halone : ∀ a ∈ (Deployment.fresh.run (reopeningRun.take 5)).2.broker.consumers,
      a.closed := by
    decide +kernel
  obtain ⟨s, hsub, hs⟩ := Option.map_eq_some_iff.mp hunacked
  have hdriven : ∀ s ∈ reopeningRun, s.TrackerDriven := by
    simp [reopeningRun, Step.TrackerDriven]
  obtain ⟨-, hread, hshift⟩ := redelivered_unless_received hdriven hsub hserves
  have hreceipts := hshift (reopeningRun.take 5) "a" none "" rfl hdone hof (by
    rintro k ⟨options, hk, -⟩
    have hclosed := halone _ (List.mem_of_getElem? (Store.attached?_eq_some.mp hk))
    cases hclosed)
  refine (hread [.ask (.source "a") .read false] (by simp [Step.Reads.ask])
    (Option.isNone_iff_eq_none.mp hwaits) 0 (by simp [hs])).mpr ?_
  simp [hreceipts]

/-- While another source stays attached, a source reads a message, is torn down and opened
again. -/
def strandingRun : List (Step Store) :=
  [.create "a" (some sampleConfig), .create "b" (some sampleConfig),
    .openSource "a" none "", .openSource "b" none "",
    .stimulate (Stimulus.publish "t" [] [1] none 0),
    .ask (.source "a") .read false, .teardown "a", .openSource "a" none ""]

set_option maxRecDepth 10000 in
/-- The message is unacknowledged, and neither is it queued nor does anybody have it who is
attached. Both sources read until they have to wait, and nothing is received. -/
theorem stranded_of_strandingRun : (∀ s ∈ strandingRun, s.TrackerDriven) ∧ ∃ s,
    (Deployment.fresh.run strandingRun).2.broker.subscription? "t" "s" = some s ∧
      (Deployment.fresh.run strandingRun).2.broker.Serves "t" "s" 1 ∧
      (Deployment.fresh.run strandingRun).2.broker.Serves "t" "s" 2 ∧
      s.unacked = [0] ∧ s.redeliver = [] ∧
      (∀ r, .received r ∈ Deployment.fresh.history strandingRun → r.entry = 0 →
        ¬ (Deployment.fresh.run strandingRun).2.broker.Serves "t" "s" r.consumer) ∧
      (Deployment.fresh.run strandingRun).2.history
        [.ask (.source "a") .read false, .ask (.source "b") .read false] = [] ∧
      ∀ c ∈ [1, 2], ((Deployment.fresh.run (strandingRun ++ [.ask (.source "a") .read false,
        .ask (.source "b") .read false])).2.broker.tryReceive c).1 = none := by
  have hlists : ((Deployment.fresh.run strandingRun).2.broker.subscription? "t" "s").map
      (fun s => (s.unacked, s.redeliver)) = some ([0], []) := by
    decide +kernel
  have hgone : ∀ r ∈ (Deployment.fresh.history strandingRun).filterMap Deed.receipt?,
      r.entry = 0 → ¬ (Deployment.fresh.run strandingRun).2.broker.Serves "t" "s" r.consumer := by
    decide +kernel
  have hwaits : ∀ c ∈ [1, 2], ((Deployment.fresh.run (strandingRun ++
      [.ask (.source "a") .read false,
        .ask (.source "b") .read false])).2.broker.tryReceive c).1.isNone := by
    decide +kernel
  obtain ⟨s, hsub, hs⟩ := Option.map_eq_some_iff.mp hlists
  refine ⟨by simp [strandingRun, Step.TrackerDriven], s, hsub, by decide +kernel,
    by decide +kernel, congrArg Prod.fst hs, congrArg Prod.snd hs, fun r hr =>
    hgone r (mem_receipts.mpr hr), by decide +kernel, fun c hc => ?_⟩
  exact Option.isNone_iff_eq_none.mp (hwaits c hc)

end TrackedDelivery.Memory
