import TrackedDelivery.Proofs.Deployment.Simulation
/-!
# Steps that only read

A read at a tracker or at a bare consumer tells of nothing but what was received. Nobody comes or
goes: after every step the consumers of unheld trackers are dropped already, and a read leaves
everything that holds a tracker as it was.
-/
namespace TrackedDelivery

/-- A read that is not put into a task. -/
inductive Step.Reads : Step Memory.Store → Prop
  | ask (target : Target) (cancelled : Bool) : Reads (.ask target .read cancelled)
  | receive (consumer : String) : Reads (.receive consumer)

theorem Step.Reads.trackerDriven {s : Step Memory.Store} (h : s.Reads) : s.TrackerDriven := by
  cases h <;> trivial

end TrackedDelivery

namespace TrackedDelivery.Deployment

open Memory

variable {d after : Deployment Store} {s : Step Store}

/-! ## What a read tells -/

theorem received_of_requestDeeds {n : ℕ} {t : Tracker Store} {answer : Answer Store}
    {deed : Deed} (h : deed ∈ requestDeeds n t .read answer) : ∃ r, deed = .received r := by
  unfold requestDeeds at h
  split at h
  · obtain ⟨id, -, rfl⟩ := Option.map_eq_some_iff.mp (Option.mem_toList.mp h)
    exact ⟨_, rfl⟩
  · cases h
  · cases h
  · cases h

theorem received_of_actDeeds (hs : s.Reads) {deed : Deed} (h : deed ∈ d.actDeeds s) :
    ∃ r, deed = .received r := by
  cases hs with
  | ask target cancelled =>
      simp only [actDeeds, asked?] at h
      cases hn : d.trackerNumber? target with
      | none =>
          rw [hn] at h
          cases h
      | some n =>
          rw [hn] at h
          dsimp only [Option.map_some] at h
          split at h
          · cases h
          · exact received_of_requestDeeds h
  | receive name =>
      simp only [actDeeds] at h
      split at h
      · exact ⟨_, List.mem_singleton.mp h⟩
      · cases h

/-! ## What a read leaves alone -/

/-- Everything that holds a tracker is as it was, and so are the consumers of trackers and
broker. -/
structure Holds (d after : Deployment Store) : Prop where
  sources : after.sources = d.sources
  held : after.held = d.held
  tasks : after.tasks = d.tasks
  owned : after.trackers.map (·.consumer) = d.trackers.map (·.consumer)
  consumers : after.broker.consumers = d.broker.consumers

theorem consumers_of_ends {b b' : Store} {consumer : ℕ}
    {reply : Reply ℕ (Except Failure (Message EntryId))} (hb : b.Sound)
    (h : Ends b consumer reply b') : b'.consumers = b.consumers := by
  rcases h with ⟨m, hm, -⟩ | ⟨-, -, hconsumers⟩
  · obtain ⟨_, _, hout⟩ := Store.handsOut_of_tryReceive hb hm
    exact hout.consumers
  · exact hconsumers

theorem settleRead_consumer (cancelled : Bool) (w : Delivery Store)
    (reply : Reply ℕ (Except Failure (Message EntryId))) :
    (Delivery.settleRead cancelled w reply).2.tracker.consumer = w.tracker.consumer ∧
      (Delivery.settleRead cancelled w reply).2.broker = w.broker := by
  match reply with
  | .done (.ok m) =>
      simp only [Delivery.settleRead, Delivery.handOut]
      split <;> exact ⟨rfl, rfl⟩
  | .done (.error e) => exact ⟨rfl, rfl⟩
  | .waiting w =>
      simp only [Delivery.settleRead]
      split <;> exact ⟨rfl, rfl⟩

theorem holds_ask (hb : d.broker.Sound) (target : Target) (cancelled : Bool) :
    d.Holds (d.ask target .read cancelled).2 := by
  unfold ask tracker?
  cases d.trackerNumber? target with
  | none => exact ⟨rfl, rfl, rfl, rfl, rfl⟩
  | some n =>
      dsimp only [Option.bind_some]
      cases ht : d.trackers[n]? with
      | none => exact ⟨rfl, rfl, rfl, rfl, rfl⟩
      | some t =>
          obtain ⟨hlt, hget⟩ := List.getElem?_eq_some_iff.mp ht
          obtain ⟨hconsumer, hbroker⟩ := settleRead_consumer cancelled
            { tracker := t
              broker := (d.broker.receive t.consumer).2
              log := d.log ++ [.reading t.subscription] } (d.broker.receive t.consumer).1
          refine ⟨rfl, rfl, rfl, ?_, ?_⟩
          · change (d.trackers.set n _).map (·.consumer) = _
            rw [List.map_set]
            refine (congrArg _ hconsumer).trans ?_
            rw [← hget, ← List.map_set, List.set_getElem_self]
          · exact (congrArg Store.consumers hbroker).trans
              (consumers_of_ends hb (ends_receive d.broker t.consumer))

theorem holds_act (hb : d.broker.Sound) (hs : s.Reads) : d.Holds (d.act s).2 := by
  cases hs with
  | ask target cancelled => exact holds_ask hb target cancelled
  | receive name =>
      simp only [act]
      cases d.consumers.find? name with
      | none => exact ⟨rfl, rfl, rfl, rfl, rfl⟩
      | some c => exact ⟨rfl, rfl, rfl, rfl, consumers_of_ends hb (ends_receive d.broker c)⟩

/-! ## Trackers that nothing refers to -/

/-- No tracker that is not held has a consumer attached. -/
def Tidy (d : Deployment Store) : Prop :=
  ∀ n t, d.trackers[n]? = some t → d.isHeld n = false → d.broker.attached? t.consumer = none

theorem Tidy.dropDeeds (h : d.Tidy) : d.dropDeeds = [] := by
  refine List.filterMap_eq_nil_iff.mpr fun n _ => ?_
  unfold letGo?
  cases ht : d.trackers[n]? with
  | none => rfl
  | some t =>
      cases hn : d.isHeld n with
      | true => simp
      | false => simp [h n t ht hn]

/-- In tidy deployments nothing is dropped. -/
theorem Tidy.dropUnheld (h : d.Tidy) : d.dropUnheld = d := by
  have hsame : d.dropUnheld.broker = d.broker := by
    refine dropUnheld_preserves (P := fun b => b = d.broker) (fun b n t ht hn hb => ?_) rfl
    rw [hb, Store.release_of_closed (h n t ht hn)]
  rw [dropUnheld_eq] at hsame ⊢
  exact congrArg (fun b => { d with broker := b }) hsame

theorem Tidy.of_holds (h : d.Tidy) (hh : d.Holds after) : after.Tidy := by
  intro n t ht hn
  have hconsumer : (d.trackers.map (·.consumer))[n]? = some t.consumer := by
    rw [← hh.owned, List.getElem?_map, ht, Option.map_some]
  rw [List.getElem?_map] at hconsumer
  obtain ⟨u, hu, hut⟩ := Option.map_eq_some_iff.mp hconsumer
  have hheld : d.isHeld n = false := by
    unfold isHeld at hn ⊢
    rwa [hh.sources, hh.held, hh.tasks] at hn
  rw [Store.attached?_congr hh.consumers, ← hut]
  exact h n u hu hheld

/-- Once all trackers that nothing refers to were looked at, none has a consumer attached. -/
theorem attached?_foldl_dropAt_of_mem {numbers : List ℕ} {b : Store} {n : ℕ} {t : Tracker Store}
    (hmem : n ∈ numbers) (ht : d.trackers[n]? = some t) (hn : d.isHeld n = false) :
    (numbers.foldl d.dropAt b).attached? t.consumer = none := by
  induction numbers generalizing b with
  | nil => cases hmem
  | cons k rest ih =>
      rcases List.mem_cons.mp hmem with rfl | hmem
      · have hgone : (d.dropAt b n).attached? t.consumer = none := by
          simp [dropAt, ht, hn, Store.attached?_release]
        exact foldl_dropAt_preserves (P := fun b => b.attached? t.consumer = none)
          (fun b _ u _ _ hb => by simp [Store.attached?_release, hb]) rest hgone
      · exact ih hmem

theorem tidy_dropUnheld (d : Deployment Store) : d.dropUnheld.Tidy := by
  rw [dropUnheld_eq]
  intro n t ht hn
  exact attached?_foldl_dropAt_of_mem (List.mem_range.mpr (List.getElem?_eq_some_iff.mp ht).1)
    ht hn

theorem tidy_run {steps : List (Step Store)} (h : d.Tidy) : (d.run steps).2.Tidy :=
  run_preserves (fun _ _ _ => tidy_dropUnheld _) h steps

theorem tidy_fresh : fresh.Tidy := by
  intro n t ht
  cases ht

/-! ## Reads one after another -/

/-- Reads tell of nothing but what was received. -/
theorem received_of_deeds (hb : d.broker.Sound) (hd : d.Tidy) (hs : s.Reads) {deed : Deed}
    (h : deed ∈ d.deeds s) : ∃ r, deed = .received r := by
  have htidy : Tidy (act { d with log := [] } s).2 :=
    Tidy.of_holds (d := { d with log := [] }) hd (holds_act hb hs)
  rw [deeds, htidy.dropDeeds, List.append_nil] at h
  exact received_of_actDeeds hs h

theorem received_of_history (hb : d.broker.Sound) (hk : AllKeyed d.trackers) (hd : d.Tidy)
    {reads : List (Step Store)} (hs : ∀ s ∈ reads, s.Reads) {deed : Deed}
    (h : deed ∈ d.history reads) : ∃ r, deed = .received r := by
  induction reads generalizing d with
  | nil => cases h
  | cons s rest ih =>
      have hstep := hs s (List.mem_cons_self ..)
      rcases List.mem_append.mp h with h | h
      · exact received_of_deeds hb hd hstep h
      · have hmoves := moves_step hk hstep.trackerDriven
        exact ih (hmoves.sound hb) (allKeyed_of_moves hmoves hk) (tidy_dropUnheld _)
          (fun s' hs' => hs s' (List.mem_cons_of_mem _ hs')) h

end TrackedDelivery.Deployment
