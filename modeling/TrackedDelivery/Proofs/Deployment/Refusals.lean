import TrackedDelivery.Proofs.Deployment.Asking
import TrackedDelivery.Proofs.Deployment.Interleaving
/-!
# Failed acknowledgments

An acknowledgment that fails before the broker is asked leaves everything as it was. One that the
broker refuses has taken its message out of the pending set on purpose, and what it leaves at the
broker is at most one arranged failure less. The message is not found afterwards until it is
received again.
-/
namespace TrackedDelivery.Memory

/-! ## The ways an acknowledgment ends -/

/-- The store refuses acknowledgments through a consumer for a cause, and these failures are still
arranged for then. -/
def Store.Rejects (b : Store) (consumer : ℕ) (cause : Failure) (left : List String) : Prop :=
  (b.attached? consumer = none ∧ cause = .closed ∧ left = b.failAcknowledges) ∨
    ((b.attached? consumer).isSome = true ∧
      ∃ reason, cause = .acknowledgeRejected reason ∧ b.failAcknowledges = reason :: left)

theorem Store.rejects_of_acknowledge {b b' : Store} {consumer : ℕ} {id : EntryId} {cause : Failure}
    (h : b.acknowledge consumer id = (.error cause, b')) :
    ∃ left, b.Rejects consumer cause left ∧ b' = { b with failAcknowledges := left } := by
  unfold Store.acknowledge at h
  cases ha : b.attached? consumer with
  | none =>
      rw [ha] at h
      cases h
      exact ⟨_, .inl ⟨ha, rfl, rfl⟩, rfl⟩
  | some options =>
      rw [ha] at h
      dsimp only at h
      cases hf : b.failAcknowledges with
      | nil =>
          rw [hf] at h
          cases h
      | cons reason rest =>
          rw [hf] at h
          cases h
          exact ⟨rest, .inr ⟨by rw [ha]; rfl, reason, rfl, hf⟩, rfl⟩

/-- How the acknowledgment of a position comes to its end. -/
inductive AckEnds (w : Delivery Store) (position : Bytes) : AckCall Store × Delivery Store → Prop
  | unread {e : AckError Failure} (meaning : w.tracker.meaning position = .error e) :
      AckEnds w position (.settled (.error e), w)
  | missing {id : EntryId} (meaning : w.tracker.meaning position = .ok id)
      (absent : w.tracker.pending.contains id.text = false) :
      AckEnds w position
        (.settled (.error (.notFound id.text)), w.report (.acknowledging id.text))
  | refused {id : EntryId} {cause : Failure} {left : List String}
      (meaning : w.tracker.meaning position = .ok id)
      (pending : w.tracker.pending.contains id.text = true)
      (rejects : w.broker.Rejects w.tracker.consumer cause left) :
      AckEnds w position (.settled (.error (.rejected id.text cause)),
        { takeOut w id with broker := { w.broker with failAcknowledges := left } })
  | confirmed {id : EntryId} {m : Message EntryId} {b : Store}
      (meaning : w.tracker.meaning position = .ok id)
      (pending : w.tracker.pending.find? id.text = some m)
      (accepted : w.broker.acknowledge w.tracker.consumer m.id = (.ok (), b)) :
      AckEnds w position (.settled (.ok ()), { takeOut w id with broker := b })

section

variable {w : Delivery Store}

theorem ackEnds_acknowledge (w : Delivery Store) (position : Bytes) :
    AckEnds w position (w.acknowledge position) := by
  rw [acknowledge_eq]
  cases hmeaning : w.tracker.meaning position with
  | error e => exact .unread hmeaning
  | ok id =>
      dsimp only
      rw [acknowledgeId_eq]
      cases hm : w.tracker.pending.find? id.text with
      | none => exact .missing hmeaning (by rw [TextMap.contains, hm]; rfl)
      | some m =>
          dsimp only
          rcases ha : w.broker.acknowledge w.tracker.consumer m.id with ⟨_ | cause, b⟩
          · rename_i cause
            obtain ⟨left, hrejects, rfl⟩ := Store.rejects_of_acknowledge ha
            rw [confirm_of_error (d := takeOut w id) ha]
            exact .refused hmeaning (by rw [TextMap.contains, hm]; rfl) hrejects
          · rw [confirm_of_ok (d := takeOut w id) ha]
            exact .confirmed hmeaning hm ha

/-- A position of another subscription is not found, whatever identifier it carries. -/
theorem acknowledge_of_foreign {position : Bytes} {p : Position}
    (hp : Position.decode position = .ok p) (hother : p.subscription ≠ w.tracker.subscription) :
    w.acknowledge position = (.settled (.error (.notFound (p.messageId.getD ""))), w) := by
  have hmeaning : w.tracker.meaning position = .error (.notFound (p.messageId.getD "")) := by
    rw [Tracker.meaning, hp]
    exact if_neg hother
  rw [acknowledge_eq, hmeaning]

/-- A failure that is not the broker's has happened before anything was done. -/
theorem acknowledge_of_unlike_rejected {position : Bytes} {e : AckError Failure}
    (h : (w.acknowledge position).1 = .settled (.error e))
    (hunlike : ∀ key cause, e ≠ .rejected key cause) :
    ∃ log, (w.acknowledge position).2 = { w with log } := by
  have hends := ackEnds_acknowledge w position
  generalize w.acknowledge position = last at h hends
  cases hends with
  | unread => exact ⟨_, rfl⟩
  | missing => exact ⟨_, rfl⟩
  | refused =>
      cases h
      exact absurd rfl (hunlike _ _)
  | confirmed => cases h

/-- The broker refuses a message after it has left the pending set. -/
theorem acknowledge_of_rejected {position : Bytes} {key : String} {cause : Failure}
    (h : (w.acknowledge position).1 = .settled (.error (.rejected key cause))) :
    ∃ id left, w.tracker.named? position = some id ∧ key = id.text ∧
      w.tracker.pending.contains key = true ∧ w.broker.Rejects w.tracker.consumer cause left ∧
      (w.acknowledge position).2 =
        { takeOut w id with broker := { w.broker with failAcknowledges := left } } := by
  have hends := ackEnds_acknowledge w position
  generalize w.acknowledge position = last at h hends
  cases hends with
  | unread meaning =>
      cases h
      exact absurd meaning (w.tracker.meaning_ne_rejected position key cause)
  | missing => cases h
  | @refused id _ left meaning pending rejects =>
      cases h
      exact ⟨id, left, Tracker.named?_eq_some.mpr meaning, rfl, pending, rejects, rfl⟩
  | confirmed => cases h

/-- What is named and not pending is not found. -/
theorem acknowledge_of_absent {position : Bytes} {id : EntryId}
    (hid : w.tracker.named? position = some id)
    (habsent : w.tracker.pending.contains id.text = false) :
    (w.acknowledge position).1 = .settled (.error (.notFound id.text)) := by
  have hfind : w.tracker.pending.find? id.text = none := by
    simpa [TextMap.contains] using habsent
  rw [acknowledge_eq, Tracker.named?_eq_some.mp hid]
  dsimp only
  rw [acknowledgeId_eq, hfind]

end

/-! ## What is pending was received -/

section

variable {f g : Floor} {deeds : List Deed} {n : ℕ} {t u : Tracker Store} {id : EntryId}

theorem Turn.pending (turn : Turn f deeds g) (ht : f.trackers[n]? = some t)
    (hu : g.trackers[n]? = some u) (h : u.pending.contains id.text = true) :
    t.pending.contains id.text = true ∨ ∃ consumer, .received ⟨consumer, some n, id⟩ ∈ deeds := by
  have hkept : f.trackers[n]? = some u → t.pending.contains id.text = true := by
    intro hu
    cases ht.symm.trans hu
    exact h
  cases turn with
  | settle => exact .inl (hkept hu)
  | move move =>
      cases move with
      | quiet | publish | turnAway | attach | release | receive => exact .inl (hkept hu)
      | track =>
          rw [List.getElem?_append_left (List.getElem?_eq_some_iff.mp ht).1] at hu
          exact .inl (hkept hu)
      | @pull _ k v m tracker =>
          rcases Accounted.getElem?_set_cases hu with ⟨rfl, rfl⟩ | ⟨-, hu⟩
          · cases tracker.symm.trans ht
            rcases (PendingSet.contains_insertIfAbsent _ _ _ _).mp h with hnew | hold
            · obtain rfl := EntryId.text_inj.mp hnew
              exact .inr ⟨_, List.mem_singleton_self _⟩
            · exact .inl hold
          · exact .inl (hkept hu)
      | confirm tracker | refuse tracker =>
          rcases Accounted.getElem?_set_cases hu with ⟨rfl, rfl⟩ | ⟨-, hu⟩
          · cases tracker.symm.trans ht
            left
            rw [TextMap.contains, TextMap.find?_erase] at h
            split at h
            · cases h
            · exact h
          · exact .inl (hkept hu)

/-- Whatever is pending was pending before or has been received since. -/
theorem Turns.pending (turns : Turns f deeds g) (ht : f.trackers[n]? = some t)
    (hu : g.trackers[n]? = some u) (h : u.pending.contains id.text = true) :
    t.pending.contains id.text = true ∨ ∃ consumer, .received ⟨consumer, some n, id⟩ ∈ deeds := by
  induction turns generalizing t with
  | nil =>
      cases ht.symm.trans hu
      exact .inl h
  | cons turn _ ih =>
      obtain ⟨v, hv, -⟩ := turn.tracker ht
      rcases ih hv hu with hpending | ⟨consumer, hreceived⟩
      · refine (turn.pending ht hv hpending).imp_right ?_
        rintro ⟨consumer, hreceived⟩
        exact ⟨consumer, List.mem_append_left _ hreceived⟩
      · exact .inr ⟨consumer, List.mem_append_right _ hreceived⟩

end
end TrackedDelivery.Memory

namespace TrackedDelivery.Deployment

open Memory

variable {d : Deployment Store} {target : Target} {n : ℕ} {t : Tracker Store}

/-- A message that is no longer pending is not found unless it is received again. -/
theorem notFound_of_absent {steps rest : List (Step Store)} {position : Bytes} {id : EntryId}
    (ht : (fresh.run steps).2.trackers[n]? = some t) (hid : t.named? position = some id)
    (habsent : t.pending.contains id.text = false)
    (hunread : ∀ consumer, .received ⟨consumer, some n, id⟩ ∉
      (fresh.run steps).2.history rest)
    (hn : ((fresh.run steps).2.run rest).2.trackerNumber? target = some n) (cancelled : Bool) :
    (((fresh.run steps).2.run rest).2.step (.ask target (.acknowledge position) cancelled)).1 =
      .failed (.acknowledge (.notFound id.text)) := by
  have hturns := turns_run (recorded_run steps) rest
  obtain ⟨u, hu, -, hsubscription⟩ := hturns.tracker ht
  have hstill : u.pending.contains id.text = false := by
    rw [Bool.eq_false_iff]
    intro hpending
    rcases hturns.pending ht hu hpending with hbefore | ⟨consumer, hreceived⟩
    · rw [habsent] at hbefore
      cases hbefore
    · exact hunread consumer hreceived
  have hnamed : u.named? position = some id := by
    rw [Tracker.named?, hsubscription, ← hid, Tracker.named?]
  have htidy : ((fresh.run steps).2.run rest).2.Tidy := tidy_run (tidy_run tidy_fresh)
  rw [htidy.step_acknowledge hn hu,
    acknowledge_of_absent (w := { tracker := u, broker := _ }) hnamed hstill]
  rfl

end TrackedDelivery.Deployment

namespace TrackedDelivery.Memory

/-- In every state of a run, let a tracker be asked to acknowledge any bytes. The acknowledgment
succeeds or fails at once. A position of another subscription is not found, whatever identifier it
carries. A failure that is not the broker's leaves everything as it was. When the broker refuses,
the one pending message that was named has left the pending set, and nothing else has changed but
that the failure is used up if one was arranged for and the consumer is attached. The same position
is then not found until the tracker has received the message again. -/
theorem failed_acknowledgment (steps : List (Step Store)) {target : Target} {n : ℕ}
    {t : Tracker Store} (hn : (Deployment.fresh.run steps).2.trackerNumber? target = some n)
    (ht : (Deployment.fresh.run steps).2.trackers[n]? = some t) (position : Bytes)
    (cancelled : Bool) :
    let d := (Deployment.fresh.run steps).2
    let ended := d.step (.ask target (.acknowledge position) cancelled)
    (ended.1 = .outcome .acknowledged ∨ ∃ e, ended.1 = .failed (.acknowledge e)) ∧
    (∀ p, Position.decode position = .ok p → p.subscription ≠ t.subscription →
      ended.1 = .failed (.acknowledge (.notFound (p.messageId.getD "")))) ∧
    (∀ e, ended.1 = .failed (.acknowledge e) → (∀ key cause, e ≠ .rejected key cause) →
      { ended.2 with log := d.log } = d) ∧
    ∀ key cause, ended.1 = .failed (.acknowledge (.rejected key cause)) →
      ∃ id left, t.named? position = some id ∧ key = id.text ∧
        t.pending.contains key = true ∧ d.broker.Rejects t.consumer cause left ∧
        { ended.2 with log := d.log } = { d with
          broker := { d.broker with failAcknowledges := left }
          trackers := d.trackers.set n { t with pending := t.pending.erase key } } ∧
        ∀ rest, (∀ consumer, .received ⟨consumer, some n, id⟩ ∉ ended.2.history rest) →
          ∀ target' cancelled', (ended.2.run rest).2.trackerNumber? target' = some n →
            ((ended.2.run rest).2.step (.ask target' (.acknowledge position) cancelled')).1 =
              .failed (.acknowledge (.notFound key)) := by
  intro d ended
  have htidy : d.Tidy := Deployment.tidy_run Deployment.tidy_fresh
  let w : Delivery Store := { tracker := t, broker := d.broker }
  have hended : ended = (.ofCall (Call.ofAck (w.acknowledge position).1),
      d.worked n (w.acknowledge position).2) := htidy.step_acknowledge hn ht position cancelled
  -- The end of the acknowledgment is a state of a run itself, and what follows goes on from there.
  have hrun : (Deployment.fresh.run
      (steps ++ [.ask target (.acknowledge position) cancelled])).2 = ended.2 :=
    Deployment.run_append _ steps _
  rw [hended]
  refine ⟨ofAck_cases _, fun p hp hother => ?_, fun e he hunlike => ?_, fun key cause he => ?_⟩
  · rw [acknowledge_of_foreign (w := w) hp hother]
    rfl
  · obtain ⟨log, hsame⟩ := acknowledge_of_unlike_rejected (ofAck_eq_failed.mp he) hunlike
    rw [hsame, Deployment.worked_self ht]
  · obtain ⟨id, left, hid, rfl, hpending, hrejects, hafter⟩ :=
      acknowledge_of_rejected (ofAck_eq_failed.mp he)
    rw [hafter] at hended ⊢
    refine ⟨id, left, hid, rfl, hpending, hrejects, rfl,
      fun rest hunread target' cancelled' hn' => ?_⟩
    have hlater : (d.trackers.set n { t with pending := t.pending.erase id.text })[n]? =
        some { t with pending := t.pending.erase id.text } :=
      List.getElem?_set_self (List.getElem?_eq_some_iff.mp ht).1
    have habsent : (t.pending.erase id.text).contains id.text = false := by
      rw [TextMap.contains, TextMap.find?_erase, if_pos rfl]
      rfl
    rw [hended] at hrun
    rw [← hrun] at hunread hn' ⊢
    refine Deployment.notFound_of_absent (t := { t with pending := t.pending.erase id.text }) ?_ hid
      habsent hunread hn' cancelled'
    rw [hrun]
    exact hlater

/-- One more acknowledgment is to fail. -/
def refusingRun : List (Step Store) :=
  sampleRun ++ [.stimulate (Stimulus.failNextAcknowledge "again")]

/-- Another message is read. -/
def furtherRun : List (Step Store) :=
  [.stimulate (Stimulus.publish "t" [] [5] none 0), .ask (.source "a") .read false]

def acknowledgeSample (entry : UInt64) : Step Store :=
  .ask (.source "a") (.acknowledge (samplePosition entry)) false

set_option maxRecDepth 10000 in
theorem refused_of_refusingRun :
    let d := (Deployment.fresh.run refusingRun).2
    let ended := d.step (acknowledgeSample 2)
    ended.1 = .failed (.acknowledge (.rejected "0:2" (.acknowledgeRejected "again"))) ∧
    ended.2.broker = { d.broker with failAcknowledges := [] } ∧
    ((ended.2.run furtherRun).2.step (acknowledgeSample 2)).1 =
      .failed (.acknowledge (.notFound "0:2")) := by
  intro d ended
  have hbefore : d.trackerNumber? (.source "a") = some 0 ∧
      d.trackers[0]?.map (fun t => t.named? (samplePosition 2)) = some (some ⟨0, 2⟩) ∧
      d.broker.failAcknowledges = ["again"] := by
    decide +kernel
  have hafter : ended.1.error? =
        some (.acknowledge (.rejected "0:2" (.acknowledgeRejected "again"))) ∧
      ended.2.history furtherRun = [.received ⟨0, some 0, ⟨0, 4⟩⟩] ∧
      (ended.2.run furtherRun).2.trackerNumber? (.source "a") = some 0 := by
    decide +kernel
  obtain ⟨hn, hstate, hfails⟩ := hbefore
  obtain ⟨hended, hhistory, hn'⟩ := hafter
  obtain ⟨t, ht, hnamed⟩ := Option.map_eq_some_iff.mp hstate
  rw [Answer.error?_eq_some] at hended
  obtain ⟨-, -, -, hrejected⟩ := failed_acknowledgment refusingRun hn ht (samplePosition 2) false
  obtain ⟨id, left, hid, -, -, hrejects, hchange, hlater⟩ := hrejected _ _ hended
  obtain rfl : id = ⟨0, 2⟩ := Option.some.inj (hid.symm.trans hnamed)
  refine ⟨hended, ?_, hlater furtherRun (fun consumer => ?_) (.source "a") false hn'⟩
  · rcases hrejects with ⟨-, hcause, -⟩ | ⟨-, reason, -, hleft⟩
    · cases hcause
    · obtain rfl : left = [] := (List.cons.inj (hleft.symm.trans hfails)).2
      exact congrArg Deployment.broker hchange
  · change _ ∉ ended.2.history furtherRun
    rw [hhistory]
    simp

end TrackedDelivery.Memory
