import TrackedDelivery.Proofs.Deployment.Guarantees
import TrackedDelivery.Proofs.Deployment.Sessions
/-!
# Trackers of former sessions

A tracker may be kept, by a name or by a task, when its session has been closed. It still has its
pending messages, and a newer session may receive the same messages again. The broker looks first
whether a consumer is closed, so whatever the old tracker is asked for fails and leaves no trace at
the broker.
-/
namespace TrackedDelivery

open Memory

/-- The message that a position names to a tracker, if it names the tracker's subscription. -/
def Tracker.named? (t : Tracker Store) (position : Bytes) : Option EntryId :=
  match Position.decode position with
  | .error _ => none
  | .ok p =>
      if p.subscription = t.subscription then (p.readMessageId EntryId).toOption else none

theorem Tracker.named?_eq (t : Tracker Store) (position : Bytes) :
    t.named? position = (t.meaning position).toOption := by
  unfold named? meaning
  cases Position.decode position with
  | error cause => rfl
  | ok p =>
      dsimp only
      split
      · cases p.readMessageId EntryId <;> rfl
      · rfl

theorem Tracker.named?_eq_some {t : Tracker Store} {position : Bytes} {id : EntryId} :
    t.named? position = some id ↔ t.meaning position = .ok id := by
  rw [named?_eq]
  cases t.meaning position <;> simp [Except.toOption]

/-- An acknowledgment that came after others was refused by the broker, as the consumer was closed,
if and only if its message was still pending. -/
def Tracker.Rejects (t : Tracker Store) (earlier : List Bytes) (position : Bytes)
    (e : AckError Memory.Failure) : Prop :=
  ∀ key cause, e = .rejected key cause ↔ cause = .closed ∧ ∃ id, t.named? position = some id ∧
    id.text = key ∧ t.pending.contains id.text = true ∧ ∀ p ∈ earlier, t.named? p ≠ some id

/-- The answer to a request for acknowledgments that all failed, if there were any. -/
def Answer.ofFailures (errors : List (AckError Memory.Failure)) (outcome : Outcome) :
    Answer Store :=
  match errors with
  | [] => .outcome outcome
  | e :: rest => .failed (.batch ((e :: rest).zipIdx.map Prod.swap))

/-- How a tracker answers a request once its consumer has gone. -/
def Tracker.Refuses (t : Tracker Store) (answer : Answer Store) : Request → Prop
  | .read => answer = .failed (.receive .closed)
  | .acknowledge position => ∃ e, answer = .failed (.acknowledge e) ∧ t.Rejects [] position e
  | .acknowledgeBatch positions => ∃ errors, answer = .ofFailures errors .acknowledged ∧
      errors.length = positions.length ∧ ∀ (i : ℕ) position e, positions[i]? = some position →
        errors[i]? = some e → t.Rejects (positions.take i) position e
  | .acknowledgeAll => answer = .ofFailures
      (t.pending.keys.map fun key => .rejected key .closed) (.acknowledgedAll 0)

namespace Memory

/-! ## Requests through a closed consumer -/

namespace Store

variable {b : Store} {consumer : ℕ}

theorem receive_of_unattached (h : b.attached? consumer = none) :
    b.receive consumer = (.done (.error .closed), b) := by
  simp [receive, tryReceive, h]

theorem acknowledge_of_unattached (h : b.attached? consumer = none) (id : EntryId) :
    b.acknowledge consumer id = (.error .closed, b) := by
  simp [acknowledge, h]

end Store

/-- What becomes of a tracker that has been asked to acknowledge positions in vain. -/
structure Fails (w : Delivery Store) (positions : List Bytes) (after : Delivery Store) : Prop where
  broker : after.broker = w.broker
  consumer : after.tracker.consumer = w.tracker.consumer
  subscription : after.tracker.subscription = w.tracker.subscription
  pending : ∀ id : EntryId, after.tracker.pending.contains id.text = true ↔
    w.tracker.pending.contains id.text = true ∧ ∀ p ∈ positions, w.tracker.named? p ≠ some id

namespace Fails

variable {w after last : Delivery Store} {positions rest : List Bytes}

theorem named? (h : Fails w positions after) (position : Bytes) :
    after.tracker.named? position = w.tracker.named? position := by
  rw [Tracker.named?, h.subscription, Tracker.named?]

theorem refl (w : Delivery Store) : Fails w [] w where
  broker := rfl
  consumer := rfl
  subscription := rfl
  pending id := by simp

theorem trans (h : Fails w positions after) (h' : Fails after rest last) :
    Fails w (positions ++ rest) last where
  broker := h'.broker.trans h.broker
  consumer := h'.consumer.trans h.consumer
  subscription := h'.subscription.trans h.subscription
  pending id := by
    simp only [h'.pending, h.pending, h.named?, List.mem_append, and_assoc]
    apply and_congr_right
    intro _
    constructor
    · rintro ⟨hpositions, hrest⟩ p (hp | hp)
      · exact hpositions p hp
      · exact hrest p hp
    · exact fun hall => ⟨fun p hp => hall p (.inl hp), fun p hp => hall p (.inr hp)⟩

/-- A later acknowledgment is judged by what was pending at first. -/
theorem rejects (h : Fails w positions after) {earlier : List Bytes} {position : Bytes}
    {e : AckError Failure} (he : after.tracker.Rejects earlier position e) :
    w.tracker.Rejects (positions ++ earlier) position e := by
  intro key cause
  rw [he key cause]
  simp only [h.named?, h.pending, List.mem_append]
  apply and_congr_right
  intro _
  constructor
  · rintro ⟨id, hid, htext, ⟨hpending, hpositions⟩, hearlier⟩
    refine ⟨id, hid, htext, hpending, ?_⟩
    rintro p (hp | hp)
    · exact hpositions p hp
    · exact hearlier p hp
  · rintro ⟨id, hid, htext, hpending, hall⟩
    exact ⟨id, hid, htext, ⟨hpending, fun p hp => hall p (.inl hp)⟩,
      fun p hp => hall p (.inr hp)⟩

end Fails

section

variable {w : Delivery Store}

theorem confirm_of_unattached (h : w.broker.attached? w.tracker.consumer = none) (key : String)
    (m : Message EntryId) : w.confirm key m = (.settled (.error (.rejected key .closed)), w) := by
  rw [confirm_of_error (Store.acknowledge_of_unattached h m.id)]

/-- An acknowledgment that names no message of the tracker leaves all as it is. -/
theorem fails_of_unnamed {position : Bytes} (h : w.tracker.named? position = none) :
    Fails w [position] w where
  broker := rfl
  consumer := rfl
  subscription := rfl
  pending id := by simp [h]

theorem fails_acknowledgeId (h : w.broker.attached? w.tracker.consumer = none) {position : Bytes}
    {id : EntryId} (hid : w.tracker.named? position = some id) :
    ∃ e, (w.acknowledgeId id).1 = .settled (.error e) ∧ w.tracker.Rejects [] position e ∧
      Fails w [position] (w.acknowledgeId id).2 := by
  rw [acknowledgeId_eq]
  cases hm : w.tracker.pending.find? id.text with
  | none =>
      refine ⟨_, rfl, ?_, rfl, rfl, rfl, fun other => ?_⟩
      · intro key cause
        simp [hid, TextMap.contains, hm]
      · by_cases hother : other = id
        · subst hother
          simp [Delivery.report, TextMap.contains, hm]
        · simp [Delivery.report, hid, Ne.symm hother]
  | some m =>
      have htaken : (takeOut w id).broker.attached? (takeOut w id).tracker.consumer = none := h
      dsimp only
      rw [confirm_of_unattached htaken]
      refine ⟨_, rfl, ?_, rfl, rfl, rfl, fun other => ?_⟩
      · intro key cause
        simp only [AckError.rejected.injEq, hid, Option.some.injEq, List.not_mem_nil, false_implies,
          implies_true, and_true, exists_eq_left', TextMap.contains, hm, Option.isSome_some]
        exact ⟨fun hk => ⟨hk.2.symm, hk.1⟩, fun hk => ⟨hk.2, hk.1.symm⟩⟩
      · simp only [takeOut, TextMap.contains, TextMap.find?_erase, List.mem_singleton,
          forall_eq, hid, Option.some.injEq, ne_eq]
        by_cases hother : other = id
        · simp [hother]
        · have htext : other.text ≠ id.text := fun ht => hother (EntryId.text_inj.mp ht)
          simp [htext, Ne.symm hother]

/-- No acknowledgment through a closed consumer succeeds. -/
theorem fails_acknowledge (h : w.broker.attached? w.tracker.consumer = none) (position : Bytes) :
    ∃ e, (w.acknowledge position).1 = .settled (.error e) ∧ w.tracker.Rejects [] position e ∧
      Fails w [position] (w.acknowledge position).2 := by
  have hunnamed : ∀ e : AckError Failure, (∀ key cause, e ≠ .rejected key cause) →
      w.tracker.named? position = none → w.tracker.Rejects [] position e := by
    intro e he hnone key cause
    simp [he key cause, hnone]
  rw [acknowledge_eq]
  cases hmeaning : w.tracker.meaning position with
  | error e =>
      have hnone : w.tracker.named? position = none := by
        rw [Tracker.named?_eq, hmeaning]
        rfl
      refine ⟨e, rfl, fun key cause => ?_, fails_of_unnamed hnone⟩
      have hunlike : e ≠ .rejected key cause := by
        rintro rfl
        exact w.tracker.meaning_ne_rejected position key cause hmeaning
      simp [hunlike, hnone]
  | ok id => exact fails_acknowledgeId h (Tracker.named?_eq_some.mpr hmeaning)

/-- Each position of a batch fails, judged by what was pending when the batch began. -/
theorem fails_acknowledgeBatch (h : w.broker.attached? w.tracker.consumer = none)
    (positions : List Bytes) : ∃ errors : List (AckError Failure),
      (w.acknowledgeBatch positions).1 = (errors.map .error).map .settled ∧
      errors.length = positions.length ∧
      (∀ (i : ℕ) position e, positions[i]? = some position → errors[i]? = some e →
        w.tracker.Rejects (positions.take i) position e) ∧
      Fails w positions (w.acknowledgeBatch positions).2 := by
  induction positions generalizing w with
  | nil => exact ⟨[], rfl, rfl, by simp, .refl w⟩
  | cons position rest ih =>
      obtain ⟨e, he, hrejects, hfails⟩ := fails_acknowledge h position
      have hnext : (w.acknowledge position).2.broker.attached?
          (w.acknowledge position).2.tracker.consumer = none := by
        rw [hfails.broker, hfails.consumer]
        exact h
      obtain ⟨errors, herrors, hlength, hall, hrest⟩ := ih hnext
      refine ⟨e :: errors, ?_, ?_, ?_, hfails.trans hrest⟩
      · rw [List.map_cons, List.map_cons, ← he, ← herrors]
        rfl
      · rw [List.length_cons, List.length_cons, hlength]
      · intro i position' e' hposition he'
        cases i with
        | zero =>
            cases hposition
            cases he'
            exact hrejects
        | succ i => exact hfails.rejects (hall i position' e' hposition he')

theorem each_confirm_of_unattached (h : w.broker.attached? w.tracker.consumer = none)
    (entries : List (String × Message EntryId)) :
    Delivery.each (fun w e => w.confirm e.1 e.2) w entries =
      ((((entries.map (·.1)).map fun key => AckError.rejected key .closed).map .error).map .settled,
        w) := by
  induction entries with
  | nil => rfl
  | cons e rest ih =>
      rw [Delivery.each, confirm_of_unattached h]
      dsimp only
      rw [ih]
      rfl

/-! ## Answers -/

theorem failuresFrom_map_error (errors : List (AckError Failure)) (index : ℕ) :
    failuresFrom index (errors.map .error) = (errors.zipIdx index).map Prod.swap := by
  induction errors generalizing index with
  | nil => rfl
  | cons e rest ih =>
      rw [List.map_cons, failuresFrom, ih, List.zipIdx_cons, List.map_cons]
      rfl

theorem ofCall_collectFailures (errors : List (AckError Failure)) (outcome : Outcome) :
    (Answer.ofCall (.done ((collectFailures (errors.map .error)).map fun _ => outcome)) :
      Answer Store) = .ofFailures errors outcome := by
  rw [collectFailures, failuresFrom_map_error]
  cases errors <;> rfl

theorem refuses_start (h : w.broker.attached? w.tracker.consumer = none) (cancelled : Bool)
    (request : Request) :
    w.tracker.Refuses (.ofCall (Call.start cancelled w request).1) request ∧
      (Call.start cancelled w request).2.broker = w.broker ∧
      (Call.start cancelled w request).2.tracker.consumer = w.tracker.consumer := by
  cases request with
  | read =>
      rw [start_read_eq, pull_eq, Store.receive_of_unattached h]
      exact ⟨rfl, rfl, rfl⟩
  | acknowledge position =>
      obtain ⟨e, he, hrejects, hfails⟩ := fails_acknowledge h position
      have hstart : Call.start cancelled w (.acknowledge position) =
          (Call.ofAck (w.acknowledge position).1, (w.acknowledge position).2) := rfl
      rw [hstart, he]
      exact ⟨⟨e, rfl, hrejects⟩, hfails.broker, hfails.consumer⟩
  | acknowledgeBatch positions =>
      obtain ⟨errors, herrors, hlength, hall, hfails⟩ := fails_acknowledgeBatch h positions
      have hstart : Call.start cancelled w (.acknowledgeBatch positions) =
          (Call.ofBatch (w.acknowledgeBatch positions).1, (w.acknowledgeBatch positions).2) := rfl
      rw [hstart, herrors, Call.ofBatch, settledResults_map_settled]
      exact ⟨⟨errors, ofCall_collectFailures errors _, hlength, hall⟩, hfails.broker,
        hfails.consumer⟩
  | acknowledgeAll =>
      have hstart : Call.start cancelled w .acknowledgeAll =
          (Call.ofAll w.acknowledgeAll.1, w.acknowledgeAll.2) := rfl
      have htaken : (takeAll w).broker.attached? (takeAll w).tracker.consumer = none := h
      have hall : w.acknowledgeAll = (((w.tracker.pending.keys.map fun key =>
          AckError.rejected key Failure.closed).map .error).map .settled, takeAll w) :=
        each_confirm_of_unattached htaken w.tracker.pending.entries
      rw [hstart, hall, Call.ofAll, settledResults_map_settled]
      refine ⟨?_, rfl, rfl⟩
      dsimp only [Tracker.Refuses]
      rw [ofCall_collectFailures]
      cases w.tracker.pending.keys <;> rfl

/-- A read that waited and was woken is refused as well. -/
theorem refuses_poll (h : w.broker.attached? w.tracker.consumer = none) (cancelled : Bool)
    {since : ℕ} (hwoken : since < w.broker.wakeUps) :
    w.tracker.Refuses (.ofCall (Call.poll cancelled w (.read since)).1) .read ∧
      (Call.poll cancelled w (.read since)).2.broker = w.broker ∧
      (Call.poll cancelled w (.read since)).2.tracker.consumer = w.tracker.consumer := by
  rw [poll_read_eq, resumePull_eq, Store.resumeReceive, if_pos hwoken,
    Store.receive_of_unattached h]
  exact ⟨rfl, rfl, rfl⟩

/-- A consumer that waits and has gone was woken. -/
theorem Store.Watches.lt_of_unattached {b : Store} {consumer since : ℕ}
    (h : b.Watches consumer since) (hgone : b.attached? consumer = none) : since < b.wakeUps := by
  apply Nat.lt_of_le_of_ne h.since_le
  intro hsince
  obtain ⟨options, hidle⟩ := h.idle hsince
  have hattached := hidle.attached
  rw [hgone] at hattached
  cases hattached

end

end Memory

namespace Deployment

variable {d after : Deployment Store} {n : ℕ} {t : Tracker Store} {s : Step Store}
  {request : Request}

/-! ## Steps that ask a tracker whose consumer has gone -/

/-- What it is for a step to have been refused by a tracker. -/
structure Refused (d : Deployment Store) (n : ℕ) (t : Tracker Store) (request : Request)
    (result : Answer Store × Deployment Store) : Prop where
  answer : t.Refuses result.1 request
  broker : result.2.broker = d.broker
  consumers : result.2.trackers.map (·.consumer) = d.trackers.map (·.consumer)
  sources : result.2.sources = d.sources
  held : result.2.held = d.held

theorem map_consumer_set {trackers : List (Tracker Store)} {u : Tracker Store}
    (ht : trackers[n]? = some t) (hu : u.consumer = t.consumer) :
    (trackers.set n u).map (·.consumer) = trackers.map (·.consumer) := by
  apply List.ext_getElem?
  intro i
  rw [List.getElem?_map, List.getElem?_map, List.getElem?_set]
  split
  · rename_i hi
    subst hi
    rw [if_pos (List.getElem?_eq_some_iff.mp ht).1, ht, Option.map_some, Option.map_some, hu]
  · rfl

theorem refused_act (h : d.Regular) (hasked : d.asked? s = some (n, request))
    (ht : d.trackers[n]? = some t) (hgone : d.broker.attached? t.consumer = none) :
    d.Refused n t request (d.act s) := by
  cases s with
  | ask target r cancelled =>
      obtain ⟨k, hk, hpair⟩ := Option.map_eq_some_iff.mp hasked
      cases hpair
      obtain ⟨hrefuses, hbroker, hconsumer⟩ := refuses_start (w := d.work t) hgone cancelled request
      change d.Refused n t request (d.ask target request cancelled)
      rw [ask_eq hk ht]
      exact ⟨hrefuses, hbroker, map_consumer_set ht hconsumer, rfl, rfl⟩
  | start name target r =>
      obtain ⟨k, hk, hpair⟩ := Option.map_eq_some_iff.mp hasked
      cases hpair
      obtain ⟨hrefuses, hbroker, hconsumer⟩ := refuses_start (w := d.work t) hgone false request
      change d.Refused n t request (d.start name target request)
      rw [start_eq hk ht]
      exact ⟨hrefuses, hbroker, map_consumer_set ht hconsumer, rfl, rfl⟩
  | poll name =>
      obtain ⟨task, htask, hpair⟩ := Option.map_eq_some_iff.mp hasked
      cases hpair
      obtain ⟨u, since, hu, hcall, hwatches⟩ := h.watchful name task htask
      cases hu.symm.trans ht
      obtain ⟨hrefuses, hbroker, hconsumer⟩ := refuses_poll (w := d.work t) hgone task.cancelled
        (hwatches.lt_of_unattached hgone)
      rw [← hcall] at hrefuses hbroker hconsumer
      change d.Refused task.tracker t .read (d.poll name)
      rw [poll_eq htask ht]
      exact ⟨hrefuses, hbroker, map_consumer_set ht hconsumer, rfl, rfl⟩
  | _ => cases hasked

/-- A step begins no task in place of another. -/
def FreshTask (d : Deployment Store) : Step Store → Prop
  | .start name _ _ => d.tasks.find? name = none
  | _ => True

theorem find?_settleTask_of_ne {name other : String} {number : ℕ} {cancelled : Bool}
    {reply : Reply (Call Store) (Call.Result Store)} (h : name ≠ other) :
    (d.settleTask other number cancelled reply).2.tasks.find? name = d.tasks.find? name := by
  cases reply with
  | done result => rw [settleTask, TextMap.find?_erase, if_neg h]
  | waiting call => rw [settleTask, TextMap.find?_insert, if_neg h]

/-- All tasks but those of the tracker that is asked outlast the step. -/
theorem Acts.outlasts {answer : Answer Store} (ha : d.Acts s answer after)
    (hasked : d.asked? s = some (n, request)) (hfresh : d.FreshTask s) {name : String}
    {task : Task Store} (htask : d.tasks.find? name = some task) :
    after.tasks.find? name = some task ∨ task.tracker = n := by
  cases ha with
  | start other target request number found =>
      have hne : name ≠ other := by
        rintro rfl
        cases htask.symm.trans hfresh
      left
      rw [find?_settleTask_of_ne hne]
      exact htask
  | poll other waits found =>
      by_cases hname : name = other
      · right
        subst hname
        rw [asked?, waits] at hasked
        cases htask.symm.trans waits
        cases hasked
        rfl
      · left
        rw [find?_settleTask_of_ne hname]
        exact htask
  | cancel | dropTask => cases hasked
  | _ => exact .inl htask

/-- A tracker that is refused leaves nothing to be dropped. -/
theorem Refused.tidy {result : Answer Store × Deployment Store}
    (h : d.Refused n t request result) (hd : d.Tidy) (ht : d.trackers[n]? = some t)
    (hgone : d.broker.attached? t.consumer = none)
    (htasks : ∀ name task, d.tasks.find? name = some task →
      result.2.tasks.find? name = some task ∨ task.tracker = n) : result.2.Tidy := by
  intro k u hu hk
  have hmap : (d.trackers.map (·.consumer))[k]? = some u.consumer := by
    rw [← h.consumers, List.getElem?_map, hu, Option.map_some]
  rw [List.getElem?_map] at hmap
  obtain ⟨v, hv, hsame⟩ := Option.map_eq_some_iff.mp hmap
  rw [h.broker, ← hsame]
  by_cases hkn : k = n
  · subst hkn
    cases hv.symm.trans ht
    exact hgone
  · apply hd k v hv
    rw [Bool.eq_false_iff] at hk ⊢
    intro hheld
    apply hk
    unfold isHeld at hheld ⊢
    rw [h.sources, h.held]
    simp only [Bool.or_eq_true, List.any_eq_true] at hheld ⊢
    refine hheld.imp_right ?_
    rintro ⟨task, hmem, htracker⟩
    obtain ⟨name, hname⟩ := TextMap.mem_values.mp hmem
    have hstill := (htasks name task hname).resolve_right (by simp_all)
    exact ⟨task, TextMap.mem_values.mpr ⟨name, hstill⟩, htracker⟩

/-- A tracker whose consumer has gone refuses every step that asks it. -/
theorem Regular.refuses_step (h : d.Regular) (hd : d.Tidy)
    (hasked : d.asked? s = some (n, request)) (ht : d.trackers[n]? = some t)
    (hgone : d.broker.attached? t.consumer = none) :
    t.Refuses (d.step s).1 request ∧ (d.FreshTask s → (d.step s).2.broker = d.broker) := by
  have hcleared : Deployment.asked? { d with log := [] } s = some (n, request) := by
    cases s <;> exact hasked
  have hrefused := refused_act (d := { d with log := [] }) h.cleared hcleared ht hgone
  refine ⟨hrefused.answer, fun hfresh => ?_⟩
  have hfresh' : Deployment.FreshTask { d with log := [] } s := by
    cases s <;> exact hfresh
  have htidy := hrefused.tidy hd ht hgone fun name task htask =>
    (acts { d with log := [] } s).outlasts hcleared hfresh' htask
  rw [Deployment.step]
  dsimp only
  rw [htidy.dropUnheld]
  exact hrefused.broker

end Deployment

namespace Memory

/-- Let a source have lost its tracker because it was torn down or opened again. Whatever happens
afterwards, the consumer of that tracker has gone, and everything that is asked of the tracker is
refused: a read, be it new, cancelled or one that has waited, fails to receive, and each
acknowledgment fails, by the broker's refusal exactly if its message is still pending there. The
broker is left as it was; only a task that is begun in place of another may let go of a consumer. -/
theorem former_tracker_refuses {before rest : List (Step Store)} {s : Step Store} {name : String}
    {n : ℕ} (hs : s.Renews name)
    (hn : (Deployment.fresh.run before).2.trackerNumber? (.source name) = some n)
    (hleft : (Deployment.fresh.run (before ++ [s])).2.trackerNumber? (.source name) ≠ some n) :
    let d := (Deployment.fresh.run (before ++ s :: rest)).2
    ∃ t₀ t, (Deployment.fresh.run before).2.trackers[n]? = some t₀ ∧ d.trackers[n]? = some t ∧
      t.consumer = t₀.consumer ∧ t.subscription = t₀.subscription ∧
      d.broker.attached? t.consumer = none ∧
      ∀ s' request, d.asked? s' = some (n, request) →
        t.Refuses (d.step s').1 request ∧ (d.act s').2.broker = d.broker ∧
          (d.FreshTask s' → (d.step s').2.broker = d.broker) := by
  intro d
  have hregular := Deployment.Regular.initial.run before
  have hknown := Deployment.Regular.initial.allKnown_run Deployment.allKnown_fresh before
  obtain ⟨session, hsession, rfl⟩ := Option.map_eq_some_iff.mp hn
  have hk := hknown name session hsession
  have hreplaces : ¬ s.Replaces name := by
    cases s with
    | openSource | teardown => exact fun h => h
    | _ => exact hs.elim
  have hclosed : ((Deployment.fresh.run before).2.step s).2.Closed session := by
    rcases hregular.session_step hknown hreplaces with hkept | hclosed
    · exfalso
      apply hleft
      rw [Deployment.run_append, Deployment.trackerNumber?]
      change (((Deployment.fresh.run before).2.step s).2.session? name).map _ = _
      rw [hkept, hsession]
      rfl
    · exact hclosed session hsession
  have hd : d = (((Deployment.fresh.run before).2.step s).2.run rest).2 :=
    Deployment.run_append _ before (s :: rest)
  have hafter : d.Closed session := by
    rw [hd]
    exact hclosed.run (hregular.step s) (hregular.knows_step hk s) rest
  have hregular' : d.Regular := Deployment.Regular.initial.run _
  have htidy : d.Tidy := Deployment.tidy_run Deployment.tidy_fresh
  have ht₀ := List.getElem?_eq_getElem hk.tracker
  obtain ⟨t, ht, hconsumer, hsubscription⟩ :=
    (Deployment.turns_run (Deployment.recorded_run before) (s :: rest)).tracker ht₀
  have ht' : d.trackers[session.tracker]? = some t := by
    rw [hd]
    exact ht
  have hgone := (hafter.consumer t ht').unattached
  refine ⟨_, t, ht₀, ht', hconsumer, hsubscription, hgone, fun s' request hasked => ?_⟩
  obtain ⟨hrefuses, hbroker⟩ := hregular'.refuses_step htidy hasked ht' hgone
  exact ⟨hrefuses, (Deployment.refused_act hregular' hasked ht' hgone).broker, hbroker⟩

/-- A source reads two messages and waits for a third. Its tracker is kept by a name, too. -/
def abandonedRun : List (Step Store) :=
  [.create "a" (some sampleConfig), .openSource "a" none "",
    .stimulate (Stimulus.publish "t" [] [1] none 0),
    .stimulate (Stimulus.publish "t" [] [2] none 0),
    .ask (.source "a") .read false, .ask (.source "a") .read false,
    .hold "a" "kept", .start "r" (.source "a") .read]

/-- The source opens once more and receives the first message again. -/
def successorRun : List (Step Store) :=
  [.openSource "a" none "", .ask (.source "a") .read false]

set_option maxRecDepth 10000 in
theorem refused_of_abandonedRun :
    let d := (Deployment.fresh.run (abandonedRun ++ .teardown "a" :: successorRun)).2
    let position := (Position.forMessage "s" (⟨0, 0⟩ : EntryId)).encode
    let acknowledge : Step Store := .ask (.tracker "kept") (.acknowledge position) false
    d.trackerNumber? (.source "a") = some 1 ∧
    (d.step (.poll "r")).1 = .failed (.receive .closed) ∧
    (d.step acknowledge).1 = .failed (.acknowledge (.rejected "0:0" .closed)) ∧
    (d.step acknowledge).2.broker = d.broker := by
  intro d position acknowledge
  have hn : (Deployment.fresh.run abandonedRun).2.trackerNumber? (.source "a") = some 0 := by
    decide +kernel
  have hleft : (Deployment.fresh.run (abandonedRun ++ [.teardown "a"])).2.trackerNumber?
      (.source "a") ≠ some 0 := by
    decide +kernel
  have hsuccessor : d.trackerNumber? (.source "a") = some 1 := by decide +kernel
  have hpoll : d.asked? (.poll "r") = some (0, .read) := by decide +kernel
  have hasked : d.asked? acknowledge = some (0, .acknowledge position) := by decide +kernel
  have hpending : (d.trackers[0]?).map (fun t =>
      (t.named? position, t.pending.contains "0:0")) = some (some ⟨0, 0⟩, true) := by
    decide +kernel
  obtain ⟨-, t, -, ht, -, -, -, hrefuses⟩ :=
    @former_tracker_refuses abandonedRun successorRun (.teardown "a") "a" 0 rfl hn hleft
  change d.trackers[0]? = some t at ht
  rw [ht, Option.map_some, Option.some.injEq, Prod.mk.injEq] at hpending
  obtain ⟨⟨e, he, hrejects⟩, -, hbroker⟩ := hrefuses acknowledge _ hasked
  have hrejected : e = .rejected "0:0" .closed :=
    (hrejects _ _).mpr ⟨rfl, ⟨0, 0⟩, hpending.1, rfl, hpending.2, by simp⟩
  refine ⟨hsuccessor, (hrefuses _ _ hpoll).1, ?_, hbroker trivial⟩
  rw [← hrejected]
  exact he

end Memory
end TrackedDelivery
