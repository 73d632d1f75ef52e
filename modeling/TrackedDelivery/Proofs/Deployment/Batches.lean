import TrackedDelivery.Proofs.Deployment.Asking
import TrackedDelivery.Proofs.Deployment.Interleaving
/-!
# Batches of acknowledgments

The positions of a batch are acknowledged from left to right, and none of these acknowledgments
waits. So a batch does what the same acknowledgments do one by one, and its answer tells how each of
them has ended. Nothing is assumed of the positions: they may be malformed, foreign or repeated, and
whether an arranged failure meets one depends on all those before it.
-/
namespace TrackedDelivery

/-! ## Reports of failures -/

section Reports

variable {ε : Type} {results : List (Except (AckError ε) Unit)}

/-- The failures are those of the results, each with its place. -/
theorem mem_failuresFrom {index i : ℕ} {e : AckError ε} :
    (i, e) ∈ failuresFrom index results ↔ ∃ k, i = index + k ∧ results[k]? = some (.error e) := by
  induction results generalizing index with
  | nil => simp [failuresFrom]
  | cons r rest ih =>
      have hrest : (i, e) ∈ failuresFrom (index + 1) rest ↔
          ∃ k, i = index + (k + 1) ∧ (r :: rest)[k + 1]? = some (.error e) := by
        simp only [ih, List.getElem?_cons_succ, Nat.add_assoc, Nat.add_comm 1]
      cases r with
      | ok =>
          rw [failuresFrom, hrest]
          constructor
          · rintro ⟨k, hk⟩
            exact ⟨k + 1, hk⟩
          · rintro ⟨k, hi, hk⟩
            cases k with
            | zero => cases hk
            | succ k => exact ⟨k, hi, hk⟩
      | error first =>
          rw [failuresFrom, List.mem_cons, hrest]
          constructor
          · rintro (hfirst | ⟨k, hk⟩)
            · cases hfirst
              exact ⟨0, rfl, rfl⟩
            · exact ⟨k + 1, hk⟩
          · rintro ⟨k, hi, hk⟩
            cases k with
            | zero =>
                cases hk
                exact .inl (by rw [hi]; rfl)
            | succ k => exact .inr ⟨k, hi, hk⟩

theorem pairwise_failuresFrom (results : List (Except (AckError ε) Unit)) (index : ℕ) :
    (failuresFrom index results).Pairwise (·.1 < ·.1) := by
  induction results generalizing index with
  | nil => exact .nil
  | cons r rest ih =>
      cases r with
      | ok => exact ih (index + 1)
      | error e => exact .cons (fun p hp => le_of_mem_failuresFrom hp) (ih (index + 1))

/-- Nothing is reported where nothing failed. -/
theorem failuresFrom_eq_nil {index : ℕ} :
    failuresFrom index results = [] ↔ ∀ r ∈ results, r = .ok () := by
  refine ⟨fun h r hr => ?_, fun h => ?_⟩
  · rw [eq_replicate_of_failuresFrom h] at hr
    exact List.eq_of_mem_replicate hr
  · refine List.eq_nil_iff_forall_not_mem.mpr fun p hp => ?_
    obtain ⟨k, -, hk⟩ := mem_failuresFrom.mp hp
    cases h _ (List.mem_of_getElem? hk)

end Reports

namespace Memory

/-! ## Acknowledgments of a batch -/

/-- What is reported while a tracker works does not matter to its acknowledgments. -/
theorem acknowledge_log (w : Delivery Store) (log : List Event) (position : Bytes) :
    (Delivery.acknowledge { w with log } position).1 = (w.acknowledge position).1 ∧
      (Delivery.acknowledge { w with log } position).2.tracker =
        (w.acknowledge position).2.tracker ∧
      (Delivery.acknowledge { w with log } position).2.broker =
        (w.acknowledge position).2.broker := by
  rw [acknowledge_eq, acknowledge_eq]
  dsimp only
  cases w.tracker.meaning position with
  | error e => exact ⟨rfl, rfl, rfl⟩
  | ok id =>
      dsimp only
      rw [acknowledgeId_eq, acknowledgeId_eq]
      dsimp only
      cases w.tracker.pending.find? id.text <;> exact ⟨rfl, rfl, rfl⟩

/-- None of several acknowledgments waits. -/
theorem settled_of_acks (calls : List (AckCall Store)) :
    ∃ results : List (Except (AckError Failure) Unit),
      calls = results.map (AckCall.settled (β := Store)) := by
  induction calls with
  | nil => exact ⟨[], rfl⟩
  | cons call rest ih =>
      obtain ⟨result, rfl⟩ := settled_of_ack call
      obtain ⟨results, rfl⟩ := ih
      exact ⟨result :: results, rfl⟩

/-- The answer to a batch is a success or the report of all failures. -/
theorem ofCall_ofBatch (results : List (Except (AckError Failure) Unit)) :
    Answer.ofCall (Call.ofBatch (results.map (AckCall.settled (β := Store)))) =
      match failuresFrom 0 results with
      | [] => .outcome .acknowledged
      | failures => .failed (.batch failures) := by
  rw [Call.ofBatch, settledResults_map_settled]
  dsimp only [collectFailures]
  cases failuresFrom 0 results <;> rfl

theorem length_acknowledgeBatch (w : Delivery Store) (positions : List Bytes) :
    (w.acknowledgeBatch positions).1.length = positions.length := by
  induction positions generalizing w with
  | nil => rfl
  | cons position rest ih =>
      rw [acknowledgeBatch_cons, List.length_cons, List.length_cons, ih]

end Memory

namespace Deployment

open Memory

variable {d : Deployment Store} {target : Target} {n : ℕ} {w : Delivery Store}

/-- Acknowledgments that are steps one after another do what those of a batch do. -/
theorem Tidy.run_acknowledgments (h : d.Tidy) (hn : d.trackerNumber? target = some n)
    (ht : d.trackers[n]? = some w.tracker) (hb : d.broker = w.broker) (positions : List Bytes)
    (cancelled : Bool) :
    (d.run (positions.map fun p => .ask target (.acknowledge p) cancelled)).1 =
        (w.acknowledgeBatch positions).1.map (fun call => .ofCall (Call.ofAck call)) ∧
      { (d.run (positions.map fun p => .ask target (.acknowledge p) cancelled)).2 with log := [] } =
        { d.worked n (w.acknowledgeBatch positions).2 with log := [] } := by
  -- Every step clears the log, and within a batch it grows, so the logs are left out.
  induction positions generalizing d w with
  | nil =>
      refine ⟨rfl, ?_⟩
      change { d with log := [] } = { d.worked n w with log := [] }
      obtain ⟨tracker, broker, log⟩ := w
      obtain rfl : d.broker = broker := hb
      rw [worked_self ht]
  | cons position rest ih =>
      obtain ⟨hresult, htracker, hbroker⟩ := acknowledge_log w [] position
      have hstep := h.step_acknowledge hn ht position cancelled
      have htidy : (d.step (.ask target (.acknowledge position) cancelled)).2.Tidy :=
        tidy_dropUnheld _
      rw [hb] at hstep
      rw [hstep] at htidy
      have hnext : (d.trackers.set n
          (Delivery.acknowledge { w with log := [] } position).2.tracker)[n]? =
            some (w.acknowledge position).2.tracker := by
        rw [htracker]
        exact List.getElem?_set_self (List.getElem?_eq_some_iff.mp ht).1
      obtain ⟨hanswers, hafter⟩ := ih (w := (w.acknowledge position).2) htidy hn hnext hbroker
      rw [List.map_cons, run, hstep, acknowledgeBatch_cons]
      dsimp only
      refine ⟨?_, ?_⟩
      · rw [List.map_cons, ← hresult]
        exact congrArg _ hanswers
      · refine hafter.trans ?_
        simp only [worked, List.set_set]

end Deployment

namespace Memory

/-- In every state of a run, let a tracker be asked to acknowledge a batch of positions, whatever
they are. This leaves the deployment as the same acknowledgments do that are asked for one by one,
from left to right. The batch succeeds exactly if all of them do. Otherwise it fails with all their
failures, each under its place in the batch, in the order of the places. -/
theorem batch_acts_one_by_one (steps : List (Step Store)) {target : Target} {t : Tracker Store}
    (ht : (Deployment.fresh.run steps).2.tracker? target = some t) (positions : List Bytes)
    (cancelled : Bool) :
    let d := (Deployment.fresh.run steps).2
    let singles := d.run (positions.map fun p => .ask target (.acknowledge p) cancelled)
    let batch := d.step (.ask target (.acknowledgeBatch positions) cancelled)
    { batch.2 with log := [] } = { singles.2 with log := [] } ∧
    singles.1.length = positions.length ∧
    (∀ answer ∈ singles.1, answer = .outcome .acknowledged ∨
      ∃ e, answer = .failed (.acknowledge e)) ∧
    (batch.1 = .outcome .acknowledged ↔ ∀ answer ∈ singles.1, answer = .outcome .acknowledged) ∧
    (batch.1 ≠ .outcome .acknowledged → ∃ failures, batch.1 = .failed (.batch failures) ∧
      failures.Pairwise (·.1 < ·.1) ∧
      ∀ i e, (i, e) ∈ failures ↔ singles.1[i]? = some (.failed (.acknowledge e))) := by
  intro d singles batch
  obtain ⟨n, hn, ht⟩ := Deployment.tracker?_eq_some.mp ht
  have htidy : d.Tidy := Deployment.tidy_run Deployment.tidy_fresh
  let w : Delivery Store := { tracker := t, broker := d.broker }
  obtain ⟨hanswers, hafter⟩ := htidy.run_acknowledgments (w := w) hn ht rfl positions cancelled
  have hbatch : batch = (.ofCall (Call.ofBatch (w.acknowledgeBatch positions).1),
      d.worked n (w.acknowledgeBatch positions).2) :=
    htidy.step_ask hn ht (.acknowledgeBatch positions) cancelled
  obtain ⟨results, hresults⟩ := settled_of_acks (w.acknowledgeBatch positions).1
  have hlength := length_acknowledgeBatch w positions
  have hanswer : batch.1 = match failuresFrom 0 results with
      | [] => .outcome .acknowledged
      | failures => .failed (.batch failures) := by
    rw [hbatch, hresults, ofCall_ofBatch]
  have hsingles : singles.1 = results.map fun r => .ofCall (Call.ofAck (.settled r)) := by
    refine hanswers.trans ?_
    rw [hresults, List.map_map]
    rfl
  refine ⟨?_, ?_, fun answer h => ?_, ?_, fun hfailed => ?_⟩
  · rw [hbatch]
    exact hafter.symm
  · rw [hsingles, List.length_map, ← hlength, hresults, List.length_map]
  · rw [hsingles] at h
    obtain ⟨r, -, rfl⟩ := List.mem_map.mp h
    exact ofAck_cases _
  · have hall : (∀ answer ∈ singles.1, answer = .outcome .acknowledged) ↔
        failuresFrom 0 results = [] := by
      rw [hsingles, failuresFrom_eq_nil]
      simp only [List.forall_mem_map, ofAck_eq_acknowledged, AckCall.settled.injEq]
    rw [hall, hanswer]
    cases failuresFrom 0 results <;> simp
  · refine ⟨failuresFrom 0 results, ?_, pairwise_failuresFrom results 0, fun i e => ?_⟩
    · rw [hanswer] at hfailed ⊢
      cases hf : failuresFrom 0 results with
      | nil =>
          rw [hf] at hfailed
          exact absurd rfl hfailed
      | cons failure rest => rfl
    · rw [mem_failuresFrom, hsingles, List.getElem?_map, Option.map_eq_some_iff]
      simp only [ofAck_eq_failed, AckCall.settled.injEq, exists_eq_right, Nat.zero_add,
        exists_eq_left']

/-- A source has two messages pending, and the broker is to refuse one acknowledgment. -/
def unwillingRun : List (Step Store) :=
  sampleRun ++ [.stimulate (Stimulus.publish "t" [] [5] none 0), .ask (.source "a") .read false,
    .stimulate (Stimulus.failNextAcknowledge "again")]

/-- A pending message, one of another subscription, the first one again, and the other one. -/
def repeatedPositions : List Bytes :=
  [samplePosition 2, (Position.forMessage "other" (⟨0, 0⟩ : EntryId)).encode, samplePosition 2,
    samplePosition 4]

set_option maxRecDepth 10000 in
theorem batch_of_unwillingRun :
    let d := (Deployment.fresh.run unwillingRun).2
    let singles := d.run (repeatedPositions.map fun p =>
      .ask (.source "a") (.acknowledge p) false)
    let batch := d.step (.ask (.source "a") (.acknowledgeBatch repeatedPositions) false)
    batch.1 = .failed (.batch [(0, .rejected "0:2" (.acknowledgeRejected "again")),
      (1, .notFound "AAAAAAAAAAAAAAAAAAAAAA=="), (2, .notFound "0:2")]) ∧
    singles.1[2]? = some (.failed (.acknowledge (.notFound "0:2"))) ∧
    batch.2.broker = singles.2.broker := by
  intro d singles batch
  have htracker : (d.tracker? (.source "a")).isSome = true := by decide +kernel
  have hbatch : batch.1.error? =
      some (.batch [(0, .rejected "0:2" (.acknowledgeRejected "again")),
        (1, .notFound "AAAAAAAAAAAAAAAAAAAAAA=="), (2, .notFound "0:2")]) := by
    decide +kernel
  obtain ⟨t, ht⟩ := Option.isSome_iff_exists.mp htracker
  obtain ⟨hsame, -, -, -, hfails⟩ := batch_acts_one_by_one unwillingRun ht repeatedPositions false
  rw [Answer.error?_eq_some] at hbatch
  have hfailed : batch.1 ≠ .outcome .acknowledged := by
    rw [hbatch]
    simp
  obtain ⟨failures, hreport, -, hsingles⟩ := hfails hfailed
  change batch.1 = _ at hreport
  rw [hbatch, Answer.failed.injEq, SourceError.batch.injEq] at hreport
  have hbroker := congrArg Deployment.broker hsame
  refine ⟨hbatch, (hsingles 2 _).mp ?_, hbroker⟩
  rw [← hreport]
  simp

end Memory
end TrackedDelivery
