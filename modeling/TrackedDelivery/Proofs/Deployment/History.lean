import TrackedDelivery.Proofs.Deployment.Move
import TrackedDelivery.Proofs.Position.RoundTrip
/-!
# The history of a run

The deeds of a step are read off what can be seen from outside: the answer to the step, the
positions in it, and which consumers of the broker came and went. The history of a run is the
deeds of its steps. The tracker-driven steps are all but the acknowledgment that a handle to a
bare consumer makes at the broker.
-/
namespace TrackedDelivery.Memory

/-- The message that a position names. -/
def messageAt? (position : Bytes) : Option EntryId :=
  match Position.decode position with
  | .ok p => (p.readMessageId EntryId).toOption
  | .error _ => none

@[simp] theorem messageAt?_encode (subscription : String) (id : EntryId) :
    messageAt? (Position.forMessage subscription id).encode = some id := by
  simp [messageAt?, Except.toOption]

/-- The position of the record that an answer hands out. -/
def position? : Answer Store → Option Bytes
  | .outcome (.read (.record r)) => some r.position
  | _ => none

/-- How the acknowledgment at a place ended, as a report of failures tells. -/
def resultAt {ε : Type} (failures : List (ℕ × AckError ε)) (i : ℕ) : Except (AckError ε) Unit :=
  match failures.lookup i with
  | some e => .error e
  | none => .ok ()

/-- How each of so many acknowledgments ended, as the reply to the request tells. -/
def resultsOf (count : ℕ) : Call.Result Store → List (Except (AckError Failure) Unit)
  | .ok _ => List.replicate count (.ok ())
  | .error (.acknowledge e) => [.error e]
  | .error (.batch failures) => (List.range count).map (resultAt failures)
  | .error _ => []

/-- What the end of an acknowledgment says about the message that was meant. -/
def Deed.ofResult (n : ℕ) : Option EntryId → Except (AckError Failure) Unit → Option Deed
  | some id, .ok () => some (.confirmed n id)
  | some id, .error (.rejected _ _) => some (.refused n id)
  | _, _ => none

/-- The messages that a request asks a tracker to acknowledge. -/
def targets (t : Tracker Store) : Request → List (Option EntryId)
  | .read => []
  | .acknowledge position => [messageAt? position]
  | .acknowledgeBatch positions => positions.map messageAt?
  | .acknowledgeAll => t.pending.values.map fun m => some m.id

/-- The deeds behind the results of acknowledgments, each with the message that was meant. -/
def Deed.ofResults (n : ℕ) (ids : List (Option EntryId))
    (results : List (Except (AckError Failure) Unit)) : List Deed :=
  (ids.zip results).filterMap fun p => Deed.ofResult n p.1 p.2

/-- The deeds behind the answer to a request. -/
def requestDeeds (n : ℕ) (t : Tracker Store) (request : Request) : Answer Store → List Deed
  | .outcome (.read (.record r)) =>
      ((messageAt? r.position).map fun id => .received ⟨t.consumer, some n, id⟩).toList
  | .outcome o =>
      Deed.ofResults n (targets t request) (resultsOf (targets t request).length (.ok o))
  | .failed e =>
      Deed.ofResults n (targets t request) (resultsOf (targets t request).length (.error e))
  | _ => []

end TrackedDelivery.Memory

namespace TrackedDelivery.Deployment

open Memory

/-- The tracker that a step makes a request to, and the request. -/
def asked? (d : Deployment Store) : Step Store → Option (ℕ × Request)
  | .ask target request _ => (d.trackerNumber? target).map (·, request)
  | .start _ target request => (d.trackerNumber? target).map (·, request)
  | .poll task => (d.tasks.find? task).map fun t => (t.tracker, .read)
  | _ => none

/-- The consumer that was attached between two states of a deployment, if one was. -/
def came (d after : Deployment Store) : List Deed :=
  match after.broker.consumers[d.broker.consumers.length]? with
  | some a => [.attached d.broker.consumers.length a.options]
  | none => []

/-- What is told of a consumer that a step may have let go of. One that was gone before is told
of once more. -/
def went (after : Deployment Store) : Option ℕ → List Deed
  | some c => if (after.broker.attached? c).isNone then [.released c] else []
  | none => []

/-- The consumer that the named source or tracker owns. -/
def consumerOf? (d : Deployment Store) (target : Target) : Option ℕ :=
  (d.tracker? target).map (·.consumer)

/-- The deeds of a step before unheld consumers are dropped. -/
def actDeeds (d : Deployment Store) (s : Step Store) : List Deed :=
  let (answer, after) := d.act s
  match s with
  | .ask .. | .start .. | .poll _ =>
      match d.asked? s with
      | none => []
      | some (n, request) =>
          match d.trackers[n]? with
          | none => []
          | some t => requestDeeds n t request answer
  | .receive name =>
      match d.consumers.find? name, answer with
      | some c, .received m => [.received ⟨c, none, m.id⟩]
      | _, _ => []
  | .openSource source .. => after.went (d.consumerOf? (.source source)) ++ d.came after
  | .teardown source => after.went (d.consumerOf? (.source source))
  | .closeTracker tracker => after.went (d.consumerOf? (.tracker tracker))
  | .closeConsumer name => after.went (d.consumers.find? name)
  | .drop .consumer name => after.went (d.consumers.find? name)
  | .subscribe _ name _ => d.came after ++ after.went (d.consumers.find? name)
  | _ => []

/-- What is told of the consumer of a tracker that nothing refers to. -/
def letGo? (d : Deployment Store) (n : ℕ) : Option Deed :=
  match d.trackers[n]? with
  | none => none
  | some t =>
      if d.isHeld n ∨ (d.broker.attached? t.consumer).isNone then none
      else some (.released t.consumer)

def dropDeeds (d : Deployment Store) : List Deed :=
  (List.range d.trackers.length).filterMap d.letGo?

def deeds (d : Deployment Store) (s : Step Store) : List Deed :=
  let cleared : Deployment Store := { d with log := [] }
  cleared.actDeeds s ++ (cleared.act s).2.dropDeeds

/-- A fresh broker and nothing attached to it. -/
def fresh : Deployment Store := { broker := {} }

/-- The deeds of steps that are made one after another. -/
def history (d : Deployment Store) : List (Step Store) → List Deed
  | [] => []
  | s :: rest => d.deeds s ++ (d.step s).2.history rest

theorem run_append (d : Deployment Store) (before rest : List (Step Store)) :
    (d.run (before ++ rest)).2 = ((d.run before).2.run rest).2 := by
  induction before generalizing d with
  | nil => rfl
  | cons s before ih => exact ih _

/-- What every step keeps, a run keeps. -/
theorem run_preserves {P : Deployment Store → Prop} {d : Deployment Store}
    (hstep : ∀ d s, P d → P (d.step s).2) (h : P d) (steps : List (Step Store)) :
    P (d.run steps).2 := by
  induction steps generalizing d with
  | nil => exact h
  | cons s rest ih => exact ih (hstep d s h)

theorem history_append (d : Deployment Store) (before rest : List (Step Store)) :
    d.history (before ++ rest) = d.history before ++ (d.run before).2.history rest := by
  induction before generalizing d with
  | nil => rfl
  | cons s before ih =>
      simp only [List.cons_append, history, ih, List.append_assoc]
      rfl

end TrackedDelivery.Deployment

namespace TrackedDelivery

/-- Consumers are acknowledged through trackers only. -/
def Step.TrackerDriven : Step Memory.Store → Prop
  | .acknowledge .. => False
  | _ => True

end TrackedDelivery
