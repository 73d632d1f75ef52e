import TrackedDelivery.Proofs.Deployment.Fencing
import TrackedDelivery.Proofs.Deployment.Waiting
import TrackedDelivery.Proofs.Memory.Closings
/-!
# Requests as steps

A request that is a step of its own concerns one tracker and the broker. No consumer comes or goes
with it, so nothing is dropped afterwards and the rest of the deployment stays as it is. What an
acknowledgment does depends on its position only through the message that the position names to
the tracker, if it names one.
-/
namespace TrackedDelivery

open Memory

/-- The failure that an answer tells of. -/
def Answer.error? : Answer Store → Option (SourceError Memory.Failure)
  | .failed e => some e
  | _ => none

theorem Answer.error?_eq_some {answer : Answer Store} {e : SourceError Memory.Failure} :
    answer.error? = some e ↔ answer = .failed e := by
  cases answer <;> simp [error?]

namespace Memory

section

variable {b b' : Store}

/-! ## Consumers -/

/-- Messages are received and acknowledged through any consumer, and nothing else happens. -/
def Store.Scope.exchange : Scope := { consumer := fun _ => True }

theorem Store.Scope.consumer_exchange (consumer : ℕ) : exchange.consumer consumer := trivial

/-- No consumer comes or goes where messages are only received and acknowledged. -/
theorem Store.AsksAll.consumers_eq (h : AsksAll .exchange b b') : b'.consumers = b.consumers := by
  refine h.preserve (P := fun last => last.consumers = b.consumers) (fun {c c'} hasks hc => ?_) rfl
  cases hasks with
  | @receive k _ =>
      rw [← hc]
      rcases c.tryReceive_puts k with hquiet | ⟨o, s, -, hput⟩
      · exact hquiet.2
      · rw [hput]
        rfl
  | @acknowledge k id _ => exact (c.consumers_acknowledge k id).trans hc
  | connect _ hnever | subscribe _ hnever | close hnever | drop hnever | closeClient hnever
  | stimulate hnever => exact hnever.elim

/-! ## Answers -/

theorem ofAck_eq_failed {call : AckCall Store} {e : AckError Failure} :
    Answer.ofCall (Call.ofAck call) = .failed (.acknowledge e) ↔ call = .settled (.error e) := by
  obtain ⟨result, rfl⟩ := settled_of_ack call
  cases result <;> simp [Call.ofAck, Answer.ofCall]

theorem ofAck_eq_acknowledged {call : AckCall Store} :
    Answer.ofCall (Call.ofAck call) = .outcome .acknowledged ↔ call = .settled (.ok ()) := by
  obtain ⟨result, rfl⟩ := settled_of_ack call
  cases result <;> simp [Call.ofAck, Answer.ofCall]

/-- An acknowledgment succeeds or fails at once. -/
theorem ofAck_cases (call : AckCall Store) :
    Answer.ofCall (Call.ofAck call) = .outcome .acknowledged ∨
      ∃ e, Answer.ofCall (Call.ofAck call) = .failed (.acknowledge e) := by
  obtain ⟨result, rfl⟩ := settled_of_ack call
  cases result with
  | ok => exact .inl rfl
  | error e => exact .inr ⟨e, rfl⟩

end

end Memory

namespace Deployment

open Memory

variable {d : Deployment Store} {target : Target} {n : ℕ} {t : Tracker Store}

/-- A request changes nothing but the broker, its tracker and the log. -/
theorem Tidy.step_ask (h : d.Tidy) (hn : d.trackerNumber? target = some n)
    (ht : d.trackers[n]? = some t) (request : Request) (cancelled : Bool) :
    d.step (.ask target request cancelled) =
      (.ofCall (Call.start cancelled { tracker := t, broker := d.broker } request).1,
        d.worked n (Call.start cancelled { tracker := t, broker := d.broker } request).2) := by
  have hask : Deployment.ask { d with log := [] } target request cancelled =
      (.ofCall (Call.start cancelled { tracker := t, broker := d.broker } request).1,
        d.worked n (Call.start cancelled { tracker := t, broker := d.broker } request).2) :=
    ask_eq (d := { d with log := [] }) hn ht request cancelled
  have hproceeds := proceeds_start { tracker := t, broker := d.broker }
    (Store.Scope.consumer_exchange _) cancelled request
  have hholds : d.Holds
      (d.worked n (Call.start cancelled { tracker := t, broker := d.broker } request).2) :=
    ⟨rfl, rfl, rfl, map_consumer_set ht hproceeds.consumer, hproceeds.asks.consumers_eq⟩
  change (((Deployment.ask { d with log := [] } target request cancelled).1,
    (Deployment.ask { d with log := [] } target request cancelled).2.dropUnheld)) = _
  rw [hask, (h.of_holds hholds).dropUnheld]

/-- An acknowledgment that is a step is one of a tracker at work. -/
theorem Tidy.step_acknowledge (h : d.Tidy) (hn : d.trackerNumber? target = some n)
    (ht : d.trackers[n]? = some t) (position : Bytes) (cancelled : Bool) :
    d.step (.ask target (.acknowledge position) cancelled) =
      (.ofCall (Call.ofAck (Delivery.acknowledge { tracker := t, broker := d.broker } position).1),
        d.worked n (Delivery.acknowledge { tracker := t, broker := d.broker } position).2) :=
  h.step_ask hn ht (.acknowledge position) cancelled

/-- A tracker that has not changed anything leaves the deployment as it was. -/
theorem worked_self (ht : d.trackers[n]? = some t) (log : List Event) :
    d.worked n { tracker := t, broker := d.broker, log } = { d with log } := by
  obtain ⟨hlt, rfl⟩ := List.getElem?_eq_some_iff.mp ht
  rw [worked, List.set_getElem_self]

end Deployment
end TrackedDelivery
