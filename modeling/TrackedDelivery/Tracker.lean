import TrackedDelivery.Broker
import TrackedDelivery.Event
import TrackedDelivery.Failure
import TrackedDelivery.Pending
/-!
# Trackers

A tracker owns the consumer of one session. A message that it pulls becomes pending, under the
text of its identifier, and its record carries a position; the acknowledgment of that position
takes it out again and confirms it at the broker. The entry leaves before the broker is asked and
stays out when the broker refuses.

A request to a tracker may have to wait. It is then a `Call`, a value that says what it waits
for, and `Call.poll` looks at it again.
-/
namespace TrackedDelivery

structure Tracker (β : Type) [Broker β] where
  consumer : Broker.Consumer β
  subscription : String
  pending : PendingSet (Message (Broker.Id β)) := ∅

/-- A tracker at work: the tracker, its broker and the events reported so far. -/
structure Delivery (β : Type) [Broker β] where
  tracker : Tracker β
  broker : β
  log : List Event := []

/-- The outcome of a read that did not fail. -/
inductive Read
  | record (record : Record)
  | cancelled
  deriving DecidableEq

/-- One acknowledgment, settled or waiting at the broker under the text of its message. -/
inductive AckCall (β : Type) [Broker β]
  | settled (result : Except (AckError (Broker.Failure β)) Unit)
  | waiting (messageId : String) (wait : Broker.AcknowledgeWait β)

variable {β : Type} [Broker β]

/-- The result of an acknowledgment at the broker, reported under the text of its message. -/
def AckCall.ofReply (messageId : String) :
    Reply (Broker.AcknowledgeWait β) (Except (Broker.Failure β) Unit) → AckCall β
  | .done (.ok ()) => settled (.ok ())
  | .done (.error cause) => settled (.error (.rejected messageId cause))
  | .waiting wait => waiting messageId wait

namespace Delivery

def report (d : Delivery β) (event : Event) : Delivery β := { d with log := d.log ++ [event] }

/-- Makes a received message pending and hands out its record. -/
def handOut (d : Delivery β) (message : Message (Broker.Id β)) : Record × Delivery β :=
  let key := MessageId.text message.id
  let position := (Position.forMessage d.tracker.subscription message.id).encode
  let (added, pending) := d.tracker.pending.insertIfAbsent key message
  let d := { d with tracker := { d.tracker with pending } }
  let d := if added then d else d.report (.redelivered key)
  (Record.ofMessage message position, d.report (.nowPending key))

/-- Ends a read with what the broker replied. A message that is there wins over the cancellation,
which counts only while the receive still waits. -/
def settleRead (cancelled : Bool) (d : Delivery β) :
    Reply (Broker.ReceiveWait β) (Except (Broker.Failure β) (Message (Broker.Id β))) →
      Reply (Broker.ReceiveWait β) (Except (Broker.Failure β) Read) × Delivery β
  | .done (.ok message) =>
      let (record, d) := d.handOut message
      (.done (.ok (.record record)), d)
  | .done (.error cause) => (.done (.error cause), d)
  | .waiting wait =>
      if cancelled then (.done (.ok .cancelled), d.report .readCancelled)
      else (.waiting wait, d)

/-- Starts to read the next message. -/
def pull (cancelled : Bool) (d : Delivery β) :
    Reply (Broker.ReceiveWait β) (Except (Broker.Failure β) Read) × Delivery β :=
  let d := d.report (.reading d.tracker.subscription)
  let (reply, broker) := Broker.receive d.tracker.consumer d.broker
  settleRead cancelled { d with broker } reply

/-- Looks again at a read that waits. -/
def resumePull (cancelled : Bool) (wait : Broker.ReceiveWait β) (d : Delivery β) :
    Reply (Broker.ReceiveWait β) (Except (Broker.Failure β) Read) × Delivery β :=
  let (reply, broker) := Broker.resumeReceive d.tracker.consumer wait d.broker
  settleRead cancelled { d with broker } reply

/-- Acknowledges at the broker a message that is no longer pending. -/
def confirm (d : Delivery β) (key : String) (message : Message (Broker.Id β)) :
    AckCall β × Delivery β :=
  let (reply, broker) := Broker.acknowledge d.tracker.consumer message.id d.broker
  (.ofReply key reply, { d with broker })

/-- Acknowledges the message of an identifier, if it is pending. -/
def acknowledgeId (d : Delivery β) (id : Broker.Id β) : AckCall β × Delivery β :=
  let key := MessageId.text id
  let d := d.report (.acknowledging key)
  match d.tracker.pending.remove key with
  | (none, _) => (.settled (.error (.notFound key)), d)
  | (some message, pending) =>
      confirm { d with tracker := { d.tracker with pending } } key message

/-- Acknowledges the message at a position. A position of another subscription is not found,
whatever identifier it carries. -/
def acknowledge (d : Delivery β) (position : Bytes) : AckCall β × Delivery β :=
  match Position.decode position with
  | .error cause => (.settled (.error (.malformedPosition cause)), d)
  | .ok p =>
      if p.subscription ≠ d.tracker.subscription then
        (.settled (.error (.notFound (p.messageId.getD ""))), d)
      else
        match p.readMessageId (Broker.Id β) with
        | .error cause => (.settled (.error (.malformedPosition cause)), d)
        | .ok id => d.acknowledgeId id

/-- Makes one call after another, whatever comes of them. -/
def each {α : Type} (act : Delivery β → α → AckCall β × Delivery β) (d : Delivery β) :
    List α → List (AckCall β) × Delivery β
  | [] => ([], d)
  | a :: rest =>
      let (call, d) := act d a
      let (calls, d) := each act d rest
      (call :: calls, d)

def acknowledgeBatch (d : Delivery β) (positions : List Bytes) :
    List (AckCall β) × Delivery β :=
  each acknowledge d positions

/-- Empties the pending set and acknowledges what was in it, in the order of the keys. -/
def acknowledgeAll (d : Delivery β) : List (AckCall β) × Delivery β :=
  let (drained, pending) := d.tracker.pending.drain
  let d := { d with tracker := { d.tracker with pending } }
  each (fun d entry => d.confirm entry.1 entry.2) (d.report (.acknowledgingAll drained.length))
    drained

/-- Looks again at an acknowledgment. -/
def pollAck (d : Delivery β) : AckCall β → AckCall β × Delivery β
  | .settled result => (.settled result, d)
  | .waiting messageId wait =>
      let (reply, broker) := Broker.resumeAcknowledge wait d.broker
      (.ofReply messageId reply, { d with broker })

/-- Up to this many acknowledgments of one request are all looked at again together. -/
def smallGroup : Nat := 30

/-- Looks again at the acknowledgments of one request. Of a large group only those that the
broker has woken are looked at. -/
def pollGroup (d : Delivery β) (calls : List (AckCall β)) : List (AckCall β) × Delivery β :=
  let due (d : Delivery β) : AckCall β → Bool
    | .settled _ => false
    | .waiting _ wait => calls.length ≤ smallGroup || Broker.hasWoken wait d.broker
  each (fun d call => if due d call then d.pollAck call else (call, d)) d calls

end Delivery

/-- The results of acknowledgments, unless one of them still waits. -/
def settledResults :
    List (AckCall β) → Option (List (Except (AckError (Broker.Failure β)) Unit))
  | [] => some []
  | .settled result :: rest => (settledResults rest).map (result :: ·)
  | .waiting .. :: _ => none

/-- The failures among results, each with its place from `index` on. -/
def failuresFrom {ε : Type} (index : Nat) :
    List (Except (AckError ε) Unit) → List (Nat × AckError ε)
  | [] => []
  | .ok () :: rest => failuresFrom (index + 1) rest
  | .error e :: rest => (index, e) :: failuresFrom (index + 1) rest

/-- Succeeds if nothing failed, and otherwise reports all failures together. -/
def collectFailures {ε : Type} (results : List (Except (AckError ε) Unit)) :
    Except (SourceError ε) Unit :=
  match failuresFrom 0 results with
  | [] => .ok ()
  | failures => .error (.batch failures)

/-- What can be asked of a tracker. -/
inductive Request
  | read
  | acknowledge (position : Bytes)
  | acknowledgeBatch (positions : List Bytes)
  | acknowledgeAll
  deriving DecidableEq

/-- The answer to a request that did not fail. -/
inductive Outcome
  | read (read : Read)
  | acknowledged
  | acknowledgedAll (count : Nat)
  deriving DecidableEq

/-- A request that waits. -/
inductive Call (β : Type) [Broker β]
  | read (wait : Broker.ReceiveWait β)
  | acknowledge (call : AckCall β)
  | acknowledgeBatch (calls : List (AckCall β))
  | acknowledgeAll (calls : List (AckCall β))

namespace Call

abbrev Result (β : Type) [Broker β] := Except (SourceError (Broker.Failure β)) Outcome

def ofRead :
    Reply (Broker.ReceiveWait β) (Except (Broker.Failure β) Read) → Reply (Call β) (Result β)
  | .done (.ok r) => .done (.ok (.read r))
  | .done (.error cause) => .done (.error (.receive cause))
  | .waiting wait => .waiting (.read wait)

def ofAck : AckCall β → Reply (Call β) (Result β)
  | .settled (.ok ()) => .done (.ok .acknowledged)
  | .settled (.error e) => .done (.error (.acknowledge e))
  | call => .waiting (.acknowledge call)

def ofBatch (calls : List (AckCall β)) : Reply (Call β) (Result β) :=
  match settledResults calls with
  | some results => .done ((collectFailures results).map fun _ => .acknowledged)
  | none => .waiting (.acknowledgeBatch calls)

def ofAll (calls : List (AckCall β)) : Reply (Call β) (Result β) :=
  match settledResults calls with
  | some results => .done ((collectFailures results).map fun _ => .acknowledgedAll calls.length)
  | none => .waiting (.acknowledgeAll calls)

/-- Makes a request. The flag says whether the reader has already been cancelled. -/
def start (cancelled : Bool) (d : Delivery β) :
    Request → Reply (Call β) (Result β) × Delivery β
  | .read => (d.pull cancelled).map ofRead id
  | .acknowledge position => (d.acknowledge position).map ofAck id
  | .acknowledgeBatch positions => (d.acknowledgeBatch positions).map ofBatch id
  | .acknowledgeAll => d.acknowledgeAll.map ofAll id

/-- Looks again at a request that waits. -/
def poll (cancelled : Bool) (d : Delivery β) : Call β → Reply (Call β) (Result β) × Delivery β
  | read wait => (d.resumePull cancelled wait).map ofRead id
  | acknowledge call => (d.pollAck call).map ofAck id
  | acknowledgeBatch calls => (d.pollGroup calls).map ofBatch id
  | acknowledgeAll calls => (d.pollGroup calls).map ofAll id

end Call
end TrackedDelivery
