import TrackedDelivery.Tracker
/-!
# Deployments

A broker with everything that is attached to it: sources, trackers that are kept by name, requests
that wait in tasks, and handles to clients and consumers that no source owns. Trackers are kept
in one list and meant by their place in it, since a source, a name and a task may share one.
-/
namespace TrackedDelivery

/-- An open session: the client, and the number of the tracker that owns the consumer. -/
structure Session (β : Type) [Broker β] where
  client : Broker.Client β
  tracker : Nat

structure Source (β : Type) [Broker β] where
  config : Option Config := none
  session : Option (Session β) := none

/-- A request that waits, with the tracker that it was made to. -/
structure Task (β : Type) [Broker β] where
  tracker : Nat
  cancelled : Bool := false
  call : Call β

structure Deployment (β : Type) [Broker β] where
  broker : β
  trackers : List (Tracker β) := []
  sources : TextMap (Source β) := ∅
  /-- Trackers that are kept by name. -/
  held : TextMap Nat := ∅
  tasks : TextMap (Task β) := ∅
  clients : TextMap (Broker.Client β) := ∅
  consumers : TextMap (Broker.Consumer β) := ∅
  /-- How many names of subscriptions have been generated. -/
  generated : Nat := 0
  log : List Event := []

/-- How a tracker is meant: as that of a source's session, or by a name of its own. -/
inductive Target
  | source (name : String)
  | tracker (name : String)
  deriving DecidableEq, Repr

variable {β : Type} [Broker β]

namespace Deployment

def report (d : Deployment β) (event : Event) : Deployment β := { d with log := d.log ++ [event] }

def session? (d : Deployment β) (source : String) : Option (Session β) :=
  (d.sources.find? source).bind (·.session)

/-- The number of the tracker that is meant. -/
def trackerNumber? (d : Deployment β) : Target → Option Nat
  | .source name => (d.session? name).map (·.tracker)
  | .tracker name => d.held.find? name

def tracker? (d : Deployment β) (target : Target) : Option (Tracker β) :=
  (d.trackerNumber? target).bind (d.trackers[·]?)

/-- The name of the subscription that a source's open session consumes. -/
def subscriptionName? (d : Deployment β) (source : String) : Option String :=
  (d.tracker? (.source source)).map (·.subscription)

def pendingCount (d : Deployment β) (target : Target) : Nat :=
  ((d.tracker? target).map (·.pending.size)).getD 0

def isPending? (d : Deployment β) (target : Target) (messageId : String) : Option Bool :=
  (d.tracker? target).map (·.pending.contains messageId)

/-- Whether a session, a name or a task still refers to a tracker. -/
def isHeld (d : Deployment β) (number : Nat) : Bool :=
  d.sources.values.any (fun source => (source.session.map (·.tracker)) = some number)
    || d.held.values.any (· = number)
    || d.tasks.values.any (fun task => task.tracker = number)

/-- Lets a tracker work at the broker. -/
def withTracker {α : Type} (d : Deployment β) (number : Nat) (tracker : Tracker β)
    (act : Delivery β → α × Delivery β) : α × Deployment β :=
  let (result, after) := act { tracker, broker := d.broker, log := d.log }
  (result, { d with
    broker := after.broker
    trackers := d.trackers.set number after.tracker
    log := after.log })

/-- Drops the consumers of all trackers that nothing refers to any more. -/
def dropUnheld (d : Deployment β) : Deployment β :=
  let drop (number : Nat) (broker : β) : β :=
    match d.trackers[number]? with
    | some tracker =>
        if d.isHeld number then broker else Broker.dropConsumer tracker.consumer broker
    | none => broker
  { d with broker := (List.range d.trackers.length).foldl (fun b n => drop n b) d.broker }

end Deployment
end TrackedDelivery
