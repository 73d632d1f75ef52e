import TrackedDelivery.Deployment.Session
/-!
# Steps of a deployment

Everything that can be done to a deployment, one step at a time and in any order. A call that
waits is given up at the end of its step, except in a task, which is kept and can be polled. After
every step the consumers that nothing refers to are dropped.

Every step is atomic: nothing comes between what it looks at and what it changes. That holds of the
calls that it makes on the broker too, whose first look at the state of a consumer and whose effect
are one. What threads see of each other in the middle of an operation is not described.
-/
namespace TrackedDelivery

/-- What goes by a name. -/
inductive Named
  | source
  | tracker
  | client
  | consumer
  | task
  deriving DecidableEq, Repr

inductive Step (β : Type) [Broker β]
  /-- Makes a source, in place of one of that name. -/
  | create (source : String) (config : Option Config)
  | configure (source : String) (pairs : TextMap String)
  /-- The fresh name is there in case one has to be generated. -/
  | openSource (source : String) (position : Option Bytes) (fresh : String)
  | teardown (source : String)
  /-- Keeps the tracker of a source by a name. -/
  | hold (source : String) (tracker : String)
  /-- The flag says whether the reader has already been cancelled. -/
  | ask (target : Target) (request : Request) (cancelled : Bool)
  /-- Makes a request in a task, in place of one of that name. -/
  | start (task : String) (target : Target) (request : Request)
  | poll (task : String)
  | cancel (task : String)
  | closeTracker (tracker : String)
  | drop (kind : Named) (name : String)
  | connect (client : String) (options : ClientOptions)
  | subscribe (client consumer : String) (options : SubscribeOptions)
  | receive (consumer : String)
  | acknowledge (consumer : String) (id : Broker.Id β)
  | closeClient (client : String)
  | closeConsumer (consumer : String)
  /-- Gives a consumer to a new tracker, which is kept by a name. -/
  | track (consumer tracker subscription : String)
  | stimulate (stimulus : Broker.Stimulus β)

inductive Answer (β : Type) [Broker β]
  | done
  | outcome (outcome : Outcome)
  | failed (error : SourceError (Broker.Failure β))
  /-- The failure of a call on a handle that no source owns. -/
  | refused (cause : Broker.Failure β)
  | waits
  | notOpen
  | received (message : Message (Broker.Id β))
  | reported (id : Option (Broker.Id β))
  | existed (existed : Bool)
  /-- The step names something that does not exist. -/
  | unknown

variable {β : Type} [Broker β]

namespace Answer

def ofSession : Deployment.SessionResult β → Answer β
  | none => waits
  | some (.ok ()) => done
  | some (.error e) => failed e

def ofCall : Reply (Call β) (Call.Result β) → Answer β
  | .done (.ok result) => outcome result
  | .done (.error e) => failed e
  | .waiting _ => waits

def ofRaw {ω α : Type} (result : α → Answer β) :
    Reply ω (Except (Broker.Failure β) α) → Answer β
  | .done (.ok a) => result a
  | .done (.error cause) => refused cause
  | .waiting _ => waits

end Answer

namespace Deployment

/-- The answer to a request that finds no session. All pending messages at once are acknowledged
at the tracker, so there has to be one. -/
def answerClosed : Target → Request → Answer β
  | .source _, .acknowledgeAll => .notOpen
  | .source _, _ => .failed .notOpen
  | .tracker _, _ => .unknown

def ask (d : Deployment β) (target : Target) (request : Request) (cancelled : Bool) :
    Answer β × Deployment β :=
  match d.trackerNumber? target, d.tracker? target with
  | some number, some tracker =>
      (d.withTracker number tracker fun work => Call.start cancelled work request).map
        Answer.ofCall id
  | _, _ => (answerClosed target request, d)

/-- Keeps what waits in a task, and forgets the task otherwise. -/
def settleTask (d : Deployment β) (name : String) (number : Nat) (cancelled : Bool)
    (reply : Reply (Call β) (Call.Result β)) : Answer β × Deployment β :=
  let tasks :=
    match reply with
    | .waiting call => d.tasks.insert name { tracker := number, cancelled, call }
    | .done _ => d.tasks.erase name
  (.ofCall reply, { d with tasks })

def start (d : Deployment β) (name : String) (target : Target) (request : Request) :
    Answer β × Deployment β :=
  match d.trackerNumber? target, d.tracker? target with
  | some number, some tracker =>
      let (reply, d) := d.withTracker number tracker fun work => Call.start false work request
      d.settleTask name number false reply
  | _, _ => (.notOpen, d)

def poll (d : Deployment β) (name : String) : Answer β × Deployment β :=
  match d.tasks.find? name with
  | none => (.unknown, d)
  | some task =>
      match d.trackers[task.tracker]? with
      | none => (.unknown, d)
      | some tracker =>
          let (reply, d) := d.withTracker task.tracker tracker fun work =>
            Call.poll task.cancelled work task.call
          d.settleTask name task.tracker task.cancelled reply

/-- Forgets a name, and says whether it was in use. -/
def drop (d : Deployment β) (name : String) : Named → Bool × Deployment β
  | .source => (d.sources.contains name, { d with sources := d.sources.erase name })
  | .tracker => (d.held.contains name, { d with held := d.held.erase name })
  | .client => (d.clients.contains name, { d with clients := d.clients.erase name })
  | .task => (d.tasks.contains name, { d with tasks := d.tasks.erase name })
  | .consumer =>
      match d.consumers.find? name with
      | none => (false, d)
      | some consumer =>
          (true, { d with
            consumers := d.consumers.erase name
            broker := Broker.dropConsumer consumer d.broker })

/-- Attaches a consumer under a name. The consumer that had the name is dropped afterwards. -/
def subscribe (d : Deployment β) (name : String) (client : Broker.Client β)
    (options : SubscribeOptions) : Answer β × Deployment β :=
  let (reply, broker) := Broker.subscribe client options d.broker
  let d := { d with broker }
  match reply with
  | .done (.ok consumer) =>
      let (_, d) := d.drop name .consumer
      (.done, { d with consumers := d.consumers.insert name consumer })
  | .done (.error cause) => (.refused cause, d)
  | .waiting _ => (.waits, d)

/-- A call on the broker whose effect is all on the broker. -/
def call {ω α : Type} (d : Deployment β) (result : α → Answer β)
    (reply : Reply ω (Except (Broker.Failure β) α) × β) : Answer β × Deployment β :=
  (.ofRaw result reply.1, { d with broker := reply.2 })

/-- What a step does, before unheld consumers are dropped. -/
def act (d : Deployment β) : Step β → Answer β × Deployment β
  | .create name config => (.done, { d with sources := d.sources.insert name { config } })
  | .configure name pairs =>
      match d.sources.find? name with
      | none => (.unknown, d)
      | some source => (d.configure name source pairs).map (fun r => .ofSession (some r)) id
  | .openSource name position fresh =>
      match d.sources.find? name with
      | none => (.unknown, d)
      | some source => (d.openSource name source position fresh).map Answer.ofSession id
  | .teardown name =>
      match d.sources.find? name with
      | none => (.unknown, d)
      | some source =>
          (d.teardown name source).map (fun ended => if ended then .done else .waits) id
  | .hold name tracker =>
      match d.trackerNumber? (.source name) with
      | none => (.notOpen, d)
      | some number => (.done, { d with held := d.held.insert tracker number })
  | .ask target request cancelled => d.ask target request cancelled
  | .start name target request => d.start name target request
  | .poll name => d.poll name
  | .cancel name =>
      match d.tasks.find? name with
      | none => (.unknown, d)
      | some task =>
          (.done, { d with tasks := d.tasks.insert name { task with cancelled := true } })
  | .closeTracker name =>
      match d.tracker? (.tracker name) with
      | none => (.unknown, d)
      | some tracker => d.call (fun _ => .done) (Broker.closeConsumer tracker.consumer d.broker)
  | .drop kind name => (d.drop name kind).map .existed id
  | .connect name options =>
      let (reply, broker) := Broker.connect options d.broker
      let d := { d with broker }
      match reply with
      | .done (.ok client) => (.done, { d with clients := d.clients.insert name client })
      | .done (.error cause) => (.refused cause, d)
      | .waiting _ => (.waits, d)
  | .subscribe clientName name options =>
      match d.clients.find? clientName with
      | none => (.unknown, d)
      | some client => d.subscribe name client options
  | .receive name =>
      match d.consumers.find? name with
      | none => (.unknown, d)
      | some consumer => d.call .received (Broker.receive consumer d.broker)
  | .acknowledge name id =>
      match d.consumers.find? name with
      | none => (.unknown, d)
      | some consumer => d.call (fun _ => .done) (Broker.acknowledge consumer id d.broker)
  | .closeClient name =>
      match d.clients.find? name with
      | none => (.unknown, d)
      | some client =>
          let (reply, broker) := Broker.closeClient client d.broker
          ((match reply with | .done () => .done | .waiting _ => .waits), { d with broker })
  | .closeConsumer name =>
      match d.consumers.find? name with
      | none => (.unknown, d)
      | some consumer => d.call (fun _ => .done) (Broker.closeConsumer consumer d.broker)
  | .track name tracker subscription =>
      match d.consumers.find? name with
      | none => (.unknown, d)
      | some consumer =>
          (.done, { d with
            consumers := d.consumers.erase name
            trackers := d.trackers ++ [{ consumer, subscription }]
            held := d.held.insert tracker d.trackers.length })
  | .stimulate stimulus =>
      let (id, broker) := Broker.stimulate stimulus d.broker
      (.reported id, { d with broker })

/-- Makes one step. The log afterwards holds the events of this step. -/
def step (d : Deployment β) (s : Step β) : Answer β × Deployment β :=
  let (answer, d) := { d with log := [] }.act s
  (answer, d.dropUnheld)

/-- Makes steps one after another. -/
def run (d : Deployment β) : List (Step β) → List (Answer β) × Deployment β
  | [] => ([], d)
  | s :: rest =>
      let (answer, d) := d.step s
      let (answers, d) := d.run rest
      (answer :: answers, d)

end Deployment
end TrackedDelivery
