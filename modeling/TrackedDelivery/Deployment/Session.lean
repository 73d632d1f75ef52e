import TrackedDelivery.Deployment.Basic
/-!
# Opening and closing sessions

A source is configured, and then opened on a subscription. The name of the subscription is
settled before the broker is asked for anything: a position names one, which must agree with a
configured name; without a position the configured name counts, or else a fresh one. An open
source is torn down before it connects again. A call of the broker that waits is given up, and
the rest of the operation with it.
-/
namespace TrackedDelivery

/-- The name that a session consumes under, and whether it is the fresh one. -/
def settleName {ε : Type} (config : Config) (position : Option Bytes) (fresh : String) :
    Except (SourceError ε) (String × Bool) :=
  match position with
  | some bytes =>
      match Position.decode bytes with
      | .error cause => .error (.malformedPosition cause)
      | .ok p =>
          match config.subscriptionName with
          | none => .ok (p.subscription, false)
          | some configured =>
              if configured = p.subscription then .ok (p.subscription, false)
              else .error (.subscriptionMismatch p.subscription configured)
  | none =>
      match config.subscriptionName with
      | some name => .ok (name, false)
      | none => .ok (fresh, true)

variable {β : Type} [Broker β]

namespace Deployment

/-- What became of an operation on a session; `none` means that it was given up. -/
abbrev SessionResult (β : Type) [Broker β] := Option (Except (SourceError (Broker.Failure β)) Unit)

/-- Replaces the configuration, unless the pairs are bad. An open session goes on. -/
def configure (d : Deployment β) (name : String) (source : Source β) (pairs : TextMap String) :
    Except (SourceError (Broker.Failure β)) Unit × Deployment β :=
  let d := d.report .configuring
  match Config.ofPairs pairs with
  | .error cause => (.error (.config cause), d)
  | .ok config =>
      let d := (Config.unknownKeys pairs).foldl (fun d key => d.report (.unknownKey key)) d
      (.ok (), { d with sources := d.sources.insert name { source with config := some config } })

/-- Closes the consumer and the client of a session, whose source no longer has it. Says whether
it came to the end. -/
def closeSession (d : Deployment β) (session : Session β) (tracker : Tracker β) :
    Bool × Deployment β :=
  let (reply, broker) := Broker.closeConsumer tracker.consumer d.broker
  let d := { d with broker }
  match reply with
  | .waiting _ => (false, d)
  | .done result =>
      let d := match result with
        | .ok () => d
        | .error cause => d.report (.closeFailed (Broker.describe cause))
      let (reply, broker) := Broker.closeClient session.client d.broker
      let d := { d with broker }
      match reply with
      | .waiting _ => (false, d)
      | .done () => (true, d.report (.tornDown tracker.pending.size))

/-- Releases the session of a source, if it has one. What was pending is left to the broker. -/
def teardown (d : Deployment β) (name : String) (source : Source β) : Bool × Deployment β :=
  match source.session with
  | none => (true, d)
  | some session =>
      let d := { d with sources := d.sources.insert name { source with session := none } }
      match d.trackers[session.tracker]? with
      | none => (true, d)
      | some tracker => d.closeSession session tracker

/-- Connects a source that has no session. A client that cannot subscribe is closed again. -/
def connectSource (d : Deployment β) (name : String) (config : Config) (subscription : String) :
    SessionResult β × Deployment β :=
  let (reply, broker) := Broker.connect config.client d.broker
  let d := { d with broker }
  match reply with
  | .waiting _ => (none, d)
  | .done (.error cause) => (some (.error (.connect cause)), d)
  | .done (.ok client) =>
      let (reply, broker) :=
        Broker.subscribe client (config.subscribeOptions subscription) d.broker
      let d := { d with broker }
      match reply with
      | .waiting _ => (none, d)
      | .done (.error cause) =>
          let (reply, broker) := Broker.closeClient client d.broker
          let d := { d with broker }
          match reply with
          | .waiting _ => (none, d)
          | .done () => (some (.error (.subscribe cause)), d)
      | .done (.ok consumer) =>
          let d := d.report (.opened config.topic subscription config.subscriptionType)
          let session := { client, tracker := d.trackers.length }
          (some (.ok ()), { d with
            trackers := d.trackers ++ [{ consumer, subscription }]
            sources := d.sources.insert name { config := some config, session := some session } })

/-- Opens a source, from a position if one is given. -/
def openSource (d : Deployment β) (name : String) (source : Source β) (position : Option Bytes)
    (fresh : String) : SessionResult β × Deployment β :=
  match source.config with
  | none => (some (.error .notConfigured), d)
  | some config =>
      match settleName config position fresh with
      | .error e => (some (.error e), d)
      | .ok (subscription, isFresh) =>
          let d :=
            if isFresh then
              { d.report (.nameAssigned subscription) with generated := d.generated + 1 }
            else d
          match d.teardown name source with
          | (false, d) => (none, d)
          | (true, d) => d.connectSource name config subscription

end Deployment
end TrackedDelivery
