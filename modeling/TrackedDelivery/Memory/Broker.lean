import TrackedDelivery.Memory.Store
/-!
# The in-memory store as a broker

Only a receive can wait here. An acknowledgment never does, nor does anything that opens or
closes, so the types of what these wait for are empty.
-/
namespace TrackedDelivery.Memory

inductive Stimulus
  | publish (topic : String) (key payload : Bytes) (eventTime : Option Time) (now : Time)
  | failConnect (reason : String)
  | failSubscribe (reason : String)
  | failNextReceive (reason : String)
  | failNextAcknowledge (reason : String)
  deriving DecidableEq

def Store.stimulate (b : Store) : Stimulus → Option EntryId × Store
  | .publish topic key payload eventTime now => b.publish topic key payload eventTime now
  | .failConnect reason => (none, { b with failConnect := some reason })
  | .failSubscribe reason => (none, { b with failSubscribe := some reason })
  | .failNextReceive reason => (none, b.failNextReceive reason)
  | .failNextAcknowledge reason => (none, b.failNextAcknowledge reason)

instance : Broker Store where
  Id := EntryId
  Client := Nat
  Consumer := Nat
  Failure := Failure
  Stimulus := Stimulus
  Stall := Empty
  ReceiveWait := Nat
  AcknowledgeWait := Empty
  describe := Failure.message
  connect options b := (b.connect options).map .done id
  subscribe client options b := (b.subscribe client options).map .done id
  receive consumer b := b.receive consumer
  resumeReceive consumer since b := b.resumeReceive consumer since
  acknowledge consumer id b := (b.acknowledge consumer id).map .done fun b => b
  resumeAcknowledge wait _ := nomatch wait
  hasWoken wait _ := nomatch wait
  closeConsumer consumer b := (.done (.ok ()), b.closeConsumer consumer)
  closeClient client b := (.done (), b.closeClient client)
  dropConsumer consumer b := b.release consumer
  stimulate stimulus b := b.stimulate stimulus

end TrackedDelivery.Memory
