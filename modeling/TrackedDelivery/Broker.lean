import TrackedDelivery.Record
import TrackedDelivery.Subscription
/-!
# Brokers

A broker as a source meets it: a state with the calls that can be made on it. A call ends at
once or waits. What a waiting receive or acknowledgment waits for is kept by its caller, who may
look at it again later; any other call that waits can only be given up.
-/
namespace TrackedDelivery

/-- What a call comes to when it is looked at. -/
inductive Reply (ω α : Type)
  | done (result : α)
  | waiting (wait : ω)
  deriving DecidableEq, Repr

namespace Reply

variable {ω α γ : Type}

def map (f : α → γ) : Reply ω α → Reply ω γ
  | done result => done (f result)
  | waiting wait => waiting wait

@[simp] theorem map_done (f : α → γ) (a : α) : (done a : Reply ω α).map f = done (f a) := rfl

@[simp] theorem map_waiting (f : α → γ) (w : ω) : (waiting w).map f = waiting w := rfl

end Reply

class Broker (β : Type) where
  Id : Type
  Client : Type
  Consumer : Type
  Failure : Type
  /-- What happens at the broker from outside. -/
  Stimulus : Type
  /-- What a call that opens or closes something waits for. -/
  Stall : Type
  ReceiveWait : Type
  AcknowledgeWait : Type
  [messageId : MessageId Id]
  describe : Failure → String
  connect : ClientOptions → β → Reply Stall (Except Failure Client) × β
  subscribe : Client → SubscribeOptions → β → Reply Stall (Except Failure Consumer) × β
  receive : Consumer → β → Reply ReceiveWait (Except Failure (Message Id)) × β
  /-- Looks again at a receive that waits. -/
  resumeReceive : Consumer → ReceiveWait → β →
    Reply ReceiveWait (Except Failure (Message Id)) × β
  acknowledge : Consumer → Id → β → Reply AcknowledgeWait (Except Failure Unit) × β
  /-- Looks again at an acknowledgment that waits. -/
  resumeAcknowledge : AcknowledgeWait → β → Reply AcknowledgeWait (Except Failure Unit) × β
  /-- Whether the broker has called for a waiting acknowledgment to be looked at. -/
  hasWoken : AcknowledgeWait → β → Bool
  closeConsumer : Consumer → β → Reply Stall (Except Failure Unit) × β
  closeClient : Client → β → Reply Stall Unit × β
  /-- What the broker notices when the last handle to a consumer is gone. -/
  dropConsumer : Consumer → β → β
  /-- Reports the identifier of a message that came into being, if one did. -/
  stimulate : Stimulus → β → Option Id × β

namespace Broker

instance (β : Type) [Broker β] : MessageId (Id β) := messageId

end Broker
end TrackedDelivery
