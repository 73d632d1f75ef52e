import TrackedDelivery.Subscription
/-!
# Events

What a source reports while it works, apart from its results.
-/
namespace TrackedDelivery

inductive Level
  | trace
  | debug
  | info
  | warn
  deriving DecidableEq, Repr

def Level.text : Level → String
  | trace => "TRACE"
  | debug => "DEBUG"
  | info => "INFO"
  | warn => "WARN"

inductive Event
  | configuring
  | unknownKey (key : String)
  | nameAssigned (subscription : String)
  | opened (topic subscription : String) (type : SubscriptionType)
  | closeFailed (error : String)
  | tornDown (count : Nat)
  | reading (subscription : String)
  | readCancelled
  | redelivered (messageId : String)
  | nowPending (messageId : String)
  | acknowledging (messageId : String)
  | acknowledgingAll (count : Nat)
  deriving DecidableEq, Repr

namespace Event

def level : Event → Level
  | configuring | nameAssigned _ | opened .. | tornDown _ => .info
  | unknownKey _ | reading _ | readCancelled | acknowledging _ | acknowledgingAll _ => .debug
  | closeFailed _ | redelivered _ => .warn
  | nowPending _ => .trace

def message : Event → String
  | configuring => "configuring source"
  | unknownKey _ => "ignoring unknown configuration key"
  | nameAssigned _ => "assigning source to new subscription"
  | opened .. => "source opened"
  | closeFailed _ => "failed to close consumer"
  | tornDown _ => "source torn down"
  | reading _ => "reading message"
  | readCancelled => "read cancelled"
  | redelivered _ => "message redelivered while still pending"
  | nowPending _ => "message pending"
  | acknowledging _ => "attempting to ack message"
  | acknowledgingAll _ => "acknowledging all pending messages"

/-- The details, each under its name. -/
def fields : Event → List (String × String)
  | configuring | readCancelled => []
  | unknownKey key => [("key", key)]
  | nameAssigned subscription | reading subscription => [("subscription", subscription)]
  | opened topic subscription type =>
      [("topic", topic), ("subscription", subscription), ("subscription_type", type.text)]
  | closeFailed error => [("error", error)]
  | tornDown count => [("pending", toString count)]
  | redelivered id | nowPending id | acknowledging id => [("message_id", id)]
  | acknowledgingAll count => [("count", toString count)]

end Event
end TrackedDelivery
