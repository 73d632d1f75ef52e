/-!
# Subscriptions

How a broker shares the messages of one subscription between its consumers, and what a source
asks for when it connects and when it subscribes.
-/
namespace TrackedDelivery

inductive SubscriptionType
  /-- Only one consumer may attach. -/
  | exclusive
  /-- The messages are spread over the consumers. -/
  | shared
  /-- One consumer is active, and the others take over when it fails. -/
  | failover
  /-- Messages of one key go to one consumer. -/
  | keyShared
  deriving DecidableEq, Repr

namespace SubscriptionType

def text : SubscriptionType → String
  | exclusive => "exclusive"
  | shared => "shared"
  | failover => "failover"
  | keyShared => "key_shared"

/-- Reads a name without regard to the case of ASCII letters. -/
def ofText? (s : String) : Option SubscriptionType :=
  match String.ofList (s.toList.map Char.toLower) with
  | "exclusive" => some exclusive
  | "shared" => some shared
  | "failover" => some failover
  | "key_shared" | "keyshared" | "key-shared" => some keyShared
  | _ => none

@[simp] theorem ofText?_text (t : SubscriptionType) : ofText? t.text = some t := by
  cases t <;> decide

end SubscriptionType

/-- What a client is created with. Durations are in nanoseconds, and an absent value leaves the
client its own default. -/
structure ClientOptions where
  url : String
  connectionTimeout : Option Nat := none
  operationTimeout : Option Nat := none
  maxConnectionsPerBroker : Option Nat := none
  memoryLimitBytes : Option Nat := none
  enableTransaction : Bool := false
  tlsCertificateFile : Option String := none
  tlsKeyFilePath : Option String := none
  tlsTrustCertsFilePath : Option String := none
  tlsAllowInsecureConnection : Bool := false
  tlsValidateHostname : Bool := false
  disableLogging : Bool := false
  deriving DecidableEq, Repr

structure SubscribeOptions where
  topic : String
  subscription : String
  type : SubscriptionType
  deriving DecidableEq, Repr

end TrackedDelivery
