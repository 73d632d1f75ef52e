import TrackedDelivery.Config.Key
import TrackedDelivery.Duration
import TrackedDelivery.Subscription
import TrackedDelivery.Text.Blank
import TrackedDelivery.TextMap
/-!
# Configuration of a source

A configuration is read from pairs of texts. Every value but the subscription's name is trimmed,
and a blank optional value counts as absent. The keys are looked at in a fixed order and the
first bad one is reported.
-/
namespace TrackedDelivery
namespace Config

/-- Why the value of a key is refused. -/
inductive Reason
  | subscriptionType
  | duration (fault : Duration.Fault)
  | unsigned (fault : Number.UnsignedFault)
  | notPositive
  | notBoolean
  deriving DecidableEq, Repr

def Reason.message (value : String) : Reason → String
  | .subscriptionType => "expected one of exclusive, shared, failover, key_shared"
  | .duration fault => fault.message value
  | .unsigned fault => fault.message
  | .notPositive => "must be greater than zero"
  | .notBoolean => "expected a boolean"

inductive Error
  | missing (key : Key)
  | invalid (key : Key) (value : String) (reason : Reason)
  deriving DecidableEq, Repr

def Error.message : Error → String
  | .missing key => s!"missing required configuration key {Text.quoted key.name}"
  | .invalid key value reason =>
      s!"invalid value {Text.quoted value} for configuration key {Text.quoted key.name}: "
        ++ reason.message value

end Config

structure Config where
  topic : String
  /-- Without a name, the first session generates one. -/
  subscriptionName : Option String := none
  subscriptionType : SubscriptionType := .exclusive
  /-- What a client is connected with. The client's options are kept as this field, so they are
  handed on as they stand and nothing collects them from other fields. -/
  client : ClientOptions
  deriving DecidableEq, Repr

namespace Config

/-- Everything optional is left at its default. -/
def minimal (url topic : String) : Config := { topic, client := { url } }

/-- An empty name counts as no name. -/
def withSubscriptionName (c : Config) (name : String) : Config :=
  { c with subscriptionName := if name.isEmpty then none else some name }

def withSubscriptionType (c : Config) (type : SubscriptionType) : Config :=
  { c with subscriptionType := type }

def subscribeOptions (c : Config) (name : String) : SubscribeOptions :=
  ⟨c.topic, name, c.subscriptionType⟩

/-- The trimmed value of a key, unless it is absent or blank. -/
def value? (pairs : TextMap String) (key : Key) : Option String :=
  ((pairs.find? key.name).map Text.trim).filter (!·.isEmpty)

def require (pairs : TextMap String) (key : Key) : Except Error String :=
  match value? pairs key with
  | some value => .ok value
  | none => .error (.missing key)

/-- Reads the value of an optional key. -/
def readOptional {α : Type} (pairs : TextMap String) (key : Key)
    (read : String → Except Reason α) : Except Error (Option α) :=
  match value? pairs key with
  | none => .ok none
  | some value =>
      match read value with
      | .ok a => .ok (some a)
      | .error reason => .error (.invalid key value reason)

def readType (value : String) : Except Reason SubscriptionType :=
  match SubscriptionType.ofText? value with
  | some type => .ok type
  | none => .error .subscriptionType

def readDuration (value : String) : Except Reason Nat := (Duration.parse value).mapError .duration

def readCount (value : String) : Except Reason Nat :=
  match Number.unsigned Number.maxWord32 value with
  | .ok 0 => .error .notPositive
  | .ok n => .ok n
  | .error fault => .error (.unsigned fault)

def readSize (value : String) : Except Reason Nat :=
  (Number.unsigned Number.maxWord64 value).mapError .unsigned

/-- One letter of `t` and `f` counts in either case, and so does a whole word in any case. -/
def readBool (value : String) : Except Reason Bool :=
  let lower := String.ofList (value.toList.map Char.toLower)
  if value = "1" || lower = "t" || lower = "true" then .ok true
  else if value = "0" || lower = "f" || lower = "false" then .ok false
  else .error .notBoolean

def readFlag (pairs : TextMap String) (key : Key) : Except Error Bool :=
  (readOptional pairs key readBool).map (·.getD false)

/-- Reads a configuration, key by key. -/
def ofPairs (pairs : TextMap String) : Except Error Config := do
  let url ← require pairs .url
  let topic ← require pairs .topic
  let name ← match pairs.find? Key.subscriptionName.name with
    | some name => .ok name
    | none => .error (.missing .subscriptionName)
  let type ← readOptional pairs .subscriptionType readType
  let connectionTimeout ← readOptional pairs .connectionTimeout readDuration
  let operationTimeout ← readOptional pairs .operationTimeout readDuration
  let maxConnectionsPerBroker ← readOptional pairs .maxConnectionsPerBroker readCount
  let memoryLimitBytes ← readOptional pairs .memoryLimitBytes readSize
  let enableTransaction ← readFlag pairs .enableTransaction
  let tlsAllowInsecureConnection ← readFlag pairs .tlsAllowInsecureConnection
  let tlsValidateHostname ← readFlag pairs .tlsValidateHostname
  let disableLogging ← readFlag pairs .disableLogging
  return {
    topic
    subscriptionName := if name.isEmpty then none else some name
    subscriptionType := type.getD .exclusive
    client := {
      url
      connectionTimeout
      operationTimeout
      maxConnectionsPerBroker
      memoryLimitBytes
      enableTransaction
      tlsCertificateFile := value? pairs .tlsCertificateFile
      tlsKeyFilePath := value? pairs .tlsKeyFilePath
      tlsTrustCertsFilePath := value? pairs .tlsTrustCertsFilePath
      tlsAllowInsecureConnection
      tlsValidateHostname
      disableLogging } }

/-- The keys that are not understood, in ascending order. -/
def unknownKeys (pairs : TextMap String) : List String :=
  pairs.keys.filter (!Key.isKnown ·)

end Config
end TrackedDelivery
