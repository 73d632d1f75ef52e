/-!
# Configuration keys

The keys that a source understands, each with the kind of its value, whether it must be given,
and the description that a pipeline shows for it.
-/
namespace TrackedDelivery.Config

inductive Key
  | url
  | topic
  | subscriptionName
  | subscriptionType
  | connectionTimeout
  | operationTimeout
  | maxConnectionsPerBroker
  | memoryLimitBytes
  | enableTransaction
  | tlsCertificateFile
  | tlsKeyFilePath
  | tlsTrustCertsFilePath
  | tlsAllowInsecureConnection
  | tlsValidateHostname
  | disableLogging
  deriving DecidableEq, Repr

inductive ValueKind
  | string
  | int
  | bool
  | duration
  deriving DecidableEq, Repr

namespace Key

/-- Every key, in the order of the listing. -/
def all : List Key :=
  [.url, .topic, .subscriptionName, .subscriptionType, .connectionTimeout, .operationTimeout,
   .maxConnectionsPerBroker, .memoryLimitBytes, .enableTransaction, .tlsCertificateFile,
   .tlsKeyFilePath, .tlsTrustCertsFilePath, .tlsAllowInsecureConnection, .tlsValidateHostname,
   .disableLogging]

def name : Key → String
  | url => "url"
  | topic => "topic"
  | subscriptionName => "subscriptionName"
  | subscriptionType => "subscriptionType"
  | connectionTimeout => "connectionTimeout"
  | operationTimeout => "operationTimeout"
  | maxConnectionsPerBroker => "maxConnectionsPerBroker"
  | memoryLimitBytes => "memoryLimitBytes"
  | enableTransaction => "enableTransaction"
  | tlsCertificateFile => "tlsCertificateFile"
  | tlsKeyFilePath => "tlsKeyFilePath"
  | tlsTrustCertsFilePath => "tlsTrustCertsFilePath"
  | tlsAllowInsecureConnection => "tlsAllowInsecureConnection"
  | tlsValidateHostname => "tlsValidateHostname"
  | disableLogging => "disableLogging"

def kind : Key → ValueKind
  | connectionTimeout | operationTimeout => .duration
  | maxConnectionsPerBroker | memoryLimitBytes => .int
  | enableTransaction | tlsAllowInsecureConnection | tlsValidateHostname | disableLogging => .bool
  | _ => .string

def required : Key → Bool
  | url | topic | subscriptionName => true
  | _ => false

def description : Key → String
  | url => "url of the Pulsar instance to connect to."
  | topic => "topic specifies the Pulsar topic from which the source will consume messages."
  | subscriptionName =>
      "subscriptionName is the name of the subscription to be used for consuming messages."
        ++ " Leave it empty to generate a new subscription on the first run."
  | subscriptionType =>
      "subscriptionType is one of exclusive, shared, failover or key_shared"
        ++ " (default: exclusive)."
  | connectionTimeout =>
      "connectionTimeout specifies the duration for which the client will attempt to establish"
        ++ " a connection before timing out."
  | operationTimeout =>
      "operationTimeout is the duration after which an operation is considered to have timed"
        ++ " out."
  | maxConnectionsPerBroker =>
      "maxConnectionsPerBroker limits the number of connections to each broker."
  | memoryLimitBytes =>
      "memoryLimitBytes sets the memory limit for the client in bytes. If the limit is"
        ++ " exceeded, the client may start to block or fail operations."
  | enableTransaction =>
      "enableTransaction determines if the client should support transactions."
  | tlsCertificateFile => "tlsCertificateFile sets the path to the TLS certificate file"
  | tlsKeyFilePath => "tlsKeyFilePath sets the path to the TLS key file"
  | tlsTrustCertsFilePath =>
      "tlsTrustCertsFilePath sets the path to the trusted TLS certificate file"
  | tlsAllowInsecureConnection =>
      "tlsAllowInsecureConnection configures whether the client accepts an untrusted TLS"
        ++ " certificate from the broker (default: false)"
  | tlsValidateHostname =>
      "tlsValidateHostname configures whether the client verifies the validity of the host"
        ++ " name from the broker (default: false)"
  | disableLogging =>
      "disableLogging silences the broker client's own logging for this source."

/-- Whether a key of this name is understood. -/
def isKnown (s : String) : Bool := all.any fun key => key.name = s

theorem mem_all (key : Key) : key ∈ all := by cases key <;> decide

theorem name_injective {k l : Key} (h : k.name = l.name) : k = l := by
  have : ∀ k ∈ all, ∀ l ∈ all, k.name = l.name → k = l := by decide
  exact this k (mem_all k) l (mem_all l) h

end Key
end TrackedDelivery.Config
