import TrackedDelivery.Config.Basic
/-!
# Keys on their own

What a key contributes to a configuration is read from its own value and nothing else: the value
is looked at as it was given for the subscription's name and trimmed for every other key, an
absent one leaves a default or is missed, and any other is left to the parser of the key. Reading
a configuration is reading every key in this way, and the first key that refuses its value decides
the error.
-/
namespace TrackedDelivery.Config

namespace Key

/-- The type of what a key contributes to a configuration. -/
abbrev Value : Key → Type
  | url | topic => String
  | subscriptionType => SubscriptionType
  | subscriptionName | tlsCertificateFile | tlsKeyFilePath | tlsTrustCertsFilePath => Option String
  | connectionTimeout | operationTimeout | maxConnectionsPerBroker | memoryLimitBytes => Option Nat
  | enableTransaction | tlsAllowInsecureConnection | tlsValidateHostname | disableLogging => Bool

/-- The value as the parser of the key sees it: only the subscription's name is taken verbatim. -/
def given? : Key → Option String → Option String
  | subscriptionName, raw => raw
  | _, raw => (raw.map Text.trim).filter (!·.isEmpty)

/-- What a key contributes if it is not given. There is nothing for a required key. -/
def default? : (k : Key) → Option k.Value
  | url | topic | subscriptionName => none
  | subscriptionType => some SubscriptionType.exclusive
  | connectionTimeout | operationTimeout | maxConnectionsPerBroker | memoryLimitBytes
  | tlsCertificateFile | tlsKeyFilePath | tlsTrustCertsFilePath => some none
  | enableTransaction | tlsAllowInsecureConnection | tlsValidateHostname
  | disableLogging => some false

/-- The parser of a key. -/
def parse : (k : Key) → String → Except Reason k.Value
  | url, value | topic, value => .ok value
  | subscriptionName, name => .ok (if name.isEmpty then none else some name)
  | subscriptionType, value => readType value
  | connectionTimeout, value | operationTimeout, value => (readDuration value).map some
  | maxConnectionsPerBroker, value => (readCount value).map some
  | memoryLimitBytes, value => (readSize value).map some
  | tlsCertificateFile, value | tlsKeyFilePath, value | tlsTrustCertsFilePath, value =>
      .ok (some value)
  | enableTransaction, value | tlsAllowInsecureConnection, value | tlsValidateHostname, value
  | disableLogging, value => readBool value

/-- What the key contributes, or why its value is refused. -/
def read (k : Key) (raw : Option String) : Except Error k.Value :=
  match k.given? raw with
  | none =>
      match k.default? with
      | some v => .ok v
      | none => .error (.missing k)
  | some value => (k.parse value).mapError (.invalid k value)

/-- Why the value of the key is refused, if it is. -/
def fault? (k : Key) (raw : Option String) : Option Error :=
  match k.read raw with
  | .ok _ => none
  | .error e => some e

theorem given?_of_ne {k : Key} (h : k ≠ subscriptionName) (raw : Option String) :
    k.given? raw = (raw.map Text.trim).filter (!·.isEmpty) := by
  cases k <;> first | rfl | exact absurd rfl h

theorem given?_eq_value? {k : Key} (h : k ≠ subscriptionName) (pairs : TextMap String) :
    k.given? (pairs.find? k.name) = value? pairs k :=
  given?_of_ne h _

theorem fault?_eq_none_iff {k : Key} {raw : Option String} :
    k.fault? raw = none ↔ ∃ v, k.read raw = .ok v := by
  rw [fault?]
  cases k.read raw with
  | ok v => simp
  | error e => simp

theorem fault?_eq_some_iff {k : Key} {raw : Option String} {e : Error} :
    k.fault? raw = some e ↔ k.read raw = .error e := by
  rw [fault?]
  cases k.read raw with
  | ok v => simp
  | error e => simp

end Key

/-- What a configuration holds for a key. -/
def field (c : Config) : (k : Key) → k.Value
  | .url => c.client.url
  | .topic => c.topic
  | .subscriptionName => c.subscriptionName
  | .subscriptionType => c.subscriptionType
  | .connectionTimeout => c.client.connectionTimeout
  | .operationTimeout => c.client.operationTimeout
  | .maxConnectionsPerBroker => c.client.maxConnectionsPerBroker
  | .memoryLimitBytes => c.client.memoryLimitBytes
  | .enableTransaction => c.client.enableTransaction
  | .tlsCertificateFile => c.client.tlsCertificateFile
  | .tlsKeyFilePath => c.client.tlsKeyFilePath
  | .tlsTrustCertsFilePath => c.client.tlsTrustCertsFilePath
  | .tlsAllowInsecureConnection => c.client.tlsAllowInsecureConnection
  | .tlsValidateHostname => c.client.tlsValidateHostname
  | .disableLogging => c.client.disableLogging

/-- A configuration holds nothing besides what it holds for the keys. -/
theorem eq_of_field_eq {c d : Config} (h : ∀ k, c.field k = d.field k) : c = d := by
  obtain ⟨topic, name, type, client⟩ := c
  obtain ⟨topic', name', type', client'⟩ := d
  obtain rfl : topic = topic' := h .topic
  obtain rfl : name = name' := h .subscriptionName
  obtain rfl : type = type' := h .subscriptionType
  have hclient : client = client' := by
    cases client
    cases client'
    exact (ClientOptions.mk.injEq ..).mpr ⟨h .url, h .connectionTimeout, h .operationTimeout,
      h .maxConnectionsPerBroker, h .memoryLimitBytes, h .enableTransaction,
      h .tlsCertificateFile, h .tlsKeyFilePath, h .tlsTrustCertsFilePath,
      h .tlsAllowInsecureConnection, h .tlsValidateHostname, h .disableLogging⟩
  rw [hclient]

theorem eq_map_id {ε α : Type} (x : Except ε α) : x = x.map id := (congrFun Except.map_id x).symm

section
variable {pairs : TextMap String} {k : Key}

/-- A required key is read by its parser, which takes every value. -/
theorem map_require {g : String → k.Value} (hk : k ≠ .subscriptionName)
    (hdefault : k.default? = none) (hparse : ∀ value, k.parse value = .ok (g value)) :
    (require pairs k).map g = k.read (pairs.find? k.name) := by
  rw [require, Key.read, Key.given?_eq_value? hk]
  cases value? pairs k with
  | none => rw [hdefault]; rfl
  | some value =>
      dsimp only
      rw [hparse]
      rfl

/-- An optional key is read by its parser, or its default stands for an absent value. -/
theorem map_readOptional {α : Type} {reader : String → Except Reason α} {g : Option α → k.Value}
    (hk : k ≠ .subscriptionName) (hdefault : k.default? = some (g none))
    (hparse : ∀ value, k.parse value = (reader value).map fun a => g (some a)) :
    (readOptional pairs k reader).map g = k.read (pairs.find? k.name) := by
  rw [readOptional, Key.read, Key.given?_eq_value? hk]
  cases value? pairs k with
  | none => rw [hdefault]; rfl
  | some value =>
      dsimp only
      rw [hparse]
      cases reader value <;> rfl

/-- A key whose parser takes every value and that has a default is never refused. -/
theorem read_path {g : Option String → k.Value} (hk : k ≠ .subscriptionName)
    (hdefault : k.default? = some (g none))
    (hparse : ∀ value, k.parse value = .ok (g (some value))) :
    k.read (pairs.find? k.name) = .ok (g (value? pairs k)) := by
  rw [Key.read, Key.given?_eq_value? hk]
  cases value? pairs k with
  | none =>
      dsimp only
      rw [hdefault]
  | some value =>
      dsimp only
      rw [hparse]
      rfl

theorem map_readFlag {g : Bool → k.Value} (hk : k ≠ .subscriptionName)
    (hdefault : k.default? = some (g false))
    (hparse : ∀ value, k.parse value = (readBool value).map g) :
    (readFlag pairs k).map g = k.read (pairs.find? k.name) := by
  have hread : (readOptional pairs k readBool).map (fun flag => g (flag.getD false)) =
      k.read (pairs.find? k.name) := map_readOptional hk hdefault hparse
  rw [← hread, readFlag]
  cases readOptional pairs k readBool <;> rfl

end

/-- What the keys from some place on leave: the fault of the first one that refuses its value, or
else a configuration with the contribution of every key. -/
def Settles (raw : Key → Option String) (keys : List Key) (result : Except Error Config) : Prop :=
  match keys.findSome? fun k => k.fault? (raw k) with
  | some e => result = .error e
  | none => ∃ c : Config, result = .ok c ∧ ∀ k : Key, k.read (raw k) = .ok (c.field k)

variable {raw : Key → Option String} {k : Key} {keys : List Key}

theorem settles_cons {result : Except Error Config} {v : k.Value} (hk : k.read (raw k) = .ok v)
    (h : Settles raw keys result) : Settles raw (k :: keys) result := by
  rw [Settles, List.findSome?_cons, Key.fault?_eq_none_iff.mpr ⟨v, hk⟩]
  exact h

/-- A key that is read in a step decides the error if it refuses its value, and is passed on to
the steps after it otherwise. -/
theorem settles_bind {α : Type} {x : Except Error α} {g : α → k.Value}
    {next : α → Except Error Config} (hx : x.map g = k.read (raw k))
    (hnext : ∀ a, k.read (raw k) = .ok (g a) → Settles raw keys (next a)) :
    Settles raw (k :: keys) (x.bind next) := by
  cases x with
  | ok a => exact settles_cons hx.symm (hnext a hx.symm)
  | error e =>
      rw [Settles, List.findSome?_cons, Key.fault?_eq_some_iff.mpr hx.symm]
      rfl

/-- The subscription's name has to be there and is taken as it is. -/
theorem settles_name {next : String → Except Error Config}
    (hnext : ∀ name, Key.read .subscriptionName (raw .subscriptionName) =
      .ok (if name.isEmpty then none else some name) → Settles raw keys (next name)) :
    Settles raw (.subscriptionName :: keys)
      (match raw .subscriptionName with
        | some name => (Except.ok name).bind next
        | none => (Except.error (.missing .subscriptionName)).bind next) := by
  cases hname : raw .subscriptionName with
  | some name =>
      rw [hname] at hnext
      exact settles_cons (by rw [hname]; rfl) (hnext name rfl)
  | none =>
      rw [Settles, List.findSome?_cons, hname]
      rfl

/-- Reading a configuration is reading every key on its own. -/
theorem settles_ofPairs (pairs : TextMap String) :
    Settles (fun k => pairs.find? k.name) Key.all (ofPairs pairs) := by
  -- One step for each key, in the order of the program. The three paths are never refused.
  unfold ofPairs Key.all
  refine settles_bind (map_require (g := id) nofun rfl fun _ => rfl) fun url hurl => ?_
  refine settles_bind (map_require (g := id) nofun rfl fun _ => rfl) fun topic htopic => ?_
  refine settles_name fun name hname => ?_
  refine settles_bind (map_readOptional (g := fun t : Option SubscriptionType => t.getD .exclusive)
    nofun rfl fun _ => eq_map_id _) fun type htype => ?_
  refine settles_bind (map_readOptional (g := id) nofun rfl fun _ => rfl) fun _ hconnection => ?_
  refine settles_bind (map_readOptional (g := id) nofun rfl fun _ => rfl) fun _ hoperation => ?_
  refine settles_bind (map_readOptional (g := id) nofun rfl fun _ => rfl) fun _ hcount => ?_
  refine settles_bind (map_readOptional (g := id) nofun rfl fun _ => rfl) fun _ hsize => ?_
  refine settles_bind (map_readFlag (g := id) nofun rfl fun _ => eq_map_id _) fun _ henable => ?_
  have hcertificate : Key.tlsCertificateFile.read (pairs.find? Key.tlsCertificateFile.name) = _ :=
    read_path (g := id) nofun rfl fun _ => rfl
  have hkey : Key.tlsKeyFilePath.read (pairs.find? Key.tlsKeyFilePath.name) = _ :=
    read_path (g := id) nofun rfl fun _ => rfl
  have htrust : Key.tlsTrustCertsFilePath.read (pairs.find? Key.tlsTrustCertsFilePath.name) = _ :=
    read_path (g := id) nofun rfl fun _ => rfl
  refine settles_cons hcertificate (settles_cons hkey (settles_cons htrust ?_))
  refine settles_bind (map_readFlag (g := id) nofun rfl fun _ => eq_map_id _) fun _ hinsecure => ?_
  refine settles_bind (map_readFlag (g := id) nofun rfl fun _ => eq_map_id _) fun _ hhostname => ?_
  refine settles_bind (map_readFlag (g := id) nofun rfl fun _ => eq_map_id _) fun _ hlogging => ?_
  refine ⟨_, rfl, fun k => ?_⟩
  cases k <;> assumption

end TrackedDelivery.Config
