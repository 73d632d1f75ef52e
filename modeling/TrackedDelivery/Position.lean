import TrackedDelivery.Base64
import TrackedDelivery.Json.Passing
import TrackedDelivery.MessageId
import TrackedDelivery.Text.Quoted
/-!
# Positions

A position is the token that accompanies every record. It names the subscription, by which a
source resumes, and it carries the identifier of the message, by which the message is
acknowledged. It is written as a small JSON object without spaces. It is read in one pass from
left to right, so the first fault counts; members of other names are passed over, and an array of
the two values is read like the object.
-/
namespace TrackedDelivery

structure Position where
  subscription : String
  /-- The identifier's bytes in Base64. A position without it only names the subscription. -/
  messageId : Option String
  deriving DecidableEq, Repr

namespace Position

/-- The members of the written object. -/
def subscriptionKey : String := "subscriptionName"
def messageIdKey : String := "messageId"

/-- Why bytes are no position. -/
inductive JsonError
  | fault (fault : Json.Fault)
  | missingMember (key : String)
  | repeatedMember (key : String)
  | wrongKind (found expected : String)
  | noElements
  deriving DecidableEq, Repr

def JsonError.message : JsonError → String
  | .fault .endOfInput => "<eof>"
  | .fault .malformed => "<syntax>"
  | .missingMember key => s!"missing field \x60{key}\x60"
  | .repeatedMember key => s!"duplicate field \x60{key}\x60"
  | .wrongKind found expected => s!"invalid type: {found}, expected {expected}"
  | .noElements => "invalid length 0, expected struct Position with 2 elements"

inductive Error
  | json (cause : JsonError)
  | base64 (cause : Base64.Fault)
  | missingMessageId
  | messageId (reason : String)
  deriving DecidableEq, Repr

def Error.message : Error → String
  | .json cause => s!"position is not valid JSON: {cause.message}"
  | .base64 cause => s!"message id is not valid base64: {cause.message}"
  | .missingMessageId => "position does not carry a message id"
  | .messageId reason => s!"message id could not be deserialized: {reason}"

/-- The wording of the fault behind the error, if there is one. -/
def Error.cause : Error → Option String
  | .json cause => some cause.message
  | .base64 cause => some cause.message
  | .missingMessageId | .messageId _ => none

/-- A position that only names the subscription. -/
def ofSubscription (subscription : String) : Position := ⟨subscription, none⟩

def ofAscii (bytes : Bytes) : String := String.ofList (bytes.map fun b => Char.ofNat b.toNat)

/-- The position of a message that was delivered under a subscription. -/
def forMessage {ι : Type} [MessageId ι] (subscription : String) (id : ι) : Position :=
  ⟨subscription, some (ofAscii (Base64.encode (MessageId.toBytes id)))⟩

/-- The object that is written, as text. -/
def text (p : Position) : String :=
  let subscription := Json.quote subscriptionKey ++ ":" ++ Json.quote p.subscription
  let messageId :=
    match p.messageId with
    | none => ""
    | some id => "," ++ Json.quote messageIdKey ++ ":" ++ Json.quote id
  "\x7b" ++ subscription ++ messageId ++ "\x7d"

def encode (p : Position) : Bytes := Bytes.ofText p.text

/-- How a value of the wrong kind is described, once its first token is known to be sound. -/
def describe : Json.Token → Except Json.Fault String
  | .openObject => .ok "map"
  | .openArray => .ok "sequence"
  | .word (.ok .null) => .ok "null"
  | .word (.ok (.boolean value)) => .ok s!"boolean \x60{value}\x60"
  | .word (.error fault) => .error fault
  | .text read _ => read.map fun s => s!"string {Text.quoted s}"
  | .number read _ => read.map Json.Quantity.describe
  | _ => .error .malformed

def refuse {α : Type} (expected : String) (t : Json.Token) : Except JsonError α :=
  match describe t with
  | .ok found => .error (.wrongKind found expected)
  | .error fault => .error (.fault fault)

/-- The text of a string token. -/
def readText : Json.Token → Except JsonError String
  | .text read _ => read.mapError .fault
  | t => refuse "a string" t

def readOptionalText : Json.Token → Except JsonError (Option String)
  | .word (.ok .null) => .ok none
  | t => (readText t).map some

/-- The members read so far. The outer option says whether the key has occurred. -/
structure Members where
  subscription : Option String := none
  messageId : Option (Option String) := none
  deriving DecidableEq, Repr

/-- Nothing may follow the position. -/
def finish (p : Position) : List Json.Token → Except JsonError Position
  | [] => .ok p
  | _ :: _ => .error (.fault .malformed)

def Members.close (m : Members) (rest : List Json.Token) : Except JsonError Position :=
  match m.subscription with
  | none => .error (.missingMember subscriptionKey)
  | some subscription => finish ⟨subscription, m.messageId.getD none⟩ rest

/-- Reads the value after a key, and returns the tokens that follow it. -/
def Members.readValue (m : Members) (key : String) (ts : List Json.Token) :
    Except JsonError (Members × List Json.Token) :=
  match ts with
  | [] => .error (.fault .endOfInput)
  | t :: rest =>
      if key = subscriptionKey then
        (readText t).map fun s => ({ m with subscription := some s }, rest)
      else if key = messageIdKey then
        (readOptionalText t).map fun id => ({ m with messageId := some id }, rest)
      else ((Json.skipValue (t :: rest)).mapError .fault).map fun rest => (m, rest)

/-- A known key may occur once. -/
def Members.admits (m : Members) (key : String) : Bool :=
  !(key = subscriptionKey && m.subscription.isSome) && !(key = messageIdKey && m.messageId.isSome)

theorem Members.length_readValue {m m' : Members} {key : String} {ts rest : List Json.Token}
    (h : m.readValue key ts = .ok (m', rest)) : rest.length < ts.length := by
  cases ts with
  | nil => cases h
  | cons t ts =>
    simp only [readValue] at h
    split at h
    · cases hr : readText t <;> simp [hr, Except.map] at h; simp [h.2]
    · split at h
      · cases hr : readOptionalText t <;> simp [hr, Except.map] at h; simp [h.2]
      · cases hr : Json.skipValue (t :: ts) with
        | error e =>
          rw [hr] at h
          cases h
        | ok rest =>
          rw [hr] at h
          cases h
          exact Json.length_skipValue hr

/-- Reads members from a key on. -/
def readMembers (m : Members) (ts : List Json.Token) : Except JsonError Position :=
  match ts with
  | .text (.error fault) _ :: _ => .error (.fault fault)
  | .text (.ok key) _ :: rest =>
      if !m.admits key then .error (.repeatedMember key)
      else
        match rest with
        | .colon :: rest =>
            match _h : m.readValue key rest with
            | .error e => .error e
            | .ok (m, .comma :: rest) => readMembers m rest
            | .ok (m, .closeObject :: rest) => m.close rest
            | .ok (_, []) => .error (.fault .endOfInput)
            | .ok (_, _ :: _) => .error (.fault .malformed)
        | [] => .error (.fault .endOfInput)
        | _ :: _ => .error (.fault .malformed)
  | [] => .error (.fault .endOfInput)
  | _ :: _ => .error (.fault .malformed)
termination_by ts.length
decreasing_by
  have := Members.length_readValue _h
  simp only [List.length_cons] at *
  omega

/-- Reads the two values of the array form after the opening bracket. -/
def readElements : List Json.Token → Except JsonError Position
  | [] => .error (.fault .endOfInput)
  | .closeArray :: _ => .error .noElements
  | t :: rest => do
      let subscription ← readText t
      match rest with
      | [] => .error (.fault .endOfInput)
      | .closeArray :: rest => finish ⟨subscription, none⟩ rest
      | .comma :: [] => .error (.fault .endOfInput)
      | .comma :: .closeArray :: _ => .error (.fault .malformed)
      | .comma :: t :: rest => do
          let messageId ← readOptionalText t
          match rest with
          | [] => .error (.fault .endOfInput)
          | .closeArray :: rest => finish ⟨subscription, messageId⟩ rest
          | _ :: _ => .error (.fault .malformed)
      | _ :: _ => .error (.fault .malformed)

def ofTokens : List Json.Token → Except JsonError Position
  | [] => .error (.fault .endOfInput)
  | .openObject :: .closeObject :: rest => ({} : Members).close rest
  | .openObject :: rest => readMembers {} rest
  | .openArray :: rest => readElements rest
  | t :: _ => refuse "struct Position" t

def decode (bytes : Bytes) : Except Error Position :=
  (ofTokens (Json.tokens bytes)).mapError .json

/-- The identifier of the message at this position. -/
def readMessageId (ι : Type) [MessageId ι] (p : Position) : Except Error ι :=
  match p.messageId with
  | none => .error .missingMessageId
  | some encoded =>
      match Base64.decode (Bytes.ofText encoded) with
      | .error fault => .error (.base64 fault)
      | .ok bytes => (MessageId.ofBytes bytes).mapError .messageId

end Position
end TrackedDelivery
