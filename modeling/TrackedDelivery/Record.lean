import TrackedDelivery.MessageId
import TrackedDelivery.Number.Unsigned
import TrackedDelivery.TextMap
/-!
# Messages and records

A message is what a broker delivers. A record is what the pipeline gets for it: the same key and
payload, the position, and metadata with the topic and the time of creation. Times count
nanoseconds from the Unix epoch and may lie before it.
-/
namespace TrackedDelivery

abbrev Time := Int

structure Message (ι : Type) where
  id : ι
  topic : String
  /-- The time that the producer gave, if any. -/
  eventTime : Option Time := none
  publishTime : Time
  key : Bytes
  payload : Bytes
  deriving DecidableEq, Repr

abbrev Metadata := TextMap String

namespace Metadata

def topicKey : String := "pulsar.topic"
def createdAtKey : String := "opencdc.createdAt"

/-- Writes the time in decimal. A time before the epoch is written as the epoch. -/
def setCreatedAt (m : Metadata) (t : Time) : Metadata :=
  m.insert createdAtKey (toString t.toNat)

/-- The time of creation, if one is written that fits 64 bits. -/
def createdAt (m : Metadata) : Option Time :=
  match (m.find? createdAtKey).map (Number.unsigned Number.maxWord64) with
  | some (.ok nanoseconds) => some nanoseconds
  | _ => none

end Metadata

/-- What a record says has happened. -/
inductive Operation
  | create
  deriving DecidableEq, Repr

def Operation.text : Operation → String
  | create => "create"

structure Record where
  position : Bytes
  operation : Operation := .create
  metadata : Metadata
  key : Bytes
  payload : Bytes
  deriving DecidableEq

/-- The record of a message. It was created at the producer's time, or else when published. -/
def Record.ofMessage {ι : Type} (message : Message ι) (position : Bytes) : Record where
  position
  metadata :=
    Metadata.setCreatedAt ((∅ : Metadata).insert Metadata.topicKey message.topic)
      (message.eventTime.getD message.publishTime)
  key := message.key
  payload := message.payload

end TrackedDelivery
