import TrackedDelivery.Bytes
/-!
# Message identifiers

What a source needs to know of the identifiers that a broker gives to its messages: a text that
names the message in the pending set and in reports, and bytes that go into a position.
-/
namespace TrackedDelivery

class MessageId (ι : Type) where
  text : ι → String
  toBytes : ι → Bytes
  /-- The fault is described in words. -/
  ofBytes : Bytes → Except String ι

end TrackedDelivery
