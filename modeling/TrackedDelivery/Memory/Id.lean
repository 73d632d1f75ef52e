import TrackedDelivery.MessageId
/-!
# Identifiers of stored messages

A message of the in-memory broker is identified by the ledger of its topic and by its entry in
that topic's log, both words of 64 bits. The bytes are the two words with the high byte first.
-/
namespace TrackedDelivery.Memory

structure EntryId where
  ledger : UInt64
  entry : UInt64
  deriving DecidableEq, Repr

namespace EntryId

def text (id : EntryId) : String := s!"{id.ledger.toNat}:{id.entry.toNat}"

def wordBytes (w : UInt64) : Bytes :=
  [(w >>> 56).toUInt8, (w >>> 48).toUInt8, (w >>> 40).toUInt8, (w >>> 32).toUInt8,
   (w >>> 24).toUInt8, (w >>> 16).toUInt8, (w >>> 8).toUInt8, w.toUInt8]

def wordOfBytes (bytes : Bytes) : UInt64 :=
  bytes.foldl (fun w b => w <<< 8 ||| b.toUInt64) 0

def toBytes (id : EntryId) : Bytes := wordBytes id.ledger ++ wordBytes id.entry

def ofBytes (bytes : Bytes) : Except String EntryId :=
  if bytes.length = 16 then .ok ⟨wordOfBytes (bytes.take 8), wordOfBytes (bytes.drop 8)⟩
  else .error s!"expected 16 bytes, got {bytes.length}"

instance : MessageId EntryId := ⟨text, toBytes, ofBytes⟩

/-- Identifiers are ordered by ledger first. -/
def le (a b : EntryId) : Bool :=
  a.ledger < b.ledger || (a.ledger = b.ledger && a.entry ≤ b.entry)

def sort (ids : List EntryId) : List EntryId := ids.mergeSort le

@[simp] theorem length_toBytes (id : EntryId) : id.toBytes.length = 16 := rfl

end EntryId
end TrackedDelivery.Memory
