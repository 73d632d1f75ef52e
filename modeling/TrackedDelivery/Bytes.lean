/-!
# Bytes

Positions, keys and payloads are strings of bytes, kept as lists. A text stands for the bytes of
its UTF-8 encoding.
-/
namespace TrackedDelivery

abbrev Bytes := List UInt8

namespace Bytes

def ofText (s : String) : Bytes := s.toByteArray.data.toList

/-- The text that bytes encode, if they are valid UTF-8. -/
def toText? (bytes : Bytes) : Option String := String.fromUTF8? (ByteArray.mk bytes.toArray)

@[simp] theorem toText?_ofText (s : String) : toText? (ofText s) = some s := by
  have h : ByteArray.mk (ofText s).toArray = s.toByteArray := by simp [ofText]
  simp [toText?, String.fromUTF8?, h, s.isValidUTF8, String.fromUTF8]

@[simp] theorem ofText_empty : ofText "" = [] := rfl

@[simp] theorem ofText_append (s t : String) : ofText (s ++ t) = ofText s ++ ofText t := by
  simp [ofText]

/-- The encoding of a text is that of its characters one after another. -/
theorem ofText_ofList (cs : List Char) :
    ofText (String.ofList cs) = cs.flatMap String.utf8EncodeChar := by
  simp [ofText, List.utf8Encode]

end Bytes
end TrackedDelivery
