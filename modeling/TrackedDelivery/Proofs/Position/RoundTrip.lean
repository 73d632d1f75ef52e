import TrackedDelivery.Proofs.Base64.RoundTrip
import TrackedDelivery.Proofs.Memory.Identifier
import TrackedDelivery.Proofs.Position.Documents
/-!
# Positions are read back

What is written for a position is a text of an object that denotes it. So reading gives the
position again, whatever characters the name of the subscription has, and the position of a
message gives the message's identifier.
-/
namespace TrackedDelivery.Position

/-- Every position is read back from what is written for it. -/
@[simp] theorem decode_encode (p : Position) : decode p.encode = .ok p :=
  (decode_eq_ok (written_encode p)).mpr (denotes_document p)

/-! ## The identifier in a position -/

theorem ofText_ofAscii {bytes : Bytes} (h : ∀ b ∈ bytes, b.toNat < 128) :
    Bytes.ofText (ofAscii bytes) = bytes := by
  have hbyte : ∀ n < 128, String.utf8EncodeChar (Char.ofNat n) = [UInt8.ofNat n] := by decide
  rw [ofAscii, Bytes.ofText_ofList]
  induction bytes with
  | nil => rfl
  | cons b bytes ih =>
      rw [List.map_cons, List.flatMap_cons, hbyte _ (h b (List.mem_cons_self ..)),
        ih fun b hb => h b (List.mem_cons_of_mem _ hb), UInt8.ofNat_toNat]
      rfl

/-- Base64 is written in ASCII. -/
theorem toNat_lt_of_mem_encode {bytes : Bytes} {b : UInt8} (h : b ∈ Base64.encode bytes) :
    b.toNat < 128 := by
  have hsymbol : ∀ v, (Base64.symbol v).toNat < 128 := by
    intro v
    simp only [Base64.symbol]
    split
    · simp only [UInt8.toNat_ofNat']
      omega
    split
    · simp only [UInt8.toNat_ofNat']
      omega
    split
    · simp only [UInt8.toNat_ofNat']
      omega
    split <;> decide
  have hpadding : Base64.padding.toNat < 128 := by decide
  fun_induction Base64.encode bytes with
  | case1 => cases h
  | case2 | case3 =>
      simp only [List.mem_cons, List.not_mem_nil, or_false] at h
      rcases h with rfl | rfl | rfl | rfl <;> first | exact hsymbol _ | exact hpadding
  | case4 a b c rest ih =>
      simp only [List.mem_cons] at h
      rcases h with rfl | rfl | rfl | rfl | h
      · exact hsymbol _
      · exact hsymbol _
      · exact hsymbol _
      · exact hsymbol _
      · exact ih h

/-- The position of a message names the message. -/
@[simp] theorem readMessageId_forMessage (subscription : String) (id : Memory.EntryId) :
    (forMessage subscription id).readMessageId Memory.EntryId = .ok id := by
  have hb : Base64.decode (Bytes.ofText (ofAscii (Base64.encode (MessageId.toBytes id))))
      = .ok (MessageId.toBytes id) := by
    rw [ofText_ofAscii fun b hb => toNat_lt_of_mem_encode hb, Base64.decode_encode]
  have hid : MessageId.ofBytes (MessageId.toBytes id) = .ok id := Memory.EntryId.ofBytes_toBytes id
  simp only [readMessageId, forMessage, hb, hid]
  rfl

@[simp] theorem readMessageId_ofSubscription (ι : Type) [MessageId ι] (subscription : String) :
    (ofSubscription subscription).readMessageId ι = .error .missingMessageId :=
  rfl

/-- Writing a position loses nothing. Whatever characters its texts have, it is read back as it
was; the position of a message still names the subscription and the message; and the position of
no message still names the subscription and lacks an identifier, of whatever kind. -/
theorem encode_faithful :
    (∀ p : Position, decode p.encode = .ok p) ∧
    (∀ (name : String) (id : Memory.EntryId), ∃ p, decode (forMessage name id).encode = .ok p ∧
      p.subscription = name ∧ p.readMessageId Memory.EntryId = .ok id) ∧
    ∀ (ι : Type) [MessageId ι] (name : String), ∃ p,
      decode (ofSubscription name).encode = .ok p ∧ p.subscription = name ∧
        p.readMessageId ι = .error .missingMessageId :=
  ⟨decode_encode,
    fun name id => ⟨_, decode_encode _, rfl, readMessageId_forMessage name id⟩,
    fun ι _ name => ⟨_, decode_encode _, rfl, readMessageId_ofSubscription ι name⟩⟩

end TrackedDelivery.Position
