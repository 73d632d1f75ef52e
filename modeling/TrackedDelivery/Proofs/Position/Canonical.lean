import TrackedDelivery.Proofs.Base64.Canonical
import TrackedDelivery.Proofs.Position.RoundTrip
/-!
# An identifier has one text

A position names a message by a text, and the text by which a message is named can be written in
one way only: anything else is refused, for its Base64 or for the number of its bytes.
-/
namespace TrackedDelivery.Position

variable {p : Position} {text : String} {id : Memory.EntryId}

theorem ofText_inj {s t : String} : Bytes.ofText s = Bytes.ofText t ↔ s = t := by
  constructor
  · intro h
    have hread := congrArg Bytes.toText? h
    rw [Bytes.toText?_ofText, Bytes.toText?_ofText] at hread
    exact Option.some.inj hread
  · rintro rfl
    rfl

/-- The text that `forMessage` writes has the bytes of the encoding. -/
theorem ofText_forMessage (id : Memory.EntryId) :
    Bytes.ofText (ofAscii (Base64.encode id.toBytes)) = Base64.encode id.toBytes :=
  ofText_ofAscii fun _ hb => toNat_lt_of_mem_encode hb

/-- An identifier is read from the text that is written for it and from no other. -/
theorem readMessageId_eq_ok_of_text (htext : p.messageId = some text) :
    p.readMessageId Memory.EntryId = .ok id ↔ text = ofAscii (Base64.encode id.toBytes) := by
  have hwritten : text = ofAscii (Base64.encode id.toBytes) ↔
      Base64.decode (Bytes.ofText text) = .ok id.toBytes := by
    rw [Base64.decode_eq_ok, ← ofText_inj, ofText_forMessage, eq_comm]
  simp only [hwritten, readMessageId, htext]
  cases Base64.decode (Bytes.ofText text) with
  | error fault => simp
  | ok bytes =>
      simp only [mapError_eq_ok, Except.ok.injEq]
      exact Memory.EntryId.ofBytes_eq_ok.trans eq_comm

theorem readMessageId_eq_ok :
    p.readMessageId Memory.EntryId = .ok id ↔ p = forMessage p.subscription id := by
  obtain ⟨subscription, messageId⟩ := p
  cases messageId with
  | none => simp [readMessageId, forMessage]
  | some text =>
      rw [readMessageId_eq_ok_of_text rfl]
      simp only [forMessage, mk.injEq, true_and, Option.some.injEq]
      rfl

/-- What becomes of a text: if it is the canonical text of so many bytes, it is accepted exactly
if these are sixteen; and any other text is no Base64. -/
theorem readMessageId_of_canonical (htext : p.messageId = some text) {n : ℕ}
    (h : Base64.Canonical n (Bytes.ofText text)) (hn : n ≠ 16) :
    p.readMessageId Memory.EntryId = .error (.messageId s!"expected 16 bytes, got {n}") := by
  obtain ⟨bytes, rfl, hdecode⟩ := Base64.canonical_iff.mp h
  have hid : (MessageId.ofBytes bytes : Except String Memory.EntryId)
      = .error s!"expected 16 bytes, got {bytes.length}" := if_neg hn
  simp only [readMessageId, htext, hdecode, hid]
  rfl

theorem readMessageId_of_not_canonical (htext : p.messageId = some text)
    (h : ∀ n, ¬ Base64.Canonical n (Bytes.ofText text)) :
    ∃ fault, p.readMessageId Memory.EntryId = .error (.base64 fault) := by
  cases hdecode : Base64.decode (Bytes.ofText text) with
  | error fault => exact ⟨fault, by simp only [readMessageId, htext, hdecode]⟩
  | ok bytes => exact absurd (Base64.canonical_iff.mpr ⟨bytes, rfl, hdecode⟩) (h _)

theorem exists_readMessageId_iff (htext : p.messageId = some text) :
    (∃ id, p.readMessageId Memory.EntryId = .ok id) ↔
      Base64.Canonical 16 (Bytes.ofText text) := by
  constructor
  · rintro ⟨id, h⟩
    rw [(readMessageId_eq_ok_of_text htext).mp h, ofText_forMessage]
    exact Base64.canonical_encode id.toBytes
  · intro h
    obtain ⟨bytes, hlen, hdecode⟩ := Base64.canonical_iff.mp h
    obtain ⟨id, hid⟩ : ∃ id, Memory.EntryId.ofBytes bytes = .ok id := ⟨_, if_pos hlen⟩
    refine ⟨id, (readMessageId_eq_ok_of_text htext).mpr (ofText_inj.mp ?_)⟩
    rw [ofText_forMessage, Memory.EntryId.ofBytes_eq_ok.mp hid, Base64.decode_eq_ok.mp hdecode]

/-- A position names a message exactly if it is the position that is made for this message under
its own subscription. So a message is named by one text under whatever subscription; a text names
a message exactly if it is the canonical Base64 of sixteen bytes; and every other text is refused,
either since it is the Base64 of another number of bytes or since it is no canonical Base64. -/
theorem readMessageId_canonical :
    (∀ (p : Position) (id : Memory.EntryId),
      p.readMessageId Memory.EntryId = .ok id ↔ p = forMessage p.subscription id) ∧
    (∀ (p q : Position) (id : Memory.EntryId), p.readMessageId Memory.EntryId = .ok id →
      q.readMessageId Memory.EntryId = .ok id → p.messageId = q.messageId) ∧
    ∀ (p : Position) (text : String), p.messageId = some text →
      ((∃ id, p.readMessageId Memory.EntryId = .ok id) ↔
        Base64.Canonical 16 (Bytes.ofText text)) ∧
      (∀ n, Base64.Canonical n (Bytes.ofText text) → n ≠ 16 →
        p.readMessageId Memory.EntryId =
          .error (.messageId s!"expected 16 bytes, got {n}")) ∧
      ((∀ n, ¬ Base64.Canonical n (Bytes.ofText text)) →
        ∃ fault, p.readMessageId Memory.EntryId = .error (.base64 fault)) := by
  refine ⟨fun p id => readMessageId_eq_ok, fun p q id hp hq => ?_, fun p text htext => ?_⟩
  · rw [readMessageId_eq_ok.mp hp, readMessageId_eq_ok.mp hq]
    rfl
  · exact ⟨exists_readMessageId_iff htext, fun n h hn => readMessageId_of_canonical htext h hn,
      readMessageId_of_not_canonical htext⟩

/-- Seventeen bytes have a text of the same length as sixteen, and are refused for their number.
The last symbol of sixteen bytes stands for two bits only, so that `x` is none of its forms. -/
theorem readMessageId_canonical_seven :
    let p := forMessage "s" (⟨0, 7⟩ : Memory.EntryId)
    let other : Position := ⟨"t", some "AAAAAAAAAAAAAAAAAAAABw=="⟩
    let longer : Position := ⟨"s", some "AAAAAAAAAAAAAAAAAAAABwA="⟩
    let stray : Position := ⟨"s", some "AAAAAAAAAAAAAAAAAAAABx=="⟩
    p.messageId = other.messageId ∧
      longer.readMessageId Memory.EntryId = .error (.messageId "expected 16 bytes, got 17") ∧
      ∃ fault, stray.readMessageId Memory.EntryId = .error (.base64 fault) := by
  have hlonger : Base64.decode (Bytes.ofText "AAAAAAAAAAAAAAAAAAAABwA=") =
      .ok (List.replicate 15 0 ++ [7, 0]) := by decide +kernel
  have hstray : Base64.decode (Bytes.ofText "AAAAAAAAAAAAAAAAAAAABx==") =
      .error (.invalidLastSymbol 120 21) := by decide +kernel
  refine ⟨readMessageId_canonical.2.1 _ _ ⟨0, 7⟩ (by decide +kernel) (by decide +kernel),
    (readMessageId_canonical.2.2 _ _ rfl).2.1 17
      (Base64.canonical_iff.mpr ⟨_, by decide, hlonger⟩) (by decide),
    (readMessageId_canonical.2.2 _ _ rfl).2.2 fun n h => ?_⟩
  obtain ⟨bytes, -, hdecode⟩ := Base64.canonical_iff.mp h
  rw [hstray] at hdecode
  cases hdecode

end TrackedDelivery.Position
