import TrackedDelivery.Memory.Id
import Mathlib.Algebra.Group.Nat.Defs
import Mathlib.Data.List.Basic
/-!
# Identifiers are told apart

The text of an identifier names it: the colon cannot stand among the digits of the ledger, so the
two numerals are found again. The bytes name it too, since reading them gives the two words back.
-/
namespace TrackedDelivery.Memory.EntryId

theorem toList_text (id : EntryId) :
    id.text.toList = Nat.toDigits 10 id.ledger.toNat ++ ':' :: Nat.toDigits 10 id.entry.toNat := by
  simp [text, toString, Nat.repr_eq_ofList_toDigits]

theorem colon_notMem_toDigits (n : ℕ) : ':' ∉ Nat.toDigits 10 n := by
  intro h
  have hd : ':'.isDigit = true := Nat.isDigit_of_mem_toDigits (by decide) (by decide) h
  exact absurd hd (by decide)

theorem toDigits_injective {m n : ℕ} (h : Nat.toDigits 10 m = Nat.toDigits 10 n) : m = n := by
  simpa using congrArg (Nat.ofDigitChars 10 · 0) h

/-- Two identifiers of one text are the same. -/
theorem text_injective {a b : EntryId} (h : a.text = b.text) : a = b := by
  have hl := congrArg String.toList h
  rw [toList_text, toList_text, List.append_cons_inj_of_notMem (colon_notMem_toDigits _)
    (colon_notMem_toDigits _)] at hl
  obtain ⟨ledger, -, entry⟩ := hl
  cases a
  cases b
  exact congrArg₂ EntryId.mk (UInt64.toNat_inj.mp (toDigits_injective ledger))
    (UInt64.toNat_inj.mp (toDigits_injective entry))

@[simp] theorem text_inj {a b : EntryId} : a.text = b.text ↔ a = b :=
  ⟨text_injective, congrArg text⟩

/-! ## The two words in bytes -/

/-- The number that bytes spell in base 256, after the digits of `n`. -/
def digitsValue (n : ℕ) (bytes : Bytes) : ℕ := bytes.foldl (fun n b => 256 * n + b.toNat) n

/-- A word whose highest byte is free takes one more byte at its low end. -/
theorem toNat_shiftLeft_or {w : UInt64} (b : UInt8) (h : w.toNat < 2 ^ 56) :
    (w <<< 8 ||| b.toUInt64).toNat = 256 * w.toNat + b.toNat := by
  have hb : b.toNat < 2 ^ 8 := b.toNat_lt
  have hs : (w <<< 8).toNat = w.toNat <<< 8 := by
    rw [UInt64.toNat_shiftLeft, Nat.mod_eq_of_lt]
    · rfl
    · change w.toNat <<< 8 < 2 ^ 64
      rw [Nat.shiftLeft_eq]
      omega
  rw [UInt64.toNat_or, hs, UInt8.toNat_toUInt64, ← Nat.shiftLeft_add_eq_or_of_lt hb,
    Nat.shiftLeft_eq]
  omega

/-- Bytes that fit after a word are read without loss. -/
theorem toNat_foldl_bytes {w : UInt64} {bytes : Bytes} {k : ℕ} (hk : k + bytes.length ≤ 8)
    (hw : w.toNat < 256 ^ k) :
    (bytes.foldl (fun (w : UInt64) b => w <<< 8 ||| b.toUInt64) w).toNat
      = digitsValue w.toNat bytes := by
  induction bytes generalizing w k with
  | nil => rfl
  | cons b bytes ih =>
      simp only [List.length_cons] at hk
      have hfree : w.toNat < 2 ^ 56 := by
        have hpow : 256 ^ k ≤ 256 ^ 7 := Nat.pow_le_pow_right (by decide) (by omega)
        omega
      have hb : b.toNat < 256 := b.toNat_lt
      have hstep := toNat_shiftLeft_or b hfree
      rw [List.foldl_cons, ih (k := k + 1) (by omega) (by rw [hstep, Nat.pow_succ]; omega), hstep]
      rfl

theorem toNat_wordOfBytes {bytes : Bytes} (h : bytes.length ≤ 8) :
    (wordOfBytes bytes).toNat = digitsValue 0 bytes :=
  toNat_foldl_bytes (w := 0) (k := 0) (by omega) (by decide)

@[simp] theorem length_wordBytes (w : UInt64) : (wordBytes w).length = 8 := rfl

@[simp] theorem wordOfBytes_wordBytes (w : UInt64) : wordOfBytes (wordBytes w) = w := by
  have hw : w.toNat < 2 ^ 64 := w.toNat_lt
  apply UInt64.toNat_inj.mp
  rw [toNat_wordOfBytes (Nat.le_of_eq (length_wordBytes w))]
  simp only [digitsValue, wordBytes, List.foldl_cons, List.foldl_nil, UInt64.toNat_toUInt8,
    UInt64.toNat_shiftRight, UInt64.reduceToNat, Nat.reduceMod, Nat.shiftRight_eq_div_pow]
  omega

/-- Among byte strings of one length, the number that is spelled determines the bytes. -/
theorem digitsValue_inj {m n : ℕ} {xs ys : Bytes} (hlen : xs.length = ys.length)
    (h : digitsValue m xs = digitsValue n ys) : m = n ∧ xs = ys := by
  induction xs generalizing m n ys with
  | nil =>
      cases ys with
      | nil => exact ⟨h, rfl⟩
      | cons y ys => cases hlen
  | cons x xs ih =>
      cases ys with
      | nil => cases hlen
      | cons y ys =>
          obtain ⟨hmn, rfl⟩ := ih (Nat.succ.inj hlen) h
          have hmn : 256 * m + x.toNat = 256 * n + y.toNat := hmn
          have hx := x.toNat_lt
          have hy := y.toNat_lt
          have hxy : x = y := UInt8.toNat_inj.mp (by omega)
          exact ⟨by omega, by rw [hxy]⟩

theorem wordBytes_wordOfBytes {bytes : Bytes} (h : bytes.length = 8) :
    wordBytes (wordOfBytes bytes) = bytes := by
  have hvalue : digitsValue 0 (wordBytes (wordOfBytes bytes)) = digitsValue 0 bytes := by
    rw [← toNat_wordOfBytes (Nat.le_of_eq h), ← toNat_wordOfBytes (Nat.le_of_eq rfl),
      wordOfBytes_wordBytes]
  exact (digitsValue_inj ((length_wordBytes _).trans h.symm) hvalue).2

@[simp] theorem ofBytes_toBytes (id : EntryId) : ofBytes id.toBytes = .ok id := by
  have ht : id.toBytes.take 8 = wordBytes id.ledger := rfl
  have hd : id.toBytes.drop 8 = wordBytes id.entry := rfl
  simp [ofBytes, ht, hd]

/-- Sixteen bytes are those of one identifier, and no other bytes are. -/
theorem ofBytes_eq_ok {bytes : Bytes} {id : EntryId} :
    ofBytes bytes = .ok id ↔ id.toBytes = bytes := by
  constructor
  · intro h
    unfold ofBytes at h
    split at h
    case isTrue hlen =>
      cases h
      have ht : wordBytes (wordOfBytes (bytes.take 8)) = bytes.take 8 :=
        wordBytes_wordOfBytes (by simp [hlen])
      have hd : wordBytes (wordOfBytes (bytes.drop 8)) = bytes.drop 8 :=
        wordBytes_wordOfBytes (by simp [hlen])
      rw [toBytes, ht, hd, List.take_append_drop]
    case isFalse => cases h
  · rintro rfl
    exact ofBytes_toBytes id

/-- The bytes name the identifier, since it is read back from them. -/
@[simp] theorem toBytes_inj {a b : EntryId} : a.toBytes = b.toBytes ↔ a = b := by
  refine ⟨fun h => ?_, congrArg toBytes⟩
  have hread : ofBytes a.toBytes = .ok b := ofBytes_eq_ok.mpr h.symm
  rw [ofBytes_toBytes] at hread
  exact Except.ok.inj hread

theorem exists_ofBytes_iff {bytes : Bytes} :
    (∃ id, ofBytes bytes = .ok id) ↔ bytes.length = 16 := by
  constructor
  · rintro ⟨id, h⟩
    rw [← ofBytes_eq_ok.mp h, length_toBytes]
  · intro h
    exact ⟨_, if_pos h⟩

end TrackedDelivery.Memory.EntryId
