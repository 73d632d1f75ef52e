import TrackedDelivery.Proofs.Base64.RoundTrip
/-!
# Base64 is canonical

The texts that are written form a small grammar: whole quads of symbols, of which only the last
may end in padding, and then only if the symbol before the padding leaves its unused bits zero.
Main statement: reading accepts these texts and no others, so that every text that is read is the
one that is written for what was read.
-/
namespace TrackedDelivery.Base64

/-- A canonical text of so many bytes. -/
inductive Canonical : ℕ → Bytes → Prop
  | nil : Canonical 0 []
  | one {a b : ℕ} (ha : a < 64) (hb : b < 64) (unused : b % 16 = 0) :
      Canonical 1 [symbol a, symbol b, padding, padding]
  | two {a b c : ℕ} (ha : a < 64) (hb : b < 64) (hc : c < 64) (unused : c % 4 = 0) :
      Canonical 2 [symbol a, symbol b, symbol c, padding]
  | quad {a b c d n : ℕ} {rest : Bytes} (ha : a < 64) (hb : b < 64) (hc : c < 64) (hd : d < 64)
      (more : Canonical n rest) :
      Canonical (n + 3) (symbol a :: symbol b :: symbol c :: symbol d :: rest)

/-- What is written is canonical. -/
theorem canonical_encode (bytes : Bytes) : Canonical bytes.length (encode bytes) := by
  induction bytes using encode.induct with
  | case1 => exact .nil
  | case2 a =>
      obtain ⟨h₁, h₂, -, -⟩ := quad_lt a 0 0
      simp only [UInt8.toNat_zero, Nat.zero_div, Nat.add_zero] at h₂
      exact .one h₁ h₂ (by omega)
  | case3 a b =>
      obtain ⟨h₁, h₂, h₃, -⟩ := quad_lt a b 0
      simp only [UInt8.toNat_zero, Nat.zero_div, Nat.add_zero] at h₃
      exact .two h₁ h₂ h₃ (by omega)
  | case4 a b c rest ih =>
      obtain ⟨h₁, h₂, h₃, h₄⟩ := quad_lt a b c
      exact .quad h₁ h₂ h₃ h₄ ih

/-! ## The bytes of four values

Each byte is cut where two values meet. -/

theorem first_of_values {a b : ℕ} (ha : a < 64) (hb : b < 64) :
    (UInt8.ofNat (a * 4 + b / 16)).toNat / 4 = a ∧
      (UInt8.ofNat (a * 4 + b / 16)).toNat % 4 = b / 16 := by
  rw [UInt8.toNat_ofNat', Nat.mod_eq_of_lt (by omega)]
  omega

theorem second_of_values {b c : ℕ} (hc : c < 64) :
    (UInt8.ofNat (b % 16 * 16 + c / 4)).toNat / 16 = b % 16 ∧
      (UInt8.ofNat (b % 16 * 16 + c / 4)).toNat % 16 = c / 4 := by
  rw [UInt8.toNat_ofNat', Nat.mod_eq_of_lt (by omega)]
  omega

theorem third_of_values {c d : ℕ} (hd : d < 64) :
    (UInt8.ofNat (c % 4 * 64 + d)).toNat / 64 = c % 4 ∧
      (UInt8.ofNat (c % 4 * 64 + d)).toNat % 64 = d := by
  rw [UInt8.toNat_ofNat', Nat.mod_eq_of_lt (by omega)]
  omega

theorem encode_joinQuad {a b c d : ℕ} (ha : a < 64) (hb : b < 64) (hc : c < 64) (hd : d < 64)
    (rest : Bytes) : encode (joinQuad a b c d ++ rest) =
      symbol a :: symbol b :: symbol c :: symbol d :: encode rest := by
  obtain ⟨first, first'⟩ := first_of_values ha hb
  obtain ⟨second, second'⟩ := second_of_values (b := b) hc
  obtain ⟨third, third'⟩ := third_of_values (c := c) hd
  simp only [joinQuad, List.cons_append, List.nil_append, encode, first, first', second, second',
    third, third', Nat.div_add_mod']

theorem encode_joinQuad_two {a b c : ℕ} (ha : a < 64) (hb : b < 64) (hc : c < 64)
    (unused : c % 4 = 0) :
    encode ((joinQuad a b c 0).take 2) = [symbol a, symbol b, symbol c, padding] := by
  obtain ⟨first, first'⟩ := first_of_values ha hb
  obtain ⟨second, second'⟩ := second_of_values (b := b) hc
  have last : c / 4 * 4 = c := by omega
  simp only [joinQuad, List.take_succ_cons, List.take_zero, encode, first, first', second, second',
    Nat.div_add_mod', last]

theorem encode_joinQuad_one {a b : ℕ} (ha : a < 64) (hb : b < 64) (unused : b % 16 = 0) :
    encode ((joinQuad a b 0 0).take 1) = [symbol a, symbol b, padding, padding] := by
  obtain ⟨first, first'⟩ := first_of_values ha hb
  have last : b / 16 * 16 = b := by omega
  simp only [joinQuad, List.take_succ_cons, List.take_zero, encode, first, first', last]

/-- Every canonical text is written for some bytes. -/
theorem Canonical.exists_encode {n : ℕ} {text : Bytes} (h : Canonical n text) :
    ∃ bytes : Bytes, bytes.length = n ∧ encode bytes = text := by
  induction h with
  | nil => exact ⟨[], rfl, rfl⟩
  | one ha hb unused => exact ⟨_, rfl, encode_joinQuad_one ha hb unused⟩
  | two ha hb hc unused => exact ⟨_, rfl, encode_joinQuad_two ha hb hc unused⟩
  | quad ha hb hc hd more ih =>
      obtain ⟨bytes, rfl, rfl⟩ := ih
      exact ⟨_, by simp [joinQuad], encode_joinQuad ha hb hc hd bytes⟩

/-! ## What is accepted -/

theorem bind_eq_ok {ε α β : Type} {x : Except ε α} {f : α → Except ε β} {b : β} :
    x >>= f = .ok b ↔ ∃ a, x = .ok a ∧ f a = .ok b := by
  cases x <;> simp [bind, Except.bind]

/-- A byte has a value only as the symbol of this value. -/
theorem value?_eq_some {byte : UInt8} {v : ℕ} (h : value? byte = some v) :
    v < 64 ∧ symbol v = byte := by
  have hall : ∀ n < 256, ∀ v ∈ value? (UInt8.ofNat n), v < 64 ∧ symbol v = UInt8.ofNat n := by
    decide +kernel
  have := hall byte.toNat byte.toNat_lt v
  rw [UInt8.ofNat_toNat] at this
  exact this h

theorem readSymbol_eq_ok {offset v : ℕ} {byte : UInt8} (h : readSymbol offset byte = .ok v) :
    v < 64 ∧ symbol v = byte := by
  unfold readSymbol at h
  split at h
  case h_1 value hvalue =>
    cases h
    exact value?_eq_some hvalue
  case h_2 => cases h

/-- A last quad that can be read is its symbols and then its padding. -/
theorem readLastSymbols_eq_ok {start index : ℕ} {quad : Bytes} {values : List ℕ} {paddings : ℕ}
    (h : readLastSymbols start index quad = .ok (values, paddings)) :
    (∀ v ∈ values, v < 64) ∧ quad = values.map symbol ++ List.replicate paddings padding := by
  induction quad generalizing index values paddings with
  | nil => cases h; simp
  | cons byte rest ih =>
      rw [readLastSymbols] at h
      split at h
      · rename_i hpadding
        split at h
        · cases h
        · split at h
          · rename_i hall
            cases h
            have hrest : rest = List.replicate rest.length padding :=
              List.eq_replicate_of_mem fun b hb => by simpa using List.all_eq_true.mp hall b hb
            rw [Nat.add_comm, List.replicate_succ, ← hrest, hpadding]
            simp
          · cases h
      · obtain ⟨v, hsymbol, h⟩ := bind_eq_ok.mp h
        obtain ⟨⟨more, count⟩, hrest, h⟩ := bind_eq_ok.mp h
        cases h
        obtain ⟨hv, rfl⟩ := readSymbol_eq_ok hsymbol
        obtain ⟨hmore, heq⟩ := ih hrest
        exact ⟨by simpa [hv] using hmore, by rw [List.map_cons, List.cons_append, ← heq]⟩

theorem decodeLast_eq_ok {start : ℕ} {quad bytes : Bytes} (h : decodeLast start quad = .ok bytes) :
    encode bytes = quad := by
  obtain ⟨⟨values, paddings⟩, hread, h⟩ := bind_eq_ok.mp h
  obtain ⟨hvalues, rfl⟩ := readLastSymbols_eq_ok hread
  simp only at h
  split at h
  case h_1 a b c d =>
    cases h
    simp only [List.forall_mem_cons] at hvalues
    obtain ⟨ha, hb, hc, hd, -⟩ := hvalues
    exact encode_joinQuad ha hb hc hd []
  case h_2 a b c =>
    simp only [List.forall_mem_cons] at hvalues
    obtain ⟨ha, hb, hc, -⟩ := hvalues
    split at h
    · cases h
      exact encode_joinQuad_two ha hb hc ‹_›
    · cases h
  case h_3 a b =>
    simp only [List.forall_mem_cons] at hvalues
    obtain ⟨ha, hb, -⟩ := hvalues
    split at h
    · cases h
      exact encode_joinQuad_one ha hb ‹_›
    · cases h
  all_goals cases h

theorem decodeFrom_eq_ok {start : ℕ} {text bytes : Bytes} (h : decodeFrom start text = .ok bytes) :
    encode bytes = text := by
  induction start, text using decodeFrom.induct generalizing bytes with
  | case1 start a b c d e rest ih =>
      rw [decodeFrom] at h
      obtain ⟨va, ha, h⟩ := bind_eq_ok.mp h
      obtain ⟨vb, hb, h⟩ := bind_eq_ok.mp h
      obtain ⟨vc, hc, h⟩ := bind_eq_ok.mp h
      obtain ⟨vd, hd, h⟩ := bind_eq_ok.mp h
      obtain ⟨more, hmore, h⟩ := bind_eq_ok.mp h
      cases h
      obtain ⟨hva, rfl⟩ := readSymbol_eq_ok ha
      obtain ⟨hvb, rfl⟩ := readSymbol_eq_ok hb
      obtain ⟨hvc, rfl⟩ := readSymbol_eq_ok hc
      obtain ⟨hvd, rfl⟩ := readSymbol_eq_ok hd
      rw [encode_joinQuad hva hvb hvc hvd, ih hmore]
  | case2 start => cases h; rfl
  | case3 start quad hshort hnil =>
      rw [decodeFrom] at h
      · exact decodeLast_eq_ok h
      · exact hshort
      · exact hnil

/-- A text is read as some bytes only if it is what is written for them. -/
theorem decode_eq_ok {text bytes : Bytes} : decode text = .ok bytes ↔ encode bytes = text := by
  constructor
  · intro h
    rw [decode] at h
    split at h
    · cases h
    · exact decodeFrom_eq_ok h
  · rintro rfl
    exact decode_encode bytes

theorem canonical_iff {n : ℕ} {text : Bytes} :
    Canonical n text ↔ ∃ bytes : Bytes, bytes.length = n ∧ decode text = .ok bytes := by
  constructor
  · intro h
    obtain ⟨bytes, hn, rfl⟩ := h.exists_encode
    exact ⟨bytes, hn, decode_encode bytes⟩
  · rintro ⟨bytes, rfl, h⟩
    rw [← decode_eq_ok.mp h]
    exact canonical_encode bytes

end TrackedDelivery.Base64
