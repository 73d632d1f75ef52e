import TrackedDelivery.Proofs.Json.Grammar
/-!
# A string is read back

The scan of a string passes the escapes and the plain bytes of one character after another, and
the parts that it finds spell the encoding of the text. Main statement: however a text is spelled
between quotes, the token there is that text, and what follows the quotes follows the token. What
is written for a text is one of these spellings.
-/
namespace TrackedDelivery.Json
open String (utf8EncodeChar)

/-- An ASCII character is one byte, and all bytes of any other character are above ASCII. -/
theorem toNat_of_mem_utf8EncodeChar {c : Char} {b : UInt8} (h : b ∈ utf8EncodeChar c) :
    b.toNat = c.toNat ∨ 128 ≤ b.toNat := by
  simp only [utf8EncodeChar] at h
  change _ ∈ (if c.toNat ≤ _ then _ else _) at h
  split at h
  · simp only [List.mem_singleton] at h
    subst h
    left
    simp only [UInt8.toNat_ofNat']
    change c.toNat % _ = _
    omega
  · split at h
    · simp only [List.mem_cons, List.not_mem_nil, or_false] at h
      rcases h with rfl | rfl <;> right <;> simp only [UInt8.toNat_ofNat'] <;> omega
    · split at h
      · simp only [List.mem_cons, List.not_mem_nil, or_false] at h
        rcases h with rfl | rfl | rfl <;> right <;> simp only [UInt8.toNat_ofNat'] <;> omega
      · simp only [List.mem_cons, List.not_mem_nil, or_false] at h
        rcases h with rfl | rfl | rfl | rfl <;> right <;> simp only [UInt8.toNat_ofNat'] <;> omega

/-- Bytes that stand for themselves between quotes. -/
def IsPlain (b : UInt8) : Prop := b ≠ 34 ∧ b ≠ 92 ∧ ¬ b < 32

/-! ## One step of the scan -/

theorem scanParts_quote (parts : List Part) (rest : Bytes) :
    scanParts parts (34 :: rest) = (parts.reverse, .ok rest) := by
  rw [scanParts.eq_def]
  rfl

theorem scanParts_byte (parts : List Part) {b : UInt8} (h : IsPlain b) (rest : Bytes) :
    scanParts parts (b :: rest) = scanParts (.byte b :: parts) rest := by
  obtain ⟨hquote, hback, hctrl⟩ := h
  rw [scanParts.eq_def]
  simp only [hquote, hback, hctrl, if_false]

theorem scanParts_shortEscape (parts : List Part) {e b : UInt8} (hu : e ≠ 117)
    (he : shortEscape? e = some b) (rest : Bytes) :
    scanParts parts (92 :: e :: rest) = scanParts (.byte b :: parts) rest := by
  have hne : (92 : UInt8) ≠ 34 := by decide
  rw [scanParts.eq_def]
  simp only [hne, if_false, if_true, hu, he]

theorem scanParts_unit (parts : List Part) {h₁ h₂ h₃ h₄ : UInt8} {code : ℕ}
    (h : hexValues? h₁ h₂ h₃ h₄ = some code) (rest : Bytes) :
    scanParts parts (92 :: 117 :: h₁ :: h₂ :: h₃ :: h₄ :: rest)
      = scanParts (.unit code :: parts) rest := by
  have hne : (92 : UInt8) ≠ 34 := by decide
  rw [scanParts.eq_def]
  simp only [hne, if_false, if_true, h]

theorem partBytes_unit (ending : Option Fault) {code : ℕ} (hh : isHighSurrogate code = false)
    (hl : isLowSurrogate code = false) (more : List Part) :
    partBytes ending (.unit code :: more)
      = (partBytes ending more).map (utf8EncodeChar (Char.ofNat code) ++ ·) := by
  rw [partBytes.eq_def]
  simp only [hh, hl, Bool.false_eq_true, if_false]

/-! ## One character -/

theorem scanParts_plain (parts : List Part) {bytes : Bytes} (h : ∀ b ∈ bytes, IsPlain b)
    (rest : Bytes) :
    scanParts parts (bytes ++ rest) = scanParts ((bytes.map .byte).reverse ++ parts) rest := by
  induction bytes generalizing parts with
  | nil => rfl
  | cons b bytes ih =>
      rw [List.cons_append, scanParts_byte parts (h b (List.mem_cons_self ..)),
        ih _ fun b hb => h b (List.mem_cons_of_mem _ hb)]
      simp

theorem partBytes_plain (ending : Option Fault) (bytes : Bytes) (more : List Part) :
    partBytes ending (bytes.map .byte ++ more) = (partBytes ending more).map (bytes ++ ·) := by
  induction bytes with
  | nil => cases h : partBytes ending more <;> simp [h, Except.map]
  | cons b bytes ih =>
      rw [List.map_cons, List.cons_append, partBytes, ih]
      cases partBytes ending more <;> rfl

/-- What a scan makes of the escape of one character: parts that spell its encoding. -/
structure Spells (c : Char) (escaped : Bytes) (parts : List Part) : Prop where
  scan : ∀ found rest, scanParts found (escaped ++ rest) = scanParts (parts.reverse ++ found) rest
  bytes : ∀ ending more,
    partBytes ending (parts ++ more) = (partBytes ending more).map (utf8EncodeChar c ++ ·)

/-- An escape by one letter. -/
theorem Spells.short {c : Char} {e b : UInt8} (hu : e ≠ 117) (he : shortEscape? e = some b)
    (hc : utf8EncodeChar c = [b]) : Spells c [92, e] [.byte b] where
  scan found rest := scanParts_shortEscape found hu he rest
  bytes ending more := by
    rw [hc]
    exact partBytes_plain ending [b] more

/-- A character that needs no escape. -/
theorem Spells.plain {c : Char} (hquote : c ≠ '"') (hback : c ≠ '\\') (hctrl : ¬ c.toNat < 0x20) :
    Spells c (utf8EncodeChar c) ((utf8EncodeChar c).map .byte) where
  scan found rest := by
    refine scanParts_plain found (fun b hb => ?_) rest
    have hne : ∀ d : Char, c ≠ d → c.toNat ≠ d.toNat := fun d hd he => hd (Char.toNat_inj.mp he)
    have h₁ : c.toNat ≠ 34 := hne '"' hquote
    have h₂ : c.toNat ≠ 92 := hne '\\' hback
    have hb := toNat_of_mem_utf8EncodeChar hb
    refine ⟨?_, ?_, ?_⟩
    · rintro rfl
      simp only [UInt8.reduceToNat] at hb
      omega
    · rintro rfl
      simp only [UInt8.reduceToNat] at hb
      omega
    · intro hlt
      have hlt : b.toNat < 32 := hlt
      omega
  bytes ending more := partBytes_plain ending _ more

theorem hexValue?_of_digit {value : ℕ} {b : UInt8} (h : HexDigit value b) :
    hexValue? b = some value := by
  unfold HexDigit at h
  unfold hexValue?
  simp only [Bool.and_eq_true, decide_eq_true_eq]
  rcases h with ⟨hvalue, hb⟩ | ⟨hlow, hhigh, hb | hb⟩
  · rw [if_pos (by omega), hb]
    exact congrArg some (by omega)
  · rw [if_neg (by omega), if_pos (by omega), hb]
    exact congrArg some (by omega)
  · rw [if_neg (by omega), if_neg (by omega), if_pos (by omega), hb]
    exact congrArg some (by omega)

theorem scanParts_unitSpelled (parts : List Part) {code : ℕ} {digits : Bytes}
    (h : UnitSpelled code digits) (rest : Bytes) :
    scanParts parts (92 :: 117 :: digits ++ rest) = scanParts (.unit code :: parts) rest := by
  obtain ⟨d₁, d₂, d₃, d₄⟩ := h
  refine scanParts_unit parts ?_ rest
  simp only [hexValues?, hexValue?_of_digit d₁, hexValue?_of_digit d₂, hexValue?_of_digit d₃,
    hexValue?_of_digit d₄]
  rfl

/-- A character that is escaped by its number. -/
theorem Spells.unit {c : Char} {digits : Bytes} (h : UnitSpelled c.toNat digits) :
    Spells c (92 :: 117 :: digits) [.unit c.toNat] where
  scan found rest := scanParts_unitSpelled found h rest
  bytes ending more := by
    have hvalid : c.toNat < 0xD800 ∨ 0xDFFF < c.toNat ∧ c.toNat < 0x110000 := c.valid
    have hh : isHighSurrogate c.toNat = false := by simp [isHighSurrogate]; omega
    have hl : isLowSurrogate c.toNat = false := by simp [isLowSurrogate]; omega
    rw [List.singleton_append, partBytes_unit ending hh hl, Char.ofNat_toNat]

/-- A character that is escaped by the numbers of two surrogates. -/
theorem Spells.pair {c : Char} {high low : ℕ} {digits digits' : Bytes}
    (hhigh : isHighSurrogate high = true) (hlow : isLowSurrogate low = true)
    (hcode : c.toNat = joinSurrogates high low) (h : UnitSpelled high digits)
    (h' : UnitSpelled low digits') :
    Spells c (92 :: 117 :: digits ++ 92 :: 117 :: digits') [.unit high, .unit low] where
  scan found rest := by
    rw [List.append_assoc, scanParts_unitSpelled found h, scanParts_unitSpelled _ h']
    rfl
  bytes ending more := by
    have hc : Char.ofNat (joinSurrogates high low) = c := by rw [← hcode, Char.ofNat_toNat]
    change partBytes ending (.unit high :: .unit low :: more) = _
    rw [partBytes.eq_def]
    simp only [hhigh, hlow, if_true, hc]

/-- However a character is spelled, the scan finds parts that spell it. -/
theorem exists_spells {c : Char} {bytes : Bytes} (h : CharSpelled c bytes) :
    ∃ parts, Spells c bytes parts := by
  cases h with
  | plain quote backslash control => exact ⟨_, .plain quote backslash control⟩
  | @short letter escape =>
      simp only [shortEscapes, List.mem_cons, Prod.mk.injEq, List.not_mem_nil, or_false] at escape
      rcases escape with ⟨rfl, rfl⟩ | ⟨rfl, rfl⟩ | ⟨rfl, rfl⟩ | ⟨rfl, rfl⟩ | ⟨rfl, rfl⟩ |
        ⟨rfl, rfl⟩ | ⟨rfl, rfl⟩ | ⟨rfl, rfl⟩
      all_goals exact ⟨_, .short (by decide) rfl rfl⟩
  | unit spelled => exact ⟨_, .unit spelled⟩
  | pair isHigh isLow code spelled spelled' =>
      refine ⟨_, .pair ?_ ?_ code spelled spelled'⟩
      · simpa [isHighSurrogate] using isHigh
      · simpa [isLowSurrogate] using isLow

/-! ## A whole text -/

/-- The parts of a text between its quotes. -/
theorem exists_scanParts {cs : List Char} {bytes : Bytes} (h : CharsSpelled cs bytes) :
    ∃ parts : List Part,
      (∀ found rest, scanParts found (bytes ++ 34 :: rest) = (found.reverse ++ parts, .ok rest)) ∧
      partBytes none parts = .ok (cs.flatMap utf8EncodeChar) := by
  induction h with
  | nil =>
      refine ⟨[], fun found rest => ?_, rfl⟩
      rw [List.nil_append, scanParts_quote, List.append_nil]
  | cons first _ ih =>
      obtain ⟨more, hscan, hbytes⟩ := ih
      obtain ⟨parts, hc⟩ := exists_spells first
      refine ⟨parts ++ more, fun found rest => ?_, ?_⟩
      · rw [List.append_assoc, hc.scan, hscan]
        simp
      · rw [hc.bytes, hbytes]
        rfl

/-- The token at a text between quotes. -/
theorem tokens_text_append {s : String} {bytes : Bytes} (h : CharsSpelled s.toList bytes)
    (rest : Bytes) :
    tokens (34 :: (bytes ++ 34 :: rest)) = .text (.ok s) (.ok ()) :: tokens rest := by
  obtain ⟨parts, hscan, hbytes⟩ := exists_scanParts h
  have hcontent : content parts none = .ok s := by
    rw [content, hbytes, ← Bytes.ofText_ofList, String.ofList_toList]
    simp [bind, Except.bind, decodeUtf8]
  have htoken : tokenAt 34 (bytes ++ 34 :: rest) = (.text (.ok s) (.ok ()), rest) := by
    change textToken _ = _
    rw [textToken, hscan]
    simp only [List.reverse_nil, List.nil_append, hcontent]
  rw [tokens_cons _ (by decide), htoken]

/-! ## What is written -/

theorem unitSpelled_control {n : ℕ} (h : n < 0x20) :
    UnitSpelled n
      (['0', '0', hexDigit (n / 16), hexDigit (n % 16)].flatMap utf8EncodeChar) := by
  have hdigit : ∀ v < 16, ∃ b, utf8EncodeChar (hexDigit v) = [b] ∧ HexDigit v b := by
    intro v hv
    have all : ∀ v < 16, utf8EncodeChar (hexDigit v) = [(hexDigit v).toNat.toUInt8] ∧
        (v < 10 ∧ (hexDigit v).toNat.toUInt8.toNat = 48 + v ∨
          10 ≤ v ∧ (hexDigit v).toNat.toUInt8.toNat = 87 + v) := by decide
    obtain ⟨hb, hvalue⟩ := all v hv
    exact ⟨_, hb, hvalue.imp_right fun hlarge => ⟨hlarge.1, hv, .inr hlarge.2⟩⟩
  obtain ⟨a, ha, da⟩ := hdigit (n / 16) (by omega)
  obtain ⟨b, hb, db⟩ := hdigit (n % 16) (by omega)
  have hzero : HexDigit 0 48 := .inl ⟨by decide, rfl⟩
  have hspelled := UnitSpelled.mk hzero hzero da db
  have hcode : ((0 * 16 + 0) * 16 + n / 16) * 16 + n % 16 = n := by omega
  rw [hcode] at hspelled
  simp only [List.flatMap_cons, List.flatMap_nil, ha, hb]
  exact hspelled

theorem spelled_escapeChar (c : Char) :
    CharSpelled c ((escapeChar c).flatMap utf8EncodeChar) := by
  unfold escapeChar
  -- seven characters are escaped by a letter
  iterate 7
    split
    · subst_vars
      exact .short (by simp [shortEscapes])
  split
  · rename_i hctrl
    exact .unit (unitSpelled_control hctrl)
  · rename_i hquote hback _ _ _ _ _ hctrl
    simpa using CharSpelled.plain hquote hback hctrl

theorem spelled_escape (cs : List Char) :
    CharsSpelled cs ((cs.flatMap escapeChar).flatMap utf8EncodeChar) := by
  induction cs with
  | nil => exact .nil
  | cons c cs ih =>
      rw [List.flatMap_cons, List.flatMap_append]
      exact .cons (spelled_escapeChar c) ih

/-- What is written for a text is a spelling of it. -/
theorem spelled_quote (s : String) : (Lexeme.text s).Spelled (Bytes.ofText (quote s)) := by
  have hq : Bytes.ofText (quote s) =
      34 :: ((s.toList.flatMap escapeChar).flatMap utf8EncodeChar ++ [34]) := by
    rw [quote, Bytes.ofText_ofList, List.cons_append, List.flatMap_cons, List.flatMap_append]
    rfl
  rw [hq]
  exact .text (spelled_escape s.toList)

end TrackedDelivery.Json
