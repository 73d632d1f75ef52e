import TrackedDelivery.Proofs.Json.Quote
import Mathlib.Data.List.Chain
/-!
# Lexemes are found again

The tokens of a text are those of its lexemes, whatever blanks are around them and however they
are spelled. Only a number could be taken for longer than it is, and what follows a number in a
value does not go on with it.
-/
namespace TrackedDelivery.Json

/-! ## Numerals -/

/-- What follows does not go on with a run of digits. -/
def NoDigit (rest : Bytes) : Prop := ∀ b ∈ rest.head?, isDigit b = false

/-- What follows does not go on with a numeral. -/
def Delimits (rest : Bytes) : Prop :=
  ∀ b ∈ rest.head?, isDigit b = false ∧ b ≠ 46 ∧ b ≠ 69 ∧ b ≠ 101

theorem toNat_digitByte {c : Char} (h : c.isDigit = true) :
    (UInt8.ofNat c.toNat).toNat = c.toNat ∧ 48 ≤ c.toNat ∧ c.toNat ≤ 57 := by
  have hc : 48 ≤ c.toNat ∧ c.toNat ≤ 57 := by
    simpa [Char.isDigit, UInt32.le_iff_toNat_le] using h
  refine ⟨?_, hc⟩
  rw [UInt8.toNat_ofNat']
  exact Nat.mod_eq_of_lt (by omega)

theorem isDigit_digitByte {c : Char} (h : c.isDigit = true) :
    isDigit (UInt8.ofNat c.toNat) = true := by
  obtain ⟨hbyte, hlow, hhigh⟩ := toNat_digitByte h
  simp only [isDigit, Bool.and_eq_true, decide_eq_true_eq, UInt8.le_iff_toNat_le, hbyte]
  exact ⟨hlow, hhigh⟩

theorem toChar_digitByte {c : Char} (h : c.isDigit = true) :
    toChar (UInt8.ofNat c.toNat) = c := by
  rw [toChar, (toNat_digitByte h).1, Char.ofNat_toNat]

/-- A digit is no sign. -/
theorem ne_sign {c : Char} (h : c.isDigit = true) :
    UInt8.ofNat c.toNat ≠ 43 ∧ UInt8.ofNat c.toNat ≠ 45 := by
  obtain ⟨hbyte, hlow, -⟩ := toNat_digitByte h
  constructor
  all_goals
    intro he
    have hsame := congrArg UInt8.toNat he
    rw [hbyte] at hsame
    simp only [UInt8.reduceToNat] at hsame
    omega

theorem digitBytes_eq_cons {digits : List Char} (h : IsDigits digits) :
    ∃ c tail, digitBytes digits = UInt8.ofNat c.toNat :: tail ∧ digits.head? = some c ∧
      c.isDigit = true := by
  obtain ⟨hne, hdigits⟩ := h
  cases digits with
  | nil => exact absurd rfl hne
  | cons c cs => exact ⟨c, digitBytes cs, rfl, rfl, hdigits c (List.mem_cons_self ..)⟩

theorem scanDigits_digitBytes {digits : List Char} (h : IsDigits digits) {rest : Bytes}
    (hrest : NoDigit rest) : scanDigits (digitBytes digits ++ rest) = .ok (digits, rest) := by
  obtain ⟨hne, hdigits⟩ := h
  cases digits with
  | nil => exact absurd rfl hne
  | cons c cs =>
      obtain ⟨hc, hcs⟩ := List.forall_mem_cons.mp hdigits
      have hall : ∀ b ∈ digitBytes cs, isDigit b = true := by
        intro b hb
        obtain ⟨d, hd, rfl⟩ := List.mem_map.mp hb
        exact isDigit_digitByte (hcs d hd)
      have hchars : (digitBytes cs).map toChar = cs := by
        rw [digitBytes, List.map_map]
        exact (List.map_congr_left fun d hd => toChar_digitByte (hcs d hd)).trans (List.map_id' cs)
      have hstop : rest.takeWhile isDigit = [] ∧ rest.dropWhile isDigit = rest := by
        cases rest with
        | nil => exact ⟨rfl, rfl⟩
        | cons b rest => simp [hrest b rfl]
      change scanDigits (UInt8.ofNat c.toNat :: (digitBytes cs ++ rest)) = _
      rw [scanDigits, if_pos (isDigit_digitByte hc), List.takeWhile_append_of_pos hall,
        List.dropWhile_append_of_pos hall, hstop.1, hstop.2, List.append_nil, hchars,
        toChar_digitByte hc]

theorem scanWhole_digitBytes {digits : List Char} (h : IsDigits digits)
    (hzero : digits.head? = some '0' → digits = ['0']) {rest : Bytes} (hrest : NoDigit rest) :
    scanWhole (digitBytes digits ++ rest) = .ok (digits, rest) := by
  by_cases hd : digits = ['0']
  · subst hd
    change scanWhole (48 :: rest) = _
    cases rest with
    | nil => rfl
    | cons b rest =>
        have hb : isDigit b = false := hrest b rfl
        simp [scanWhole, hb]
  · rw [scanWhole, scanDigits_digitBytes h hrest]
    intro b tail heq
    obtain ⟨c, cs, hbytes, hhead, hc⟩ := digitBytes_eq_cons h
    rw [hbytes, List.cons_append, List.cons.injEq] at heq
    have hcode : c.toNat = 48 := by rw [← (toNat_digitByte hc).1, heq.1]; rfl
    exact hd (hzero (hhead.trans (congrArg some (Char.toNat_inj.mp hcode))))

theorem scanFraction_spelled {digits : List Char} {bytes rest : Bytes}
    (h : FractionSpelled digits bytes) (hrest : ∀ b ∈ rest.head?, isDigit b = false ∧ b ≠ 46) :
    scanFraction (bytes ++ rest) = .ok (digits, rest) := by
  cases h with
  | absent =>
      rw [List.nil_append, scanFraction]
      intro tail htail
      subst htail
      exact (hrest 46 rfl).2 rfl
  | present isDigits => exact scanDigits_digitBytes isDigits fun b hb => (hrest b hb).1

theorem scanExponent_spelled {exponent : Option (Bool × List Char)} {bytes rest : Bytes}
    (h : ExponentSpelled exponent bytes) (hrest : Delimits rest) :
    scanExponent (bytes ++ rest) = .ok (exponent, rest) := by
  cases h with
  | absent =>
      rw [List.nil_append]
      cases rest with
      | nil => rfl
      | cons b rest =>
          obtain ⟨-, -, hupper, hlower⟩ := hrest b rfl
          simp [scanExponent, hupper, hlower]
  | present isLetter isSign isDigits =>
      have hdigits := scanDigits_digitBytes isDigits fun b hb => (hrest b hb).1
      obtain ⟨c, tail, hbytes, -, hc⟩ := digitBytes_eq_cons isDigits
      have hunsigned := ne_sign hc
      rw [List.cons_append, List.append_assoc]
      cases isSign with
      | minus | plus => rcases isLetter with rfl | rfl <;> simp [scanExponent, hdigits]
      | absent =>
          rw [hbytes] at hdigits ⊢
          rcases isLetter with rfl | rfl <;> simp_all [scanExponent]

theorem ExponentSpelled.head {exponent : Option (Bool × List Char)} {bytes rest : Bytes}
    (h : ExponentSpelled exponent bytes) (hrest : Delimits rest) :
    ∀ b ∈ (bytes ++ rest).head?, isDigit b = false ∧ b ≠ 46 := by
  cases h with
  | absent => exact fun b hb => ⟨(hrest b hb).1, (hrest b hb).2.1⟩
  | present isLetter =>
      intro b hb
      cases hb
      rcases isLetter with rfl | rfl <;> decide

theorem FractionSpelled.head {digits : List Char} {bytes rest : Bytes}
    (h : FractionSpelled digits bytes) (hrest : NoDigit rest) : NoDigit (bytes ++ rest) := by
  cases h with
  | absent => exact hrest
  | present =>
      intro b hb
      cases hb
      decide

/-- A sign is scanned apart from the digits that follow it. -/
theorem scanNumeral_signed (negative : Bool) {c : UInt8} (hc : c ≠ 45) (tail : Bytes) :
    scanNumeral ((if negative then [45] else []) ++ c :: tail) = (do
      let (whole, rest) ← scanWhole (c :: tail)
      let (fraction, rest) ← scanFraction rest
      let (exponent, rest) ← scanExponent rest
      return (⟨negative, whole, fraction, exponent⟩, rest)) := by
  cases negative with
  | true => rfl
  | false => simp [scanNumeral, hc]

/-- A numeral is scanned to its end. -/
theorem scanNumeral_spelled {n : Numeral} {bytes rest : Bytes} (h : NumeralSpelled n bytes)
    (hrest : Delimits rest) : scanNumeral (bytes ++ rest) = .ok (n, rest) := by
  cases h with
  | @mk fraction exponent whole zero isFraction isExponent =>
      have hexponent := scanExponent_spelled isExponent hrest
      have hfraction := scanFraction_spelled isFraction (isExponent.head hrest)
      have hwhole := scanWhole_digitBytes whole zero
        (isFraction.head fun b hb => (isExponent.head hrest b hb).1)
      obtain ⟨c, tail, hbytes, -, hc⟩ := digitBytes_eq_cons whole
      rw [hbytes] at hwhole
      simp only [List.append_assoc]
      rw [hbytes, List.cons_append, scanNumeral_signed n.negative (ne_sign hc).2,
        ← List.cons_append, hwhole]
      simp only [bind, Except.bind, hfraction, hexponent]
      rfl

/-! ## Lexemes -/

namespace Lexeme

/-- The token that a lexeme is cut into. -/
def token : Lexeme → Token
  | openObject => .openObject
  | closeObject => .closeObject
  | openArray => .openArray
  | closeArray => .closeArray
  | colon => .colon
  | comma => .comma
  | word w => .word (.ok w)
  | text s => .text (.ok s) (.ok ())
  | number n =>
      .number (match n.value? with
        | some quantity => .ok quantity
        | none => .error .malformed) (.ok ())

def isNumber : Lexeme → Bool
  | number _ => true
  | _ => false

end Lexeme

theorem tokenAt_number {b : UInt8} (h : b = 45 ∨ isDigit b = true) (rest : Bytes) :
    tokenAt b rest = numberToken (b :: rest) := by
  have hcode : b.toNat = 45 ∨ 48 ≤ b.toNat ∧ b.toNat ≤ 57 := by
    rcases h with rfl | h
    · exact .inl rfl
    · simp only [isDigit, Bool.and_eq_true, decide_eq_true_eq, UInt8.le_iff_toNat_le] at h
      exact .inr h
  have hne : ∀ k : UInt8, k.toNat ≠ 45 → (k.toNat < 48 ∨ 57 < k.toNat) → b ≠ k := by
    rintro k hk hk' rfl
    omega
  have hnumber : (b = 45 || isDigit b) = true := by simpa using h
  rw [tokenAt, if_neg (hne _ (by decide) (by decide)), if_neg (hne _ (by decide) (by decide)),
    if_neg (hne _ (by decide) (by decide)), if_neg (hne _ (by decide) (by decide)),
    if_neg (hne _ (by decide) (by decide)), if_neg (hne _ (by decide) (by decide)),
    if_neg (hne _ (by decide) (by decide)), if_neg (hne _ (by decide) (by decide)),
    if_neg (hne _ (by decide) (by decide)), if_neg (hne _ (by decide) (by decide)),
    if_pos hnumber]

/-- A numeral begins with a minus or a digit. -/
theorem NumeralSpelled.head {n : Numeral} {bytes : Bytes} (h : NumeralSpelled n bytes) :
    ∃ b tail, bytes = b :: tail ∧ (b = 45 ∨ isDigit b = true) := by
  cases h with
  | mk whole =>
      obtain ⟨c, tail, hbytes, -, hc⟩ := digitBytes_eq_cons whole
      cases n.negative with
      | true => exact ⟨45, _, rfl, .inl rfl⟩
      | false => exact ⟨_, _, by rw [hbytes]; rfl, .inr (isDigit_digitByte hc)⟩

theorem tokens_number_append {n : Numeral} {bytes rest : Bytes} (h : NumeralSpelled n bytes)
    (hrest : Delimits rest) : tokens (bytes ++ rest) = (Lexeme.number n).token :: tokens rest := by
  have hscan := scanNumeral_spelled h hrest
  obtain ⟨b, tail, rfl, hb⟩ := h.head
  have hspace : isSpace b = false := by
    rw [Bool.eq_false_iff]
    intro hspace
    simp only [isSpace, Bool.or_eq_true, decide_eq_true_eq, or_assoc] at hspace
    rcases hspace with rfl | rfl | rfl | rfl <;> revert hb <;> decide
  rw [List.cons_append] at hscan ⊢
  rw [tokens_cons _ hspace, tokenAt_number hb, numberToken, hscan]
  rfl

/-- A lexeme is one token. -/
theorem tokens_spelled {l : Lexeme} {bytes rest : Bytes} (h : l.Spelled bytes)
    (hrest : l.isNumber = true → Delimits rest) :
    tokens (bytes ++ rest) = l.token :: tokens rest := by
  cases h with
  | openObject | closeObject | openArray | closeArray | colon | comma | nullWord | trueWord
  | falseWord => exact tokens_cons _ rfl
  | text spelled =>
      rw [List.cons_append, List.append_assoc, List.singleton_append]
      exact tokens_text_append spelled rest
  | number spelled => exact tokens_number_append spelled (hrest rfl)

theorem tokens_blank {blank : Bytes} (h : Blank blank) (rest : Bytes) :
    tokens (blank ++ rest) = tokens rest := by
  induction blank with
  | nil => rfl
  | cons b blank ih =>
      obtain ⟨hb, hblank⟩ := List.forall_mem_cons.mp h
      rw [List.cons_append, tokens_space _ (by simpa [isSpace, or_assoc] using hb), ih hblank]

/-! ## Lexemes one after another -/

/-- No two numbers stand side by side. -/
def Separated (ls : List Lexeme) : Prop :=
  ls.IsChain fun l l' => l.isNumber = true → l'.isNumber = false

theorem Lexeme.Spelled.delimits {l : Lexeme} {bytes : Bytes} (h : l.Spelled bytes)
    (hl : l.isNumber = false) (rest : Bytes) : Delimits (bytes ++ rest) := by
  intro b hb
  cases h with
  | number => cases hl
  | _ =>
      cases hb
      decide

theorem Blank.delimits {blank rest : Bytes} (h : Blank blank) (hrest : Delimits rest) :
    Delimits (blank ++ rest) := by
  cases blank with
  | nil => exact hrest
  | cons b blank =>
      intro b' hb'
      cases hb'
      rcases h b (List.mem_cons_self ..) with rfl | rfl | rfl | rfl <;> decide

theorem Spaced.delimits {ls : List Lexeme} {text : Bytes} (h : Spaced ls text)
    (hls : ∀ l ∈ ls.head?, l.isNumber = false) : Delimits text := by
  cases h with
  | nil isBlank =>
      rw [← List.append_nil text]
      exact isBlank.delimits fun b hb => by cases hb
  | cons isBlank first => exact isBlank.delimits (first.delimits (hls _ rfl) _)

/-- The tokens of a text are those of its lexemes. -/
theorem Spaced.tokens_eq {ls : List Lexeme} {text : Bytes} (h : Spaced ls text)
    (hls : Separated ls) : tokens text = ls.map Lexeme.token := by
  induction h with
  | nil isBlank =>
      have hblank := tokens_blank isBlank []
      rwa [List.append_nil, tokens_nil] at hblank
  | cons isBlank first others ih =>
      obtain ⟨hhead, hls⟩ := List.isChain_cons.mp hls
      rw [tokens_blank isBlank, tokens_spelled first fun hnumber => ?_, ih hls, List.map_cons]
      exact others.delimits fun l hl => hhead l hl hnumber

theorem Separated.cons {l : Lexeme} {ls : List Lexeme} (h : Separated ls)
    (hl : l.isNumber = false) : Separated (l :: ls) :=
  List.isChain_cons.mpr ⟨fun _ _ hnumber => by simp [hl] at hnumber, h⟩

/-! ## Values -/

/-- Lexemes that may follow a value. -/
structure Follows (ls : List Lexeme) : Prop where
  separated : Separated ls
  head : ∀ l ∈ ls.head?, l.isNumber = false

theorem Follows.nil : Follows [] := ⟨.nil, by simp⟩

theorem Follows.cons {l : Lexeme} {ls : List Lexeme} (hl : l.isNumber = false)
    (hls : Separated ls) : Follows (l :: ls) :=
  ⟨hls.cons hl, by simp [hl]⟩

mutual

theorem separated_value : ∀ (v : Value) {ls : List Lexeme}, Follows ls →
    Separated (v.lexemes ++ ls)
  | .null, _, h | .boolean _, _, h | .text _, _, h => h.separated.cons rfl
  | .number _, _, h => List.isChain_cons.mpr ⟨fun l hl _ => h.head l hl, h.separated⟩
  | .array [], _, h => (h.separated.cons rfl).cons rfl
  | .array (v :: rest), ls, h => by
      have hrest := separated_value v (separated_elements rest h.separated)
      rw [Value.lexemes, List.cons_append, List.append_assoc]
      exact Separated.cons hrest rfl
  | .object [], _, h => (h.separated.cons rfl).cons rfl
  | .object ((key, v) :: rest), ls, h => by
      have hrest := separated_value v (separated_members rest h.separated)
      simp only [Value.lexemes, List.cons_append, List.append_assoc]
      exact ((Separated.cons hrest rfl).cons rfl).cons rfl

theorem separated_elements : ∀ (elements : List Value) {ls : List Lexeme}, Separated ls →
    Follows (moreElements elements ++ ls)
  | [], _, h => .cons rfl h
  | v :: rest, ls, h => by
      have hrest := separated_value v (separated_elements rest h)
      rw [moreElements, List.cons_append, List.append_assoc]
      exact .cons rfl hrest

theorem separated_members : ∀ (members : List (String × Value)) {ls : List Lexeme},
    Separated ls → Follows (moreMembers members ++ ls)
  | [], _, h => .cons rfl h
  | (key, v) :: rest, ls, h => by
      have hrest := separated_value v (separated_members rest h)
      simp only [moreMembers, List.cons_append, List.append_assoc]
      exact .cons rfl ((Separated.cons hrest rfl).cons rfl)

end

def Value.tokens (v : Value) : List Token := v.lexemes.map Lexeme.token

/-- The tokens of a text that denotes a value are those of the value. -/
theorem Value.Written.tokens_eq {v : Value} {text : Bytes} (h : v.Written text) :
    Json.tokens text = v.tokens := by
  have hls := separated_value v Follows.nil
  rw [List.append_nil] at hls
  exact Spaced.tokens_eq h hls

end TrackedDelivery.Json
