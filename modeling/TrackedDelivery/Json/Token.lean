import TrackedDelivery.Json.Numeral
import TrackedDelivery.Json.Quote
/-!
# Tokens of a JSON text

A text is cut into tokens from left to right. A token that is faulty in itself carries its fault,
which counts only if a reader comes to the token where it may stand; the tokens end with it. A
string and a number carry two outcomes, since a value that is skipped is checked less strictly
than one that is read.
-/
namespace TrackedDelivery.Json

inductive Word
  | null
  | boolean (value : Bool)
  deriving DecidableEq, Repr

inductive Token
  | openObject
  | closeObject
  | openArray
  | closeArray
  | colon
  | comma
  | word (word : Except Fault Word)
  | text (read : Except Fault String) (skipped : Except Fault Unit)
  | number (read : Except Fault Quantity) (skipped : Except Fault Unit)
  | junk

def isSpace (b : UInt8) : Bool := b = 32 || b = 9 || b = 10 || b = 13

/-- What follows `letters` in the bytes. -/
def expectLetters : Bytes → Bytes → Except Fault Bytes
  | [], s => .ok s
  | _ :: _, [] => .error .endOfInput
  | l :: letters, b :: s => if l = b then expectLetters letters s else .error .malformed

def wordToken (word : Word) (letters s : Bytes) : Token × Bytes :=
  match expectLetters letters s with
  | .ok rest => (.word (.ok word), rest)
  | .error fault => (.word (.error fault), [])

def textToken (s : Bytes) : Token × Bytes :=
  match scanParts [] s with
  | (parts, .ok rest) => (.text (content parts none) (.ok ()), rest)
  | (parts, .error fault) => (.text (content parts (some fault)) (.error fault), [])

/-- A number that is cut off ends the input where it is read, and is malformed where it is
skipped. -/
def numberToken (s : Bytes) : Token × Bytes :=
  match scanNumeral s with
  | .ok (numeral, rest) =>
      (.number (match numeral.value? with
        | some quantity => .ok quantity
        | none => .error .malformed) (.ok ()), rest)
  | .error .cut => (.number (.error .endOfInput) (.error .malformed), [])
  | .error .malformed => (.number (.error .malformed) (.error .malformed), [])

/-- The token that begins with the byte `b`, and what follows it. -/
def tokenAt (b : UInt8) (rest : Bytes) : Token × Bytes :=
  if b = 123 then (.openObject, rest)
  else if b = 125 then (.closeObject, rest)
  else if b = 91 then (.openArray, rest)
  else if b = 93 then (.closeArray, rest)
  else if b = 58 then (.colon, rest)
  else if b = 44 then (.comma, rest)
  else if b = 34 then textToken rest
  else if b = 110 then wordToken .null [117, 108, 108] rest
  else if b = 116 then wordToken (.boolean true) [114, 117, 101] rest
  else if b = 102 then wordToken (.boolean false) [97, 108, 115, 101] rest
  else if b = 45 || isDigit b then numberToken (b :: rest)
  else (.junk, [])

theorem length_expectLetters {letters s rest : Bytes} (h : expectLetters letters s = .ok rest) :
    rest.length ≤ s.length := by
  induction letters generalizing s with
  | nil => cases h; exact Nat.le_refl _
  | cons l letters ih =>
    cases s with
    | nil => cases h
    | cons b s =>
      rw [expectLetters] at h
      split at h
      · exact Nat.le_succ_of_le (ih h)
      · cases h

theorem length_scanParts {s rest : Bytes} {parts : List Part}
    (h : (scanParts parts s).2 = .ok rest) : rest.length < s.length := by
  fun_induction scanParts parts s with
  | case4 | case7 | case10 => rename_i ih; have := ih h; simp only [List.length_cons]; omega
  | case2 => cases h; simp
  | _ => cases h

theorem length_scanDigits {s rest : Bytes} {digits : List Char}
    (h : scanDigits s = .ok (digits, rest)) : rest.length < s.length := by
  cases s with
  | nil => cases h
  | cons b s =>
    have := (List.dropWhile_suffix (l := s) isDigit).length_le
    grind [scanDigits]

theorem length_scanWhole {s rest : Bytes} {digits : List Char}
    (h : scanWhole s = .ok (digits, rest)) : rest.length < s.length := by
  unfold scanWhole at h
  split at h
  · split at h <;> cases h; simp
  · exact length_scanDigits h

theorem length_scanFraction {s rest : Bytes} {digits : List Char}
    (h : scanFraction s = .ok (digits, rest)) : rest.length ≤ s.length := by
  unfold scanFraction at h
  split at h
  · have := length_scanDigits h
    simp; omega
  · cases h; exact Nat.le_refl _

theorem length_scanExponent {s rest : Bytes} {exponent : Option (Bool × List Char)}
    (h : scanExponent s = .ok (exponent, rest)) : rest.length ≤ s.length := by
  unfold scanExponent at h
  split at h
  · split at h
    · simp only [bind, Except.bind] at h
      split at h
      · cases h
      · rename_i p hp
        have hlt := length_scanDigits hp
        cases h
        split at hlt <;> grind
    · cases h; exact Nat.le_refl _
  · cases h; exact Nat.le_refl _

theorem length_scanNumeral {s rest : Bytes} {numeral : Numeral}
    (h : scanNumeral s = .ok (numeral, rest)) : rest.length < s.length := by
  simp only [scanNumeral, bind, Except.bind] at h
  split at h
  · cases h
  · rename_i p hp
    have hwhole := length_scanWhole hp
    split at h
    · cases h
    · rename_i q hq
      have hfraction := length_scanFraction hq
      split at h
      · cases h
      · rename_i r hr
        have hexponent := length_scanExponent hr
        cases h
        split at hwhole <;> grind

/-- What follows a token is no longer than what follows its first byte. -/
theorem length_tokenAt (b : UInt8) (rest : Bytes) :
    (tokenAt b rest).2.length ≤ rest.length := by
  have hword (word : Word) (letters : Bytes) :
      (wordToken word letters rest).2.length ≤ rest.length := by
    unfold wordToken
    split
    · rename_i h; exact length_expectLetters h
    · simp
  have htext : (textToken rest).2.length ≤ rest.length := by
    unfold textToken
    split
    · rename_i h; exact Nat.le_of_lt (length_scanParts (by rw [h]))
    · simp
  have hnumber : (numberToken (b :: rest)).2.length ≤ rest.length := by
    unfold numberToken
    split
    · rename_i h; exact Nat.le_of_lt_succ (length_scanNumeral h)
    · simp
    · simp
  have hite {c : Prop} [Decidable c] {p q : Token × Bytes} (hp : p.2.length ≤ rest.length)
      (hq : q.2.length ≤ rest.length) : (if c then p else q).2.length ≤ rest.length := by
    split <;> assumption
  unfold tokenAt
  iterate 6 refine hite (Nat.le_refl _) ?_
  refine hite htext ?_
  iterate 3 refine hite (hword _ _) ?_
  exact hite hnumber (Nat.zero_le _)

/-- The tokens of the bytes, after those already found, which stand in reverse. -/
def scan (found : List Token) (s : Bytes) : List Token :=
  match s with
  | [] => found.reverse
  | b :: rest =>
      if isSpace b then scan found rest
      else scan ((tokenAt b rest).1 :: found) (tokenAt b rest).2
termination_by s.length
decreasing_by
  · simp
  · exact Nat.lt_succ_of_le (length_tokenAt b rest)

def tokens (s : Bytes) : List Token := scan [] s

theorem scan_eq (found : List Token) (s : Bytes) : scan found s = found.reverse ++ tokens s := by
  unfold tokens
  induction h : s.length using Nat.strongRecOn generalizing found s with
  | ind n ih =>
    subst h
    cases s with
    | nil => simp [scan]
    | cons b rest =>
      rw [scan.eq_def found, scan.eq_def []]
      simp only
      split
      · exact ih _ (by simp) _ _ rfl
      · have hlt : (tokenAt b rest).2.length < (b :: rest).length :=
          Nat.lt_succ_of_le (length_tokenAt b rest)
        rw [ih _ hlt _ _ rfl, ih _ hlt [(tokenAt b rest).1] _ rfl]
        simp

@[simp] theorem tokens_nil : tokens [] = [] := by simp [tokens, scan]

theorem tokens_space {b : UInt8} (rest : Bytes) (h : isSpace b) :
    tokens (b :: rest) = tokens rest := by
  rw [tokens, scan, if_pos h, tokens]

theorem tokens_cons {b : UInt8} (rest : Bytes) (h : isSpace b = false) :
    tokens (b :: rest) = (tokenAt b rest).1 :: tokens (tokenAt b rest).2 := by
  rw [tokens, scan, if_neg (by simp [h]), scan_eq]
  simp

end TrackedDelivery.Json
