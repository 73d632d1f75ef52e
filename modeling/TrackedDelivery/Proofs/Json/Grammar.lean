import TrackedDelivery.Json.Token
import Mathlib.Data.Nat.Notation
/-!
# JSON texts and the values they denote

A value is written as a list of lexemes, and each lexeme in one of its spellings, with blanks
before and after. The characters of a string stand for themselves or are escaped, by a letter, by
the digits of a code unit or by those of two surrogates. A number is a value as it is written, as
its magnitude does not matter here. Members of an object may repeat their keys.
-/
namespace TrackedDelivery.Json
open String (utf8EncodeChar)

/-! ## Values -/

inductive Value
  | null
  | boolean (value : Bool)
  | number (numeral : Numeral)
  | text (text : String)
  | array (elements : List Value)
  | object (members : List (String × Value))

inductive Lexeme
  | openObject
  | closeObject
  | openArray
  | closeArray
  | colon
  | comma
  | word (word : Word)
  | text (text : String)
  | number (numeral : Numeral)

mutual

/-- The lexemes of a value, from left to right. -/
def Value.lexemes : Value → List Lexeme
  | .null => [.word .null]
  | .boolean value => [.word (.boolean value)]
  | .number numeral => [.number numeral]
  | .text text => [.text text]
  | .array [] => [.openArray, .closeArray]
  | .array (v :: rest) => .openArray :: (v.lexemes ++ moreElements rest)
  | .object [] => [.openObject, .closeObject]
  | .object ((key, v) :: rest) =>
      .openObject :: .text key :: .colon :: (v.lexemes ++ moreMembers rest)

/-- What follows an element in its array. -/
def moreElements : List Value → List Lexeme
  | [] => [.closeArray]
  | v :: rest => .comma :: (v.lexemes ++ moreElements rest)

/-- What follows a member in its object. -/
def moreMembers : List (String × Value) → List Lexeme
  | [] => [.closeObject]
  | (key, v) :: rest => .comma :: .text key :: .colon :: (v.lexemes ++ moreMembers rest)

end

/-! ## Strings -/

/-- The letters that escape a character after a backslash. -/
def shortEscapes : List (UInt8 × Char) :=
  [(34, '"'), (92, '\\'), (47, '/'), (98, '\x08'), (102, '\x0c'), (110, '\n'), (114, '\r'),
    (116, '\t')]

/-- A hexadecimal digit, with a letter of either case. -/
def HexDigit (value : ℕ) (b : UInt8) : Prop :=
  value < 10 ∧ b.toNat = 48 + value ∨
    10 ≤ value ∧ value < 16 ∧ (b.toNat = 55 + value ∨ b.toNat = 87 + value)

instance (value : ℕ) (b : UInt8) : Decidable (HexDigit value b) :=
  inferInstanceAs (Decidable (_ ∨ _))

/-- A code unit in four hexadecimal digits. -/
inductive UnitSpelled : ℕ → Bytes → Prop
  | mk {v₁ v₂ v₃ v₄ : ℕ} {h₁ h₂ h₃ h₄ : UInt8} (d₁ : HexDigit v₁ h₁) (d₂ : HexDigit v₂ h₂)
      (d₃ : HexDigit v₃ h₃) (d₄ : HexDigit v₄ h₄) :
      UnitSpelled (((v₁ * 16 + v₂) * 16 + v₃) * 16 + v₄) [h₁, h₂, h₃, h₄]

/-- The ways to write a character between quotes. -/
inductive CharSpelled : Char → Bytes → Prop
  | plain {c : Char} (quote : c ≠ '"') (backslash : c ≠ '\\') (control : ¬ c.toNat < 0x20) :
      CharSpelled c (utf8EncodeChar c)
  | short {c : Char} {letter : UInt8} (escape : (letter, c) ∈ shortEscapes) :
      CharSpelled c [92, letter]
  | unit {c : Char} {digits : Bytes} (spelled : UnitSpelled c.toNat digits) :
      CharSpelled c (92 :: 117 :: digits)
  | pair {c : Char} {high low : ℕ} {digits digits' : Bytes}
      (isHigh : 0xD800 ≤ high ∧ high ≤ 0xDBFF) (isLow : 0xDC00 ≤ low ∧ low ≤ 0xDFFF)
      (code : c.toNat = 0x10000 + (high - 0xD800) * 0x400 + (low - 0xDC00))
      (spelled : UnitSpelled high digits) (spelled' : UnitSpelled low digits') :
      CharSpelled c (92 :: 117 :: digits ++ 92 :: 117 :: digits')

inductive CharsSpelled : List Char → Bytes → Prop
  | nil : CharsSpelled [] []
  | cons {c : Char} {cs : List Char} {bytes rest : Bytes} (first : CharSpelled c bytes)
      (others : CharsSpelled cs rest) : CharsSpelled (c :: cs) (bytes ++ rest)

/-! ## Numbers -/

def digitBytes (digits : List Char) : Bytes := digits.map fun c => UInt8.ofNat c.toNat

/-- One decimal digit or more. -/
structure IsDigits (digits : List Char) : Prop where
  nonempty : digits ≠ []
  isDigit : ∀ c ∈ digits, c.isDigit = true

theorem IsDigits.singleton {c : Char} (h : c.isDigit = true) : IsDigits [c] :=
  ⟨by simp, by simpa using h⟩

inductive FractionSpelled : List Char → Bytes → Prop
  | absent : FractionSpelled [] []
  | present {digits : List Char} (isDigits : IsDigits digits) :
      FractionSpelled digits (46 :: digitBytes digits)

/-- The sign of an exponent, where a plus may be left out. -/
inductive SignSpelled : Bool → Bytes → Prop
  | minus : SignSpelled true [45]
  | plus : SignSpelled false [43]
  | absent : SignSpelled false []

inductive ExponentSpelled : Option (Bool × List Char) → Bytes → Prop
  | absent : ExponentSpelled none []
  | present {letter : UInt8} {negative : Bool} {sign : Bytes} {digits : List Char}
      (isLetter : letter = 69 ∨ letter = 101) (isSign : SignSpelled negative sign)
      (isDigits : IsDigits digits) :
      ExponentSpelled (some (negative, digits)) (letter :: (sign ++ digitBytes digits))

/-- A numeral. Its whole part begins with a zero only if it is a zero. -/
inductive NumeralSpelled : Numeral → Bytes → Prop
  | mk {n : Numeral} {fraction exponent : Bytes} (whole : IsDigits n.whole)
      (zero : n.whole.head? = some '0' → n.whole = ['0'])
      (isFraction : FractionSpelled n.fraction fraction)
      (isExponent : ExponentSpelled n.exponent exponent) :
      NumeralSpelled n
        ((if n.negative then [45] else []) ++ (digitBytes n.whole ++ (fraction ++ exponent)))

/-! ## Texts -/

inductive Lexeme.Spelled : Lexeme → Bytes → Prop
  | openObject : Spelled .openObject [123]
  | closeObject : Spelled .closeObject [125]
  | openArray : Spelled .openArray [91]
  | closeArray : Spelled .closeArray [93]
  | colon : Spelled .colon [58]
  | comma : Spelled .comma [44]
  | nullWord : Spelled (.word .null) (Bytes.ofText "null")
  | trueWord : Spelled (.word (.boolean true)) (Bytes.ofText "true")
  | falseWord : Spelled (.word (.boolean false)) (Bytes.ofText "false")
  | text {s : String} {bytes : Bytes} (spelled : CharsSpelled s.toList bytes) :
      Spelled (.text s) (34 :: (bytes ++ [34]))
  | number {n : Numeral} {bytes : Bytes} (spelled : NumeralSpelled n bytes) :
      Spelled (.number n) bytes

/-- Nothing but spaces, tabs and line breaks. -/
def Blank (bytes : Bytes) : Prop := ∀ b ∈ bytes, b = 32 ∨ b = 9 ∨ b = 10 ∨ b = 13

/-- Lexemes one after another, with blanks around them. -/
inductive Spaced : List Lexeme → Bytes → Prop
  | nil {blank : Bytes} (isBlank : Blank blank) : Spaced [] blank
  | cons {l : Lexeme} {ls : List Lexeme} {blank bytes rest : Bytes} (isBlank : Blank blank)
      (first : l.Spelled bytes) (others : Spaced ls rest) :
      Spaced (l :: ls) (blank ++ (bytes ++ rest))

/-- A lexeme without a blank before it. -/
theorem Spaced.adjoin {l : Lexeme} {ls : List Lexeme} {bytes rest : Bytes} (first : l.Spelled bytes)
    (others : Spaced ls rest) : Spaced (l :: ls) (bytes ++ rest) :=
  .cons (show Blank [] from fun _ hb => by cases hb) first others

/-- A text denotes a value. -/
def Value.Written (v : Value) (text : Bytes) : Prop := Spaced v.lexemes text

end TrackedDelivery.Json
