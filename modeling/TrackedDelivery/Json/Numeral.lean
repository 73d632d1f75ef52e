import TrackedDelivery.Bytes
import TrackedDelivery.Number.Unsigned
import TrackedDelivery.Number.Shortest
/-!
# Numbers in JSON

A numeral is scanned into its parts first, and its value is computed from the parts only where
it is wanted. A whole number that fits 64 bits is an integer. Any other number is binary64: as
many leading digits as fit 64 bits are rounded once, and the result is scaled by a power of ten
with one more rounding.
-/
namespace TrackedDelivery.Json
open Number

structure Numeral where
  negative : Bool
  whole : List Char
  fraction : List Char
  /-- Absent unless an exponent is written; the flag says that it is negative. -/
  exponent : Option (Bool × List Char)
  deriving DecidableEq, Repr

def Numeral.isWhole (n : Numeral) : Bool := n.fraction.isEmpty && n.exponent.isNone

inductive NumeralFault
  /-- The input ends where a digit must follow. -/
  | cut
  | malformed
  deriving DecidableEq, Repr

def isDigit (b : UInt8) : Bool := 48 ≤ b && b ≤ 57

def toChar (b : UInt8) : Char := Char.ofNat b.toNat

/-- The digits at the start of the bytes, of which there must be one, and what follows them. -/
def scanDigits (s : Bytes) : Except NumeralFault (List Char × Bytes) :=
  match s with
  | [] => .error .cut
  | b :: rest =>
      if isDigit b then
        .ok (toChar b :: (rest.takeWhile isDigit).map toChar, rest.dropWhile isDigit)
      else .error .malformed

/-- A zero is not followed by a digit. -/
def scanWhole (s : Bytes) : Except NumeralFault (List Char × Bytes) :=
  match s with
  | 48 :: b :: _ => if isDigit b then .error .malformed else .ok (['0'], s.drop 1)
  | _ => scanDigits s

def scanFraction (s : Bytes) : Except NumeralFault (List Char × Bytes) :=
  match s with
  | 46 :: rest => scanDigits rest
  | _ => .ok ([], s)

def scanExponent (s : Bytes) :
    Except NumeralFault (Option (Bool × List Char) × Bytes) :=
  match s with
  | b :: rest =>
      if b = 69 || b = 101 then do
        let sign := rest.head?.filter fun c => c = 43 || c = 45
        let (digits, rest) ← scanDigits (if sign.isSome then rest.drop 1 else rest)
        return (some (sign = some 45, digits), rest)
      else .ok (none, s)
  | [] => .ok (none, s)

/-- The numeral at the start of the bytes, and what follows it. -/
def scanNumeral (s : Bytes) : Except NumeralFault (Numeral × Bytes) := do
  let negative := s.head? = some 45
  let (whole, rest) ← scanWhole (if negative then s.drop 1 else s)
  let (fraction, rest) ← scanFraction rest
  let (exponent, rest) ← scanExponent rest
  return (⟨negative, whole, fraction, exponent⟩, rest)

inductive Quantity
  | integer (value : Int)
  | float (negative : Bool) (quanta : Nat)
  deriving DecidableEq, Repr

/-- The value of the leading digits that fit 64 bits, and how many digits those are. -/
def leadingDigits (value : Nat) (count : Nat) : List Char → Nat × Nat
  | [] => (value, count)
  | c :: rest =>
      let next := value * 10 + digitValue c
      if maxWord64 < next then (value, count) else leadingDigits next (count + 1) rest

/-- Powers of ten up to the 308th have a binary64 number of their own. -/
def greatestPower : Nat := 308

def divideByPower (x : Binary64) (places : Nat) : Binary64 :=
  if x = .zero then x
  else if places ≤ greatestPower then x.div (Binary64.ofNat (Nat.pow 10 places))
  else
    divideByPower (x.div (Binary64.ofNat (Nat.pow 10 greatestPower))) (places - greatestPower)
termination_by places
decreasing_by simp only [greatestPower] at *; omega

/-- `significand · 10 ^ exponent`, unless it exceeds the finite numbers. -/
def scale (significand : Nat) (exponent : Int) : Binary64 :=
  let x := Binary64.ofNat significand
  match exponent with
  | .negSucc places => divideByPower x (places + 1)
  | .ofNat places =>
      if significand = 0 then x
      else if places ≤ greatestPower then x.mul (Binary64.ofNat (Nat.pow 10 places))
      else .infinite

/-- Exponents from here on are as good as infinite. -/
def greatestExponent : Nat := Nat.pow 2 31

/-- The exponent that a numeral spells, with its sign and cut off at the greatest. -/
def Numeral.writtenExponent (n : Numeral) : Int :=
  match n.exponent with
  | none => 0
  | some (negative, digits) =>
      let value := digits.foldl (fun v c => min greatestExponent (v * 10 + digitValue c)) 0
      if negative then -(value : Int) else value

/-- The nonnegative binary64 number of a numeral without its sign. Digits of the fraction that
no longer fit are dropped; digits of the whole part that no longer fit raise the exponent. -/
def Numeral.magnitude (n : Numeral) : Binary64 :=
  let (whole, wholeCount) := leadingDigits 0 0 n.whole
  let dropped := n.whole.length - wholeCount
  let (significand, places) := leadingDigits whole 0 n.fraction
  let written := n.writtenExponent
  if significand = 0 then .zero
  else if written = greatestExponent then .infinite
  else if written = -greatestExponent then .zero
  else scale significand (dropped - places + written)

/-- The value of a numeral, if it is finite. Minus zero is no integer. -/
def Numeral.value? (n : Numeral) : Option Quantity :=
  let (integer, count) := leadingDigits 0 0 n.whole
  let fits := n.isWhole && count = n.whole.length
  if fits && !n.negative then some (.integer integer)
  else if fits && 0 < integer && integer ≤ Nat.pow 2 63 then some (.integer (-integer))
  else
    match n.magnitude with
    | .finite quanta => some (.float n.negative quanta)
    | .infinite => none

def Quantity.describe : Quantity → String
  | .integer value => s!"integer \x60{value}\x60"
  | .float negative quanta =>
      "floating point \x60" ++ shortestText .plain negative quanta ++ "\x60"

end TrackedDelivery.Json
