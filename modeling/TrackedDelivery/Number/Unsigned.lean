/-!
# Unsigned numerals

Decimal numerals with an optional plus sign, read from left to right against a largest value:
the first character that is no digit, or the first digit that exceeds the limit, is the fault.
-/
namespace TrackedDelivery.Number

inductive UnsignedFault
  | empty
  | invalidDigit
  | tooLarge
  deriving DecidableEq, Repr

def UnsignedFault.message : UnsignedFault → String
  | .empty => "cannot parse integer from empty string"
  | .invalidDigit => "invalid digit found in string"
  | .tooLarge => "number too large to fit in target type"

def digitValue (c : Char) : Nat := c.toNat - '0'.toNat

/-- Appends the digits to the value read so far. -/
def readDigits (limit : Nat) (value : Nat) : List Char → Except UnsignedFault Nat
  | [] => .ok value
  | c :: rest =>
      if !c.isDigit then .error .invalidDigit
      else if limit < value * 10 + digitValue c then .error .tooLarge
      else readDigits limit (value * 10 + digitValue c) rest

def unsignedOfChars (limit : Nat) : List Char → Except UnsignedFault Nat
  | [] => .error .empty
  | ['+'] => .error .invalidDigit
  | '+' :: digits => readDigits limit 0 digits
  | digits => readDigits limit 0 digits

/-- The value of a numeral that is at most `limit`. -/
def unsigned (limit : Nat) (s : String) : Except UnsignedFault Nat :=
  unsignedOfChars limit s.toList

/-- The largest values of 32 and of 64 bits. -/
def maxWord32 : Nat := UInt32.size - 1
def maxWord64 : Nat := UInt64.size - 1

end TrackedDelivery.Number
