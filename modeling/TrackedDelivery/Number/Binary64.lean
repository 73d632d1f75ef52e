/-!
# Nonnegative binary64 numbers

A finite number is counted in quanta of 2^-1074, the least positive value of the format, so it
is a natural number with at most 53 significant bits. Every operation computes the exact
quotient or sum and rounds once, to nearest with ties to even.
-/
namespace TrackedDelivery.Number

inductive Binary64
  | finite (quanta : Nat)
  | infinite
  deriving DecidableEq, Repr

/-- The nearest integer to `num / den`; of two equally near the even one. -/
def halfEven (num den : Nat) : Nat :=
  let q := num / den
  let r := num % den
  if 2 * r < den then q
  else if den < 2 * r then q + 1
  else q + q % 2

namespace Binary64

/-- How many quanta make up one. -/
def unit : Nat := Nat.pow 2 1074

/-- The position of the last bit that is kept of a number of `quanta`. -/
def lastPlace (quanta : Nat) : Nat := quanta.log2 - 52

/-- The number nearest to `num / den` quanta. -/
def ofRatio (num den : Nat) : Binary64 :=
  let place := Nat.pow 2 (lastPlace (num / den))
  let quanta := halfEven num (den * place) * place
  if quanta < Nat.pow 2 1024 * unit then .finite quanta else .infinite

def zero : Binary64 := .finite 0

def ofNat (n : Nat) : Binary64 := ofRatio (n * unit) 1

/-- The number nearest to `digits / 10 ^ places`. -/
def ofDecimal (digits places : Nat) : Binary64 := ofRatio (digits * unit) (Nat.pow 10 places)

def add : Binary64 → Binary64 → Binary64
  | .finite a, .finite b => ofRatio (a + b) 1
  | _, _ => .infinite

/-- The product with a positive number. -/
def mul : Binary64 → Binary64 → Binary64
  | .finite a, .finite b => ofRatio (a * b) unit
  | _, _ => .infinite

/-- The quotient by a positive finite number. -/
def div : Binary64 → Binary64 → Binary64
  | .finite a, .finite b => ofRatio (a * unit) b
  | .finite _, .infinite => zero
  | .infinite, _ => .infinite

/-- The nearest integer; a half goes up. -/
def roundHalfUp (quanta : Nat) : Nat := (2 * quanta + unit) / (2 * unit)

end Binary64

theorem halfEven_mul_left (n d : Nat) (hd : 0 < d) : halfEven (d * n) d = n := by
  simp [halfEven, Nat.mul_div_cancel_left _ hd, hd]

end TrackedDelivery.Number
