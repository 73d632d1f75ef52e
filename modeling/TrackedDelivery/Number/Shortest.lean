import TrackedDelivery.Number.Binary64
/-!
# Shortest decimal text of a binary64 number

The fewest significant digits that read back as the same number, and of those the nearest to it.
For each count of digits the two decimal neighbours of the value are tried, so the first count
at which one of them reads back is the least. The layout of the text is a `NumberLayout`.
-/
namespace TrackedDelivery.Number

/-- `digits · 10 ^ exponent`. -/
structure Decimal where
  digits : Nat
  exponent : Int
  deriving DecidableEq, Repr

namespace Decimal

/-- The binary64 number nearest to a decimal. -/
def toBinary64 (d : Decimal) : Binary64 :=
  match d.exponent with
  | .ofNat e => Binary64.ofNat (d.digits * Nat.pow 10 e)
  | .negSucc e => Binary64.ofDecimal d.digits (e + 1)

/-- The greatest decimal on the grid of `10 ^ exponent` that is at most `quanta`. -/
def floorOn (quanta : Nat) (exponent : Int) : Decimal :=
  match exponent with
  | .ofNat e => ⟨quanta / (Binary64.unit * Nat.pow 10 e), exponent⟩
  | .negSucc e => ⟨quanta * Nat.pow 10 (e + 1) / Binary64.unit, exponent⟩

/-- Twice the remainder that `floorOn` leaves, compared with the grid's step. -/
def compareHalf (quanta : Nat) (exponent : Int) : Ordering :=
  match exponent with
  | .ofNat e =>
      compare (2 * (quanta % (Binary64.unit * Nat.pow 10 e))) (Binary64.unit * Nat.pow 10 e)
  | .negSucc e => compare (2 * (quanta * Nat.pow 10 (e + 1) % Binary64.unit)) Binary64.unit

/-- The neighbours of the value on the grid, the nearer one first; at a tie the even one. -/
def neighbours (quanta : Nat) (exponent : Int) : List Decimal :=
  let below := floorOn quanta exponent
  let above := { below with digits := below.digits + 1 }
  match compareHalf quanta exponent with
  | .lt => [below, above]
  | .gt => [above, below]
  | .eq => if below.digits % 2 = 0 then [below, above] else [above, below]

/-- The exponent of the first significant digit of a positive value. -/
def leadingExponent (quanta : Nat) : Int :=
  let whole := quanta / Binary64.unit
  if 0 < whole then ((Nat.toDigits 10 whole).length : Int) - 1
  else
    let places := (List.range 325).find? (fun k => Binary64.unit ≤ quanta * Nat.pow 10 k)
    Int.negOfNat (places.getD 324)

/-- Seventeen digits always read back. -/
def shortest (quanta : Nat) : Decimal :=
  let lead := leadingExponent quanta
  let candidates := (List.range 17).flatMap fun (n : Nat) => neighbours quanta (lead - n)
  (candidates.find? fun d => d.toBinary64 = .finite quanta).getD (floorOn quanta (lead - 16))

end Decimal

/-- How a decimal is laid out: the exponents of the first digit that are written positionally.
A whole number keeps one decimal place. A written exponent keeps its sign and has no leading
zeros. -/
structure NumberLayout where
  leastPositional : Int
  greatestPositional : Int

def NumberLayout.plain : NumberLayout := ⟨-5, 15⟩

namespace NumberLayout

/-- The text of the digits with a point after the first `lead + 1` of them. -/
def positional (digits : List Char) (lead : Int) : List Char :=
  match lead with
  | .negSucc k => ['0', '.'] ++ List.replicate k '0' ++ digits
  | .ofNat k =>
      let whole := digits.take (k + 1)
      let fraction := digits.drop (k + 1)
      whole ++ List.replicate (k + 1 - whole.length) '0' ++ ['.']
        ++ (if fraction.isEmpty then ['0'] else fraction)

def scientific (digits : List Char) (lead : Int) : List Char :=
  let fraction := digits.drop 1
  digits.take 1 ++ (if fraction.isEmpty then [] else '.' :: fraction)
    ++ ['e', if lead < 0 then '-' else '+'] ++ Nat.toDigits 10 lead.natAbs

def format (layout : NumberLayout) (d : Decimal) : String :=
  let written := Nat.toDigits 10 d.digits
  let digits := (written.reverse.dropWhile (· = '0')).reverse
  let lead := d.exponent + ((written.length : Int) - 1)
  String.ofList <|
    if digits.isEmpty then ['0', '.', '0']
    else if layout.leastPositional ≤ lead && lead ≤ layout.greatestPositional then
      positional digits lead
    else scientific digits lead

end NumberLayout

/-- The text of a finite number. -/
def shortestText (layout : NumberLayout) (negative : Bool) (quanta : Nat) : String :=
  (if negative then "-" else "")
    ++ layout.format (if quanta = 0 then ⟨0, 0⟩ else Decimal.shortest quanta)

end TrackedDelivery.Number
