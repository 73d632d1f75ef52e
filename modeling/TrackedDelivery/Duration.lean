import TrackedDelivery.Number.Unsigned
import TrackedDelivery.Number.Binary64
import TrackedDelivery.Text.Quoted
/-!
# Durations

A duration is written as a sequence of components, each a decimal number directly followed by a
unit, such as `1m30s` or `1.5h`; a single `0` needs no unit and one plus sign may stand in front.
The value is a number of nanoseconds: the components are summed in order in binary64 arithmetic
and the sum is rounded to the nearest integer.
-/
namespace TrackedDelivery.Duration
open Number

inductive Fault
  | negative
  | empty
  | missingUnit
  | missingNumber
  | invalidNumber
  | unknownUnit (unit : String)
  | outOfRange
  deriving DecidableEq, Repr

def Fault.message (value : String) : Fault → String
  | .negative => "duration must not be negative"
  | .empty => "empty duration"
  | .missingUnit => s!"missing unit in duration {Text.quoted value}"
  | .missingNumber => s!"expected a number in duration {Text.quoted value}"
  | .invalidNumber => s!"invalid number in duration {Text.quoted value}"
  | .unknownUnit unit =>
      s!"unknown unit {Text.quoted unit} in duration {Text.quoted value}"
  | .outOfRange => s!"duration {Text.quoted value} is out of range"

inductive TimeUnit
  | nanosecond
  | microsecond
  | millisecond
  | second
  | minute
  | hour
  deriving DecidableEq, Repr

def TimeUnit.nanoseconds : TimeUnit → Nat
  | .nanosecond => 1
  | .microsecond => 1000
  | .millisecond => 1000000
  | .second => 1000000000
  | .minute => 60000000000
  | .hour => 3600000000000

/-- Both the micro sign and the Greek letter mu stand for a millionth. -/
def TimeUnit.ofChars? : List Char → Option TimeUnit
  | ['n', 's'] => some .nanosecond
  | ['u', 's'] => some .microsecond
  | ['\u00b5', 's'] => some .microsecond
  | ['\u03bc', 's'] => some .microsecond
  | ['m', 's'] => some .millisecond
  | ['s'] => some .second
  | ['m'] => some .minute
  | ['h'] => some .hour
  | _ => none

def isNumberChar (c : Char) : Bool := c.isDigit || c = '.'

/-- The value of a run of digits, read one by one. -/
def readValue (cs : List Char) : Nat :=
  cs.foldl (fun value c => value * 10 + digitValue c) 0

theorem readValue_concat (cs : List Char) (c : Char) :
    readValue (cs ++ [c]) = readValue cs * 10 + digitValue c := by simp [readValue]

theorem readValue_append (cs ds : List Char) :
    readValue (cs ++ ds) = readValue cs * Nat.pow 10 ds.length + readValue ds := by
  induction ds generalizing cs with
  | nil => simp [readValue]
  | cons d ds ih =>
    have h := ih [d]
    rw [List.singleton_append] at h
    rw [List.append_cons, ih, readValue_concat, h, List.length_cons, Nat.pow_eq, Nat.pow_eq,
      Nat.pow_succ]
    simp only [readValue, List.foldl_cons, List.foldl_nil]
    grind

/-- The value of a run of digits. A long run is halved, so that few large products are needed. -/
def digitsValue (cs : List Char) : Nat :=
  if cs.length ≤ 64 then readValue cs
  else
    let half := cs.length / 2
    digitsValue (cs.take half) * Nat.pow 10 (cs.length - half) + digitsValue (cs.drop half)
termination_by cs.length
decreasing_by
  · simp only [List.length_take]; omega
  · simp only [List.length_drop]; omega

@[simp] theorem digitsValue_eq_readValue (cs : List Char) : digitsValue cs = readValue cs := by
  fun_induction digitsValue cs with
  | case1 => rfl
  | case2 cs _ half ih₁ ih₂ =>
    rw [ih₁, ih₂, ← List.length_drop, ← readValue_append, List.take_append_drop]

/-- A number is a run of digits with at most one point in it and at least one digit. -/
def readNumber (cs : List Char) : Option Binary64 :=
  let whole := cs.takeWhile (· ≠ '.')
  let fraction := (cs.dropWhile (· ≠ '.')).drop 1
  if fraction.contains '.' || (whole ++ fraction).isEmpty then none
  else some (Binary64.ofDecimal (digitsValue (whole ++ fraction)) fraction.length)

theorem length_dropWhile_lt {α : Type} {p : α → Bool} {xs : List α}
    (h : (xs.takeWhile p).isEmpty = false) : (xs.dropWhile p).length < xs.length := by
  cases xs with
  | nil => simp at h
  | cons x rest =>
    by_cases hx : p x
    · rw [List.dropWhile_cons_of_pos hx]
      exact Nat.lt_succ_of_le (List.dropWhile_suffix (l := rest) p).length_le
    · simp [hx] at h

/-- Adds the components written in the characters to the sum so far. -/
def addComponents (sum : Binary64) (cs : List Char) : Except Fault Binary64 :=
  if cs.isEmpty then .ok sum
  else
    let number := cs.takeWhile isNumberChar
    let afterNumber := cs.dropWhile isNumberChar
    if afterNumber.isEmpty then .error .missingUnit
    else if _h : number.isEmpty = true then .error .missingNumber
    else
      match readNumber number with
      | none => .error .invalidNumber
      | some count =>
        let unit := afterNumber.takeWhile (!isNumberChar ·)
        match TimeUnit.ofChars? unit with
        | none => .error (.unknownUnit (String.ofList unit))
        | some u =>
          addComponents (sum.add (count.mul (Binary64.ofNat u.nanoseconds)))
            (afterNumber.dropWhile (!isNumberChar ·))
termination_by cs.length
decreasing_by
  have h1 := length_dropWhile_lt (Bool.eq_false_iff.mpr _h)
  have h2 := (List.dropWhile_suffix (l := cs.dropWhile isNumberChar) (!isNumberChar ·)).length_le
  exact Nat.lt_of_le_of_lt h2 h1

/-- The number of nanoseconds nearest to the sum. A sum above 2^64 is out of range and one of
exactly 2^64 counts as the largest value. -/
def ofSum : Binary64 → Except Fault Nat
  | .infinite => .error .outOfRange
  | .finite quanta =>
      if UInt64.size * Binary64.unit < quanta then .error .outOfRange
      else .ok (min (Binary64.roundHalfUp quanta) maxWord64)

def ofChars (cs : List Char) : Except Fault Nat :=
  match cs with
  | ['0'] => .ok 0
  | '-' :: _ => .error .negative
  | _ =>
    let components := if cs.head? = some '+' then cs.tail else cs
    if components.isEmpty then .error .empty
    else (addComponents .zero components).bind ofSum

/-- The duration that a text stands for, in nanoseconds. -/
def parse (s : String) : Except Fault Nat := ofChars s.toList

end TrackedDelivery.Duration
