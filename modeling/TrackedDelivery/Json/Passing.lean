import TrackedDelivery.Json.Token
/-!
# Passing over a value

A value that nobody reads is checked against the grammar only. The containers that are open form
a stack, so nesting is not limited.
-/
namespace TrackedDelivery.Json

inductive Frame
  | array
  | object
  deriving DecidableEq, Repr

/-- What may stand next. -/
inductive Awaited
  | value
  | elementOrEnd
  | keyOrEnd
  | key
  | colon
  | commaOrEnd
  deriving DecidableEq, Repr

/-- The state after a value: nothing is awaited once all containers are closed. -/
def afterValue : List Frame → Option (List Frame × Awaited)
  | [] => none
  | frame :: outer => some (frame :: outer, .commaOrEnd)

/-- Begins a value, or passes it if it is one token. -/
def passValue (stack : List Frame) : Token → Except Fault (Option (List Frame × Awaited))
  | .openObject => .ok (some (.object :: stack, .keyOrEnd))
  | .openArray => .ok (some (.array :: stack, .elementOrEnd))
  | .word word => word.map fun _ => afterValue stack
  | .text _ skipped => skipped.map fun _ => afterValue stack
  | .number _ skipped => skipped.map fun _ => afterValue stack
  | _ => .error .malformed

/-- Passes one token; `none` means that the value is complete. -/
def passToken (stack : List Frame) (awaited : Awaited) (t : Token) :
    Except Fault (Option (List Frame × Awaited)) :=
  match awaited, t, stack with
  | .value, t, stack => passValue stack t
  | .elementOrEnd, .closeArray, _ :: outer => .ok (afterValue outer)
  | .elementOrEnd, t, stack => passValue stack t
  | .keyOrEnd, .closeObject, _ :: outer => .ok (afterValue outer)
  | .keyOrEnd, .text _ skipped, stack => skipped.map fun _ => some (stack, .colon)
  | .key, .text _ skipped, stack => skipped.map fun _ => some (stack, .colon)
  | .colon, .colon, stack => .ok (some (stack, .value))
  | .commaOrEnd, .comma, .array :: outer => .ok (some (.array :: outer, .value))
  | .commaOrEnd, .comma, .object :: outer => .ok (some (.object :: outer, .key))
  | .commaOrEnd, .closeArray, .array :: outer => .ok (afterValue outer)
  | .commaOrEnd, .closeObject, .object :: outer => .ok (afterValue outer)
  | _, _, _ => .error .malformed

/-- Passes tokens until the value is complete, and returns those that follow it. -/
def passTokens (stack : List Frame) (awaited : Awaited) : List Token → Except Fault (List Token)
  | [] => .error .endOfInput
  | t :: rest =>
      match passToken stack awaited t with
      | .error fault => .error fault
      | .ok none => .ok rest
      | .ok (some (stack, awaited)) => passTokens stack awaited rest

/-- What follows the value at the start of the tokens. -/
def skipValue (ts : List Token) : Except Fault (List Token) := passTokens [] .value ts

theorem length_passTokens {stack : List Frame} {awaited : Awaited} {ts rest : List Token}
    (h : passTokens stack awaited ts = .ok rest) : rest.length < ts.length := by
  induction ts generalizing stack awaited with
  | nil => cases h
  | cons t ts ih =>
    rw [passTokens] at h
    split at h
    · cases h
    · cases h; simp
    · exact Nat.lt_succ_of_lt (ih h)

theorem length_skipValue {ts rest : List Token} (h : skipValue ts = .ok rest) :
    rest.length < ts.length := length_passTokens h

end TrackedDelivery.Json
