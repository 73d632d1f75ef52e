import TrackedDelivery.Json.Passing
import TrackedDelivery.Proofs.Json.Lexing
/-!
# Values that nobody reads

To pass over the tokens of a value is to end right after them, however deep the value is nested:
the containers that were open before it are open after it.
-/
namespace TrackedDelivery.Json

/-- Goes on after a token, unless the value is complete. -/
def resume : Option (List Frame × Awaited) → List Token → Except Fault (List Token)
  | none, rest => .ok rest
  | some (stack, awaited), rest => passTokens stack awaited rest

theorem resume_some (stack : List Frame) (awaited : Awaited) (rest : List Token) :
    resume (some (stack, awaited)) rest = passTokens stack awaited rest := rfl

theorem passTokens_cons {stack : List Frame} {awaited : Awaited} {t : Token}
    {state : Option (List Frame × Awaited)} (h : passToken stack awaited t = .ok state)
    (rest : List Token) : passTokens stack awaited (t :: rest) = resume state rest := by
  rw [passTokens, h]
  cases state <;> rfl

/-- No value begins as an array ends. -/
theorem passTokens_elementOrEnd (v : Value) (stack : List Frame) (rest : List Token) :
    passTokens stack .elementOrEnd (v.tokens ++ rest) =
      passTokens stack .value (v.tokens ++ rest) := by
  have hfirst : ∃ t tail, v.tokens ++ rest = t :: tail ∧
      passToken stack .elementOrEnd t = passToken stack .value t := by
    match v with
    | .null | .boolean _ | .number _ | .text _ | .array [] | .object [] => exact ⟨_, _, rfl, rfl⟩
    | .array (_ :: _) | .object ((_, _) :: _) => exact ⟨_, _, rfl, rfl⟩
  obtain ⟨t, tail, heq, hsame⟩ := hfirst
  rw [heq, passTokens, passTokens, hsame]

/-! ## Tokens of containers -/

def elementTokens (elements : List Value) : List Token := (moreElements elements).map Lexeme.token

def memberTokens (members : List (String × Value)) : List Token :=
  (moreMembers members).map Lexeme.token

section

variable (v : Value) (key : String) (elements : List Value) (members : List (String × Value))
  (rest : List Token)

theorem tokens_array_cons : (Value.array (v :: elements)).tokens ++ rest =
    .openArray :: (v.tokens ++ (elementTokens elements ++ rest)) := by
  simp [Value.tokens, Value.lexemes, elementTokens, Lexeme.token]

theorem elementTokens_cons : elementTokens (v :: elements) ++ rest =
    .comma :: (v.tokens ++ (elementTokens elements ++ rest)) := by
  simp [Value.tokens, moreElements, elementTokens, Lexeme.token]

theorem tokens_object_cons : (Value.object ((key, v) :: members)).tokens ++ rest =
    .openObject :: .text (.ok key) (.ok ()) :: .colon ::
      (v.tokens ++ (memberTokens members ++ rest)) := by
  simp [Value.tokens, Value.lexemes, memberTokens, Lexeme.token]

theorem memberTokens_cons : memberTokens ((key, v) :: members) ++ rest =
    .comma :: .text (.ok key) (.ok ()) :: .colon ::
      (v.tokens ++ (memberTokens members ++ rest)) := by
  simp [Value.tokens, moreMembers, memberTokens, Lexeme.token]

end

/-! ## Passing over a value -/

mutual

theorem passTokens_value : ∀ (v : Value) (stack : List Frame) (rest : List Token),
    passTokens stack .value (v.tokens ++ rest) = resume (afterValue stack) rest
  | .null, stack, rest | .boolean _, stack, rest | .text _, stack, rest
  | .number _, stack, rest => passTokens_cons rfl rest
  | .array [], stack, rest => by
      change passTokens stack .value (.openArray :: .closeArray :: rest) = _
      rw [passTokens_cons rfl, resume_some, passTokens_cons rfl]
  | .array (v :: elements), stack, rest => by
      rw [tokens_array_cons, passTokens_cons rfl, resume_some, passTokens_elementOrEnd,
        passTokens_value v]
      exact passTokens_elements elements stack rest
  | .object [], stack, rest => by
      change passTokens stack .value (.openObject :: .closeObject :: rest) = _
      rw [passTokens_cons rfl, resume_some, passTokens_cons rfl]
  | .object ((key, v) :: members), stack, rest => by
      rw [tokens_object_cons, passTokens_cons rfl, resume_some, passTokens_cons rfl, resume_some,
        passTokens_cons rfl, resume_some, passTokens_value v]
      exact passTokens_members members stack rest

theorem passTokens_elements : ∀ (elements : List Value) (outer : List Frame) (rest : List Token),
    passTokens (.array :: outer) .commaOrEnd (elementTokens elements ++ rest) =
      resume (afterValue outer) rest
  | [], outer, rest => passTokens_cons rfl rest
  | v :: elements, outer, rest => by
      rw [elementTokens_cons, passTokens_cons rfl, resume_some, passTokens_value v]
      exact passTokens_elements elements outer rest

theorem passTokens_members : ∀ (members : List (String × Value)) (outer : List Frame)
    (rest : List Token),
    passTokens (.object :: outer) .commaOrEnd (memberTokens members ++ rest) =
      resume (afterValue outer) rest
  | [], outer, rest => passTokens_cons rfl rest
  | (key, v) :: members, outer, rest => by
      rw [memberTokens_cons, passTokens_cons rfl, resume_some, passTokens_cons rfl, resume_some,
        passTokens_cons rfl, resume_some, passTokens_value v]
      exact passTokens_members members outer rest

end

/-- A value is passed over to its end. -/
theorem skipValue_append (v : Value) (rest : List Token) :
    skipValue (v.tokens ++ rest) = .ok rest :=
  passTokens_value v [] rest

end TrackedDelivery.Json
