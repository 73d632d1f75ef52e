/-!
# Blank characters

The Unicode property White_Space, and the removal of such characters at both ends of a text.
-/
namespace TrackedDelivery.Text

/-- The characters with the property White_Space, as inclusive ranges of code points. -/
def blankRanges : List (Nat × Nat) :=
  [(0x9, 0xD), (0x20, 0x20), (0x85, 0x85), (0xA0, 0xA0), (0x1680, 0x1680), (0x2000, 0x200A),
   (0x2028, 0x2029), (0x202F, 0x202F), (0x205F, 0x205F), (0x3000, 0x3000)]

def isBlank (c : Char) : Bool :=
  blankRanges.any fun r => r.1 ≤ c.toNat && c.toNat ≤ r.2

def trimChars (cs : List Char) : List Char :=
  ((cs.dropWhile isBlank).reverse.dropWhile isBlank).reverse

/-- The text without the blanks that it begins and ends with. -/
def trim (s : String) : String := String.ofList (trimChars s.toList)

@[simp] theorem trimChars_nil : trimChars [] = [] := rfl

@[simp] theorem trim_empty : trim "" = "" := rfl

theorem dropWhile_isBlank_eq_nil {cs : List Char} (h : ∀ c ∈ cs, isBlank c = true) :
    cs.dropWhile isBlank = [] := by
  rw [← List.append_nil cs, List.dropWhile_append_of_pos h, List.dropWhile_nil]

/-- Blanks at both ends of a text change nothing, also if all of it is blank. -/
theorem trimChars_append {front cs back : List Char} (hfront : ∀ c ∈ front, isBlank c = true)
    (hback : ∀ c ∈ back, isBlank c = true) :
    trimChars (front ++ cs ++ back) = trimChars cs := by
  rw [trimChars, List.append_assoc, List.dropWhile_append_of_pos hfront, List.dropWhile_append]
  split
  case isTrue h =>
    rw [dropWhile_isBlank_eq_nil hback, trimChars, List.isEmpty_iff.mp h]
  case isFalse =>
    have hreversed : ∀ c ∈ back.reverse, isBlank c = true := by simpa using hback
    rw [List.reverse_append, List.dropWhile_append_of_pos hreversed]
    rfl

theorem trim_append {front back : String} (s : String)
    (hfront : ∀ c ∈ front.toList, isBlank c = true)
    (hback : ∀ c ∈ back.toList, isBlank c = true) : trim (front ++ s ++ back) = trim s := by
  rw [trim, String.toList_append, String.toList_append, trimChars_append hfront hback]
  rfl

/-- A blank text is trimmed to nothing. -/
theorem trim_of_blank {s : String} (h : ∀ c ∈ s.toList, isBlank c = true) : trim s = "" := by
  have hnone : trim (s ++ "" ++ "") = trim "" := trim_append "" h (by simp)
  rwa [String.append_empty, String.append_empty] at hnone

end TrackedDelivery.Text
