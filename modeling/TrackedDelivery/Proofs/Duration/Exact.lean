import TrackedDelivery.Proofs.Duration.Grammar
import TrackedDelivery.Proofs.Number.Exact
import Mathlib.Algebra.Order.BigOperators.Group.List
import Mathlib.Algebra.Order.Group.Nat
import Mathlib.Algebra.GroupWithZero.Nat
/-!
# Durations of whole numbers

The value of a duration is computed in binary64, where the order of the terms may matter. It does
not matter for whole numbers of units that make 2^53 nanoseconds at the most: then every count,
every product and every sum is a whole number that is not rounded, so the value is the total itself.
-/
namespace TrackedDelivery.Duration
open Number Binary64

/-- A whole number of a unit as it may be written, with zeros in front of the digits. -/
structure WholeComponent where
  zeros : ℕ
  count : ℕ
  unit : TimeUnit
  spelling : List Char
  spells : spelling ∈ unit.spellings

namespace WholeComponent

def number (k : WholeComponent) : List Char :=
  List.replicate k.zeros '0' ++ Nat.toDigits 10 k.count

def chars (k : WholeComponent) : List Char := k.number ++ k.spelling

def nanoseconds (k : WholeComponent) : ℕ := k.count * k.unit.nanoseconds

theorem isDigit_of_mem_number {k : WholeComponent} {c : Char} (hc : c ∈ k.number) :
    c.isDigit = true := by
  rcases List.mem_append.mp hc with hc | hc
  · rw [List.eq_of_mem_replicate hc]
    rfl
  · exact Nat.isDigit_of_mem_toDigits (by decide) (by decide) hc

theorem point_notMem_number (k : WholeComponent) : '.' ∉ k.number := fun h =>
  absurd (isDigit_of_mem_number h) (by decide)

theorem number_ne_nil (k : WholeComponent) : k.number ≠ [] :=
  List.append_ne_nil_of_right_ne_nil _ Nat.toDigits_ne_nil

theorem isNumber_number (k : WholeComponent) : IsNumber k.number where
  chars c hc := .inl (isDigit_of_mem_number hc)
  digit := by
    obtain ⟨c, hc⟩ := List.exists_mem_of_ne_nil _ k.number_ne_nil
    exact ⟨c, hc, isDigit_of_mem_number hc⟩
  points := by
    rw [List.count_eq_zero.mpr k.point_notMem_number]
    exact Nat.zero_le 1

/-- The component as the grammar has it. -/
def toComponent (k : WholeComponent) : Component :=
  ⟨k.number, k.unit, k.spelling, k.isNumber_number, k.spells⟩

end WholeComponent

/-! ## The digits -/

theorem readValue_eq_ofDigitChars (cs : List Char) : readValue cs = Nat.ofDigitChars 10 cs 0 := by
  have hstep : (fun value c => value * 10 + digitValue c)
      = fun value (c : Char) => 10 * value + (c.toNat - '0'.toNat) := by
    funext value c
    rw [Nat.mul_comm]
    rfl
  rw [readValue, hstep]
  rfl

theorem readValue_replicate_zero (n : ℕ) : readValue (List.replicate n '0') = 0 := by
  induction n with
  | zero => rfl
  | succ n ih =>
      rw [List.replicate_succ', readValue_concat, ih]
      rfl

/-- Leading zeros do not count. -/
theorem WholeComponent.readValue_number (k : WholeComponent) : readValue k.number = k.count := by
  rw [number, readValue_append, readValue_replicate_zero, readValue_eq_ofDigitChars,
    Nat.ofDigitChars_ten_toDigits, Nat.zero_mul, Nat.zero_add]

/-! ## The numbers on the way -/

theorem TimeUnit.one_le_nanoseconds (u : TimeUnit) : 1 ≤ u.nanoseconds := by cases u <;> decide

namespace WholeComponent

theorem count_le_nanoseconds (k : WholeComponent) : k.count ≤ k.nanoseconds :=
  Nat.le_mul_of_pos_right k.count k.unit.one_le_nanoseconds

theorem count_toComponent {k : WholeComponent} (h : k.nanoseconds ≤ 2 ^ 53) :
    k.toComponent.count = whole k.count := by
  have hread := k.toComponent.readNumber_eq
  have hne : k.number.isEmpty = false := by simpa using k.number_ne_nil
  change readNumber k.number = _ at hread
  rw [readNumber_of_no_point k.point_notMem_number, hne, digitsValue_eq_readValue,
    k.readValue_number, ofDecimal_whole (k.count_le_nanoseconds.trans h)] at hread
  exact (Option.some.inj hread).symm

theorem unit_toComponent (k : WholeComponent) :
    Binary64.ofNat k.toComponent.unit.nanoseconds = whole k.unit.nanoseconds :=
  ofNat_whole (by cases hu : k.unit <;> simp [toComponent, hu, TimeUnit.nanoseconds])

theorem value_toComponent {k : WholeComponent} (h : k.nanoseconds ≤ 2 ^ 53) :
    k.toComponent.value = whole k.nanoseconds := by
  rw [Component.value, count_toComponent h, unit_toComponent, mul_whole h]
  rfl

end WholeComponent

/-- The text of whole numbers of units, one after another. -/
def text (ks : List WholeComponent) : String := String.ofList (ks.flatMap WholeComponent.chars)

/-- How long they are together. -/
def nanoseconds (ks : List WholeComponent) : ℕ := (ks.map WholeComponent.nanoseconds).sum

theorem toList_text (ks : List WholeComponent) :
    (text ks).toList = written (ks.map WholeComponent.toComponent) := by
  rw [text, String.toList_ofList, written, List.flatMap_map]
  rfl

@[simp] theorem text_append (ks ls : List WholeComponent) :
    text (ks ++ ls) = text ks ++ text ls := by
  rw [text, List.flatMap_append, String.ofList_append]
  rfl

@[simp] theorem nanoseconds_append (ks ls : List WholeComponent) :
    nanoseconds (ks ++ ls) = nanoseconds ks + nanoseconds ls := by
  rw [nanoseconds, List.map_append, List.sum_append]
  rfl

theorem nanoseconds_perm {ks ls : List WholeComponent} (h : ks.Perm ls) :
    nanoseconds ks = nanoseconds ls :=
  (h.map _).sum_eq

/-- As long as the total is not larger than 2^53, no term and no sum is rounded. -/
theorem foldl_whole {ks : List WholeComponent} {n : ℕ} (h : n + nanoseconds ks ≤ 2 ^ 53) :
    (ks.map WholeComponent.toComponent).foldl (fun sum k => sum.add k.value) (whole n) =
      whole (n + nanoseconds ks) := by
  induction ks generalizing n with
  | nil => rfl
  | cons k rest ih =>
      have htotal : nanoseconds (k :: rest) = k.nanoseconds + nanoseconds rest := List.sum_cons
      rw [htotal, ← Nat.add_assoc] at h ⊢
      -- The limit on the total is one on each term and on the sum up to it.
      have hvalue : k.toComponent.value = whole k.nanoseconds :=
        WholeComponent.value_toComponent (by omega)
      rw [List.map_cons, List.foldl_cons, hvalue, add_whole (by omega)]
      exact ih h

theorem addComponents_text {ks : List WholeComponent} (h : nanoseconds ks ≤ 2 ^ 53) :
    addComponents .zero (text ks).toList = .ok (whole (nanoseconds ks)) := by
  rw [toList_text, addComponents_written, zero_eq_whole, foldl_whole (by omega), Nat.zero_add]

theorem ofSum_whole {n : ℕ} (h : n ≤ 2 ^ 53) : ofSum (whole n) = .ok n := by
  have hrange : n ≤ maxWord64 := h.trans (by decide)
  have hfits : ¬UInt64.size * Binary64.unit < n * Binary64.unit :=
    Nat.not_lt.mpr (Nat.mul_le_mul_right _ (h.trans (by decide)))
  rw [whole, ofSum, if_neg hfits, roundHalfUp_whole, Nat.min_eq_left hrange]

theorem parse_text {ks : List WholeComponent} (hne : ks ≠ []) (h : nanoseconds ks ≤ 2 ^ 53)
    {sign : String} (hsign : sign = "" ∨ sign = "+") :
    parse (sign ++ text ks) = .ok (nanoseconds ks) := by
  have hchars : sign.toList = [] ∨ sign.toList = ['+'] := by
    rcases hsign with rfl | rfl
    · exact .inl rfl
    · exact .inr rfl
  have hcomponents : ks.map WholeComponent.toComponent ≠ [] := mt List.map_eq_nil_iff.mp hne
  rw [parse, String.toList_append, toList_text, ofChars_sign_append hchars hcomponents,
    zero_eq_whole, foldl_whole (by omega), Nat.zero_add, ofSum_whole h]

theorem parse_unsigned {ks : List WholeComponent} (hne : ks ≠ [])
    (h : nanoseconds ks ≤ 2 ^ 53) : parse (text ks) = .ok (nanoseconds ks) := by
  have hparse := parse_text hne h (.inl rfl)
  rwa [String.empty_append] at hparse

/-- Whole numbers of units that make at most 2^53 nanoseconds have exactly their total for a value,
with a plus sign in front and without one. So neither the split into components nor their order
matters, and the values of two durations add up when one is written behind the other. On the way
every count, every product and every sum is a whole number up to 2^53. -/
theorem parse_whole_exact {ks : List WholeComponent} (hne : ks ≠ [])
    (hexact : nanoseconds ks ≤ 2 ^ 53) {sign : String} (hsign : sign = "" ∨ sign = "+") :
    parse (sign ++ text ks) = .ok (nanoseconds ks) ∧
    (∀ ls, ls ≠ [] → nanoseconds ls = nanoseconds ks →
      parse (text ls) = parse (sign ++ text ks)) ∧
    (∀ ls, ls.Perm ks → parse (text ls) = parse (sign ++ text ks)) ∧
    (∀ ls, ls ≠ [] → nanoseconds ks + nanoseconds ls ≤ 2 ^ 53 →
      ∃ m n, parse (sign ++ text ks) = .ok m ∧ parse (text ls) = .ok n ∧
        parse (sign ++ text ks ++ text ls) = .ok (m + n)) ∧
    (∀ k ∈ ks, k.nanoseconds ≤ 2 ^ 53 ∧ k.toComponent.count = whole k.count ∧
      k.toComponent.value = whole k.nanoseconds) ∧
    ∀ ls, ls <+: ks → nanoseconds ls ≤ 2 ^ 53 ∧
      addComponents .zero (text ls).toList = .ok (whole (nanoseconds ls)) := by
  have hparse := parse_text hne hexact hsign
  have hsame : ∀ ls, ls ≠ [] → nanoseconds ls = nanoseconds ks →
      parse (text ls) = parse (sign ++ text ks) := by
    intro ls hls htotal
    rw [parse_unsigned hls (htotal ▸ hexact), hparse, htotal]
  refine ⟨hparse, hsame, fun ls hperm => ?_, fun ls hls hsum => ?_, fun k hk => ?_,
    fun ls hls => ?_⟩
  · have hls : ls ≠ [] := by
      rintro rfl
      exact hne hperm.nil_eq.symm
    exact hsame ls hls (nanoseconds_perm hperm)
  · have hboth : parse (sign ++ text (ks ++ ls)) = .ok (nanoseconds (ks ++ ls)) :=
      parse_text (List.append_ne_nil_of_left_ne_nil hne ls) (by rwa [nanoseconds_append]) hsign
    rw [text_append, nanoseconds_append, ← String.append_assoc] at hboth
    exact ⟨_, _, hparse, parse_unsigned hls (by omega), hboth⟩
  · have hle : k.nanoseconds ≤ nanoseconds ks := List.le_sum_of_mem (List.mem_map_of_mem hk)
    exact ⟨hle.trans hexact, WholeComponent.count_toComponent (hle.trans hexact),
      WholeComponent.value_toComponent (hle.trans hexact)⟩
  · obtain ⟨rest, rfl⟩ := hls
    rw [nanoseconds_append] at hexact
    have hle : nanoseconds ls ≤ 2 ^ 53 := Nat.le_trans (Nat.le_add_right _ _) hexact
    exact ⟨hle, addComponents_text hle⟩

/-- Each unit once, with zeros in front of some numbers, up to the last nanosecond of the limit. -/
def upToLimit : List WholeComponent :=
  [⟨2, 2501, .hour, ['h'], by decide⟩, ⟨0, 59, .minute, ['m'], by decide⟩,
    ⟨0, 59, .second, ['s'], by decide⟩, ⟨1, 254, .millisecond, ['m', 's'], by decide⟩,
    ⟨0, 740, .microsecond, ['\u00b5', 's'], by decide⟩,
    ⟨0, 992, .nanosecond, ['n', 's'], by decide⟩]

theorem parse_upToLimit :
    parse "+002501h59m59s0254ms740µs992ns" = .ok (2 ^ 53) ∧
      parse "992ns740µs0254ms59s59m002501h" = .ok (2 ^ 53) := by
  have htext : "+" ++ text upToLimit = "+002501h59m59s0254ms740µs992ns" := by decide
  have hreversed : text upToLimit.reverse = "992ns740µs0254ms59s59m002501h" := by decide
  have htotal : nanoseconds upToLimit = 2 ^ 53 := by decide
  have hne : upToLimit ≠ [] := List.cons_ne_nil _ _
  obtain ⟨hparse, -, hperm, -⟩ := parse_whole_exact hne (Nat.le_of_eq htotal) (.inr rfl)
  have hother := hperm upToLimit.reverse (List.reverse_perm _)
  rw [htext, htotal] at hparse
  rw [hreversed, htext, hparse] at hother
  exact ⟨hparse, hother⟩

/-- One nanosecond more is rounded away. -/
example : parse "9007199254740993ns" = .ok (2 ^ 53) := by decide +kernel

end TrackedDelivery.Duration
