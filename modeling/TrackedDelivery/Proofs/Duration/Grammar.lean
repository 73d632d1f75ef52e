import TrackedDelivery.Duration
import Mathlib.Data.List.TakeWhile
/-!
# The grammar of durations

A component is a number, that is a run of digits with at most one point in it and at least one
digit, directly followed by a spelling of a unit. A text of components is read to its end with
their values added in order, and a text that is read to its end is one of components. The reading
never stops because of the size of the sum: this is looked at afterwards.
-/
namespace TrackedDelivery.Duration
open Number

/-- The ways in which a unit is spelled: a millionth with a letter, the micro sign or the Greek
letter. -/
def TimeUnit.spellings : TimeUnit → List (List Char)
  | .nanosecond => [['n', 's']]
  | .microsecond => [['u', 's'], ['\u00b5', 's'], ['\u03bc', 's']]
  | .millisecond => [['m', 's']]
  | .second => [['s']]
  | .minute => [['m']]
  | .hour => [['h']]

theorem TimeUnit.ofChars?_eq_some {cs : List Char} {u : TimeUnit} :
    TimeUnit.ofChars? cs = some u ↔ cs ∈ u.spellings := by
  constructor
  · intro h
    unfold TimeUnit.ofChars? at h
    split at h <;> cases h <;> decide
  · intro h
    cases u <;> simp only [spellings, List.mem_cons, List.not_mem_nil, or_false] at h
    case microsecond => rcases h with rfl | rfl | rfl <;> rfl
    all_goals subst h; rfl

theorem TimeUnit.ne_nil_of_spelling {cs : List Char} {u : TimeUnit} (h : cs ∈ u.spellings) :
    cs ≠ [] := by
  rintro rfl
  cases TimeUnit.ofChars?_eq_some.mpr h

/-- No character of a unit could stand in a number. -/
theorem TimeUnit.not_isNumberChar_of_spelling {cs : List Char} {u : TimeUnit}
    (h : cs ∈ u.spellings) : ∀ c ∈ cs, isNumberChar c = false := by
  have hall : u.spellings.all (·.all (!isNumberChar ·)) = true := by cases u <;> rfl
  intro c hc
  simpa using List.all_eq_true.mp (List.all_eq_true.mp hall cs h) c hc

/-- A run of digits with at most one point in it and at least one digit. -/
structure IsNumber (cs : List Char) : Prop where
  chars : ∀ c ∈ cs, c.isDigit = true ∨ c = '.'
  digit : ∃ c ∈ cs, c.isDigit = true
  points : cs.count '.' ≤ 1

theorem isNumberChar_iff {c : Char} : isNumberChar c = true ↔ c.isDigit = true ∨ c = '.' := by
  simp [isNumberChar]

theorem IsNumber.isNumberChar {cs : List Char} (h : IsNumber cs) :
    ∀ c ∈ cs, isNumberChar c = true :=
  fun c hc => isNumberChar_iff.mpr (h.chars c hc)

theorem IsNumber.ne_nil {cs : List Char} (h : IsNumber cs) : cs ≠ [] := by
  rintro rfl
  obtain ⟨c, hc, -⟩ := h.digit
  exact List.not_mem_nil hc

/-- A scan goes over the characters with the property and stops at the first one without it. -/
theorem scan_append {p : Char → Bool} {xs ys : List Char} (hxs : ∀ c ∈ xs, p c = true)
    (hys : ∀ c ∈ ys.head?, p c = false) :
    (xs ++ ys).takeWhile p = xs ∧ (xs ++ ys).dropWhile p = ys := by
  rw [List.takeWhile_append_of_pos hxs, List.dropWhile_append_of_pos hxs]
  cases ys with
  | nil => simp
  | cons y rest =>
      have hy : p y = false := hys y rfl
      simp [hy]

theorem readNumber_of_no_point {cs : List Char} (h : '.' ∉ cs) :
    readNumber cs =
      if cs.isEmpty then none else some (Binary64.ofDecimal (digitsValue cs) 0) := by
  have hall : ∀ c ∈ cs, decide (c ≠ '.') = true := fun c hc =>
    decide_eq_true fun hpoint => h (hpoint ▸ hc)
  rw [readNumber, List.takeWhile_eq_self_iff.mpr hall, List.dropWhile_eq_nil_iff.mpr hall]
  simp

theorem readNumber_of_point {whole fraction : List Char} (h : '.' ∉ whole) :
    readNumber (whole ++ '.' :: fraction) =
      if fraction.contains '.' || (whole ++ fraction).isEmpty then none
      else some (Binary64.ofDecimal (digitsValue (whole ++ fraction)) fraction.length) := by
  have hall : ∀ c ∈ whole, decide (c ≠ '.') = true := fun c hc =>
    decide_eq_true fun hpoint => h (hpoint ▸ hc)
  have hhead : ∀ c ∈ ('.' :: fraction).head?, decide (c ≠ '.') = false := by simp
  obtain ⟨htake, hdrop⟩ := scan_append hall hhead
  rw [readNumber, htake, hdrop]
  rfl

/-- A run of digits and points has a value exactly if it is a number. -/
theorem isSome_readNumber_iff {cs : List Char}
    (hcs : ∀ c ∈ cs, c.isDigit = true ∨ c = '.') :
    (readNumber cs).isSome = true ↔ IsNumber cs := by
  by_cases hpoint : '.' ∈ cs
  · obtain ⟨whole, fraction, rfl, hwhole⟩ := List.eq_append_cons_of_mem hpoint
    have hcount : (whole ++ '.' :: fraction).count '.' = 1 + fraction.count '.' := by
      rw [List.count_append, List.count_eq_zero.mpr hwhole, List.count_cons_self]
      omega
    rw [readNumber_of_point hwhole]
    constructor
    · intro h
      obtain ⟨hfraction, hne⟩ : '.' ∉ fraction ∧ whole ++ fraction ≠ [] := by
        simpa using h
      obtain ⟨c, hc⟩ := List.exists_mem_of_ne_nil _ hne
      have hmem : c ∈ whole ++ '.' :: fraction := by grind
      have hne_point : c ≠ '.' := by
        rintro rfl
        exact (List.mem_append.mp hc).elim hwhole hfraction
      refine ⟨hcs, ⟨c, hmem, (hcs c hmem).resolve_right hne_point⟩, ?_⟩
      rw [hcount, List.count_eq_zero.mpr hfraction]
    · intro h
      have hfraction : '.' ∉ fraction := List.count_eq_zero.mp (by have := h.points; omega)
      obtain ⟨c, hc, hdigit⟩ := h.digit
      have hmem : c ∈ whole ++ fraction := by
        have hne : c ≠ '.' := by rintro rfl; cases hdigit
        grind
      simpa [hfraction] using fun hw hf => by simp [hw, hf] at hmem
  · rw [readNumber_of_no_point hpoint]
    constructor
    · intro h
      obtain ⟨c, hc⟩ := List.exists_mem_of_ne_nil cs (by simpa using h)
      have hne : c ≠ '.' := fun h => hpoint (h ▸ hc)
      refine ⟨hcs, ⟨c, hc, (hcs c hc).resolve_right hne⟩, ?_⟩
      rw [List.count_eq_zero.mpr hpoint]
      exact Nat.zero_le 1
    · intro h
      simpa using h.ne_nil

/-- A number directly followed by a unit. -/
structure Component where
  number : List Char
  unit : TimeUnit
  spelling : List Char
  isNumber : IsNumber number
  spells : spelling ∈ unit.spellings

namespace Component

def chars (k : Component) : List Char := k.number ++ k.spelling

def count (k : Component) : Binary64 :=
  (readNumber k.number).get ((isSome_readNumber_iff k.isNumber.chars).mpr k.isNumber)

/-- The nanoseconds that the component stands for. -/
def value (k : Component) : Binary64 := k.count.mul (Binary64.ofNat k.unit.nanoseconds)

theorem readNumber_eq (k : Component) : readNumber k.number = some k.count :=
  (Option.some_get _).symm

theorem chars_ne_nil (k : Component) : k.chars ≠ [] :=
  List.append_ne_nil_of_left_ne_nil k.isNumber.ne_nil _

theorem two_le_length (k : Component) : 2 ≤ k.chars.length := by
  have hnumber := List.length_pos_iff.mpr k.isNumber.ne_nil
  have hunit := List.length_pos_iff.mpr (TimeUnit.ne_nil_of_spelling k.spells)
  rw [chars, List.length_append]
  omega

/-- A component begins with a digit or a point. -/
theorem isNumberChar_of_head? (k : Component) (rest : List Char) :
    ∀ c ∈ (k.chars ++ rest).head?, isNumberChar c = true := by
  obtain ⟨c, more, hnumber⟩ := List.exists_cons_of_ne_nil k.isNumber.ne_nil
  have hc := k.isNumber.isNumberChar c (hnumber ▸ List.mem_cons_self ..)
  simpa [chars, hnumber] using hc

end Component

/-- The text of a list of components. -/
def written (ks : List Component) : List Char := ks.flatMap Component.chars

@[simp] theorem written_nil : written [] = [] := rfl

@[simp] theorem written_cons (k : Component) (ks : List Component) :
    written (k :: ks) = k.chars ++ written ks := rfl

theorem written_ne_nil {ks : List Component} (h : ks ≠ []) : written ks ≠ [] := by
  cases ks with
  | nil => exact absurd rfl h
  | cons k rest => exact List.append_ne_nil_of_left_ne_nil k.chars_ne_nil _

theorem isNumberChar_of_head?_written (ks : List Component) :
    ∀ c ∈ (written ks).head?, isNumberChar c = true := by
  cases ks with
  | nil => simp
  | cons k rest => exact k.isNumberChar_of_head? (written rest)

/-- One round of the reading: a number and a unit are taken off the text, and their value is added
to the sum. -/
def round (sum : Binary64) (cs : List Char) : Except Fault (Binary64 × List Char) :=
  let number := cs.takeWhile isNumberChar
  let afterNumber := cs.dropWhile isNumberChar
  if afterNumber.isEmpty then .error .missingUnit
  else if number.isEmpty then .error .missingNumber
  else
    match readNumber number with
    | none => .error .invalidNumber
    | some count =>
      let unit := afterNumber.takeWhile (!isNumberChar ·)
      match TimeUnit.ofChars? unit with
      | none => .error (.unknownUnit (String.ofList unit))
      | some u =>
        .ok (sum.add (count.mul (Binary64.ofNat u.nanoseconds)),
          afterNumber.dropWhile (!isNumberChar ·))

theorem addComponents_nil (sum : Binary64) : addComponents sum [] = .ok sum := by
  rw [addComponents]
  rfl

/-- The reading goes round by round until nothing is left or a round fails. -/
theorem addComponents_eq_round (sum : Binary64) {cs : List Char} (h : cs ≠ []) :
    addComponents sum cs =
      (round sum cs).bind fun next => addComponents next.1 next.2 := by
  rw [addComponents, if_neg (by simpa using h), round]
  simp only [dite_eq_ite]
  split
  · rfl
  · split
    · rfl
    · cases readNumber (cs.takeWhile isNumberChar) with
      | none => rfl
      | some count =>
          dsimp only
          cases TimeUnit.ofChars? ((cs.dropWhile isNumberChar).takeWhile (!isNumberChar ·)) with
          | none => rfl
          | some u => rfl

/-- A component in front of a text that does not prolong its unit is taken off whole. -/
theorem round_component (sum : Binary64) (k : Component) {rest : List Char}
    (hrest : ∀ c ∈ rest.head?, isNumberChar c = true) :
    round sum (k.chars ++ rest) = .ok (sum.add k.value, rest) := by
  have hunit := TimeUnit.not_isNumberChar_of_spelling k.spells
  obtain ⟨c, more, hcons⟩ := List.exists_cons_of_ne_nil (TimeUnit.ne_nil_of_spelling k.spells)
  have hhead : ∀ d ∈ (k.spelling ++ rest).head?, isNumberChar d = false := by
    simpa [hcons] using hunit c (hcons ▸ List.mem_cons_self ..)
  obtain ⟨htake, hdrop⟩ := scan_append k.isNumber.isNumberChar hhead
  have hspelling : ∀ d ∈ k.spelling, (!isNumberChar d) = true := fun d hd => by simp [hunit d hd]
  have hnext : ∀ d ∈ rest.head?, (!isNumberChar d) = false := fun d hd => by simp [hrest d hd]
  obtain ⟨htakeUnit, hdropUnit⟩ := scan_append hspelling hnext
  rw [round, Component.chars, List.append_assoc, htake, hdrop]
  simp only [htakeUnit, hdropUnit, k.readNumber_eq, TimeUnit.ofChars?_eq_some.mpr k.spells]
  rw [if_neg (by simp [hcons]), if_neg (by simp [k.isNumber.ne_nil])]
  rfl

/-- A round fails for a reason other than the size of the sum, or it takes a component off. -/
theorem round_cases (sum : Binary64) (cs : List Char) :
    (∃ fault, round sum cs = .error fault ∧ fault ≠ .outOfRange) ∨
      ∃ (k : Component) (rest : List Char), cs = k.chars ++ rest ∧
        round sum cs = .ok (sum.add k.value, rest) := by
  generalize hnumber : cs.takeWhile isNumberChar = number
  generalize hafter : cs.dropWhile isNumberChar = afterNumber
  generalize hunit : afterNumber.takeWhile (!isNumberChar ·) = spelling
  have hsplit : cs = number ++ (spelling ++ afterNumber.dropWhile (!isNumberChar ·)) := by
    rw [← hunit, List.takeWhile_append_dropWhile, ← hafter, ← hnumber,
      List.takeWhile_append_dropWhile]
  have hchars : ∀ c ∈ number, c.isDigit = true ∨ c = '.' := fun c hc =>
    isNumberChar_iff.mp (List.mem_takeWhile_imp (hnumber ▸ hc))
  simp only [round, hnumber, hafter, hunit]
  split
  · exact .inl ⟨_, rfl, fun h => by cases h⟩
  · split
    · exact .inl ⟨_, rfl, fun h => by cases h⟩
    · cases hread : readNumber number with
      | none => exact .inl ⟨_, rfl, fun h => by cases h⟩
      | some count =>
          cases hspells : TimeUnit.ofChars? spelling with
          | none => exact .inl ⟨_, rfl, fun h => by cases h⟩
          | some u =>
              have hisNumber : IsNumber number :=
                (isSome_readNumber_iff hchars).mp (hread ▸ rfl)
              let k : Component :=
                ⟨number, u, spelling, hisNumber, TimeUnit.ofChars?_eq_some.mp hspells⟩
              have hcount : k.count = count := Option.some_inj.mp (k.readNumber_eq ▸ hread)
              refine .inr ⟨k, _, hsplit.trans (List.append_assoc ..).symm, ?_⟩
              rw [Component.value, hcount]

/-- A text of components is read to its end, and their values are added in order. -/
theorem addComponents_written (sum : Binary64) (ks : List Component) :
    addComponents sum (written ks) = .ok (ks.foldl (fun sum k => sum.add k.value) sum) := by
  induction ks generalizing sum with
  | nil => exact addComponents_nil sum
  | cons k rest ih =>
      have hround := round_component sum k (isNumberChar_of_head?_written rest)
      rw [addComponents_eq_round sum (written_ne_nil (List.cons_ne_nil k rest)), written_cons,
        hround, List.foldl_cons]
      exact ih (sum.add k.value)

/-- A text is one of components, or its reading stops at a fault that is not about the sum. -/
theorem addComponents_cases (sum : Binary64) (cs : List Char) :
    (∃ ks, cs = written ks) ∨
      ∃ fault, addComponents sum cs = .error fault ∧ fault ≠ .outOfRange := by
  induction hn : cs.length using Nat.strongRecOn generalizing cs sum with
  | ind n ih =>
      by_cases hcs : cs = []
      · exact .inl ⟨[], hcs⟩
      · rw [addComponents_eq_round sum hcs]
        obtain ⟨fault, hround, hfault⟩ | ⟨k, rest, hsplit, hround⟩ := round_cases sum cs
        · exact .inr ⟨fault, hround ▸ rfl, hfault⟩
        · have hlt : rest.length < n := by
            have := k.two_le_length
            rw [← hn, hsplit, List.length_append]
            omega
          obtain ⟨ks, hks⟩ | ⟨fault, hrest, hfault⟩ := ih _ hlt (sum.add k.value) rest rfl
          · exact .inl ⟨k :: ks, hsplit.trans (hks ▸ rfl)⟩
          · exact .inr ⟨fault, hround ▸ hrest, hfault⟩

/-- The texts that stand for a duration: a lone zero, or components in any order, with repeats, and
with at most one plus sign in front of them all. -/
def IsDuration (s : String) : Prop :=
  s = "0" ∨ ∃ (sign : List Char) (ks : List Component),
    (sign = [] ∨ sign = ['+']) ∧ ks ≠ [] ∧ s.toList = sign ++ written ks

theorem ofSum_cases (sum : Binary64) :
    (∃ n, ofSum sum = .ok n) ∨ ofSum sum = .error .outOfRange := by
  cases sum with
  | infinite => exact .inr rfl
  | finite quanta =>
      rw [ofSum]
      split
      · exact .inr rfl
      · exact .inl ⟨_, rfl⟩

/-- A plus sign in front is not part of the components. -/
theorem exists_sign (cs : List Char) :
    ∃ sign, (sign = [] ∨ sign = ['+']) ∧
      cs = sign ++ if cs.head? = some '+' then cs.tail else cs := by
  split
  case isTrue h =>
    obtain ⟨rest, rfl⟩ := List.head?_eq_some_iff.mp h
    exact ⟨['+'], .inr rfl, rfl⟩
  case isFalse => exact ⟨[], .inl rfl, rfl⟩

/-- Behind an optional sign, the sum of the components decides. -/
theorem ofChars_sign_append {sign : List Char} (hsign : sign = [] ∨ sign = ['+'])
    {ks : List Component} (hks : ks ≠ []) :
    ofChars (sign ++ written ks) = ofSum (ks.foldl (fun sum k => sum.add k.value) .zero) := by
  obtain ⟨k, rest, rfl⟩ := List.exists_cons_of_ne_nil hks
  obtain ⟨c, d, more, hcons⟩ : ∃ c d more, written (k :: rest) = c :: d :: more := by
    have htwo := k.two_le_length
    match hchars : k.chars with
    | c :: d :: more => exact ⟨c, d, more ++ written rest, by rw [written_cons, hchars]; rfl⟩
    | [_] | [] => simp [hchars] at htwo
  have hc : isNumberChar c = true :=
    isNumberChar_of_head?_written (k :: rest) c (by rw [hcons]; rfl)
  have hsum := addComponents_written .zero (k :: rest)
  rw [hcons] at hsum
  rcases hsign with rfl | rfl
  · rw [List.nil_append, hcons]
    unfold ofChars
    split
    case h_1 h => cases h
    case h_2 h => cases h; cases hc
    case h_3 =>
      have hplus : ¬(c :: d :: more).head? = some '+' := by
        intro h
        cases h
        cases hc
      rw [if_neg hplus]
      exact congrArg (·.bind ofSum) hsum
  · rw [hcons]
    exact congrArg (·.bind ofSum) hsum

/-- A duration has a value or is out of range, and any other text has a different fault. -/
theorem parse_cases (s : String) :
    (IsDuration s ∧ ((∃ n, parse s = .ok n) ∨ parse s = .error .outOfRange)) ∨
      (¬IsDuration s ∧ ∃ fault, parse s = .error fault ∧ fault ≠ .outOfRange) := by
  by_cases hs : IsDuration s
  · refine .inl ⟨hs, ?_⟩
    obtain rfl | ⟨sign, ks, hsign, hks, hchars⟩ := hs
    · exact .inl ⟨0, rfl⟩
    · rw [parse, hchars, ofChars_sign_append hsign hks]
      exact ofSum_cases _
  · refine .inr ⟨hs, ?_⟩
    rw [parse]
    unfold ofChars
    split
    case h_1 h => exact absurd (.inl (String.toList_inj.mp h)) hs
    case h_2 => exact ⟨_, rfl, nofun⟩
    case h_3 =>
      obtain ⟨sign, hsign, hchars⟩ := exists_sign s.toList
      revert hchars
      generalize (if s.toList.head? = some '+' then s.toList.tail else s.toList) = components
      intro hchars
      dsimp only
      split
      · exact ⟨_, rfl, nofun⟩
      · rename_i hne
        obtain ⟨ks, rfl⟩ | ⟨fault, hfault, hother⟩ := addComponents_cases .zero components
        · have hks : ks ≠ [] := by rintro rfl; exact hne rfl
          exact absurd (.inr ⟨sign, ks, hsign, hks, hchars⟩) hs
        · exact ⟨fault, hfault ▸ rfl, hother⟩

end TrackedDelivery.Duration
