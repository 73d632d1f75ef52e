import TrackedDelivery.Proofs.Duration.Grammar
/-!
# The scan of a duration by byte offsets

The components of a duration are scanned in rounds. A round finds the byte offset at which the
number ends, cuts the text there, finds the offset at which the unit ends and cuts once more. A
cut inside a character would have no result; none is made, since an offset that a scan stops at
is the size of the characters that it went over. Every round that goes on has consumed a component,
so the rounds come to an end, and the outcome is the sum of the components or the first fault.
-/
namespace TrackedDelivery.Duration
open Number

def byteLength : List Char → ℕ
  | [] => 0
  | c :: rest => c.utf8Size + byteLength rest

@[simp] theorem byteLength_nil : byteLength [] = 0 := rfl

@[simp] theorem byteLength_cons (c : Char) (cs : List Char) :
    byteLength (c :: cs) = c.utf8Size + byteLength cs := rfl

/-- The byte offset of the first character without the property, if there is one. -/
def stopsAt? (p : Char → Bool) : List Char → Option ℕ
  | [] => none
  | c :: rest => if p c then (stopsAt? p rest).map (c.utf8Size + ·) else some 0

theorem stopsAt?_eq (p : Char → Bool) (cs : List Char) :
    stopsAt? p cs =
      if cs.dropWhile p = [] then none else some (byteLength (cs.takeWhile p)) := by
  induction cs with
  | nil => rfl
  | cons c rest ih =>
      by_cases hc : p c = true
      · rw [stopsAt?, if_pos hc, ih, List.dropWhile_cons_of_pos hc, List.takeWhile_cons_of_pos hc]
        split <;> rfl
      · rw [stopsAt?, if_neg hc, List.dropWhile_cons_of_neg hc, List.takeWhile_cons_of_neg hc]
        rfl

/-- The two sides of a byte offset. One inside a character or past the end has none. -/
def cutAt? : List Char → ℕ → Option (List Char × List Char)
  | cs, 0 => some ([], cs)
  | [], _ + 1 => none
  | c :: rest, n + 1 =>
      if c.utf8Size ≤ n + 1 then (cutAt? rest (n + 1 - c.utf8Size)).map (Prod.map (c :: ·) id)
      else none

/-- The size of the characters in front is an offset at which a text can be cut. -/
theorem cutAt?_append (cs ds : List Char) : cutAt? (cs ++ ds) (byteLength cs) = some (cs, ds) := by
  induction cs with
  | nil => cases ds <;> rfl
  | cons c rest ih =>
      obtain ⟨n, hn⟩ : ∃ n, byteLength (c :: rest) = n + 1 :=
        Nat.exists_eq_add_one.mpr (Nat.add_pos_left c.utf8Size_pos _)
      have hsize : n + 1 - c.utf8Size = byteLength rest := by
        rw [← hn, byteLength_cons, Nat.add_sub_cancel_left]
      rw [hn, List.cons_append, cutAt?, if_pos (by rw [← hn, byteLength_cons]; omega), hsize, ih]
      rfl

/-- A cut inside a character has no result: the micro sign takes two bytes. -/
example : cutAt? ['\u00b5', 's'] 1 = none := by decide

/-- One round: a number and a unit are cut off and their value is added to the sum. Without a
result if a cut has none. -/
def round? (sum : Binary64) (cs : List Char) : Option (Except Fault (Binary64 × List Char)) :=
  match stopsAt? isNumberChar cs with
  | none => some (.error .missingUnit)
  | some 0 => some (.error .missingNumber)
  | some (n + 1) =>
      (cutAt? cs (n + 1)).bind fun (number, afterNumber) =>
        match readNumber number with
        | none => some (.error .invalidNumber)
        | some count =>
            let unitEnd := (stopsAt? (!isNumberChar ·) afterNumber).getD (byteLength afterNumber)
            (cutAt? afterNumber unitEnd).bind fun (unit, rest) =>
              match TimeUnit.ofChars? unit with
              | none => some (.error (.unknownUnit (String.ofList unit)))
              | some u =>
                  some (.ok (sum.add (count.mul (Binary64.ofNat u.nanoseconds)), rest))

/-- The rounds as long as something is left. Without a result if a cut has none, or if the rounds
that are allowed do not suffice. -/
def scan? : ℕ → Binary64 → List Char → Option (Except Fault Binary64)
  | _, sum, [] => some (.ok sum)
  | 0, _, _ :: _ => none
  | rounds + 1, sum, c :: cs =>
      (round? sum (c :: cs)).bind fun
        | .error fault => some (.error fault)
        | .ok (next, rest) => scan? rounds next rest

theorem cutAt?_takeWhile (p : Char → Bool) (cs : List Char) :
    cutAt? cs (byteLength (cs.takeWhile p)) = some (cs.takeWhile p, cs.dropWhile p) := by
  have hcut := cutAt?_append (cs.takeWhile p) (cs.dropWhile p)
  rwa [List.takeWhile_append_dropWhile] at hcut

/-- A scan that does not stop ends where the text ends. -/
theorem stopsAt?_getD (p : Char → Bool) (cs : List Char) :
    (stopsAt? p cs).getD (byteLength cs) = byteLength (cs.takeWhile p) := by
  rw [stopsAt?_eq]
  split
  case isTrue h =>
    have hsplit := List.takeWhile_append_dropWhile (p := p) (l := cs)
    rw [h, List.append_nil] at hsplit
    rw [hsplit]
    rfl
  case isFalse => rfl

theorem byteLength_eq_zero {cs : List Char} : byteLength cs = 0 ↔ cs = [] := by
  cases cs with
  | nil => simp
  | cons c rest =>
      have := c.utf8Size_pos
      simp only [byteLength_cons, reduceCtorEq, iff_false]
      omega

/-- Both cuts of a round have a result, and it is that of the round over characters. -/
theorem round?_eq (sum : Binary64) (cs : List Char) : round? sum cs = some (round sum cs) := by
  rw [round?, stopsAt?_eq, round]
  by_cases hafter : cs.dropWhile isNumberChar = []
  · simp [hafter]
  · by_cases hnumber : cs.takeWhile isNumberChar = []
    · simp [hafter, hnumber]
    · obtain ⟨n, hn⟩ : ∃ n, byteLength (cs.takeWhile isNumberChar) = n + 1 :=
        Nat.exists_eq_succ_of_ne_zero (mt byteLength_eq_zero.mp hnumber)
      have hcut := cutAt?_takeWhile isNumberChar cs
      rw [hn] at hcut
      simp only [hafter, hnumber, hn, hcut, stopsAt?_getD, cutAt?_takeWhile, List.isEmpty_iff,
        if_false, Option.bind_some]
      cases readNumber (cs.takeWhile isNumberChar) with
      | none => rfl
      | some count =>
          dsimp only
          cases TimeUnit.ofChars? ((cs.dropWhile isNumberChar).takeWhile (!isNumberChar ·)) with
          | none => rfl
          | some u => rfl

/-- The rounds end with the sum of the components or the first fault, and half as many rounds as
there are characters suffice. -/
theorem scan?_eq {rounds : ℕ} {cs : List Char} (h : cs.length ≤ 2 * rounds) (sum : Binary64) :
    scan? rounds sum cs = some (addComponents sum cs) := by
  induction rounds generalizing cs sum with
  | zero =>
      obtain rfl : cs = [] := List.length_eq_zero_iff.mp (Nat.le_zero.mp h)
      rw [addComponents_nil]
      rfl
  | succ rounds ih =>
      cases cs with
      | nil =>
          rw [addComponents_nil]
          rfl
      | cons c more =>
          rw [scan?, round?_eq, addComponents_eq_round sum (List.cons_ne_nil c more)]
          obtain ⟨fault, hround, -⟩ | ⟨k, rest, hsplit, hround⟩ := round_cases sum (c :: more)
          · rw [hround]
            rfl
          · have hrest : rest.length ≤ 2 * rounds := by
              have htwo := k.two_le_length
              have hlength := congrArg List.length hsplit
              rw [List.length_append] at hlength
              omega
            rw [hround]
            exact ih hrest (sum.add k.value)

/-- A text has a value or is out of range exactly if it is a duration, and any other text has
a different fault. The scan of the components ends on every text after at most half as many rounds
as there are characters, no cut is made inside a character, and a round that does not end the scan
consumes a number and a unit. -/
theorem parse_accepts_durations (s : String) :
    (((∃ n, parse s = .ok n) ∨ parse s = .error .outOfRange) ↔ IsDuration s) ∧
    (IsDuration s ∨ ∃ fault, parse s = .error fault ∧ fault ≠ .outOfRange) ∧
    (∀ sum cs, scan? ((cs.length + 1) / 2) sum cs = some (addComponents sum cs)) ∧
    (∀ sum cs, (∃ fault, round? sum cs = some (.error fault)) ∨
      ∃ (k : Component) (rest : List Char), cs = k.number ++ k.spelling ++ rest ∧
        round? sum cs = some (.ok (sum.add k.value, rest))) := by
  refine ⟨⟨fun haccepted => ?_, fun hs => ?_⟩, ?_, fun sum cs => scan?_eq (by omega) sum,
    fun sum cs => ?_⟩
  · obtain ⟨hs, -⟩ | ⟨-, fault, hfault, hother⟩ := parse_cases s
    · exact hs
    · rw [hfault] at haccepted
      obtain ⟨n, hn⟩ | hrange := haccepted
      · cases hn
      · exact absurd (Except.error.inj hrange) hother
  · obtain ⟨-, haccepted⟩ | ⟨hnot, -⟩ := parse_cases s
    · exact haccepted
    · exact absurd hs hnot
  · exact (parse_cases s).imp And.left And.right
  · rw [round?_eq]
    obtain ⟨fault, hround, -⟩ | ⟨k, rest, hsplit, hround⟩ := round_cases sum cs
    · exact .inl ⟨fault, congrArg some hround⟩
    · exact .inr ⟨k, rest, hsplit, congrArg some hround⟩

end TrackedDelivery.Duration
