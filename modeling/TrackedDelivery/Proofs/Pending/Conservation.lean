import TrackedDelivery.Proofs.Pending.Balance
/-!
# What becomes of a pending value

Equal values are told apart when each bears the place of the insertion that brings it. The marks
change nothing, since a pending set does not look at its values. With them no two values are alike,
so by the balance a value that was added is handed out once or is still in the set, and one that was
refused is never seen again.
-/
namespace TrackedDelivery.PendingSet

universe u v

variable {α : Type u} {β : Type v}

/-! ## Values are not looked at -/

def Operation.map (f : α → β) : Operation α → Operation β
  | insertIfAbsent key value => .insertIfAbsent key (f value)
  | remove key => .remove key
  | drain => .drain

def Answer.map (f : α → β) : Answer α → Answer β
  | inserted added => .inserted added
  | removed value => .removed (value.map f)
  | drained entries => .drained (entries.map (Prod.map id f))

theorem act_map (f : α → β) (set : PendingSet α) (op : Operation α) :
    act (set.map f) (op.map f) = ((set.act op).1.map f, (set.act op).2.map f) := by
  cases op with
  | insertIfAbsent key value =>
      simp only [Operation.map, act, insertIfAbsent, TextMap.contains_map, TextMap.insert_map]
      split <;> rfl
  | remove key =>
      simp only [Operation.map, act, remove, TextMap.find?_map, TextMap.erase_map]
      rfl
  | drain => rfl

theorem after_map (f : α → β) (ops : List (Operation α)) :
    after (ops.map (Operation.map f)) = (after ops).map f := by
  induction ops using List.reverseRecOn with
  | nil => rfl
  | append_singleton ops op ih =>
      rw [List.map_append, List.map_singleton, after_concat, after_concat, ih, act_map]

theorem answerAt?_map (f : α → β) (ops : List (Operation α)) (i : ℕ) :
    answerAt? (ops.map (Operation.map f)) i = (answerAt? ops i).map (Answer.map f) := by
  rw [answerAt?, answerAt?, List.getElem?_map, ← List.map_take, after_map, Option.map_map,
    Option.map_map]
  congr 1
  funext op
  rw [Function.comp_apply, Function.comp_apply, act_map]

/-! ## Marks -/

/-- Every value with the place of the operation that brings it. -/
def marked (ops : List (Operation α)) : List (Operation (ℕ × α)) :=
  ops.mapIdx fun i op => op.map (Prod.mk i)

theorem getElem?_marked (ops : List (Operation α)) (i : ℕ) :
    (marked ops)[i]? = ops[i]?.map (Operation.map (Prod.mk i)) :=
  List.getElem?_mapIdx

theorem length_marked (ops : List (Operation α)) : (marked ops).length = ops.length :=
  List.length_mapIdx

theorem marked_take (ops : List (Operation α)) (n : ℕ) :
    marked (ops.take n) = (marked ops).take n := by
  refine List.ext_getElem? fun i => ?_
  rw [getElem?_marked, List.getElem?_take, List.getElem?_take, getElem?_marked]
  split <;> rfl

theorem map_marked (ops : List (Operation α)) :
    (marked ops).map (Operation.map Prod.snd) = ops := by
  refine List.ext_getElem? fun i => ?_
  rw [List.getElem?_map, getElem?_marked]
  cases ops[i]? with
  | none => rfl
  | some op => cases op <;> rfl

theorem after_marked (ops : List (Operation α)) :
    (after (marked ops)).map Prod.snd = after ops := by
  rw [← after_map, map_marked]

theorem answerAt?_marked (ops : List (Operation α)) (i : ℕ) :
    (answerAt? (marked ops) i).map (Answer.map Prod.snd) = answerAt? ops i := by
  rw [← answerAt?_map, map_marked]

/-! ## Insertions -/

theorem answerAt?_insertion {ops : List (Operation α)} {i : ℕ} {key : String} {value : α}
    (h : ops[i]? = some (.insertIfAbsent key value)) :
    answerAt? ops i = some (.inserted !(after (ops.take i)).contains key) := by
  rw [answerAt?, h, Option.map_some]
  simp only [act, insertIfAbsent]
  cases (after (ops.take i)).contains key <;> rfl

/-- What an insertion adds bears its mark. -/
theorem added_insertion {ops : List (Operation α)} {i : ℕ} {key : String} {value : α}
    (h : ops[i]? = some (.insertIfAbsent key value)) :
    seenAt Operation.added (marked ops) i =
      if (after (ops.take i)).contains key then [] else [(key, i, value)] := by
  have hmarked : (marked ops)[i]? = some (.insertIfAbsent key (i, value)) := by
    rw [getElem?_marked, h]
    rfl
  have hcontains :
      (after ((marked ops).take i)).contains key = (after (ops.take i)).contains key := by
    rw [← marked_take, ← after_marked (ops.take i), TextMap.contains_map]
  rw [seenAt, hmarked, Option.map_some, Option.getD_some]
  simp only [act, insertIfAbsent, hcontains]
  cases (after (ops.take i)).contains key <;> rfl

/-- Only an insertion that is accepted adds something. -/
theorem of_mem_added {ops : List (Operation α)} {i : ℕ} {e : String × α}
    (h : e ∈ seenAt Operation.added ops i) :
    ops[i]? = some (.insertIfAbsent e.1 e.2) ∧ answerAt? ops i = some (.inserted true) := by
  obtain ⟨op, hop, hadded⟩ := (mem_seenAt _).mp h
  rw [answerAt?, hop, Option.map_some, Option.some.injEq, Option.some.injEq]
  generalize ((after (ops.take i)).act op).1 = answer at hadded ⊢
  unfold Operation.added at hadded
  split at hadded
  · obtain rfl := List.mem_singleton.mp hadded
    exact ⟨rfl, rfl⟩
  · cases hadded

/-- What is added bears the mark of the insertion that adds it. -/
theorem mark_of_mem_added {ops : List (Operation α)} {i : ℕ} {e : String × ℕ × α}
    (h : e ∈ seenAt Operation.added (marked ops) i) :
    e.2.1 = i ∧ ops[i]? = some (.insertIfAbsent e.1 e.2.2) ∧
      answerAt? ops i = some (.inserted true) := by
  obtain ⟨hop, hanswer⟩ := of_mem_added h
  have hadded : answerAt? ops i = some (.inserted true) := by
    rw [← answerAt?_marked, hanswer]
    rfl
  rw [getElem?_marked] at hop
  obtain ⟨op, hop, hmap⟩ := Option.map_eq_some_iff.mp hop
  obtain ⟨key, mark, value⟩ := e
  cases op with
  | insertIfAbsent =>
      cases hmap
      exact ⟨rfl, hop, hadded⟩
  | remove | drain => cases hmap

/-! ## Where a value goes -/

/-- Of what the operation at `j` hands out, that which the operation at `i` brought. -/
def handedOn (ops : List (Operation α)) (i j : ℕ) : List (String × ℕ × α) :=
  (seenAt Operation.handedOut (marked ops) j).filter (·.2.1 = i)

/-- Of what is in the set in the end, that which the operation at `i` brought. -/
def held (ops : List (Operation α)) (i : ℕ) : List (String × ℕ × α) :=
  (after (marked ops)).entries.filter (·.2.1 = i)

/-- What is in the set was added by the insertion whose mark it bears. -/
theorem of_mem_entries {ops : List (Operation α)} {e : String × ℕ × α}
    (h : e ∈ (after (marked ops)).entries) :
    e.2.1 < ops.length ∧ ops[e.2.1]? = some (.insertIfAbsent e.1 e.2.2) ∧
      answerAt? ops e.2.1 = some (.inserted true) := by
  have hseen := (balance (marked ops)).mem_iff.mpr (List.mem_append_right _ h)
  obtain ⟨i, hi, hadded⟩ := List.mem_flatMap.mp hseen
  rw [List.mem_range, length_marked] at hi
  obtain ⟨rfl, hop, hanswer⟩ := mark_of_mem_added hadded
  exact ⟨hi, hop, hanswer⟩

/-- An entry of the set is handed out by a removal of its key or by a drain. -/
theorem of_mem_handedOut {set : PendingSet α} {op : Operation α} {e : String × α}
    (h : e ∈ op.handedOut (set.act op).1) :
    e ∈ set.entries ∧ (op = .remove e.1 ∨ op = .drain) := by
  cases op with
  | insertIfAbsent key value => cases h
  | remove key =>
      simp only [act, remove] at h
      cases hfind : set.find? key with
      | none =>
          rw [hfind] at h
          cases h
      | some value =>
          rw [hfind] at h
          obtain rfl := List.mem_singleton.mp h
          exact ⟨TextMap.find?_eq_some_iff.mp hfind, .inl rfl⟩
  | drain => exact ⟨h, .inr rfl⟩

/-- A value is handed out after it was brought, by a removal of its key or by a drain. -/
theorem of_mem_handedOn {ops : List (Operation α)} {i j : ℕ} {e : String × ℕ × α}
    (h : e ∈ handedOn ops i j) :
    i < j ∧ (ops[j]? = some (.remove e.1) ∨ ops[j]? = some .drain) := by
  obtain ⟨hseen, hmark⟩ := List.mem_filter.mp h
  obtain rfl : e.2.1 = i := of_decide_eq_true hmark
  obtain ⟨op, hop, hout⟩ := (mem_seenAt _).mp hseen
  rw [← marked_take] at hout
  obtain ⟨hentry, htakes⟩ := of_mem_handedOut hout
  have hlt := Nat.lt_of_lt_of_le (of_mem_entries hentry).1 (List.length_take_le j ops)
  rw [getElem?_marked] at hop
  obtain ⟨op', hop', rfl⟩ := Option.map_eq_some_iff.mp hop
  refine ⟨hlt, ?_⟩
  rw [hop']
  cases op' with
  | insertIfAbsent key value => cases hout
  | remove key =>
      refine .inl (htakes.elim (fun h => ?_) nofun)
      cases h
      rfl
  | drain => exact .inr rfl

theorem handedOn_of_length_le {ops : List (Operation α)} {i j : ℕ} (h : ops.length ≤ j) :
    handedOn ops i j = [] := by
  refine List.eq_nil_iff_forall_not_mem.mpr fun e he => ?_
  have hend : ops[j]? = none := List.getElem?_eq_none h
  obtain ⟨-, hop | hop⟩ := of_mem_handedOn he <;> cases hend.symm.trans hop

theorem handedOn_eq_nil {ops : List (Operation α)} {i : ℕ}
    (h : (List.range ops.length).flatMap (handedOn ops i) = []) (j : ℕ) :
    handedOn ops i j = [] := by
  rcases Nat.lt_or_ge j ops.length with hj | hj
  · exact List.flatMap_eq_nil_iff.mp h j (List.mem_range.mpr hj)
  · exact handedOn_of_length_le hj

theorem flatMap_range_eq {γ : Type v} {f : ℕ → List γ} {n i : ℕ} (hi : i < n)
    (h : ∀ j, j ≠ i → f j = []) : (List.range n).flatMap f = f i := by
  induction n with
  | zero => exact absurd hi (Nat.not_lt_zero i)
  | succ n ih =>
      rw [List.range_succ, List.flatMap_append, List.flatMap_singleton]
      rcases Nat.lt_succ_iff_lt_or_eq.mp hi with hlt | rfl
      · rw [ih hlt, h n (by omega), List.append_nil]
      · have hbefore : (List.range i).flatMap f = [] := by
          refine List.flatMap_eq_nil_iff.mpr fun j hj => h j ?_
          exact Nat.ne_of_lt (List.mem_range.mp hj)
        rw [hbefore, List.nil_append]

theorem exists_of_flatMap_range_eq {γ : Type v} {f : ℕ → List γ} {n : ℕ} {e : γ}
    (h : (List.range n).flatMap f = [e]) :
    ∃ j, j < n ∧ f j = [e] ∧ ∀ k, k < n → k ≠ j → f k = [] := by
  induction n with
  | zero => cases h
  | succ n ih =>
      rw [List.range_succ, List.flatMap_append, List.flatMap_singleton,
        List.append_eq_singleton_iff] at h
      obtain ⟨hbefore, hlast⟩ | ⟨hbefore, hlast⟩ := h
      · refine ⟨n, Nat.lt_succ_self n, hlast, fun k hk hne => ?_⟩
        exact List.flatMap_eq_nil_iff.mp hbefore k (List.mem_range.mpr (by omega))
      · obtain ⟨j, hj, hone, hnone⟩ := ih hbefore
        refine ⟨j, by omega, hone, fun k hk hne => ?_⟩
        rcases Nat.lt_succ_iff_lt_or_eq.mp hk with hlt | rfl
        · exact hnone k hlt hne
        · exact hlast

/-- The balance of what one operation brought. -/
theorem balance_brought {ops : List (Operation α)} {i : ℕ} (hi : i < ops.length) :
    (seenAt Operation.added (marked ops) i).Perm
      ((List.range ops.length).flatMap (handedOn ops i) ++ held ops i) := by
  have hbalance := (balance (marked ops)).filter (·.2.1 = i)
  have hother : ∀ j, j ≠ i →
      (seenAt Operation.added (marked ops) j).filter (·.2.1 = i) = [] := by
    intro j hj
    refine List.filter_eq_nil_iff.mpr fun e he => ?_
    rw [(mark_of_mem_added he).1]
    simpa using hj
  have hown : (seenAt Operation.added (marked ops) i).filter (·.2.1 = i) =
      seenAt Operation.added (marked ops) i := by
    refine List.filter_eq_self.mpr fun e he => ?_
    simpa using (mark_of_mem_added he).1
  rw [seen, List.filter_flatMap, flatMap_range_eq ((length_marked ops).symm ▸ hi) hother, hown,
    List.filter_append, seen, List.filter_flatMap, length_marked] at hbalance
  exact hbalance

/-- What is added stays in the set, or it is handed out once and later. -/
theorem stays_or_handedOn {ops : List (Operation α)} {i : ℕ} (hi : i < ops.length)
    {e : String × ℕ × α} (hadded : seenAt Operation.added (marked ops) i = [e]) :
    (held ops i = [e] ∧ ∀ j, handedOn ops i j = []) ∨
      (held ops i = [] ∧ ∃ j, i < j ∧ (ops[j]? = some (.remove e.1) ∨ ops[j]? = some .drain) ∧
        handedOn ops i j = [e] ∧ ∀ j', j' ≠ j → handedOn ops i j' = []) := by
  have hbalance := balance_brought hi
  rw [hadded] at hbalance
  -- The other side of the balance is this one entry, so it is on one side of the append.
  obtain ⟨hnone, hheld⟩ | ⟨hone, hheld⟩ :=
    List.append_eq_singleton_iff.mp (List.perm_singleton.mp hbalance.symm)
  · exact .inl ⟨hheld, handedOn_eq_nil hnone⟩
  · obtain ⟨j, -, hj, hothers⟩ := exists_of_flatMap_range_eq hone
    obtain ⟨hlt, hop⟩ := of_mem_handedOn (hj ▸ List.mem_singleton_self e)
    refine .inr ⟨hheld, j, hlt, hop, hj, fun j' hne => ?_⟩
    rcases Nat.lt_or_ge j' ops.length with hj' | hj'
    · exact hothers j' hj' hne
    · exact handedOn_of_length_le hj'

/-- What is refused is neither handed out nor in the set. -/
theorem never_seen {ops : List (Operation α)} {i : ℕ} (hi : i < ops.length)
    (hrefused : seenAt Operation.added (marked ops) i = []) :
    held ops i = [] ∧ ∀ j, handedOn ops i j = [] := by
  have hbalance := balance_brought hi
  rw [hrefused, List.nil_perm, List.append_eq_nil_iff] at hbalance
  exact ⟨hbalance.2, handedOn_eq_nil hbalance.1⟩

/-- A key is free as long as nothing that was added under it is in the set. -/
theorem contains_eq_false_iff {ops : List (Operation α)} {i : ℕ} {key : String} :
    (after (ops.take i)).contains key = false ↔
      ∀ j, j < i → ∀ value, ops[j]? = some (.insertIfAbsent key value) →
        answerAt? ops j = some (.inserted true) → held (ops.take i) j = [] := by
  rw [← after_marked (ops.take i), TextMap.contains_map]
  constructor
  · intro hfree j hj value hop _
    refine List.eq_nil_iff_forall_not_mem.mpr fun e hheld => ?_
    obtain ⟨he, hmark⟩ := List.mem_filter.mp hheld
    obtain rfl : e.2.1 = j := of_decide_eq_true hmark
    have hkey := (of_mem_entries he).2.1
    rw [List.getElem?_take_of_lt hj, hop] at hkey
    cases hkey
    have htaken : (after (marked (ops.take i))).contains e.1 = true :=
      TextMap.contains_iff.mpr ⟨e.2, TextMap.find?_eq_some_iff.mpr he⟩
    rw [hfree] at htaken
    cases htaken
  · intro hnone
    refine Bool.eq_false_iff.mpr fun htaken => ?_
    obtain ⟨⟨j, value⟩, hfind⟩ := TextMap.contains_iff.mp htaken
    have hmem := TextMap.find?_eq_some_iff.mp hfind
    obtain ⟨hj, hop, hanswer⟩ := of_mem_entries hmem
    have hlt : j < i := Nat.lt_of_lt_of_le hj (List.length_take_le i ops)
    rw [List.getElem?_take_of_lt hlt] at hop
    rw [answerAt?_take hlt] at hanswer
    have hheld : (key, j, value) ∈ held (ops.take i) j :=
      List.mem_filter.mpr ⟨hmem, decide_eq_true rfl⟩
    rw [hnone j hlt value hop hanswer] at hheld
    cases hheld

/-- Whatever the operations on a fresh set are, marks change neither the answers nor the set. An
insertion is accepted if and only if nothing that was accepted before under its key is in the set.
A value that is accepted is in the set in the end and was never handed out, or it was handed out
under its key by one later removal or drain and by nothing else; one that is refused is never seen
again. At every point the keys ascend strictly, and they are those that the set contains; a drain
hands out the entries in their order and leaves nothing. -/
theorem entries_conserved (ops : List (Operation α)) :
    (∀ i, (answerAt? (marked ops) i).map (Answer.map Prod.snd) = answerAt? ops i) ∧
    (after (marked ops)).map Prod.snd = after ops ∧
    (∀ i key value, ops[i]? = some (.insertIfAbsent key value) →
      ∃ accepted, answerAt? ops i = some (.inserted accepted) ∧
        (accepted = true ↔ ∀ j, j < i → ∀ other, ops[j]? = some (.insertIfAbsent key other) →
          answerAt? ops j = some (.inserted true) → held (ops.take i) j = []) ∧
        (accepted = true →
          (held ops i = [(key, i, value)] ∧ ∀ j, handedOn ops i j = []) ∨
          (held ops i = [] ∧
            ∃ j, i < j ∧ (ops[j]? = some (.remove key) ∨ ops[j]? = some .drain) ∧
              handedOn ops i j = [(key, i, value)] ∧ ∀ j', j' ≠ j → handedOn ops i j' = [])) ∧
        (accepted = false → held ops i = [] ∧ ∀ j, handedOn ops i j = [])) ∧
    ∀ n, let set := after (ops.take n)
      set.keys.Pairwise (· < ·) ∧
      (∀ key, key ∈ set.keys ↔ set.contains key = true) ∧ set.size = set.keys.length ∧
      set.drain.1.map Prod.fst = set.keys ∧
      (∀ key value, (key, value) ∈ set.drain.1 ↔ set.find? key = some value) ∧
      set.drain.2 = ∅ := by
  refine ⟨answerAt?_marked ops, after_marked ops, fun i key value hop => ?_, fun n => ?_⟩
  · have hi : i < ops.length := (List.getElem?_eq_some_iff.mp hop).1
    have hadded := added_insertion hop
    refine ⟨_, answerAt?_insertion hop, ?_, fun haccepted => ?_, fun hrefused => ?_⟩
    · rw [Bool.not_eq_true', contains_eq_false_iff]
    · rw [Bool.not_eq_true'] at haccepted
      rw [haccepted] at hadded
      exact stays_or_handedOn hi hadded
    · rw [Bool.not_eq_false'] at hrefused
      rw [hrefused] at hadded
      exact never_seen hi hadded
  · exact ⟨TextMap.ascending_keys _, fun key => TextMap.mem_keys,
      (TextMap.length_keys _).symm, rfl, fun key value => TextMap.find?_eq_some_iff.symm, rfl⟩

/-- A key is taken anew after a removal and after a drain, and all values but the last are equal. -/
def reusingOps : List (Operation ℕ) :=
  [.insertIfAbsent "b" 7, .insertIfAbsent "a" 7, .insertIfAbsent "b" 7, .remove "b",
    .insertIfAbsent "b" 7, .remove "c", .drain, .insertIfAbsent "a" 8]

theorem conserved_of_reusingOps :
    answerAt? reusingOps 2 = some (.inserted false) ∧ (∀ j, handedOn reusingOps 2 j = []) ∧
    answerAt? reusingOps 6 = some (.drained [("a", 7), ("b", 7)]) ∧
    (∃ j, 4 < j ∧ (reusingOps[j]? = some (.remove "b") ∨ reusingOps[j]? = some .drain) ∧
      handedOn reusingOps 4 j = [("b", 4, 7)] ∧
      ∀ j', j' ≠ j → handedOn reusingOps 4 j' = []) ∧
    (after reusingOps).keys = ["a"] ∧ ∀ j, handedOn reusingOps 7 j = [] := by
  obtain ⟨-, -, hinsertion, -⟩ := entries_conserved reusingOps
  obtain ⟨refused, hrefused, -, -, hnever⟩ := hinsertion 2 "b" 7 rfl
  obtain ⟨out, hout, -, hleaves, -⟩ := hinsertion 4 "b" 7 rfl
  obtain ⟨last, hlast, -, hstays, -⟩ := hinsertion 7 "a" 8 rfl
  have hanswers : [2, 4, 7].map (answerAt? reusingOps) =
      [some (.inserted false), some (.inserted true), some (.inserted true)] := by
    decide +kernel
  have hheld : held reusingOps 4 = [] ∧ held reusingOps 7 ≠ [] := by decide +kernel
  simp only [List.map_cons, List.map_nil, hrefused, hout, hlast, List.cons.injEq, Option.some.injEq,
    Answer.inserted.injEq, and_true] at hanswers
  obtain ⟨rfl, rfl, rfl⟩ := hanswers
  refine ⟨hrefused, (hnever rfl).2, by decide +kernel, ?_, by decide +kernel, ?_⟩
  · obtain ⟨hstill, -⟩ | ⟨-, hone⟩ := hleaves rfl
    · rw [hheld.1] at hstill
      cases hstill
    · exact hone
  · obtain ⟨-, hnone⟩ | ⟨hgone, -⟩ := hstays rfl
    · exact hnone
    · exact absurd hgone hheld.2

end TrackedDelivery.PendingSet
