import TrackedDelivery.Position
import TrackedDelivery.Proofs.Json.Skipping
/-!
# Which documents are positions

A position is read in one pass, and what the pass accepts can be said of the value that a text
denotes: an object that names the subscription once and the identifier at most once, whatever its
other members are, or an array of these two. A value is judged by its first token, and a value that
is refused has no other reading.
-/
namespace TrackedDelivery.Position
open Json

/-! ## What a document says -/

/-- The values of the members with a key, in their order. -/
def valuesAt (key : String) (members : List (String × Value)) : List Value :=
  (members.filter fun e => e.1 = key).map Prod.snd

/-- What is written where the identifier is expected: nothing, null or a string. -/
inductive SaysId : List Value → Option String → Prop
  | absent : SaysId [] none
  | null : SaysId [.null] none
  | text (id : String) : SaysId [.text id] (some id)

/-- A document is read as a position. -/
inductive Denotes : Value → Position → Prop
  | object {members : List (String × Value)} {p : Position}
      (subscription : valuesAt subscriptionKey members = [.text p.subscription])
      (messageId : SaysId (valuesAt messageIdKey members) p.messageId) :
      Denotes (.object members) p
  | array {rest : List Value} {p : Position} (messageId : SaysId rest p.messageId) :
      Denotes (.array (.text p.subscription :: rest)) p

theorem saysId_nil {id : Option String} : SaysId [] id ↔ id = none := by
  constructor
  · rintro ⟨⟩
    rfl
  · rintro rfl
    exact .absent

theorem saysId_singleton {v : Value} {id : Option String} :
    SaysId [v] id ↔ v = .null ∧ id = none ∨ ∃ s, v = .text s ∧ id = some s := by
  constructor
  · rintro (_ | _ | s)
    · exact .inl ⟨rfl, rfl⟩
    · exact .inr ⟨s, rfl, rfl⟩
  · rintro (⟨rfl, rfl⟩ | ⟨s, rfl, rfl⟩)
    · exact .null
    · exact .text s

/-! ## One value -/

theorem refuse_ne_ok {α : Type} (expected : String) (t : Token) (a : α) :
    (refuse expected t : Except JsonError α) ≠ .ok a := by
  unfold refuse
  split <;> simp

/-- The first token of a value tells what is read of it. -/
structure Reads (v : Value) (rest : List Token) (t : Token) (tail : List Token) : Prop where
  tokens : v.tokens ++ rest = t :: tail
  text : ∀ s, readText t = .ok s ↔ v = .text s
  optionalText : ∀ id, readOptionalText t = .ok id ↔ SaysId [v] id
  whole : ∀ id, SaysId [v] id → tail = rest

theorem reads_text (s : String) (rest : List Token) :
    Reads (.text s) rest (.text (.ok s) (.ok ())) rest where
  tokens := rfl
  text s' := by simp [readText, Except.mapError]
  optionalText id := by
    rw [saysId_singleton]
    simp [readOptionalText, readText, Except.mapError, Except.map, eq_comm]
  whole _ _ := rfl

theorem reads_null (rest : List Token) : Reads .null rest (.word (.ok .null)) rest where
  tokens := rfl
  text s := by simpa [readText] using refuse_ne_ok _ _ s
  optionalText id := by
    rw [saysId_singleton]
    simp [readOptionalText, eq_comm]
  whole _ _ := rfl

/-- A value of any other kind is refused. -/
theorem reads_refused {v : Value} {rest : List Token} {t : Token} {tail : List Token}
    (htokens : v.tokens ++ rest = t :: tail) (htext : readText t = refuse "a string" t)
    (hoptional : readOptionalText t = (refuse "a string" t).map some) (hv : ∀ s, v ≠ .text s)
    (hnull : v ≠ .null) : Reads v rest t tail where
  tokens := htokens
  text s := by
    rw [htext]
    exact iff_of_false (refuse_ne_ok _ _ s) (hv s)
  optionalText id := by
    rw [hoptional, saysId_singleton]
    refine iff_of_false (fun h => ?_) ?_
    · cases hr : (refuse "a string" t : Except JsonError String) with
      | ok s => exact refuse_ne_ok _ _ s hr
      | error e =>
          rw [hr] at h
          cases h
    · rintro (⟨h, -⟩ | ⟨s, h, -⟩)
      · exact hnull h
      · exact hv s h
  whole id h := by
    rcases saysId_singleton.mp h with ⟨h, -⟩ | ⟨s, h, -⟩
    · exact absurd h hnull
    · exact absurd h (hv s)

theorem exists_reads (v : Value) (rest : List Token) : ∃ t tail, Reads v rest t tail := by
  match v with
  | .text s => exact ⟨_, _, reads_text s rest⟩
  | .null => exact ⟨_, _, reads_null rest⟩
  | .boolean _ | .number _ | .array [] | .array (_ :: _) | .object [] | .object ((_, _) :: _) =>
      exact ⟨_, _, reads_refused rfl rfl rfl (by simp) (by simp)⟩

/-! ## Members -/

/-- What a member adds to those read before it. -/
def Takes (m : Members) (key : String) (v : Value) (m' : Members) : Prop :=
  if key = subscriptionKey then ∃ s, v = .text s ∧ m' = { m with subscription := some s }
  else if key = messageIdKey then ∃ id, SaysId [v] id ∧ m' = { m with messageId := some id }
  else m' = m

theorem map_eq_ok {ε α β : Type} {f : α → β} {x : Except ε α} {b : β} :
    x.map f = .ok b ↔ ∃ a, x = .ok a ∧ f a = b := by
  cases x <;> simp [Except.map]

theorem mapError_eq_ok {ε ε' α : Type} {f : ε → ε'} {x : Except ε α} {a : α} :
    x.mapError f = .ok a ↔ x = .ok a := by
  cases x <;> simp [Except.mapError]

theorem readValue_eq_ok {m m' : Members} {key : String} {v : Value} {rest tail : List Token} :
    m.readValue key (v.tokens ++ rest) = .ok (m', tail) ↔ Takes m key v m' ∧ tail = rest := by
  obtain ⟨t, ts, hreads⟩ := exists_reads v rest
  have hskip := Json.skipValue_append v rest
  rw [hreads.tokens] at hskip ⊢
  rw [Members.readValue, Takes]
  split
  · simp only [map_eq_ok, hreads.text, Prod.mk.injEq]
    constructor
    · rintro ⟨s, rfl, rfl, rfl⟩
      exact ⟨⟨s, rfl, rfl⟩, hreads.whole _ (.text s)⟩
    · rintro ⟨⟨s, rfl, rfl⟩, rfl⟩
      exact ⟨s, rfl, rfl, hreads.whole _ (.text s)⟩
  · split
    · simp only [map_eq_ok, hreads.optionalText, Prod.mk.injEq]
      constructor
      · rintro ⟨id, hid, rfl, rfl⟩
        exact ⟨⟨id, hid, rfl⟩, hreads.whole id hid⟩
      · rintro ⟨⟨id, hid, rfl⟩, rfl⟩
        exact ⟨id, hid, rfl, hreads.whole id hid⟩
    · simp [hskip, Except.map, Except.mapError, eq_comm]

theorem Takes.readValue {m m' : Members} {key : String} {v : Value} (h : Takes m key v m')
    (rest : List Token) : m.readValue key (v.tokens ++ rest) = .ok (m', rest) :=
  readValue_eq_ok.mpr ⟨h, rfl⟩

/-- A value is read to its end, and in one way. -/
theorem takes_iff_of_readValue {m m₁ : Members} {key : String} {v : Value}
    {rest tail : List Token} (h : m.readValue key (v.tokens ++ rest) = .ok (m₁, tail)) :
    tail = rest ∧ ∀ m', Takes m key v m' ↔ m' = m₁ := by
  obtain ⟨htakes, rfl⟩ := readValue_eq_ok.mp h
  refine ⟨rfl, fun m' => ⟨fun htakes' => ?_, fun heq => heq ▸ htakes⟩⟩
  have hread := htakes'.readValue tail
  rw [h] at hread
  cases hread
  rfl

/-- Members one after another, none of them repeated where it may not be. -/
inductive TakesAll : Members → List (String × Value) → Members → Prop
  | nil (m : Members) : TakesAll m [] m
  | cons {m m' m'' : Members} {key : String} {v : Value} {rest : List (String × Value)}
      (admits : m.admits key = true) (first : Takes m key v m') (others : TakesAll m' rest m'') :
      TakesAll m ((key, v) :: rest) m''

theorem takesAll_nil {m m' : Members} : TakesAll m [] m' ↔ m' = m := by
  constructor
  · rintro ⟨⟩
    rfl
  · rintro rfl
    exact .nil m'

theorem takesAll_cons {m m'' : Members} {key : String} {v : Value}
    {rest : List (String × Value)} : TakesAll m ((key, v) :: rest) m'' ↔
      m.admits key = true ∧ ∃ m', Takes m key v m' ∧ TakesAll m' rest m'' := by
  constructor
  · rintro (_ | ⟨hadmits, hfirst, hothers⟩)
    exact ⟨hadmits, _, hfirst, hothers⟩
  · rintro ⟨hadmits, m', hfirst, hothers⟩
    exact .cons hadmits hfirst hothers

/-- A member is read to its end, and the token there tells how to go on. -/
theorem readMembers_member {m : Members} {key : String} {v : Value} {next : Token}
    {rest : List Token} {p : Position} :
    readMembers m (.text (.ok key) (.ok ()) :: .colon :: (v.tokens ++ next :: rest)) = .ok p ↔
      m.admits key = true ∧ ∃ m', Takes m key v m' ∧
        (next = .comma ∧ readMembers m' rest = .ok p ∨
          next = .closeObject ∧ m'.close rest = .ok p) := by
  rw [readMembers]
  cases hadmits : m.admits key with
  | false => simp
  | true =>
      simp only [Bool.not_true, Bool.false_eq_true, if_false, true_and]
      split
      · rename_i e hread
        refine iff_of_false (by simp) ?_
        rintro ⟨m', htakes, -⟩
        have hread' := htakes.readValue (next :: rest)
        rw [hread] at hread'
        cases hread'
      · rename_i m₁ rest' hread
        obtain ⟨htail, htakes⟩ := takes_iff_of_readValue hread
        cases htail
        simp [htakes]
      · rename_i m₁ rest' hread
        obtain ⟨htail, htakes⟩ := takes_iff_of_readValue hread
        cases htail
        simp [htakes]
      · rename_i m₁ hread
        cases (takes_iff_of_readValue hread).1
      · rename_i m₁ t tail hcomma hclose hread
        obtain ⟨htail, htakes⟩ := takes_iff_of_readValue hread
        cases htail
        refine iff_of_false (by simp) ?_
        rintro ⟨m', -, ⟨hnext, -⟩ | ⟨hnext, -⟩⟩
        · exact hcomma hnext
        · exact hclose hnext

theorem readMembers_eq_ok {m : Members} {key : String} {v : Value}
    {members : List (String × Value)} {rest : List Token} {p : Position} :
    readMembers m (.text (.ok key) (.ok ()) :: .colon ::
        (v.tokens ++ (memberTokens members ++ rest))) = .ok p ↔
      ∃ m', TakesAll m ((key, v) :: members) m' ∧ m'.close rest = .ok p := by
  induction members generalizing m key v with
  | nil =>
      change readMembers m (_ :: _ :: (v.tokens ++ .closeObject :: rest)) = _ ↔ _
      rw [readMembers_member]
      simp [takesAll_cons, takesAll_nil, and_assoc]
  | cons member members ih =>
      obtain ⟨key', v'⟩ := member
      rw [Json.memberTokens_cons, readMembers_member]
      simp only [ih, @takesAll_cons m]
      constructor
      · rintro ⟨hadmits, m', htakes, ⟨-, m'', hall, hclose⟩ | ⟨hnext, -⟩⟩
        · exact ⟨m'', ⟨hadmits, m', htakes, hall⟩, hclose⟩
        · cases hnext
      · rintro ⟨m'', ⟨hadmits, m', htakes, hall⟩, hclose⟩
        exact ⟨hadmits, m', htakes, .inl ⟨trivial, m'', hall, hclose⟩⟩

/-! ## Which members make a position -/

/-- A part of a position that members fill at most once. -/
def Fills {α : Type} (reads : Value → α → Prop) (old : Option α) : List Value → Option α → Prop
  | [], new => new = old
  | [v], new => old = none ∧ ∃ a, reads v a ∧ new = some a
  | _ :: _ :: _, _ => False

theorem fills_cons {α : Type} {reads : Value → α → Prop} {old new : Option α} {v : Value}
    {rest : List Value} : Fills reads old (v :: rest) new ↔
      old = none ∧ ∃ a, reads v a ∧ Fills reads (some a) rest new := by
  match rest with
  | [] => simp [Fills]
  | [_] | _ :: _ :: _ => simp [Fills]

theorem valuesAt_cons (key key' : String) (v : Value) (rest : List (String × Value)) :
    valuesAt key ((key', v) :: rest) =
      if key' = key then v :: valuesAt key rest else valuesAt key rest := by
  unfold valuesAt
  rw [List.filter_cons]
  by_cases h : key' = key <;> simp [h]

theorem takesAll_iff {m m' : Members} {members : List (String × Value)} :
    TakesAll m members m' ↔
      Fills (fun v s => v = .text s) m.subscription (valuesAt subscriptionKey members)
        m'.subscription ∧
      Fills (fun v id => SaysId [v] id) m.messageId (valuesAt messageIdKey members)
        m'.messageId := by
  induction members generalizing m with
  | nil =>
      rw [takesAll_nil]
      change m' = m ↔ m'.subscription = m.subscription ∧ m'.messageId = m.messageId
      obtain ⟨_, _⟩ := m
      obtain ⟨_, _⟩ := m'
      simp
  | cons member members ih =>
      obtain ⟨key, v⟩ := member
      rw [takesAll_cons, valuesAt_cons, valuesAt_cons]
      have hne : messageIdKey ≠ subscriptionKey := by decide
      by_cases hsubscription : key = subscriptionKey
      · subst hsubscription
        have hadmits : m.admits subscriptionKey = true ↔ m.subscription = none := by
          simp [Members.admits, hne.symm]
        simp only [hadmits, Takes, if_true, if_neg hne.symm, fills_cons, ih]
        constructor
        · rintro ⟨hfree, _, ⟨s, hs, rfl⟩, hfills, hothers⟩
          exact ⟨⟨hfree, s, hs, hfills⟩, hothers⟩
        · rintro ⟨⟨hfree, s, hs, hfills⟩, hothers⟩
          exact ⟨hfree, _, ⟨s, hs, rfl⟩, hfills, hothers⟩
      · by_cases hid : key = messageIdKey
        · subst hid
          have hadmits : m.admits messageIdKey = true ↔ m.messageId = none := by
            simp [Members.admits, hne]
          simp only [hadmits, Takes, if_true, if_neg hne, fills_cons, ih]
          constructor
          · rintro ⟨hfree, _, ⟨id, hid, rfl⟩, hothers, hfills⟩
            exact ⟨hothers, hfree, id, hid, hfills⟩
          · rintro ⟨hothers, hfree, id, hid, hfills⟩
            exact ⟨hfree, _, ⟨id, hid, rfl⟩, hothers, hfills⟩
        · simp [ih, Takes, hsubscription, hid, Members.admits]

theorem fills_text {values : List Value} {s : String} :
    Fills (fun v s => v = .text s) none values (some s) ↔ values = [.text s] := by
  match values with
  | [] | _ :: _ :: _ => simp [Fills]
  | [v] => simp [Fills]

theorem fills_id {values : List Value} {id : Option String} :
    (∃ new, Fills (fun v id => SaysId [v] id) none values new ∧ new.getD none = id) ↔
      SaysId values id := by
  match values with
  | [] =>
      simp only [Fills, exists_eq_left, Option.getD_none]
      constructor
      · rintro rfl
        exact .absent
      · rintro ⟨⟩
        rfl
  | [v] => simp [Fills]
  | _ :: _ :: _ =>
      simp only [Fills, false_and, exists_false, false_iff]
      rintro ⟨⟩

/-- The members of an object make a position if they name the subscription once and the identifier
at most once. -/
theorem exists_takesAll_iff {members : List (String × Value)} {p : Position} :
    (∃ m, TakesAll {} members m ∧ m.close [] = .ok p) ↔ Denotes (.object members) p := by
  have hclose : ∀ m : Members, m.close [] = .ok p ↔
      m.subscription = some p.subscription ∧ m.messageId.getD none = p.messageId := by
    rintro ⟨subscription, messageId⟩
    cases p
    cases subscription <;> simp [Members.close, finish]
  have hdenotes : Denotes (.object members) p ↔
      valuesAt subscriptionKey members = [.text p.subscription] ∧
        SaysId (valuesAt messageIdKey members) p.messageId := by
    constructor
    · rintro (⟨hsubscription, hid⟩ | _)
      exact ⟨hsubscription, hid⟩
    · exact fun h => .object h.1 h.2
  rw [hdenotes, ← fills_text, ← fills_id]
  simp only [takesAll_iff, hclose]
  constructor
  · rintro ⟨m, ⟨hsubscription, hid⟩, hs, hm⟩
    exact ⟨hs ▸ hsubscription, m.messageId, hid, hm⟩
  · rintro ⟨hsubscription, id, hid, hm⟩
    exact ⟨⟨some p.subscription, id⟩, ⟨hsubscription, hid⟩, rfl, hm⟩

/-! ## Documents -/

theorem denotes_array_cons {v : Value} {rest : List Value} {p : Position} :
    Denotes (.array (v :: rest)) p ↔ v = .text p.subscription ∧ SaysId rest p.messageId := by
  constructor
  · rintro (_ | hid)
    exact ⟨rfl, hid⟩
  · rintro ⟨rfl, hid⟩
    exact .array hid

theorem finish_eq_ok {p q : Position} {rest : List Token} :
    finish q rest = .ok p ↔ rest = [] ∧ p = q := by
  cases rest <;> simp [finish, eq_comm]

/-- The first element of an array is a text. -/
theorem readElements_ne_ok {t : Token} (ht : ∀ s, readText t ≠ .ok s) (tail : List Token)
    (p : Position) : readElements (t :: tail) ≠ .ok p := by
  cases hr : readText t with
  | ok s => exact absurd hr (ht s)
  | error e =>
      rw [readElements.eq_def]
      split
      · simp
      · simp
      · rename_i heq
        cases heq
        rw [hr]
        simp [bind, Except.bind]

theorem readElements_text (s : String) (t : Token) (tail : List Token) :
    readElements (.text (.ok s) (.ok ()) :: .comma :: t :: tail) =
      (readOptionalText t).bind fun id =>
        match tail with
        | [] => .error (.fault .endOfInput)
        | .closeArray :: rest => finish ⟨s, id⟩ rest
        | _ :: _ => .error (.fault .malformed) := by
  cases t <;> rfl

/-- The second element of an array is the last. -/
theorem readElements_second {s : String} {t : Token} {tail : List Token} {p : Position} :
    readElements (.text (.ok s) (.ok ()) :: .comma :: t :: tail) = .ok p ↔
      ∃ id, readOptionalText t = .ok id ∧ tail = [.closeArray] ∧ p = ⟨s, id⟩ := by
  rw [readElements_text]
  cases readOptionalText t with
  | error e => simp [Except.bind]
  | ok id =>
      simp only [Except.bind, Except.ok.injEq, exists_eq_left']
      split
      · simp
      · simp [finish_eq_ok]
      · rename_i hother
        refine iff_of_false (by simp) ?_
        rintro ⟨htail, -⟩
        exact hother (List.cons.inj htail).1

theorem elementTokens_eq_closeArray {elements : List Value} :
    elementTokens elements = [.closeArray] ↔ elements = [] := by
  constructor
  · intro h
    cases elements with
    | nil => rfl
    | cons v rest =>
        have hcons := Json.elementTokens_cons v rest []
        rw [List.append_nil, h] at hcons
        cases hcons
  · rintro rfl
    rfl

theorem readElements_eq_ok {v : Value} {more : List Value} {p : Position} :
    readElements (v.tokens ++ elementTokens more) = .ok p ↔ Denotes (.array (v :: more)) p := by
  rw [denotes_array_cons]
  obtain ⟨t, tail, hreads⟩ := exists_reads v (elementTokens more)
  by_cases hv : ∃ s, v = .text s
  · obtain ⟨s, rfl⟩ := hv
    obtain ⟨subscription, messageId⟩ := p
    change readElements (.text (.ok s) (.ok ()) :: elementTokens more) = _ ↔ _
    cases more with
    | nil =>
        change finish ⟨s, none⟩ [] = _ ↔ _
        simp [finish_eq_ok, saysId_nil, eq_comm]
    | cons w more =>
        obtain ⟨t', tail', hsecond⟩ := exists_reads w (elementTokens more)
        have htokens : elementTokens (w :: more) = .comma :: t' :: tail' := by
          have hcons := Json.elementTokens_cons w more []
          rw [List.append_nil, List.append_nil, hsecond.tokens] at hcons
          exact hcons
        rw [htokens, readElements_second]
        simp only [hsecond.optionalText]
        constructor
        · rintro ⟨id, hid, hend, heq⟩
          cases heq
          rw [hsecond.whole messageId hid, elementTokens_eq_closeArray] at hend
          subst hend
          exact ⟨rfl, hid⟩
        · rintro ⟨heq, hid⟩
          cases heq
          have hlast : more = [] := by cases hid <;> rfl
          subst hlast
          exact ⟨messageId, hid, hsecond.whole _ hid, rfl⟩
  · have ht : ∀ s, readText t ≠ .ok s := fun s hs => hv ⟨s, (hreads.text s).mp hs⟩
    rw [hreads.tokens]
    refine iff_of_false (readElements_ne_ok ht tail p) ?_
    rintro ⟨heq, -⟩
    exact hv ⟨_, heq⟩

theorem not_denotes {v : Value} (hobject : ∀ members, v ≠ .object members)
    (harray : ∀ elements, v ≠ .array elements) (p : Position) : ¬ Denotes v p := by
  rintro (_ | _)
  · exact hobject _ rfl
  · exact harray _ rfl

theorem ofTokens_ne_ok {v : Value} {t : Token} (hv : v.tokens = [t])
    (ht : ofTokens [t] = refuse "struct Position" t) (p : Position) :
    ofTokens v.tokens ≠ .ok p := by
  rw [hv, ht]
  exact refuse_ne_ok _ t p

theorem ofTokens_eq_ok {v : Value} {p : Position} : ofTokens v.tokens = .ok p ↔ Denotes v p := by
  match v with
  | .object [] =>
      rw [← exists_takesAll_iff]
      change ({} : Members).close [] = _ ↔ _
      simp [takesAll_nil]
  | .object ((key, v) :: members) =>
      have htokens := Json.tokens_object_cons v key members []
      rw [List.append_nil] at htokens
      rw [htokens, ← exists_takesAll_iff, ← readMembers_eq_ok]
      rfl
  | .array [] =>
      refine iff_of_false (fun h => by cases h) ?_
      rintro (_ | _)
  | .array (v :: elements) =>
      have htokens := Json.tokens_array_cons v elements []
      rw [List.append_nil, List.append_nil] at htokens
      rw [htokens, ← readElements_eq_ok]
      rfl
  | .null | .boolean _ | .number _ | .text _ =>
      exact iff_of_false (ofTokens_ne_ok rfl rfl p) (not_denotes (by simp) (by simp) p)

/-- What the texts of a value are read as. -/
theorem decode_eq_ok {v : Value} {text : Bytes} (hwritten : v.Written text) {p : Position} :
    decode text = .ok p ↔ Denotes v p := by
  rw [decode, mapError_eq_ok, hwritten.tokens_eq, ofTokens_eq_ok]

/-! ## What is written -/

/-- The object that is written for a position. -/
def document (p : Position) : Value :=
  .object ((subscriptionKey, .text p.subscription) ::
    match p.messageId with
    | none => []
    | some id => [(messageIdKey, .text id)])

theorem denotes_document (p : Position) : Denotes p.document p := by
  have hne : subscriptionKey ≠ messageIdKey := by decide
  obtain ⟨subscription, messageId⟩ := p
  cases messageId with
  | none =>
      refine .object ?_ ?_
      · simp [valuesAt]
      · simpa [valuesAt, hne] using SaysId.absent
  | some id =>
      refine .object ?_ ?_
      · simp [valuesAt, hne.symm]
      · simpa [valuesAt, hne] using SaysId.text id

theorem written_encode (p : Position) : p.document.Written p.encode := by
  have hopen : Bytes.ofText "\x7b" = [123] := by decide
  have hclose : Bytes.ofText "\x7d" = [125] := by decide
  have hcolon : Bytes.ofText ":" = [58] := by decide
  have hcomma : Bytes.ofText "," = [44] := by decide
  have hend : Json.Spaced [.closeObject] ([125] ++ []) :=
    .adjoin .closeObject (.nil fun _ hb => by cases hb)
  obtain ⟨subscription, messageId⟩ := p
  cases messageId with
  | none =>
      simp only [encode, text, Bytes.ofText_append, hopen, hclose, hcolon, List.append_assoc,
        Bytes.ofText_empty, List.nil_append]
      exact .adjoin .openObject (.adjoin (Json.spelled_quote _) (.adjoin .colon
        (.adjoin (Json.spelled_quote _) hend)))
  | some id =>
      simp only [encode, text, Bytes.ofText_append, hopen, hclose, hcolon, hcomma,
        List.append_assoc]
      exact .adjoin .openObject (.adjoin (Json.spelled_quote _) (.adjoin .colon
        (.adjoin (Json.spelled_quote _) (.adjoin .comma (.adjoin (Json.spelled_quote _)
          (.adjoin .colon (.adjoin (Json.spelled_quote _) hend)))))))

/-! ## What does not matter -/

/-- The members whose values are read. -/
def knownMembers (members : List (String × Value)) : List (String × Value) :=
  members.filter fun e => e.1 = subscriptionKey || e.1 = messageIdKey

theorem valuesAt_knownMembers {key : String} (h : key = subscriptionKey ∨ key = messageIdKey)
    (members : List (String × Value)) :
    valuesAt key (knownMembers members) = valuesAt key members := by
  unfold valuesAt knownMembers
  rw [List.filter_filter]
  congr 2
  funext e
  by_cases he : e.1 = key
  · simpa [he] using h
  · simp [he]

theorem SaysId.perm {values values' : List Value} {id : Option String} (h : SaysId values id)
    (hperm : values'.Perm values) : SaysId values' id := by
  cases h with
  | absent =>
      rw [hperm.eq_nil]
      exact .absent
  | null =>
      rw [List.perm_singleton.mp hperm]
      exact .null
  | text id =>
      rw [List.perm_singleton.mp hperm]
      exact .text id

/-- Neither the order of the members nor the ones of other names make a difference. -/
theorem Denotes.perm {members members' : List (String × Value)} {p : Position}
    (h : Denotes (.object members) p)
    (hperm : (knownMembers members').Perm (knownMembers members)) :
    Denotes (.object members') p := by
  have hvalues : ∀ key, key = subscriptionKey ∨ key = messageIdKey →
      (valuesAt key members').Perm (valuesAt key members) := by
    intro key hkey
    rw [← valuesAt_knownMembers hkey members, ← valuesAt_knownMembers hkey members']
    exact (hperm.filter _).map _
  obtain ⟨hsubscription, hid⟩ | _ := h
  refine .object ?_ (hid.perm (hvalues _ (.inr rfl)))
  rw [← List.perm_singleton, ← hsubscription]
  exact hvalues _ (.inl rfl)

theorem toOption_congr {ε α : Type} {x y : Except ε α} (h : ∀ a, x = .ok a ↔ y = .ok a) :
    x.toOption = y.toOption := by
  cases x with
  | ok a => rw [(h a).mp rfl]
  | error e =>
      cases y with
      | ok a => cases (h a).mpr rfl
      | error e' => rfl

/-- A text is read as a position exactly if the value it denotes is an object that names the
subscription once and the identifier at most once, or an array of the two, and then as what is
named there. So blanks and escapes make no difference at all, and neither the order of the members
nor the members of other names make one to what is read. -/
theorem decode_written {v : Value} {text : Bytes} (hwritten : v.Written text) :
    (∀ p, decode text = .ok p ↔ Denotes v p) ∧
    (∀ text', v.Written text' → decode text' = decode text) ∧
    ∀ members members' text', v = .object members → (Value.object members').Written text' →
      (knownMembers members').Perm (knownMembers members) →
        (decode text').toOption = (decode text).toOption := by
  refine ⟨fun p => decode_eq_ok hwritten, fun text' hwritten' => ?_, ?_⟩
  · rw [decode, decode, hwritten.tokens_eq, hwritten'.tokens_eq]
  · rintro members members' text' rfl hwritten' hperm
    refine toOption_congr fun p => ?_
    rw [decode_eq_ok hwritten, decode_eq_ok hwritten']
    exact ⟨fun h => h.perm hperm.symm, fun h => h.perm hperm⟩

/-- A document with a member that is passed over. -/
def crowdedDocument : Value :=
  .object [("extra", .array [.number ⟨true, ['0'], ['5'], some (false, ['2'])⟩,
    .object [(messageIdKey, .boolean true)]]), (messageIdKey, .text "AQ=="),
    (subscriptionKey, .text "a/😀")]

/-- A text of it with blanks, and with letters that are escaped. -/
def crowdedText : Bytes := Bytes.ofText
  (" \x7b \"extra\" : [ -0.5E+2,\t\x7b\"messageId\":true\x7d],\n\"messageId\":\"AQ==\"," ++
    "\"subscriptionName\":\"\\u0061\\/\\ud83D\\uDe00\"\x7d\r\n")

set_option maxRecDepth 10000 in
theorem written_crowdedText : crowdedDocument.Written crowdedText := by
  have space : Blank [32] := by simp [Blank]
  have hnumeral : NumeralSpelled ⟨true, ['0'], ['5'], some (false, ['2'])⟩ _ :=
    .mk (.singleton rfl) (fun _ => rfl) (.present (.singleton rfl))
      (.present (.inl rfl) .plus (.singleton rfl))
  have hletter : UnitSpelled 0x61 [48, 48, 54, 49] :=
    .mk (show HexDigit 0 48 by decide) (show HexDigit 0 48 by decide)
      (show HexDigit 6 54 by decide) (show HexDigit 1 49 by decide)
  have hhigh : UnitSpelled 0xD83D [100, 56, 51, 68] :=
    .mk (show HexDigit 13 100 by decide) (show HexDigit 8 56 by decide)
      (show HexDigit 3 51 by decide) (show HexDigit 13 68 by decide)
  have hlow : UnitSpelled 0xDE00 [68, 101, 48, 48] :=
    .mk (show HexDigit 13 68 by decide) (show HexDigit 14 101 by decide)
      (show HexDigit 0 48 by decide) (show HexDigit 0 48 by decide)
  have hcode : '😀'.toNat = 0x10000 + (0xD83D - 0xD800) * 0x400 + (0xDE00 - 0xDC00) := by decide
  have hname : CharsSpelled "a/😀".toList _ :=
    .cons (.unit hletter) (.cons (.short (by decide : (47, '/') ∈ shortEscapes))
      (.cons (.pair ⟨by decide, by decide⟩ ⟨by decide, by decide⟩ hcode hhigh hlow) .nil))
  have hspaced : Spaced crowdedDocument.lexemes _ :=
    .cons space .openObject <| .cons space (spelled_quote "extra") <| .cons space .colon <|
    .cons space .openArray <| .cons space (.number hnumeral) <| .adjoin .comma <|
    .cons (show Blank [9] by simp [Blank]) .openObject <| .adjoin (spelled_quote messageIdKey) <|
    .adjoin .colon <| .adjoin .trueWord <| .adjoin .closeObject <| .adjoin .closeArray <|
    .adjoin .comma <| .cons (show Blank [10] by simp [Blank]) (spelled_quote messageIdKey) <|
    .adjoin .colon <| .adjoin (spelled_quote "AQ==") <| .adjoin .comma <|
    .adjoin (spelled_quote subscriptionKey) <| .adjoin .colon <| .adjoin (.text hname) <|
    .adjoin .closeObject (.nil (show Blank [13, 10] by simp [Blank]))
  obtain ⟨bytes, hbytes, hwritten⟩ : ∃ bytes, crowdedText = bytes ∧ crowdedDocument.Written bytes :=
    ⟨_, by decide +kernel, hspaced⟩
  rw [hbytes]
  exact hwritten

theorem decode_crowdedText :
    decode crowdedText = .ok ⟨"a/😀", some "AQ=="⟩ ∧
      (decode (encode ⟨"a/😀", some "AQ=="⟩)).toOption = (decode crowdedText).toOption := by
  obtain ⟨hdecode, -, hmembers⟩ := decode_written written_crowdedText
  refine ⟨(hdecode _).mpr (.object rfl (.text "AQ==")), ?_⟩
  exact hmembers _ _ _ rfl (written_encode ⟨"a/😀", some "AQ=="⟩) (.swap ..)

end TrackedDelivery.Position
