import TrackedDelivery.Proofs.Deployment.Leaks
import TrackedDelivery.Proofs.Deployment.Reopening
import TrackedDelivery.Proofs.Memory.Attachments
/-!
# Consumers in use

A consumer is in use as long as somebody can call it: it is bare, or something refers to its
tracker. Whoever is attached to the broker is in use and was not closed, and the other way around.
A step brings no old consumer back into use; a new one is in use from the start; and a bare one that
is given up is dropped by the step, so the drop of unheld trackers finds all others that went out
of use.
-/
namespace TrackedDelivery.Deployment

open Memory Memory.Store

variable {d after : Deployment Store} {s : Step Store} {answer : Answer Store} {c n : ℕ}
  {name : String} {t : Tracker Store} {options : SubscribeOptions} {source : Source Store}

/-- Somebody still has this consumer. -/
def InUse (d : Deployment Store) (c : ℕ) : Prop :=
  d.Bare c ∨ ∃ n t, d.trackers[n]? = some t ∧ d.isHeld n = true ∧ t.consumerNumber = c

instance (d : Deployment Store) (c : ℕ) : Decidable (d.Bare c) :=
  decidable_of_iff (c ∈ d.consumers.values) TextMap.mem_values

instance (d : Deployment Store) (c : ℕ) : Decidable (d.InUse c) :=
  decidable_of_iff (d.Bare c ∨ ∃ n ∈ List.range d.trackers.length, ∃ t ∈ d.trackers[n]?,
    d.isHeld n = true ∧ t.consumerNumber = c) <| by
  apply or_congr_right
  constructor
  · rintro ⟨n, -, t, ht, h⟩
    exact ⟨n, t, ht, h⟩
  · rintro ⟨n, t, ht, h⟩
    exact ⟨n, List.mem_range.mpr (List.getElem?_eq_some_iff.mp ht).1, t, ht, h⟩

/-- The consumer that is closed in a step. An open that is refused before it asks the broker for
anything closes none. -/
def closed? (d : Deployment Store) (s : Step Store) : Option ℕ :=
  match s with
  | .openSource .. => if (d.sought? s).isSome then d.closing? s else none
  | _ => d.closing? s

/-- The bare consumer that is dropped in a step. A subscribe that is refused drops none. -/
def forgone? (d : Deployment Store) (s : Step Store) : Option ℕ :=
  match s with
  | .subscribe client _ options =>
      (d.clients.find? client).bind fun client =>
        if (d.broker.subscribe client options).1.isOk then d.givenUp? s else none
  | _ => d.givenUp? s

/-- The consumers that are closed in the course of steps. -/
def closedIn (d : Deployment Store) : List (Step Store) → List ℕ
  | [] => []
  | s :: rest => (d.closed? s).toList ++ (d.step s).2.closedIn rest

theorem closing?_of_closed? (h : d.closed? s = some c) : d.closing? s = some c := by
  unfold closed? at h
  split at h
  · split at h
    · exact h
    · cases h
  · exact h

theorem givenUp?_of_forgone? (h : d.forgone? s = some c) : d.givenUp? s = some c := by
  unfold forgone? at h
  split at h
  · obtain ⟨client, -, hgiven⟩ := Option.bind_eq_some_iff.mp h
    split at hgiven
    · exact hgiven
    · cases hgiven
  · exact h

/-- A step that is in vain closes nothing and drops nothing. -/
theorem spares_of_vain (h : d.Vain s) : d.closed? s = none ∧ d.forgone? s = none := by
  cases s with
  | drop kind name => cases kind <;> first | exact ⟨rfl, h⟩ | cases h
  | _ =>
      simp_all [Vain, closed?, closing?, forgone?, givenUp?, sought?, consumerOf?, tracker?,
        trackerNumber?, session?]

theorem forgone?_of_ok {clientName : String} {client k : ℕ}
    (hclient : d.clients.find? clientName = some client)
    (hok : (d.broker.subscribe client options).1 = .ok k) :
    d.forgone? (.subscribe clientName name options) = d.givenUp? (.drop .consumer name) := by
  rw [forgone?, hclient, Option.bind_some, hok]
  rfl

theorem forgone?_of_error {clientName : String} {client : ℕ} {e : Memory.Failure}
    (hclient : d.clients.find? clientName = some client)
    (he : (d.broker.subscribe client options).1 = .error e) :
    d.forgone? (.subscribe clientName name options) = none := by
  rw [forgone?, hclient, Option.bind_some, he]
  rfl

/-! ## Owners -/

theorem mem_owned : c ∈ d.owned ↔ d.Bare c ∨
    ∃ (n : ℕ) (t : Tracker Store), d.trackers[n]? = some t ∧ t.consumerNumber = c := by
  rw [owned, List.mem_append, or_comm, TextMap.mem_values, List.mem_map]
  apply or_congr_right
  constructor
  · rintro ⟨t, ht, rfl⟩
    obtain ⟨n, hn⟩ := List.getElem?_of_mem ht
    exact ⟨n, t, hn, rfl⟩
  · rintro ⟨n, t, ht, rfl⟩
    exact ⟨t, List.mem_of_getElem? ht, rfl⟩

theorem InUse.owned (h : d.InUse c) : c ∈ d.owned := by
  rcases h with hbare | ⟨n, t, ht, -, hc⟩
  · exact mem_owned.mpr (.inl hbare)
  · exact mem_owned.mpr (.inr ⟨n, t, ht, hc⟩)

/-- What a step closes belongs to a tracker, or is bare. -/
theorem owned_of_closing? (h : d.closing? s = some c) : c ∈ d.owned := by
  have hof : ∀ target, d.consumerOf? target = some c → c ∈ d.owned := by
    intro target hc
    obtain ⟨n, t, -, ht, hc⟩ := consumerOf?_cases hc
    exact mem_owned.mpr (.inr ⟨n, t, ht, hc⟩)
  cases s with
  | openSource | teardown | closeTracker => exact hof _ h
  | closeConsumer key => exact mem_owned.mpr (.inl ⟨key, h⟩)
  | _ => cases h

/-- A consumer that is in use is not dropped together with the unheld ones. -/
theorem Owned.not_unheld_of_inUse (h : d.Owned) (hc : d.InUse c) : ¬ d.Unheld c := by
  rcases hc with hbare | ⟨n, t, ht, hheld, rfl⟩
  · rintro ⟨n, t, ht, -, rfl⟩
    exact h.not_bare ht hbare
  · exact h.not_unheld ht hheld

/-- One that is taken out of a list without repetitions is not in the rest. -/
theorem mem_of_perm_cons {l rest : List ℕ} {a : ℕ} (h : l.Perm (a :: rest)) (hl : l.Nodup) :
    c ∈ rest ↔ c ∈ l ∧ c ≠ a := by
  have hnot : a ∉ rest := (List.nodup_cons.mp (h.nodup_iff.mp hl)).1
  rw [h.mem_iff, List.mem_cons]
  constructor
  · intro hc
    exact ⟨.inr hc, fun ha => hnot (ha ▸ hc)⟩
  · rintro ⟨rfl | hc, hne⟩
    · exact absurd rfl hne
    · exact hc

/-- The owner of a bare consumer that is dropped gives it up. -/
theorem mem_owned_dropConsumer (h : d.owned.Nodup) (name : String) :
    c ∈ (d.drop name .consumer).2.owned ↔ c ∈ d.owned ∧ d.consumers.find? name ≠ some c := by
  unfold drop
  cases hk : d.consumers.find? name with
  | none => simp
  | some k =>
      have hperm : d.owned.Perm (k :: (d.trackers.map (·.consumer) ++
          (d.consumers.erase name).values)) :=
        ((TextMap.perm_values_erase hk).append_left _).trans List.perm_middle
      have hmem := mem_of_perm_cons (c := c) hperm h
      rw [ne_eq, Option.some.injEq, eq_comm]
      exact hmem

/-- A consumer that gets a free name is owned besides the others. -/
theorem perm_owned_insert (h : d.consumers.find? name = none) (k : ℕ) :
    ({ d with consumers := d.consumers.insert name k } : Deployment Store).owned.Perm
      (k :: d.owned) :=
  ((TextMap.perm_values_insert k h).append_left _).trans List.perm_middle

/-- A subscribe gives its consumer an owner, and takes away the one that had the name. -/
theorem mem_owned_subscribe (h : d.owned.Nodup) (client : ℕ) (hc : c < d.broker.consumers.length) :
    c ∈ (d.subscribe name client options).2.owned ↔ c ∈ d.owned ∧
      ((d.broker.subscribe client options).1.isOk = true → d.consumers.find? name ≠ some c) := by
  rw [subscribe_eq]
  rcases d.broker.subscribe_cases client options with ⟨e, he, -⟩ | ⟨hok, -⟩
  · rw [he]
    exact ⟨fun hmem => ⟨hmem, fun hok => by cases hok⟩, And.left⟩
  · rw [hok]
    obtain ⟨-, -, hfree⟩ :=
      dropConsumer_owned { d with broker := (d.broker.subscribe client options).2 } name
    have hnew := (perm_owned_insert hfree d.broker.consumers.length).mem_iff (a := c)
    have hdropped := mem_owned_dropConsumer (c := c)
      (d := { d with broker := (d.broker.subscribe client options).2 }) h name
    refine hnew.trans ?_
    rw [List.mem_cons, or_iff_right (Nat.ne_of_lt hc), hdropped]
    exact and_congr_right fun _ => ⟨fun hne _ => hne, fun hne => hne rfl⟩

theorem Acts.mem_owned (ha : d.Acts s answer after) (hs : ¬ s.KeepsOwners) (h : d.owned.Nodup)
    (hc : c < d.broker.consumers.length) :
    c ∈ after.owned ↔ c ∈ d.owned ∧ d.forgone? s ≠ some c := by
  cases ha with
  | vain hvain =>
      rw [(spares_of_vain hvain).2]
      simp
  | openSource key position fresh found after =>
      have hgains := openSource_gains found position fresh
      refine Iff.trans ?_ (and_iff_left (Option.some_ne_none c).symm).symm
      rw [← after, Deployment.owned, Deployment.owned, hgains.consumers]
      rcases hgains.trackers with hsame | ⟨hnew, -⟩
      · rw [hsame]
      · rw [hnew]
        simp [Nat.ne_of_lt hc]
  | subscribe clientName key options found after =>
      rw [← after, mem_owned_subscribe h _ hc]
      simp [forgone?, found, givenUp?]
  | track key other subscription found =>
      refine Iff.trans ?_ (and_iff_left (Option.some_ne_none c).symm).symm
      rw [Deployment.owned, List.map_append, List.append_assoc]
      exact ((TextMap.perm_values_erase found).symm.append_left _).mem_iff
  | dropConsumer key found =>
      have hforgone : d.forgone? (.drop .consumer key) = d.consumers.find? key := rfl
      have hdropped := mem_owned_dropConsumer (c := c) h key
      simp only [drop, found] at hdropped
      rw [hforgone, found]
      exact hdropped
  | dropSource | dropTracker | dropClient | dropTask =>
      exact (and_iff_left (Option.some_ne_none c).symm).symm
  | _ => exact absurd trivial hs

/-- An old consumer has an owner after a step if it had one before and is not dropped. -/
theorem mem_owned_act (h : d.Regular) (hc : c < d.broker.consumers.length) :
    c ∈ (d.act s).2.owned ↔ c ∈ d.owned ∧ d.forgone? s ≠ some c := by
  by_cases hs : s.KeepsOwners
  · have hnone : d.forgone? s = none := by
      cases s with
      | subscribe | drop => cases hs
      | _ => rfl
    rw [owned_act h.sound h.allKeyed hs, hnone]
    simp
  · exact (d.acts s).mem_owned hs h.owned.nodup hc

/-! ## What becomes of consumers that were attached -/

theorem attached?_dropConsumer (d : Deployment Store) (name : String) (c : ℕ) :
    (d.drop name .consumer).2.broker.attached? c =
      if d.givenUp? (.drop .consumer name) = some c then none else d.broker.attached? c := by
  cases hk : d.consumers.find? name with
  | none => simp [drop, givenUp?, hk]
  | some k =>
      have hgiven : d.givenUp? (.drop .consumer name) = some k := hk
      simp only [drop, hk]
      refine (d.broker.attached?_release k c).trans ?_
      by_cases hc : c = k
      · rw [if_pos hc, if_pos (hc ▸ hgiven)]
      · rw [if_neg hc, if_neg fun h => hc (Option.some.inj (h.symm.trans hgiven))]

/-- An open is refused at once, or it asks the broker: the source is torn down and connects. -/
theorem openSource_parts (hs : d.sources.find? name = some source) (position : Option Bytes)
    (unused : String) :
    (wanted? source position unused = none ∧
      (d.openSource name source position unused).2 = d) ∨
    ((wanted? source position unused).isSome ∧ ∃ config subscription isFresh events,
      (d.openSource name source position unused).2 =
        { ((d.vacated name source isFresh).connectSource name config subscription).2 with
          log := events }) := by
  cases hconfig : source.config with
  | none =>
      left
      unfold openSource
      simp [wanted?, hconfig]
  | some config =>
      cases hsettle : settleName (ε := Memory.Failure) config position unused with
      | error e =>
          left
          unfold openSource
          simp [wanted?, hconfig, hsettle]
      | ok settled =>
          right
          obtain ⟨subscription, isFresh⟩ := settled
          obtain ⟨events, hopen⟩ := openSource_eq hs hconfig hsettle
          refine ⟨by simp [wanted?, hconfig, hsettle], config, subscription, isFresh, events, ?_⟩
          rw [hopen]

theorem attached?_openSource (hs : d.sources.find? name = some source) (position : Option Bytes)
    (unused : String) (hc : c < d.broker.consumers.length) :
    (d.openSource name source position unused).2.broker.attached? c =
      if (wanted? source position unused).isSome ∧ d.consumerOf? (.source name) = some c then none
      else d.broker.attached? c := by
  rcases d.openSource_parts hs position unused with
    ⟨hnone, hsame⟩ | ⟨hsome, config, subscription, isFresh, events, hopen⟩
  · rw [hsame, hnone]
    simp
  · have hdown := (teardown_spec hs).2
    have hlt : c < (d.vacated name source isFresh).broker.consumers.length :=
      Nat.lt_of_lt_of_eq hc hdown.consumers_length.symm
    have hconnect :=
      (connectSource_spec (d.vacated name source isFresh) name config subscription).attached? c hlt
    rw [hopen, hsome]
    refine hconnect.trans ((hdown.attached? c).trans ?_)
    simp only [true_and]

theorem closed?_openSource (hs : d.sources.find? name = some source)
    {position : Option Bytes} {unused : String} :
    d.closed? (.openSource name position unused) = some c ↔
      (wanted? source position unused).isSome ∧ d.consumerOf? (.source name) = some c := by
  rw [closed?, sought?, hs, Option.bind_some, Option.ite_none_right_eq_some]
  rfl

theorem attached?_subscribe {clientName : String} {client : ℕ}
    (hclient : d.clients.find? clientName = some client) (hc : c < d.broker.consumers.length) :
    (d.subscribe name client options).2.broker.attached? c =
      if d.forgone? (.subscribe clientName name options) = some c then none
      else d.broker.attached? c := by
  rw [subscribe_eq]
  rcases d.broker.subscribe_cases client options with ⟨e, he, haway⟩ | ⟨hok, hattach⟩
  · rw [he, forgone?_of_error hclient he, if_neg nofun]
    exact attached?_congr haway.consumers c
  · have hbefore : (d.broker.subscribe client options).2.attached? c = d.broker.attached? c := by
      rw [hattach.attached?_after, if_neg (Nat.ne_of_lt hc)]
    rw [hok, forgone?_of_ok hclient hok, ← hbefore]
    exact attached?_dropConsumer _ name c

/-- What becomes of an old consumer in a step. -/
theorem Acts.attached? (h : d.Acts s answer after) (hb : d.broker.Sound)
    (hc : c < d.broker.consumers.length) : after.broker.attached? c =
      if d.closed? s = some c ∨ d.forgone? s = some c then none else d.broker.attached? c := by
  have hspared : d.closing? s = none → d.givenUp? s = none → after.broker.attached? c =
      if d.closed? s = some c ∨ d.forgone? s = some c then none else d.broker.attached? c := by
    intro hclosing hgiven
    have hnotclosing : d.closing? s ≠ some c := by simp [hclosing]
    have hnotgiven : d.givenUp? s ≠ some c := by simp [hgiven]
    rw [if_neg fun h => h.elim (fun h => hnotclosing (closing?_of_closed? h))
      fun h => hnotgiven (givenUp?_of_forgone? h)]
    exact h.asks.attached?_eq hb hnotclosing hnotgiven hc
  have hreleased : ∀ k, (d.broker.release k).attached? c =
      if some k = some c then none else d.broker.attached? c := by
    intro k
    rw [attached?_release]
    simp [eq_comm]
  cases h with
  | vain hvain =>
      rw [(spares_of_vain hvain).1, (spares_of_vain hvain).2, if_neg (by simp)]
  | openSource key position unused found after =>
      rw [← after, attached?_openSource found position unused hc]
      simp only [closed?_openSource found, forgone?, givenUp?, reduceCtorEq, or_false]
  | teardown key found after =>
      rw [← after, (teardown_spec found).2.attached?]
      simp [closed?, closing?, forgone?, givenUp?]
  | closeTracker key found =>
      refine (hreleased _).trans ?_
      simp [closed?, closing?, forgone?, givenUp?, consumerOf?, found]
  | closeConsumer key found =>
      refine (hreleased _).trans ?_
      simp [closed?, closing?, forgone?, givenUp?, found]
  | dropConsumer key found =>
      refine (hreleased _).trans ?_
      simp [closed?, closing?, forgone?, givenUp?, found]
  | subscribe clientName key options found after =>
      rw [← after, attached?_subscribe found hc]
      simp only [closed?, closing?, reduceCtorEq, false_or]
  | _ => exact hspared rfl rfl

/-! ## New consumers -/

/-- A consumer that comes as a source connects is attached, and the session has it. -/
theorem connectSource_new {config : Config} {subscription : String}
    (hle : d.broker.consumers.length ≤ c)
    (hlt : c < (d.connectSource name config subscription).2.broker.consumers.length) :
    (∃ options, (d.connectSource name config subscription).2.broker.attached? c = some options) ∧
      (d.connectSource name config subscription).2.InUse c := by
  have hconsumers : (d.connected config).consumers = d.broker.consumers :=
    (Store.connect_quiet d.broker config.client).2
  rcases d.connectSource_outcomes name config subscription with
    ⟨cause, -, heq⟩ | ⟨-, ⟨cause, b, haway, -, heq⟩ | ⟨b, hattach, -, heq⟩⟩
  · rw [heq] at hlt
    dsimp only at hlt
    rw [hconsumers] at hlt
    omega
  · rw [heq] at hlt
    dsimp only at hlt
    rw [(b.closeClient_quiet _).2, haway.consumers, hconsumers] at hlt
    omega
  · rw [heq] at hlt ⊢
    dsimp only at hlt ⊢
    rw [hattach.consumers, hconsumers, List.length_append, List.length_singleton] at hlt
    obtain rfl : c = d.broker.consumers.length := by omega
    refine ⟨⟨_, attached?_eq_some.mpr (attached_of_connected hattach).1⟩, .inr ?_⟩
    refine ⟨d.trackers.length, _, List.getElem?_concat_length, ?_, rfl⟩
    refine isHeld_iff.mpr (.inl ⟨name, ⟨d.broker.clients.length, _⟩, ?_, rfl⟩)
    rw [session?, TextMap.find?_insert, if_pos rfl]
    rfl

theorem length_dropConsumer (d : Deployment Store) (name : String) :
    (d.drop name .consumer).2.broker.consumers.length = d.broker.consumers.length := by
  unfold drop
  cases d.consumers.find? name with
  | none => rfl
  | some k => exact d.broker.length_release k

theorem subscribe_new (h : d.Owned) {client : ℕ} (hle : d.broker.consumers.length ≤ c)
    (hlt : c < (d.subscribe name client options).2.broker.consumers.length) :
    (∃ o, (d.subscribe name client options).2.broker.attached? c = some o) ∧
      (d.subscribe name client options).2.InUse c := by
  have heq := d.subscribe_eq name client options
  rcases d.broker.subscribe_cases client options with ⟨e, he, haway⟩ | ⟨hok, hattach⟩
  · rw [he] at heq
    rw [heq] at hlt
    dsimp only at hlt
    rw [haway.consumers] at hlt
    omega
  · rw [hok] at heq
    rw [heq] at hlt ⊢
    dsimp only at hlt ⊢
    rw [length_dropConsumer] at hlt
    dsimp only at hlt
    rw [hattach.consumers, List.length_append, List.length_singleton] at hlt
    obtain rfl : c = d.broker.consumers.length := by omega
    refine ⟨⟨options, ?_⟩, .inl ⟨name, (TextMap.find?_insert ..).trans (if_pos rfl)⟩⟩
    rw [attached?_dropConsumer, if_neg]
    · exact (hattach.attached?_after _).trans (if_pos rfl)
    · -- The consumer that had the name came before.
      intro hgiven
      exact Nat.lt_irrefl _ (h.known _ (mem_owned.mpr (.inl ⟨name, hgiven⟩)))

/-- A consumer that comes in a step is attached, and in use. -/
theorem Acts.new (ha : d.Acts s answer after) (h : d.Owned)
    (hle : d.broker.consumers.length ≤ c) (hlt : c < after.broker.consumers.length) :
    (∃ options, after.broker.attached? c = some options) ∧ after.InUse c := by
  have hsought : d.sought? s ≠ none := by
    intro hnone
    have hlength : after.broker.consumers.length = d.broker.consumers.length := by
      apply ha.asks.consumers_length
      intro options hoptions
      cases hnone.symm.trans hoptions
    omega
  cases ha with
  | vain => omega
  | openSource key position unused found after =>
      rw [← after] at hlt ⊢
      rcases d.openSource_parts found position unused with
        ⟨-, hsame⟩ | ⟨-, config, subscription, isFresh, events, hopen⟩
      · rw [hsame] at hlt
        exact absurd hlt (Nat.not_lt.mpr hle)
      · have hlength : (d.vacated key _ isFresh).broker.consumers.length =
            d.broker.consumers.length := (teardown_spec found).2.consumers_length
        rw [hopen] at hlt ⊢
        exact connectSource_new (hlength.trans_le hle) hlt
  | subscribe clientName key options found after =>
      rw [← after] at hlt ⊢
      exact subscribe_new h hle hlt
  | _ => exact absurd rfl hsought

/-! ## Old consumers -/

/-- The trackers that go by names after a step were held before, except a new one. -/
theorem Acts.held (ha : d.Acts s answer after) (h : after.held.find? name = some n)
    (hn : n < d.trackers.length) : d.isHeld n = true := by
  have hnamed : d.held.find? name = some n → d.isHeld n = true := fun hname =>
    isHeld_iff.mpr (.inr (.inl ⟨name, hname⟩))
  cases ha with
  | hold key other number =>
      rw [TextMap.find?_insert] at h
      split at h
      · cases h
        obtain ⟨session, hsession, rfl⟩ := Option.map_eq_some_iff.mp number
        exact isHeld_of_session hsession
      · exact hnamed h
  | track key other subscription found =>
      rw [TextMap.find?_insert] at h
      split at h
      · cases h
        exact absurd hn (Nat.lt_irrefl _)
      · exact hnamed h
  | dropTracker key =>
      rw [TextMap.find?_erase] at h
      split at h
      · cases h
      · exact hnamed h
  | _ => exact hnamed h

/-- A tracker that is held after a step was held before, or its consumer is attached: a request
that waits has just found it so. -/
theorem isHeld_of_act (hb : d.broker.Sound) (h : (d.act s).2.isHeld n = true)
    (hn : n < d.trackers.length) : d.isHeld n = true ∨ ∃ t options,
      (d.act s).2.trackers[n]? = some t ∧
        (d.act s).2.broker.attached? t.consumer = some options := by
  rcases isHeld_iff.mp h with
    ⟨name, session, hsession, rfl⟩ | ⟨name, hname⟩ | ⟨name, task, htask, rfl⟩
  · rcases (d.acts s).session_cases hsession with hold | ⟨-, -, harises⟩
    · exact .inl (isHeld_of_session hold)
    · exact absurd harises.tracker (Nat.ne_of_lt hn)
  · exact .inl ((d.acts s).held hname hn)
  · rcases (d.acts s).tasks hb htask with ⟨old, hold, htracker, -⟩ | ⟨t, options, ht, -, hidle⟩
    · exact .inl (htracker ▸ isHeld_of_task hold)
    · exact .inr ⟨t, options, ht, hidle.attached⟩

/-- No step brings an old consumer back into use. -/
theorem inUse_of_act (h : d.Regular) (hc : c < d.broker.consumers.length)
    (huse : (d.act s).2.InUse c) :
    d.InUse c ∨ ∃ options, (d.act s).2.broker.attached? c = some options := by
  have hafter := (h.act s).owned
  obtain ⟨howned, -⟩ := (mem_owned_act h hc).mp huse.owned
  rcases mem_owned.mp howned with hbare | ⟨n, t, ht, rfl⟩
  · exact .inl (.inl hbare)
  · obtain ⟨u, hu, hconsumer, -⟩ := (turns_act h.sound h.allKeyed s).tracker ht
    rcases huse with hbare | ⟨k, v, hv, hheld, hsame⟩
    · rw [Tracker.consumerNumber, ← hconsumer] at hbare
      exact absurd hbare (hafter.not_bare hu)
    · obtain rfl := hafter.tracker_inj hv hu (hsame.trans hconsumer.symm)
      have hn := (List.getElem?_eq_some_iff.mp ht).1
      rcases isHeld_of_act h.sound hheld hn with hbefore | ⟨u', options, hu', ha⟩
      · exact .inl (.inr ⟨k, t, ht, hbefore, rfl⟩)
      · cases hu.symm.trans hu'
        rw [hconsumer] at ha
        exact .inr ⟨options, ha⟩

end TrackedDelivery.Deployment
