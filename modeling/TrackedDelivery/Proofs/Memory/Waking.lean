import TrackedDelivery.Proofs.Memory.Remaining
import Mathlib.Data.List.Infix
import Mathlib.Logic.Relation
/-!
# Wake-ups

A receive that found nothing looks again only after a wake-up. Whatever happens to the broker
either is a wake-up or leaves a consumer idle that was idle before. One thing is excepted: a
consumer that is dropped, and not closed, has gone without a wake-up.
-/
namespace TrackedDelivery.Memory.Store

variable {b b' : Store} {gone : ℕ → Prop}

/-! ## What makes no noise -/

/-- No wake-up is called, and no failure of a receive is arranged for or met. -/
structure Silent (b b' : Store) : Prop where
  wakeUps : b'.wakeUps = b.wakeUps
  failReceives : b'.failReceives = b.failReceives

theorem silent_connect (b : Store) (options : ClientOptions) :
    b.Silent (b.connect options).2 := by
  obtain ⟨_, _, _, h⟩ := b.frame_connect options
  rw [h]
  exact ⟨rfl, rfl⟩

theorem silent_closeClient (b : Store) (client : ℕ) : b.Silent (b.closeClient client) := by
  obtain ⟨_, _, h⟩ := b.frame_closeClient client
  rw [h]
  exact ⟨rfl, rfl⟩

theorem silent_subscribe (b : Store) (client : ℕ) (options : SubscribeOptions) :
    b.Silent (b.subscribe client options).2 := by
  obtain ⟨_, _, _, h⟩ := b.frame_subscribe client options
  rw [h]
  exact ⟨rfl, rfl⟩

theorem silent_acknowledge (b : Store) (consumer : ℕ) (id : EntryId) :
    b.Silent (b.acknowledge consumer id).2 := by
  obtain ⟨_, _, h⟩ := b.frame_acknowledge consumer id
  rw [h]
  exact ⟨rfl, rfl⟩

theorem silent_release (b : Store) (consumer : ℕ) : b.Silent (b.release consumer) := by
  obtain ⟨_, _, h⟩ := b.frame_release consumer
  rw [h]
  exact ⟨rfl, rfl⟩

theorem wakeUps_tryReceive (b : Store) (consumer : ℕ) :
    (b.tryReceive consumer).2.wakeUps = b.wakeUps := by
  obtain ⟨_, _, h⟩ := b.frame_tryReceive consumer
  rw [h]

theorem willing_tryReceive (consumer : ℕ) (h : b.failReceives = []) :
    (b.tryReceive consumer).2.failReceives = [] := by
  unfold tryReceive
  repeat' split
  all_goals simp_all [setTopic]

/-! ## Consumers that wait -/

/-- What happens at the broker, as far as consumers that wait are concerned. -/
structure Leads (gone : ℕ → Prop) (b b' : Store) : Prop where
  extends_ : b.Extends b'
  grows : ∀ t, b.log t <+: b'.log t
  wakeUps_le : b.wakeUps ≤ b'.wakeUps
  redeliver : ∀ c options, b.attached? c = some options →
    (b'.subscriptionOrNew options.topic options.subscription).redeliver ⊆
      (b.subscriptionOrNew options.topic options.subscription).redeliver
  willing : b'.wakeUps = b.wakeUps → b.failReceives = [] → b'.failReceives = []
  log : b'.wakeUps = b.wakeUps → ∀ t, b'.log t = b.log t
  attached : b'.wakeUps = b.wakeUps → ∀ c options, ¬ gone c → b.attached? c = some options →
    b'.attached? c = some options

/-- Without a wake-up, who was idle stays so. -/
theorem Leads.idle (h : Leads gone b b') (hw : b'.wakeUps = b.wakeUps) {c : ℕ}
    {options : SubscribeOptions} (hc : ¬ gone c) (hi : b.Idle c options) :
    b'.Idle c options where
  attached := h.attached hw c options hc hi.attached
  willing := h.willing hw hi.willing
  remaining := by
    obtain ⟨hqueue, hcursor⟩ := Subscription.remaining_eq_nil_iff.mp hi.remaining
    apply Subscription.remaining_eq_nil_iff.mpr
    constructor
    · apply List.eq_nil_of_subset_nil
      rw [← hqueue]
      exact h.redeliver c options hi.attached
    · rw [h.log hw]
      exact Nat.le_trans hcursor (h.extends_.cursor ..)

/-- What appends to no log leads the consumers that wait if it arranges no failure for them,
queues nothing for them anew and lets only those go that may go. -/
theorem leads_of_log (hlog : ∀ t, b'.log t = b.log t) (hx : b.Extends b')
    (hle : b.wakeUps ≤ b'.wakeUps) (hwilling : b.failReceives = [] → b'.failReceives = [])
    (hqueue : ∀ c options, b.attached? c = some options →
      (b'.subscriptionOrNew options.topic options.subscription).redeliver ⊆
        (b.subscriptionOrNew options.topic options.subscription).redeliver)
    (hattached : ∀ c options, ¬ gone c → b.attached? c = some options →
      b'.attached? c = some options) : Leads gone b b' where
  extends_ := hx
  grows t := by rw [hlog]
  wakeUps_le := hle
  redeliver := hqueue
  willing _ := hwilling
  log _ := hlog
  attached _ := hattached

theorem leads_of_eq (htopics : b'.topics = b.topics) (hconsumers : b'.consumers = b.consumers)
    (hle : b.wakeUps ≤ b'.wakeUps) (hwilling : b.failReceives = [] → b'.failReceives = []) :
    Leads gone b b' := by
  apply leads_of_log (log_congr htopics) (extends_of_eq htopics hconsumers) hle hwilling
  · intro c options _
    rw [subscriptionOrNew_congr htopics]
    exact List.Subset.refl _
  · intro c options _ ha
    rw [attached?_congr hconsumers, ha]

theorem leads_of_quiet (htopics : b'.topics = b.topics) (hconsumers : b'.consumers = b.consumers)
    (h : b.Silent b') : Leads gone b b' :=
  leads_of_eq htopics hconsumers (Nat.le_of_eq h.wakeUps.symm) fun hf => h.failReceives.trans hf

/-- A store is handed out of, or its topics and consumers stay as they are. -/
theorem tryReceive_cases (hb : b.Sound) (consumer : ℕ) :
    (∃ m options s, b.HandsOutFirst consumer m (b.tryReceive consumer).2 options s) ∨
      ((b.tryReceive consumer).2.topics = b.topics ∧
        (b.tryReceive consumer).2.consumers = b.consumers) := by
  by_cases hm : ∃ m, (b.tryReceive consumer).1 = some (.ok m)
  · obtain ⟨m, hm⟩ := hm
    exact .inl ⟨m, handsOutFirst_of_tryReceive hb (Prod.ext hm rfl)⟩
  · exact .inr (tryReceive_quiet fun m h => hm ⟨m, h⟩)

theorem leads_receive (hb : b.Sound) (consumer : ℕ) :
    Leads gone b (b.tryReceive consumer).2 := by
  have hle := Nat.le_of_eq (b.wakeUps_tryReceive consumer).symm
  have hwilling : b.failReceives = [] → (b.tryReceive consumer).2.failReceives = [] :=
    willing_tryReceive consumer
  rcases tryReceive_cases hb consumer with ⟨m, options, s, hfirst⟩ | ⟨htopics, hconsumers⟩
  · apply leads_of_log _ hfirst.handsOut.extends hle hwilling
    · intro c options' _
      rw [hfirst.handsOut.subscription]
      split
      · rename_i hw
        rw [hw.1, hw.2]
        exact fun e he => ((hfirst.handsOut.gives.mem_redeliver e).mp he).1
      · exact List.Subset.refl _
    · intro c options' _ ha
      rw [attached?_congr hfirst.handsOut.consumers, ha]
    · intro t
      rw [hfirst.handsOut.after, log_put]
  · exact leads_of_eq htopics hconsumers hle hwilling

theorem leads_acknowledge (hb : b.Sound) (consumer : ℕ) (id : EntryId) :
    Leads gone b (b.acknowledge consumer id).2 := by
  have hsilent := b.silent_acknowledge consumer id
  rcases hr : b.acknowledge consumer id with ⟨result, after⟩
  rw [hr] at hsilent
  cases result with
  | error e =>
      obtain ⟨htopics, hconsumers⟩ := acknowledge_quiet hr
      exact leads_of_quiet htopics hconsumers hsilent
  | ok u =>
      obtain ⟨options, hsettles⟩ := settles_of_acknowledge hb hr
      apply leads_of_log _ hsettles.extends (Nat.le_of_eq hsilent.wakeUps.symm)
        fun hf => hsilent.failReceives.trans hf
      · intro c options' _
        rw [hsettles.subscription]
        split
        · exact fun e he => (List.mem_filter.mp he).1
        · exact List.Subset.refl _
      · intro c options' _ ha
        rw [attached?_congr hsettles.consumers, ha]
      · intro t
        rw [hsettles.after, log_put]

/-- A subscription to which somebody is attached keeps its queue when another one comes. -/
theorem Attaches.redeliver_of_attended {options options' : SubscribeOptions}
    (h : b.Attaches options b') (hb : b.Sound) {c : ℕ} (hc : b.attached? c = some options') :
    (b'.subscriptionOrNew options'.topic options'.subscription).redeliver =
      (b.subscriptionOrNew options'.topic options'.subscription).redeliver := by
  have hpos := attachments_pos hc
  rw [← hb.counted] at hpos
  rw [h.subscription]
  split
  · rename_i hw
    simp [Subscription.attach, Nat.ne_of_gt hpos]
  · rfl

theorem TurnsAway.log {options : SubscribeOptions} (h : b.TurnsAway options b') (t : String) :
    b'.log t = b.log t := by
  rcases h.topics with ht | ht
  · exact log_congr ht t
  · rw [log_congr ht, log_put]

theorem leads_subscribe (hb : b.Sound) (client : ℕ) (options : SubscribeOptions) :
    Leads gone b (b.subscribe client options).2 := by
  have hsilent := b.silent_subscribe client options
  have hle := Nat.le_of_eq hsilent.wakeUps.symm
  have hwilling : b.failReceives = [] → (b.subscribe client options).2.failReceives = [] :=
    fun hf => hsilent.failReceives.trans hf
  rcases b.subscribe_cases client options with ⟨e, -, haway⟩ | ⟨-, hattach⟩
  · apply leads_of_log haway.log haway.extends hle hwilling
    · intro c options' _
      rw [haway.subscription]
      exact List.Subset.refl _
    · intro c options' _ ha
      rw [attached?_congr haway.consumers, ha]
  · apply leads_of_log _ hattach.extends hle hwilling
    · intro c options' ha
      rw [hattach.redeliver_of_attended hb ha]
      exact List.Subset.refl _
    · intro c options' _ ha
      have hlt := (List.getElem?_eq_some_iff.mp (attached?_eq_some.mp ha)).1
      rw [hattach.attached?_after, if_neg (Nat.ne_of_lt hlt), ha]
    · intro t
      rw [log_congr hattach.topics, log_put]

theorem log_release (b : Store) (consumer : ℕ) (t : String) :
    (b.release consumer).log t = b.log t := by
  cases ha : b.attached? consumer with
  | none => rw [release_of_closed ha]
  | some options =>
      have htopics : (b.release consumer).topics = (b.modifySubscription options.topic
          options.subscription Subscription.detach).topics := by
        simp [release, ha]
      rw [log_congr htopics, log_modifySubscription]

theorem leads_release (hb : b.Sound) {consumer : ℕ} (hgone : gone consumer) :
    Leads gone b (b.release consumer) := by
  have hsilent := b.silent_release consumer
  apply leads_of_log (b.log_release consumer) (extends_release hb consumer)
    (Nat.le_of_eq hsilent.wakeUps.symm) fun hf => hsilent.failReceives.trans hf
  · intro c options _
    rw [subscription_release hb]
    exact List.Subset.refl _
  · intro c options hc ha
    have hne : c ≠ consumer := fun h => hc (h ▸ hgone)
    rw [attached?_release, if_neg hne, ha]

/-- What calls a wake-up need only leave the store in order. -/
theorem leads_of_wakes (hx : b.Extends b') (hgrows : ∀ t, b.log t <+: b'.log t)
    (hlt : b.wakeUps < b'.wakeUps)
    (hqueue : ∀ t n, (b'.subscriptionOrNew t n).redeliver = (b.subscriptionOrNew t n).redeliver) :
    Leads gone b b' where
  extends_ := hx
  grows := hgrows
  wakeUps_le := Nat.le_of_lt hlt
  redeliver c options _ := by
    rw [hqueue]
    exact List.Subset.refl _
  willing h := absurd h (Nat.ne_of_gt hlt)
  log h := absurd h (Nat.ne_of_gt hlt)
  attached h := absurd h (Nat.ne_of_gt hlt)

theorem leads_close (hb : b.Sound) (consumer : ℕ) : Leads gone b (b.closeConsumer consumer) := by
  have hx : (b.release consumer).Extends (b.closeConsumer consumer) := extends_of_eq rfl rfl
  apply leads_of_wakes ((extends_release hb consumer).trans hx)
  · intro t
    change _ <+: (b.release consumer).log t
    rw [log_release]
  · change b.wakeUps < (b.release consumer).wakeUps + 1
    rw [(b.silent_release consumer).wakeUps]
    exact Nat.lt_succ_self _
  · intro t n
    change ((b.release consumer).subscriptionOrNew t n).redeliver = _
    rw [subscription_release hb]

theorem log_setLog (b : Store) (topic t : String) (log : List (Message EntryId)) :
    (b.setTopic topic { b.topicOrNew topic with log }).log t =
      if t = topic then log else b.log t := by
  unfold Store.log
  simp only [topicOrNew, setTopic, TextMap.find?_insert]
  split
  · rfl
  · cases b.topics.find? t <;> rfl

theorem grows_publish (b : Store) (topic : String) (key payload : Bytes)
    (eventTime : Option Time) (now : Time) (t : String) :
    b.log t <+: (b.publish topic key payload eventTime now).2.log t := by
  rcases b.publish_cases topic key payload eventTime now with h | ⟨m, -, -, -, h⟩
  · rw [h]
  · rw [h]
    change _ <+: (b.setTopic topic { b.topicOrNew topic with
      log := (b.topicOrNew topic).log ++ [m] }).log t
    rw [log_setLog]
    split
    · rename_i ht
      rw [ht]
      exact List.prefix_append _ _
    · exact List.prefix_rfl

theorem leads_stimulate (stimulus : Stimulus) : Leads gone b (b.stimulate stimulus).2 := by
  cases stimulus with
  | publish topic key payload eventTime now =>
      have happends := b.appends_publish topic key payload eventTime now
      change Leads gone b (b.publish topic key payload eventTime now).2
      rcases b.publish_cases topic key payload eventTime now with h | ⟨m, -, -, -, h⟩
      · rw [h]
        exact leads_of_quiet rfl rfl ⟨rfl, rfl⟩
      · apply leads_of_wakes happends.extends
        · exact grows_publish b topic key payload eventTime now
        · rw [h]
          exact Nat.lt_succ_self _
        · intro t n
          rw [happends.subscription]
  | failConnect reason => exact leads_of_quiet rfl rfl ⟨rfl, rfl⟩
  | failSubscribe reason => exact leads_of_quiet rfl rfl ⟨rfl, rfl⟩
  | failNextReceive reason =>
      exact leads_of_wakes (extends_of_eq rfl rfl) (fun _ => List.prefix_rfl)
        (Nat.lt_succ_self _) fun _ _ => rfl
  | failNextAcknowledge reason => exact leads_of_quiet rfl rfl ⟨rfl, rfl⟩

/-! ## Operations one after another -/

/-- One call on the broker, or one thing that happens at it. A consumer is dropped only if it is
of a given kind. -/
inductive Operation (gone : ℕ → Prop) : Store → Store → Prop
  | connect (b : Store) (options : ClientOptions) : Operation gone b (b.connect options).2
  | subscribe (b : Store) (client : ℕ) (options : SubscribeOptions) :
      Operation gone b (b.subscribe client options).2
  | receive (b : Store) (consumer : ℕ) : Operation gone b (b.tryReceive consumer).2
  | acknowledge (b : Store) (consumer : ℕ) (id : EntryId) :
      Operation gone b (b.acknowledge consumer id).2
  | close (b : Store) (consumer : ℕ) : Operation gone b (b.closeConsumer consumer)
  | drop (b : Store) {consumer : ℕ} (h : gone consumer) : Operation gone b (b.release consumer)
  | closeClient (b : Store) (client : ℕ) : Operation gone b (b.closeClient client)
  | stimulate (b : Store) (stimulus : Stimulus) : Operation gone b (b.stimulate stimulus).2

theorem Operation.sound (h : Operation gone b b') (hb : b.Sound) : b'.Sound := by
  cases h with
  | connect options =>
      have hquiet := b.connect_quiet options
      exact hb.of_eq hquiet.1 hquiet.2
  | subscribe client options =>
      rcases b.subscribe_cases client options with ⟨e, -, haway⟩ | ⟨-, hattach⟩
      · exact haway.sound_after hb
      · exact hattach.sound_after hb
  | receive consumer =>
      rcases tryReceive_cases hb consumer with ⟨m, options, s, hfirst⟩ | hquiet
      · exact hfirst.handsOut.sound_after hb
      · exact hb.of_eq hquiet.1 hquiet.2
  | acknowledge consumer id =>
      rcases hr : b.acknowledge consumer id with ⟨result, after⟩
      cases result with
      | error e =>
          have hquiet := acknowledge_quiet hr
          exact hb.of_eq hquiet.1 hquiet.2
      | ok u =>
          obtain ⟨options, hsettles⟩ := settles_of_acknowledge hb hr
          exact hsettles.sound_after hb
  | close consumer => exact (hb.release consumer).of_eq rfl rfl
  | drop _ => exact hb.release _
  | closeClient client =>
      have hquiet := b.closeClient_quiet client
      exact hb.of_eq hquiet.1 hquiet.2
  | stimulate stimulus =>
      cases stimulus with
      | publish topic key payload eventTime now =>
          exact (b.appends_publish topic key payload eventTime now).sound hb
      | _ => exact hb.of_eq rfl rfl

theorem Operation.leads (h : Operation gone b b') (hb : b.Sound) : Leads gone b b' := by
  cases h with
  | connect options =>
      have hquiet := b.connect_quiet options
      exact leads_of_quiet hquiet.1 hquiet.2 (b.silent_connect options)
  | subscribe client options => exact leads_subscribe hb client options
  | receive consumer => exact leads_receive hb consumer
  | acknowledge consumer id => exact leads_acknowledge hb consumer id
  | close consumer => exact leads_close hb consumer
  | drop h => exact leads_release hb h
  | closeClient client =>
      have hquiet := b.closeClient_quiet client
      exact leads_of_quiet hquiet.1 hquiet.2 (b.silent_closeClient client)
  | stimulate stimulus => exact leads_stimulate stimulus

/-- Operations one after another. -/
abbrev Operations (gone : ℕ → Prop) : Store → Store → Prop :=
  Relation.ReflTransGen (Operation gone)

/-- What every operation on a sound store keeps, operations one after another keep. -/
theorem Operations.preserve {P : Store → Prop}
    (hP : ∀ {gone : ℕ → Prop} {b b' : Store}, Operation gone b b' → b.Sound → P b → P b')
    (h : Operations gone b b') (hb : b.Sound) (hp : P b) : P b' := by
  suffices hboth : b'.Sound ∧ P b' from hboth.2
  induction h with
  | refl => exact ⟨hb, hp⟩
  | tail _ hlast ih => exact ⟨hlast.sound ih.1, hP hlast ih.1 ih.2⟩

theorem Extends.attached {c : ℕ} {options : SubscribeOptions} (h : b.Extends b')
    (hc : b'.attached? c = some options) (hlt : c < b.consumers.length) :
    b.attached? c = some options := by
  obtain ⟨a', ha', hoptions, hclosed⟩ :=
    h.consumer c b.consumers[c] (List.getElem?_eq_getElem hlt)
  have hsame := ha'.symm.trans (attached?_eq_some.mp hc)
  cases hsame
  apply attached?_eq_some.mpr
  rw [List.getElem?_eq_getElem hlt, Option.some.injEq]
  generalize b.consumers[c] = a at hoptions hclosed
  cases a with
  | mk o closed =>
      cases closed with
      | false =>
          cases hoptions
          rfl
      | true => cases hclosed rfl

/-- A consumer was attached once and has gone. -/
structure Gone (b : Store) (c : ℕ) : Prop where
  known : c < b.consumers.length
  unattached : b.attached? c = none

/-- Who has gone has gone for good. -/
theorem Extends.stays_gone (h : b.Extends b') {c : ℕ} (hc : b.Gone c) : b'.Gone c where
  known := by
    obtain ⟨a, ha, -⟩ := h.consumer c _ (List.getElem?_eq_getElem hc.known)
    exact (List.getElem?_eq_some_iff.mp ha).1
  unattached := by
    cases ha : b'.attached? c with
    | none => rfl
    | some options =>
        have hbefore := h.attached ha hc.known
        rw [hc.unattached] at hbefore
        cases hbefore

/-- What operations one after another do, as far as consumers that wait are concerned. -/
structure Guides (gone : ℕ → Prop) (b b' : Store) : Prop where
  sound : b'.Sound
  extends_ : b.Extends b'
  grows : ∀ t, b.log t <+: b'.log t
  wakeUps_le : b.wakeUps ≤ b'.wakeUps
  idle : b'.wakeUps = b.wakeUps → ∀ c options, ¬ gone c → b.Idle c options → b'.Idle c options
  /-- While a consumer is attached, nothing is queued anew. -/
  unqueued : ∀ c options, c < b.consumers.length → b'.attached? c = some options →
    (b'.subscriptionOrNew options.topic options.subscription).redeliver ⊆
      (b.subscriptionOrNew options.topic options.subscription).redeliver

theorem Operations.guides (h : Operations gone b b') (hb : b.Sound) : Guides gone b b' := by
  induction h with
  | refl =>
      exact ⟨hb, .refl b, fun _ => List.prefix_rfl, Nat.le_refl _, fun _ _ _ _ hi => hi,
        fun _ _ _ _ => List.Subset.refl _⟩
  | @tail b₁ b₂ _ hlast ih =>
      have hleads := hlast.leads ih.sound
      constructor
      · exact hlast.sound ih.sound
      · exact ih.extends_.trans hleads.extends_
      · exact fun t => (ih.grows t).trans (hleads.grows t)
      · exact Nat.le_trans ih.wakeUps_le hleads.wakeUps_le
      · intro hw c options hc hi
        have hle := ih.wakeUps_le
        have hle' := hleads.wakeUps_le
        apply hleads.idle (by omega) hc
        exact ih.idle (by omega) c options hc hi
      · intro c options hlt ha
        -- A consumer that is attached afterwards was attached in between, as nobody comes back.
        obtain ⟨a, hget, -⟩ := ih.extends_.consumer c b.consumers[c] (List.getElem?_eq_getElem hlt)
        have hmid := hleads.extends_.attached ha (List.getElem?_eq_some_iff.mp hget).1
        exact List.Subset.trans (hleads.redeliver c options hmid) (ih.unqueued c options hlt hmid)

end TrackedDelivery.Memory.Store
