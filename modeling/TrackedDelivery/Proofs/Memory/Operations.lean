import TrackedDelivery.Proofs.Memory.Soundness
/-!
# What the operations of a store change

Every operation is inverted once: either it leaves topics and consumers alone, or it appends to a
log, or it puts one subscription in place and perhaps adds or closes one consumer. All of them
keep a sound store sound, and none of them loses a ledger, a consumer or a part of a
subscription's past.
-/
namespace TrackedDelivery.Memory.Store

variable {b b' b'' : Store} {topic name : String} {consumer : ℕ}

/-! ## The fields that an operation writes -/

section Frames

theorem frame_connect (b : Store) (options : ClientOptions) : ∃ connects clients last,
    (b.connect options).2 = { b with connects, clients, lastClientOptions := last } := by
  unfold connect
  dsimp only
  split <;> exact ⟨_, _, _, rfl⟩

theorem frame_closeClient (b : Store) (client : ℕ) : ∃ clients closedClients,
    b.closeClient client = { b with clients, closedClients } := by
  unfold closeClient
  split <;> exact ⟨_, _, rfl⟩

theorem frame_subscribe (b : Store) (client : ℕ) (options : SubscribeOptions) :
    ∃ subscribes topics consumers,
      (b.subscribe client options).2 = { b with subscribes, topics, consumers } := by
  unfold subscribe
  dsimp only
  repeat' split
  all_goals exact ⟨_, _, _, rfl⟩

theorem frame_tryReceive (b : Store) (consumer : ℕ) : ∃ topics failReceives,
    (b.tryReceive consumer).2 = { b with topics, failReceives } := by
  unfold tryReceive
  repeat' split
  all_goals exact ⟨_, _, rfl⟩

theorem frame_modifySubscription (b : Store) (topic name : String)
    (f : Subscription → Subscription) : ∃ topics,
      b.modifySubscription topic name f = { b with topics } := by
  rcases b.modifySubscription_cases topic name f with h | ⟨s, h⟩
  · exact ⟨_, h⟩
  · exact ⟨_, h⟩

theorem frame_acknowledge (b : Store) (consumer : ℕ) (id : EntryId) :
    ∃ topics failAcknowledges,
      (b.acknowledge consumer id).2 = { b with topics, failAcknowledges } := by
  unfold acknowledge
  split
  · exact ⟨_, _, rfl⟩
  · rename_i options _
    split
    · exact ⟨_, _, rfl⟩
    · obtain ⟨topics, h⟩ :=
        b.frame_modifySubscription options.topic options.subscription (·.settle id)
      exact ⟨topics, _, h⟩

theorem frame_release (b : Store) (consumer : ℕ) : ∃ topics consumers,
    b.release consumer = { b with topics, consumers } := by
  unfold release
  split
  · exact ⟨_, _, rfl⟩
  · rename_i options _
    obtain ⟨topics, h⟩ :=
      b.frame_modifySubscription options.topic options.subscription Subscription.detach
    exact ⟨topics, _, by rw [h]⟩

end Frames

/-! ## What is known stays known -/

/-- What one store knows, a later one still knows. -/
structure Extends (b b' : Store) : Prop where
  ledger : ∀ t ledger, b.ledger? t = some ledger → b'.ledger? t = some ledger
  cursor : ∀ t n, (b.subscriptionOrNew t n).cursor ≤ (b'.subscriptionOrNew t n).cursor
  acked : ∀ t n, (b.subscriptionOrNew t n).acked ⊆ (b'.subscriptionOrNew t n).acked
  consumer : ∀ (c : ℕ) (a : Attachment), b.consumers[c]? = some a →
    ∃ a' : Attachment, b'.consumers[c]? = some a' ∧ a'.options = a.options ∧ (a.closed → a'.closed)

theorem extends_of_eq (ht : b'.topics = b.topics) (hc : b'.consumers = b.consumers) :
    b.Extends b' where
  ledger t ledger h := by rwa [ledger?, ht]
  cursor t n := Nat.le_of_eq (by rw [subscriptionOrNew_congr ht])
  acked t n := by rw [subscriptionOrNew_congr ht]; exact fun _ h => h
  consumer c a h := ⟨a, hc ▸ h, rfl, fun h => h⟩

theorem Extends.refl (b : Store) : b.Extends b := extends_of_eq rfl rfl

theorem Extends.trans (h : b.Extends b') (h' : b'.Extends b'') : b.Extends b'' where
  ledger t ledger hl := h'.ledger t ledger (h.ledger t ledger hl)
  cursor t n := Nat.le_trans (h.cursor t n) (h'.cursor t n)
  acked t n := List.Subset.trans (h.acked t n) (h'.acked t n)
  consumer c a hc := by
    obtain ⟨a', hc', hoptions, hclosed⟩ := h.consumer c a hc
    obtain ⟨a'', hc'', hoptions', hclosed'⟩ := h'.consumer c a' hc'
    exact ⟨a'', hc'', hoptions'.trans hoptions, fun ha => hclosed' (hclosed ha)⟩

/-- A change of one subscription extends the store if it extends the subscription. -/
theorem extends_of_put {s : Subscription} (ht : b'.topics = (b.put topic name s).topics)
    (hcursor : (b.subscriptionOrNew topic name).cursor ≤ s.cursor)
    (hacked : (b.subscriptionOrNew topic name).acked ⊆ s.acked)
    (hc : ∀ (c : ℕ) (a : Attachment), b.consumers[c]? = some a →
      ∃ a' : Attachment, b'.consumers[c]? = some a' ∧ a'.options = a.options ∧
        (a.closed → a'.closed)) :
    b.Extends b' where
  ledger t ledger h := by
    rw [ledger?, ht]
    exact ledger?_put h
  cursor t n := by
    rw [subscriptionOrNew_congr ht, subscriptionOrNew_put]
    split
    · rename_i hw
      rwa [hw.1, hw.2]
    · exact Nat.le_refl _
  acked t n := by
    rw [subscriptionOrNew_congr ht, subscriptionOrNew_put]
    split
    · rename_i hw
      rwa [hw.1, hw.2]
    · exact fun _ h => h
  consumer := hc

/-! ## Clients -/

theorem connect_quiet (b : Store) (options : ClientOptions) :
    (b.connect options).2.topics = b.topics ∧ (b.connect options).2.consumers = b.consumers := by
  obtain ⟨_, _, _, h⟩ := b.frame_connect options
  rw [h]
  exact ⟨rfl, rfl⟩

theorem closeClient_quiet (b : Store) (client : ℕ) :
    (b.closeClient client).topics = b.topics ∧ (b.closeClient client).consumers = b.consumers := by
  obtain ⟨_, _, h⟩ := b.frame_closeClient client
  rw [h]
  exact ⟨rfl, rfl⟩

theorem connect_cases (b : Store) (options : ClientOptions) :
    (∃ cause, (b.connect options).1 = .error cause ∧
      (b.connect options).2.clients = b.clients) ∨
    ((b.connect options).1 = .ok b.clients.length ∧
      (b.connect options).2.clients = b.clients ++ [false]) := by
  unfold connect
  dsimp only
  split
  · exact .inl ⟨_, rfl, rfl⟩
  · exact .inr ⟨rfl, rfl⟩

theorem clients_closeClient (b : Store) (client : ℕ) :
    (b.closeClient client).clients = b.clients.set client true := by
  unfold closeClient
  split
  · rename_i hclosed
    apply List.ext_getElem?
    intro i
    rw [List.getElem?_set]
    split
    · rename_i hi
      subst hi
      rw [List.getD_eq_getElem?_getD] at hclosed
      cases hc : b.clients[client]? with
      | none =>
          rw [if_neg (Nat.not_lt_of_le (List.getElem?_eq_none_iff.mp hc))]
      | some closed =>
          rw [hc] at hclosed
          rw [if_pos (List.getElem?_eq_some_iff.mp hc).1]
          exact congrArg some hclosed
    · rfl
  · rfl

/-- The clients are as they were, and so is the count of those that are closed. -/
structure SameClients (b b' : Store) : Prop where
  clients : b'.clients = b.clients
  count : b'.closedClients = b.closedClients

theorem sameClients_subscribe (b : Store) (client : ℕ) (options : SubscribeOptions) :
    b.SameClients (b.subscribe client options).2 := by
  obtain ⟨_, _, _, h⟩ := b.frame_subscribe client options
  rw [h]
  exact ⟨rfl, rfl⟩

/-! ## Publishing -/

theorem publish_cases (b : Store) (topic : String) (key payload : Bytes)
    (eventTime : Option Time) (now : Time) :
    (b.publish topic key payload eventTime now).2 = b ∨
    ∃ m : Message EntryId, (b.topicOrNew topic).log.length < logCapacity ∧
      m.id = ⟨(b.topicOrNew topic).ledger, UInt64.ofNat (b.topicOrNew topic).log.length⟩ ∧
      m.topic = topic ∧
      (b.publish topic key payload eventTime now).2 =
        (b.setTopic topic { b.topicOrNew topic with
          log := (b.topicOrNew topic).log ++ [m] }).wake := by
  unfold publish
  dsimp only
  split
  · exact .inr ⟨_, ‹_›, rfl, rfl, rfl⟩
  · exact .inl rfl

/-- What a publish leaves alone. -/
structure Appends (b b' : Store) : Prop where
  sound : b.Sound → b'.Sound
  ledger : ∀ t ledger, b.ledger? t = some ledger → b'.ledger? t = some ledger
  subscription : ∀ t n, b'.subscriptionOrNew t n = b.subscriptionOrNew t n
  consumers : b'.consumers = b.consumers

theorem subscription?_setLog (b : Store) (topic t n : String) (log : List (Message EntryId)) :
    (b.setTopic topic { b.topicOrNew topic with log }).subscription? t n
      = b.subscription? t n := by
  rw [subscription?_setTopic]
  split
  · rename_i ht
    rw [ht, subscription?_eq]
  · rfl

theorem ledger?_setLog {t : String} {ledger : UInt64} {log : List (Message EntryId)}
    (h : b.ledger? t = some ledger) :
    (b.setTopic topic { b.topicOrNew topic with log }).ledger? t = some ledger := by
  unfold ledger? setTopic at *
  rw [TextMap.find?_insert]
  split
  · rename_i ht
    subst ht
    obtain ⟨old, hold, rfl⟩ := Option.map_eq_some_iff.mp h
    simp [topicOrNew, hold]
  · exact h

theorem Sound.setLog (h : b.Sound) {m : Message EntryId}
    (hroom : (b.topicOrNew topic).log.length < logCapacity)
    (hid : m.id = ⟨(b.topicOrNew topic).ledger, UInt64.ofNat (b.topicOrNew topic).log.length⟩)
    (ht : m.topic = topic) :
    (b.setTopic topic { b.topicOrNew topic with
      log := (b.topicOrNew topic).log ++ [m] }).Sound where
  topic other t' ht' := by
    rw [setTopic, TextMap.find?_insert] at ht'
    split at ht'
    · rename_i ho
      cases ht'
      exact ho ▸ (h.topicOrNew topic).publish hroom hid ht
    · exact h.topic other t' ht'
  counted t n := by
    rw [subscriptionOrNew, subscription?_setLog]
    exact h.counted t n

theorem appends_publish (b : Store) (topic : String) (key payload : Bytes)
    (eventTime : Option Time) (now : Time) :
    b.Appends (b.publish topic key payload eventTime now).2 := by
  rcases publish_cases b topic key payload eventTime now with h | ⟨m, hroom, hid, ht, h⟩
  · rw [h]
    exact ⟨fun h => h, fun _ _ h => h, fun _ _ => rfl, rfl⟩
  · rw [h]
    refine ⟨fun hb => (hb.setLog hroom hid ht).of_eq rfl rfl, fun _ _ hl => ledger?_setLog hl,
      fun t n => ?_, rfl⟩
    exact congrArg (·.getD {}) (subscription?_setLog b topic t n _)

theorem Appends.extends (h : b.Appends b') : b.Extends b' where
  ledger := h.ledger
  cursor t n := Nat.le_of_eq (by rw [h.subscription])
  acked t n := by rw [h.subscription]; exact fun _ h => h
  consumer c a hc := ⟨a, h.consumers ▸ hc, rfl, fun h => h⟩

/-! ## Attaching -/

/-- What it is for a store to turn a consumer away. Its subscription may have been created. -/
structure TurnsAway (b : Store) (options : SubscribeOptions) (b' : Store) : Prop where
  consumers : b'.consumers = b.consumers
  topics : b'.topics = b.topics ∨ b'.topics = (b.put options.topic options.subscription
    (b.subscriptionOrNew options.topic options.subscription)).topics

/-- What it is for a store to attach a consumer. -/
structure Attaches (b : Store) (options : SubscribeOptions) (b' : Store) : Prop where
  consumers : b'.consumers = b.consumers ++ [{ options := options }]
  topics : b'.topics = (b.put options.topic options.subscription
    (b.subscriptionOrNew options.topic options.subscription).attach).topics

theorem subscribe_cases (b : Store) (client : ℕ) (options : SubscribeOptions) :
    (∃ e, (b.subscribe client options).1 = .error e ∧
      b.TurnsAway options (b.subscribe client options).2) ∨
    ((b.subscribe client options).1 = .ok b.consumers.length ∧
      b.Attaches options (b.subscribe client options).2) := by
  unfold subscribe
  dsimp only
  split
  · exact .inl ⟨_, rfl, rfl, .inl rfl⟩
  · split
    · exact .inl ⟨_, rfl, rfl, .inl rfl⟩
    · have hs : b.subscriptionOrNew options.topic options.subscription =
          ((b.topicOrNew options.topic).subscriptions.find? options.subscription).getD {} := by
        rw [subscriptionOrNew, subscription?_eq]
      split
      · refine .inl ⟨_, rfl, rfl, .inr ?_⟩
        rw [hs]
        rfl
      · refine .inr ⟨rfl, rfl, ?_⟩
        rw [hs]
        rfl

theorem TurnsAway.subscription {options : SubscribeOptions} (h : b.TurnsAway options b')
    (t n : String) : b'.subscriptionOrNew t n = b.subscriptionOrNew t n := by
  rcases h.topics with ht | ht
  · rw [subscriptionOrNew_congr ht]
  · rw [subscriptionOrNew_congr ht, subscriptionOrNew_put]
    split
    · rename_i hw
      rw [hw.1, hw.2]
    · rfl

theorem TurnsAway.extends {options : SubscribeOptions} (h : b.TurnsAway options b') :
    b.Extends b' := by
  rcases h.topics with ht | ht
  · exact extends_of_eq ht h.consumers
  · exact extends_of_put ht (Nat.le_refl _) (fun _ h => h)
      fun c a hc => ⟨a, h.consumers ▸ hc, rfl, fun h => h⟩

theorem TurnsAway.sound_after {options : SubscribeOptions} (h : b.TurnsAway options b')
    (hb : b.Sound) : b'.Sound := by
  rcases h.topics with ht | ht
  · exact hb.of_eq ht h.consumers
  · exact (hb.put (hb.subscription _ _) rfl).of_eq ht h.consumers

theorem Attaches.subscription {options : SubscribeOptions} (h : b.Attaches options b')
    (t n : String) : b'.subscriptionOrNew t n =
      if t = options.topic ∧ n = options.subscription then
        (b.subscriptionOrNew t n).attach
      else b.subscriptionOrNew t n := by
  rw [subscriptionOrNew_congr h.topics, subscriptionOrNew_put]
  split
  · rename_i hw
    rw [hw.1, hw.2]
  · rfl

theorem Attaches.attachments {options : SubscribeOptions} (h : b.Attaches options b')
    (t n : String) : b'.attachments t n = b.attachments t n +
      if t = options.topic ∧ n = options.subscription then 1 else 0 := by
  unfold Store.attachments
  rw [h.consumers, List.countP_append, List.countP_singleton]
  simp

theorem Attaches.extends {options : SubscribeOptions} (h : b.Attaches options b') :
    b.Extends b' :=
  extends_of_put h.topics (Nat.le_refl _) (fun _ h => h) fun c a hc =>
    ⟨a, by rw [h.consumers, List.getElem?_append_left (List.getElem?_eq_some_iff.mp hc).1, hc],
      rfl, fun h => h⟩

theorem Attaches.sound_after {options : SubscribeOptions} (h : b.Attaches options b')
    (hb : b.Sound) : b'.Sound := by
  refine hb.of_put (hb.subscription _ _).attach h.topics fun t n => ?_
  rw [h.attachments]
  split
  · rename_i hw
    rw [hw.1, hw.2, ← hb.counted]
    rfl
  · rfl

/-! ## Receiving -/

/-- What it is for a store to hand out a message: the consumer is attached, and its subscription
gives the entry that the message has in the log. -/
structure HandsOut (b : Store) (consumer : ℕ) (m : Message EntryId) (b' : Store)
    (options : SubscribeOptions) (s : Subscription) : Prop where
  attached : b.attached? consumer = some options
  ledger : b.ledger? options.topic = some m.id.ledger
  gives : (b.subscriptionOrNew options.topic options.subscription).Gives m.id.entry.toNat s
  sound : s.Sound (b.topicOrNew options.topic).log.length
  after : b' = b.put options.topic options.subscription s

theorem handsOut_of_tryReceive (h : b.Sound) {m : Message EntryId}
    (hr : b.tryReceive consumer = (some (.ok m), b')) :
    ∃ options s, b.HandsOut consumer m b' options s := by
  unfold tryReceive at hr
  split at hr
  · cases hr
  · rename_i options ha
    split at hr
    · cases hr
    · split at hr
      · cases hr
      · rename_i t ht
        split at hr
        · cases hr
        · rename_i s hs
          split at hr
          · cases hr
          · rename_i entry s' hn
            split at hr
            · cases hr
            · rename_i message hm
              cases hr
              have hnew : b.topicOrNew options.topic = t := by simp [Store.topicOrNew, ht]
              have hold := subscriptionOrNew_of_some (subscription?_eq_some.mpr ⟨t, ht, hs⟩)
              have hsound := (h.topic _ t ht).subscription _ s hs
              have hid := (h.topic _ t ht).message entry m hm
              refine ⟨options, s', ha, ?_, ?_, hnew ▸ hsound.next hn, ?_⟩
              · simp [ledger?, ht, hid.1]
              · rw [(h.topic _ t ht).toNat_entry hm, hold]
                exact hsound.gives hn
              · rw [put, hnew]

/-- A receive that hands out no message changes neither topics nor consumers. -/
theorem tryReceive_quiet (h : ∀ m, (b.tryReceive consumer).1 ≠ some (.ok m)) :
    (b.tryReceive consumer).2.topics = b.topics ∧
      (b.tryReceive consumer).2.consumers = b.consumers := by
  revert h
  unfold tryReceive
  repeat' split
  case h_2 => exact fun h => absurd rfl (h _)
  all_goals exact fun _ => ⟨rfl, rfl⟩

section
variable {m : Message EntryId} {options : SubscribeOptions} {s : Subscription}

theorem HandsOut.sound_after (h : b.HandsOut consumer m b' options s) (hb : b.Sound) :
    b'.Sound := by
  rw [h.after]
  exact hb.put h.sound h.gives.activeConsumers

theorem HandsOut.extends (h : b.HandsOut consumer m b' options s) : b.Extends b' :=
  extends_of_put (congrArg topics h.after) h.gives.cursor_le
    (by rw [h.gives.acked]; exact fun _ h => h)
    fun c a hc => ⟨a, by rw [h.after]; exact hc, rfl, fun h => h⟩

theorem HandsOut.subscription (h : b.HandsOut consumer m b' options s) (t n : String) :
    b'.subscriptionOrNew t n = if t = options.topic ∧ n = options.subscription then s
      else b.subscriptionOrNew t n := by
  rw [h.after, subscriptionOrNew_put]

theorem HandsOut.consumers (h : b.HandsOut consumer m b' options s) :
    b'.consumers = b.consumers := by
  rw [h.after]
  rfl

end

/-! ## Acknowledging -/

/-- What it is for a store to settle an identifier for a consumer. -/
structure Settles (b : Store) (consumer : ℕ) (id : EntryId) (b' : Store)
    (options : SubscribeOptions) : Prop where
  attached : b.attached? consumer = some options
  willing : b.failAcknowledges = []
  after : b' = b.put options.topic options.subscription
    ((b.subscriptionOrNew options.topic options.subscription).settle id)

theorem settles_of_acknowledge (h : b.Sound) {id : EntryId}
    (ha : b.acknowledge consumer id = (.ok (), b')) :
    ∃ options, b.Settles consumer id b' options := by
  unfold acknowledge at ha
  split at ha
  · cases ha
  · rename_i options hc
    split at ha
    · cases ha
    · rename_i hf
      cases ha
      exact ⟨options, hc, hf, modifySubscription_eq_put (h.subscription?_of_attached hc) _⟩

theorem acknowledge_quiet {id : EntryId} {e : Failure}
    (h : b.acknowledge consumer id = (.error e, b')) :
    b'.topics = b.topics ∧ b'.consumers = b.consumers := by
  unfold acknowledge at h
  repeat' split at h
  case h_2 => cases h
  all_goals
    cases h
    exact ⟨rfl, rfl⟩

section
variable {id : EntryId} {options : SubscribeOptions}

theorem Settles.sound_after (h : b.Settles consumer id b' options) (hb : b.Sound) : b'.Sound := by
  rw [h.after]
  exact hb.put ((hb.subscription _ _).settle id) rfl

theorem Settles.extends (h : b.Settles consumer id b' options) : b.Extends b' :=
  extends_of_put (congrArg topics h.after) (Nat.le_refl _) (List.subset_append_left _ _)
    fun c a hc => ⟨a, by rw [h.after]; exact hc, rfl, fun h => h⟩

theorem Settles.subscription (h : b.Settles consumer id b' options) (t n : String) :
    b'.subscriptionOrNew t n = if t = options.topic ∧ n = options.subscription then
        (b.subscriptionOrNew t n).settle id
      else b.subscriptionOrNew t n := by
  rw [h.after, subscriptionOrNew_put]
  split
  · rename_i hw
    rw [hw.1, hw.2]
  · rfl

theorem Settles.consumers (h : b.Settles consumer id b' options) :
    b'.consumers = b.consumers := by
  rw [h.after]
  rfl

end

/-! ## Detaching -/

/-- What it is for a store to detach a consumer. -/
structure Detaches (b : Store) (consumer : ℕ) (b' : Store) (options : SubscribeOptions) :
    Prop where
  attached : b.attached? consumer = some options
  topics : b'.topics = (b.put options.topic options.subscription
    (b.subscriptionOrNew options.topic options.subscription).detach).topics
  consumers : b'.consumers = b.consumers.set consumer { options, closed := true }

theorem release_of_closed (h : b.attached? consumer = none) : b.release consumer = b := by
  simp [release, h]

theorem consumers_release {options : SubscribeOptions} (h : b.attached? consumer = some options) :
    (b.release consumer).consumers = b.consumers.set consumer { options, closed := true } := by
  simp [release, h]

theorem length_release (b : Store) (consumer : ℕ) :
    (b.release consumer).consumers.length = b.consumers.length := by
  cases ha : b.attached? consumer with
  | none => rw [release_of_closed ha]
  | some options => rw [consumers_release ha, List.length_set]

theorem attached?_release (b : Store) (consumer c : ℕ) :
    (b.release consumer).attached? c = if c = consumer then none else b.attached? c := by
  cases h : b.attached? consumer with
  | none =>
      rw [release_of_closed h]
      split
      · rename_i hc
        rw [hc, h]
      · rfl
  | some options =>
      obtain ⟨hlen, -⟩ := List.getElem?_eq_some_iff.mp (attached?_eq_some.mp h)
      rw [attached?, consumers_release h, List.getElem?_set]
      by_cases hc : c = consumer
      · subst hc
        simp [hlen]
      · simp [hc, Ne.symm hc, attached?]

/-- A release keeps in mind what every consumer was attached with. -/
theorem getElem?_release {i : ℕ} {a : Attachment} (h : b.consumers[i]? = some a) :
    ∃ closed, (b.release consumer).consumers[i]? = some { options := a.options, closed } := by
  cases ha : b.attached? consumer with
  | none => exact ⟨a.closed, by rw [release_of_closed ha, h]⟩
  | some options =>
      have hlt := (List.getElem?_eq_some_iff.mp h).1
      rw [consumers_release ha, List.getElem?_set]
      by_cases hi : consumer = i
      · subst hi
        rw [attached?_eq_some, h] at ha
        cases ha
        exact ⟨true, by simp [hlt]⟩
      · exact ⟨a.closed, by rw [if_neg hi, h]⟩

theorem detaches_release (h : b.Sound) {options : SubscribeOptions}
    (ha : b.attached? consumer = some options) :
    b.Detaches consumer (b.release consumer) options := by
  refine ⟨ha, ?_, ?_⟩
  · simp [release, ha, modifySubscription_eq_put (h.subscription?_of_attached ha)]
  · exact consumers_release ha

section
variable {options : SubscribeOptions}

theorem Detaches.attachments (h : b.Detaches consumer b' options) (t n : String) :
    b'.attachments t n = b.attachments t n -
      if t = options.topic ∧ n = options.subscription then 1 else 0 := by
  obtain ⟨hlen, hget⟩ := List.getElem?_eq_some_iff.mp (attached?_eq_some.mp h.attached)
  unfold Store.attachments
  rw [h.consumers, List.countP_set hlen, hget]
  simp

theorem Detaches.subscription (h : b.Detaches consumer b' options) (t n : String) :
    b'.subscriptionOrNew t n = if t = options.topic ∧ n = options.subscription then
        (b.subscriptionOrNew t n).detach
      else b.subscriptionOrNew t n := by
  rw [subscriptionOrNew_congr h.topics, subscriptionOrNew_put]
  split
  · rename_i hw
    rw [hw.1, hw.2]
  · rfl

theorem Detaches.sound_after (h : b.Detaches consumer b' options) (hb : b.Sound) : b'.Sound := by
  refine hb.of_put (hb.subscription _ _).detach h.topics fun t n => ?_
  rw [h.attachments]
  split
  · rename_i hw
    rw [hw.1, hw.2, ← hb.counted]
    rfl
  · rfl

theorem Detaches.extends (h : b.Detaches consumer b' options) : b.Extends b' := by
  have hget := attached?_eq_some.mp h.attached
  obtain ⟨hlen, -⟩ := List.getElem?_eq_some_iff.mp hget
  refine extends_of_put h.topics (Nat.le_refl _) (fun _ h => h) fun c a hc => ?_
  rw [h.consumers, List.getElem?_set]
  by_cases hcc : consumer = c
  · subst hcc
    rw [hget] at hc
    cases hc
    exact ⟨{ options, closed := true }, by simp [hlen], rfl, fun _ => rfl⟩
  · exact ⟨a, by rw [if_neg hcc, hc], rfl, fun h => h⟩

end

theorem Sound.release (h : b.Sound) (consumer : ℕ) : (b.release consumer).Sound := by
  cases ha : b.attached? consumer with
  | none => rwa [release_of_closed ha]
  | some options => exact (detaches_release h ha).sound_after h

theorem extends_release (h : b.Sound) (consumer : ℕ) : b.Extends (b.release consumer) := by
  cases ha : b.attached? consumer with
  | none => exact (release_of_closed ha).symm ▸ .refl b
  | some options => exact (detaches_release h ha).extends

/-- A release changes nothing of a subscription but the count of its consumers. -/
theorem subscription_release (h : b.Sound) (consumer : ℕ) (t n : String) :
    (b.release consumer).subscriptionOrNew t n =
      { b.subscriptionOrNew t n with
        activeConsumers := ((b.release consumer).subscriptionOrNew t n).activeConsumers } := by
  cases ha : b.attached? consumer with
  | none => rw [release_of_closed ha]
  | some options =>
      rw [(detaches_release h ha).subscription]
      split <;> rfl

theorem attached?_congr (h : b'.consumers = b.consumers) (c : ℕ) :
    b'.attached? c = b.attached? c := by
  simp only [attached?, h]

theorem Attaches.attached?_after {options : SubscribeOptions} (h : b.Attaches options b')
    (c : ℕ) : b'.attached? c = if c = b.consumers.length then some options
      else b.attached? c := by
  unfold attached?
  rw [h.consumers]
  rcases Nat.lt_trichotomy c b.consumers.length with hlt | rfl | hgt
  · rw [List.getElem?_append_left hlt, if_neg (Nat.ne_of_lt hlt)]
  · simp
  · rw [if_neg (Nat.ne_of_gt hgt), List.getElem?_eq_none (Nat.le_of_lt hgt),
      List.getElem?_eq_none (by rw [List.length_append]; exact hgt)]

end TrackedDelivery.Memory.Store
