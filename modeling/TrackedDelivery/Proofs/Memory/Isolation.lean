import TrackedDelivery.Proofs.Memory.Scope
/-!
# Subscriptions are isolated

Whatever is done through a consumer changes at most the subscription that the consumer was attached
to, and a subscribe changes at most the subscription that it asks for. The other subscriptions stay
as they are, of the same topic and of every other one, and so do all logs and all ledgers. Only a
publish appends to a log, and it changes no subscription.
-/
namespace TrackedDelivery.Memory.Store

variable {b b' b'' : Store} {place : String → String → Prop} {consumer : ℕ}

/-- At most the subscriptions of some places change, each meant by its topic and its name, and
nobody comes or goes elsewhere. -/
structure Confined (place : String → String → Prop) (b b' : Store) : Prop where
  subscription : ∀ t n, ¬ place t n → b'.subscription? t n = b.subscription? t n
  ledger : ∀ t ledger, b.ledger? t = some ledger → b'.ledger? t = some ledger
  log : ∀ t, b'.log t = b.log t
  attached : ∀ c options, b'.attached? c = some options →
    b.attached? c = some options ∨ place options.topic options.subscription
  stays : ∀ c options, ¬ place options.topic options.subscription →
    b.attached? c = some options → b'.attached? c = some options

/-- A consumer is attached at one of the places, or not at all. -/
def Within (place : String → String → Prop) (b : Store) (consumer : ℕ) : Prop :=
  ∀ options, b.attached? consumer = some options → place options.topic options.subscription

theorem confined_of_quiet (h : b'.topics = b.topics ∧ b'.consumers = b.consumers) :
    Confined place b b' where
  subscription t n _ := by rw [subscription?, h.1, subscription?]
  ledger t ledger hl := by rwa [ledger?, h.1]
  log := log_congr h.1
  attached c options hc := by
    rw [attached?_congr h.2] at hc
    exact .inl hc
  stays c options _ hc := by rwa [attached?_congr h.2]

theorem Confined.refl (b : Store) : Confined place b b := confined_of_quiet ⟨rfl, rfl⟩

theorem Confined.trans (h : Confined place b b') (h' : Confined place b' b'') :
    Confined place b b'' where
  subscription t n hp := (h'.subscription t n hp).trans (h.subscription t n hp)
  ledger t ledger hl := h'.ledger t ledger (h.ledger t ledger hl)
  log t := (h'.log t).trans (h.log t)
  attached c options hc := by
    rcases h'.attached c options hc with hmid | hplace
    · exact h.attached c options hmid
    · exact .inr hplace
  stays c options hp hc := h'.stays c options hp (h.stays c options hp hc)

theorem Confined.within (h : Confined place b b') {c : ℕ} (hc : Within place b c) :
    Within place b' c := by
  intro options ha
  rcases h.attached c options ha with hbefore | hplace
  · exact hc options hbefore
  · exact hplace

/-- A subscription that is put at one of the places changes nothing elsewhere. -/
theorem confined_of_put {topic name : String} {s : Subscription}
    (ht : b'.topics = (b.put topic name s).topics) (hp : place topic name)
    (ha : ∀ c options, b'.attached? c = some options →
      b.attached? c = some options ∨ place options.topic options.subscription)
    (hstays : ∀ c options, ¬ place options.topic options.subscription →
      b.attached? c = some options → b'.attached? c = some options) : Confined place b b' where
  subscription t n hn := by
    have hput : b'.subscription? t n = (b.put topic name s).subscription? t n := by
      rw [subscription?, ht, subscription?]
    rw [hput, subscription?_put, if_neg]
    rintro ⟨rfl, rfl⟩
    exact hn hp
  ledger t ledger h := by
    rw [ledger?, ht]
    exact ledger?_put h
  log t := by rw [log_congr ht, log_put]
  attached := ha
  stays := hstays

theorem confined_put {topic name : String} (s : Subscription) (hp : place topic name) :
    Confined place b (b.put topic name s) :=
  confined_of_put rfl hp (fun _ _ h => .inl h) fun _ _ _ h => h

/-! ## One call on the broker -/

theorem confined_subscribe (b : Store) (client : ℕ) (options : SubscribeOptions)
    (hp : place options.topic options.subscription) :
    Confined place b (b.subscribe client options).2 := by
  rcases b.subscribe_cases client options with ⟨e, -, haway⟩ | ⟨-, hattach⟩
  · have hsame := attached?_congr haway.consumers
    rcases haway.topics with ht | ht
    · exact confined_of_quiet ⟨ht, haway.consumers⟩
    · apply confined_of_put ht hp
      · intro c o h
        rw [hsame] at h
        exact .inl h
      · intro c o _ h
        rwa [hsame]
  · apply confined_of_put hattach.topics hp
    · intro c o h
      rw [hattach.attached?_after] at h
      split at h
      · cases h
        exact .inr hp
      · exact .inl h
    · intro c o _ h
      have hlt := (List.getElem?_eq_some_iff.mp (attached?_eq_some.mp h)).1
      rwa [hattach.attached?_after, if_neg (Nat.ne_of_lt hlt)]

theorem confined_modifySubscription (b : Store) {topic name : String} (hp : place topic name)
    (f : Subscription → Subscription) :
    Confined place b (b.modifySubscription topic name f) := by
  rcases b.modifySubscription_cases topic name f with h | ⟨s, h⟩
  · rw [h]
    exact .refl b
  · rw [h]
    exact confined_put _ hp

/-- A receive puts the subscription of its consumer in place, or topics and consumers stay as they
are. -/
theorem tryReceive_puts (b : Store) (consumer : ℕ) :
    ((b.tryReceive consumer).2.topics = b.topics ∧
      (b.tryReceive consumer).2.consumers = b.consumers) ∨
    ∃ options s, b.attached? consumer = some options ∧
      (b.tryReceive consumer).2 = b.put options.topic options.subscription s := by
  unfold tryReceive
  split
  · exact .inl ⟨rfl, rfl⟩
  · rename_i options ha
    split
    · exact .inl ⟨rfl, rfl⟩
    · split
      · exact .inl ⟨rfl, rfl⟩
      · rename_i t ht
        split
        · exact .inl ⟨rfl, rfl⟩
        · split
          · exact .inl ⟨rfl, rfl⟩
          · rename_i entry s _
            split
            · exact .inl ⟨rfl, rfl⟩
            · have hnew : b.topicOrNew options.topic = t := by simp [topicOrNew, ht]
              exact .inr ⟨options, s, ha, by rw [put, hnew]⟩

theorem confined_tryReceive (hc : Within place b consumer) :
    Confined place b (b.tryReceive consumer).2 := by
  rcases b.tryReceive_puts consumer with hquiet | ⟨options, s, ha, hput⟩
  · exact confined_of_quiet hquiet
  · rw [hput]
    exact confined_put s (hc options ha)

theorem confined_acknowledge (hc : Within place b consumer) (id : EntryId) :
    Confined place b (b.acknowledge consumer id).2 := by
  unfold acknowledge
  split
  · exact .refl b
  · rename_i options ha
    split
    · exact confined_of_quiet ⟨rfl, rfl⟩
    · exact b.confined_modifySubscription (hc options ha) _

theorem confined_release (hc : Within place b consumer) :
    Confined place b (b.release consumer) := by
  cases ha : b.attached? consumer with
  | none =>
      rw [release_of_closed ha]
      exact .refl b
  | some options =>
      have htopics : (b.release consumer).topics = (b.modifySubscription options.topic
          options.subscription Subscription.detach).topics := by
        simp [release, ha]
      have h := b.confined_modifySubscription (hc options ha) Subscription.detach
      constructor
      · intro t n hn
        rw [subscription?, htopics]
        exact h.subscription t n hn
      · intro t ledger hl
        rw [ledger?, htopics]
        exact h.ledger t ledger hl
      · exact b.log_release consumer
      · intro c o hco
        rw [attached?_release] at hco
        split at hco
        · cases hco
        · exact .inl hco
      · intro c o hn hco
        rw [attached?_release, if_neg]
        · exact hco
        · rintro rfl
          exact hn (hc o hco)

theorem confined_closeConsumer (hc : Within place b consumer) :
    Confined place b (b.closeConsumer consumer) :=
  (confined_release hc).trans (confined_of_quiet ⟨rfl, rfl⟩)

/-- What happens from outside and is no publish only arranges for failures. -/
theorem stimulate_quiet {stimulus : Stimulus}
    (h : ∀ topic key payload eventTime now, stimulus ≠ .publish topic key payload eventTime now) :
    (b.stimulate stimulus).2.topics = b.topics ∧
      (b.stimulate stimulus).2.consumers = b.consumers := by
  cases stimulus with
  | publish topic key payload eventTime now => exact absurd rfl (h topic key payload eventTime now)
  | _ => exact ⟨rfl, rfl⟩

/-- A scope keeps to some places if its consumers are attached there, or nowhere, and consumers are
attached there only. Nothing is published. -/
structure Scope.KeepsTo (σ : Scope) (place : String → String → Prop) (b : Store) : Prop where
  consumer : ∀ c, σ.consumer c → Within place b c
  closed : ∀ c, σ.closed c → Within place b c
  dropped : ∀ c, σ.dropped c → Within place b c
  options : ∀ options, σ.options options → place options.topic options.subscription
  stimulus : ∀ topic key payload eventTime now,
    ¬ σ.stimulus (.publish topic key payload eventTime now)

theorem Asks.confined {σ : Scope} (h : Asks σ b b') (hσ : σ.KeepsTo place b) :
    Confined place b b' := by
  cases h with
  | connect options _ => exact confined_of_quiet (b.connect_quiet options)
  | subscribe client h => exact b.confined_subscribe client _ (hσ.options _ h)
  | receive h => exact confined_tryReceive (hσ.consumer _ h)
  | acknowledge id h => exact confined_acknowledge (hσ.consumer _ h) id
  | close h => exact confined_closeConsumer (hσ.closed _ h)
  | drop h => exact confined_release (hσ.dropped _ h)
  | closeClient _ => exact confined_of_quiet (b.closeClient_quiet _)
  | stimulate h =>
      apply confined_of_quiet
      apply stimulate_quiet
      rintro topic key payload eventTime now rfl
      exact hσ.stimulus topic key payload eventTime now h

/-- Calls of a scope that keeps to some places change at most the subscriptions there. -/
theorem AsksAll.confined {σ : Scope} (h : AsksAll σ b b') (hσ : σ.KeepsTo place b) :
    Confined place b b' := by
  induction h with
  | refl => exact .refl b
  | tail _ hlast ih =>
      apply ih.trans
      exact hlast.confined
        { hσ with
          consumer := fun c hc => ih.within (hσ.consumer c hc)
          closed := fun c hc => ih.within (hσ.closed c hc)
          dropped := fun c hc => ih.within (hσ.dropped c hc) }

/-! ## Publishing -/

/-- What it is for a store to publish a message: its topic's log goes on with the message, under the
number that comes next, and nothing else changes in topics and consumers. -/
structure Publishes (b : Store) (m : Message EntryId) (b' : Store) : Prop where
  id : m.id = ⟨(b.topicOrNew m.topic).ledger, UInt64.ofNat (b.log m.topic).length⟩
  log : ∀ t, b'.log t = if t = m.topic then b.log t ++ [m] else b.log t
  subscription : ∀ t n, b'.subscription? t n = b.subscription? t n
  ledger : ∀ t ledger, b.ledger? t = some ledger → b'.ledger? t = some ledger
  consumers : b'.consumers = b.consumers

/-- A publish appends what it was given and reports the identifier, or the log is full and nothing
happens. -/
theorem publish_spec (b : Store) (topic : String) (key payload : Bytes)
    (eventTime : Option Time) (now : Time) :
    ((b.publish topic key payload eventTime now) = (none, b) ∧
      logCapacity ≤ (b.log topic).length) ∨
    ∃ id, (b.publish topic key payload eventTime now).1 = some id ∧
      b.Publishes { id, topic, eventTime, publishTime := now, key, payload }
        (b.publish topic key payload eventTime now).2 := by
  unfold publish
  dsimp only
  split
  · refine .inr ⟨_, rfl, rfl, fun t => ?_, fun t n => ?_, fun t ledger h => ?_, rfl⟩
    · refine (log_setLog b topic t _).trans ?_
      split
      · rename_i ht
        rw [ht, Store.log]
      · rfl
    · exact subscription?_setLog b topic t n _
    · exact ledger?_setLog h
  · exact .inl ⟨rfl, Nat.le_of_not_lt ‹_›⟩

/-! ## What is left to be handed out -/

/-- While nobody touches a subscription, the new entries of its log are left to it in addition. -/
theorem remaining_of_grows {topic name : String}
    (hsub : b'.subscription? topic name = b.subscription? topic name)
    (hgrows : b.log topic <+: b'.log topic)
    (hcursor : (b.subscriptionOrNew topic name).cursor ≤ (b.log topic).length) :
    b'.remaining topic name = b.remaining topic name ++
      List.range' (b.log topic).length ((b'.log topic).length - (b.log topic).length) := by
  have hle := hgrows.length_le
  have hsame : b'.subscriptionOrNew topic name = b.subscriptionOrNew topic name := by
    rw [subscriptionOrNew, hsub, subscriptionOrNew]
  rw [remaining, remaining, hsame, Subscription.remaining, Subscription.remaining,
    List.append_assoc, List.append_right_inj]
  generalize (b.subscriptionOrNew topic name).cursor = cursor at hcursor
  have hstart : (b.log topic).length = cursor + ((b.log topic).length - cursor) := by omega
  have hcount : (b'.log topic).length - cursor = ((b.log topic).length - cursor) +
      ((b'.log topic).length - (b.log topic).length) := by omega
  rw [hcount, ← List.range'_append_1, ← hstart]

end TrackedDelivery.Memory.Store
