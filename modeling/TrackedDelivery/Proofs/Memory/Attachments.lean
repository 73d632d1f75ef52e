import TrackedDelivery.Proofs.Memory.Closings
/-!
# The count of active consumers

A subscription counts its consumers up when one is let in and down when one goes, and a consumer
goes once: to close it again, or to drop it afterwards, changes nothing. A subscribe that is refused
leaves the topics as they were, so a new subscription comes only with its first consumer.
-/
namespace TrackedDelivery.Memory.Store

variable {b b' : Store} {σ : Scope} {c : ℕ} {options : SubscribeOptions} {topic name : String}

/-! ## What a call leaves alone -/

/-- A consumer that calls neither close nor drop stays attached or gone. -/
theorem AsksAll.attached?_eq (h : AsksAll σ b b') (hb : b.Sound) (hclosed : ¬ σ.closed c)
    (hdropped : ¬ σ.dropped c) (hc : c < b.consumers.length) : b'.attached? c = b.attached? c := by
  cases ha : b.attached? c with
  | some options => exact h.keeps_attached hclosed hdropped ha
  | none =>
      have hcalls : Operations σ.dropped b b' := h.operations fun _ hk => hk
      exact ((hcalls.guides hb).extends_.stays_gone ⟨hc, ha⟩).unattached

/-- Only a subscription that exists has consumers. -/
theorem put_of_active (h : 0 < (b.subscriptionOrNew topic name).activeConsumers) :
    b.put topic name (b.subscriptionOrNew topic name) = b := by
  cases hs : b.subscription? topic name with
  | none =>
      rw [subscriptionOrNew, hs] at h
      cases h
  | some s => rw [subscriptionOrNew_of_some hs, put_of_subscription? hs]

/-- A subscribe that is refused is counted, and does nothing else. -/
theorem subscribe_of_error {client : ℕ} {e : Failure}
    (h : (b.subscribe client options).1 = .error e) :
    (b.subscribe client options).2 = { b with subscribes := b.subscribes + 1 } := by
  have hs : ∀ b : Store, ((b.topicOrNew options.topic).subscriptions.find?
      options.subscription).getD {} = b.subscriptionOrNew options.topic options.subscription :=
    fun b => by rw [subscriptionOrNew, subscription?_eq]
  unfold subscribe at h ⊢
  dsimp only at h ⊢
  cases hfail : b.failSubscribe with
  | some reason => rfl
  | none =>
      rw [hfail] at h
      dsimp only at h ⊢
      split at h
      · rw [if_pos ‹_›]
      · rw [if_neg ‹_›]
        split at h
        · rename_i hbusy
          rw [if_pos hbusy]
          rw [hs] at hbusy ⊢
          exact put_of_active (of_decide_eq_true (Bool.and_eq_true_iff.mp hbusy).2)
        · cases h

/-- A subscribe that is granted attaches the next consumer. -/
theorem attaches_of_ok {client : ℕ} (h : (b.subscribe client options).1 = .ok c) :
    c = b.consumers.length ∧ b.Attaches options (b.subscribe client options).2 := by
  rcases b.subscribe_cases client options with ⟨e, he, -⟩ | ⟨hok, hattaches⟩
  · cases he.symm.trans h
  · exact ⟨Except.ok.inj (h.symm.trans hok), hattaches⟩

/-! ## What a call does to the count -/

/-- How a call changes the counts: not at all, or as a consumer comes, or as one goes. -/
theorem Operation.count_cases {gone : ℕ → Prop} (h : Operation gone b b') :
    b'.consumers = b.consumers ∨ (∃ options, b.Attaches options b') ∨
      ∃ c options, b.attached? c = some options ∧
        (b' = b.closeConsumer c ∨ b' = b.release c) := by
  have hreleased : ∀ c, (b.release c).consumers = b.consumers ∨
      ∃ options, b.attached? c = some options := by
    intro c
    cases ha : b.attached? c with
    | none => exact .inl (congrArg Store.consumers (release_of_closed ha))
    | some options => exact .inr ⟨options, rfl⟩
  cases h with
  | connect options => exact .inl (b.connect_quiet options).2
  | subscribe client options =>
      rcases b.subscribe_cases client options with ⟨e, -, haway⟩ | ⟨-, hattaches⟩
      · exact .inl haway.consumers
      · exact .inr (.inl ⟨options, hattaches⟩)
  | receive consumer =>
      rcases b.tryReceive_puts consumer with hquiet | ⟨o, s, -, hput⟩
      · exact .inl hquiet.2
      · rw [hput]
        exact .inl rfl
  | acknowledge consumer id => exact .inl (b.consumers_acknowledge consumer id)
  | close consumer =>
      rcases hreleased consumer with hsame | ⟨options, ha⟩
      · exact .inl hsame
      · exact .inr (.inr ⟨consumer, options, ha, .inl rfl⟩)
  | @drop consumer _ =>
      rcases hreleased consumer with hsame | ⟨options, ha⟩
      · exact .inl hsame
      · exact .inr (.inr ⟨consumer, options, ha, .inr rfl⟩)
  | closeClient client => exact .inl (b.closeClient_quiet client).2
  | stimulate stimulus =>
      cases stimulus with
      | publish topic key payload eventTime now =>
          exact .inl (b.appends_publish topic key payload eventTime now).consumers
      | _ => exact .inl rfl

end TrackedDelivery.Memory.Store
