import TrackedDelivery.Proofs.Deployment.Guarantees
import TrackedDelivery.Proofs.Deployment.Resuming
import TrackedDelivery.Proofs.Deployment.Waiting
/-!
# Exclusive consumers

A subscribe is turned away for the sake of others only if it is exclusive itself: nobody keeps in
mind how those were attached who are there already. So an exclusive consumer is alone when it comes
and no other exclusive one gets in while it stays, but consumers of the other types attach beside
it.
-/
namespace TrackedDelivery.Memory

/-- Both options name the same subscription of the same topic. -/
def SameSubscription (o p : SubscribeOptions) : Prop :=
  p.topic = o.topic ∧ p.subscription = o.subscription

namespace Store

variable {b b' : Store} {gone : ℕ → Prop}

/-! ## What a subscribe is answered -/

theorem subscribe_fst (b : Store) (client : ℕ) (options : SubscribeOptions) :
    (b.subscribe client options).1 =
      match b.failSubscribe with
      | some reason => .error (.subscribeRejected reason)
      | none =>
          if b.clients.getD client true then .error .closed
          else if options.type = .exclusive ∧
              0 < (b.subscriptionOrNew options.topic options.subscription).activeConsumers then
            .error (.consumerBusy options.subscription)
          else .ok b.consumers.length := by
  have hs : ((b.topicOrNew options.topic).subscriptions.find? options.subscription).getD {} =
      b.subscriptionOrNew options.topic options.subscription := by
    rw [subscriptionOrNew, subscription?_eq]
  unfold subscribe
  dsimp only
  cases b.failSubscribe with
  | some reason => rfl
  | none =>
      dsimp only
      split
      · rfl
      · change (if _ && decide (0 < ((b.topicOrNew options.topic).subscriptions.find?
          options.subscription |>.getD {}).activeConsumers) then _ else _ : _ × Store).1 = _
        rw [hs]
        simp only [Bool.and_eq_true, decide_eq_true_eq]
        split <;> rfl

/-- An exclusive consumer that is let in finds nobody there. -/
theorem Sound.deserted_of_subscribe (hb : b.Sound) {client consumer : ℕ}
    {options : SubscribeOptions} (hexclusive : options.type = .exclusive)
    (h : (b.subscribe client options).1 = .ok consumer) (k : ℕ) :
    ¬ b.Serves options.topic options.subscription k := by
  rintro ⟨o, ha, ht, hn⟩
  have hpos := attachments_pos ha
  rw [ht, hn, ← hb.counted] at hpos
  rw [subscribe_fst] at h
  simp only [hexclusive, hpos, and_self, if_true] at h
  split at h
  · cases h
  · split at h <;> cases h

/-- Where somebody is attached, only newcomers of the other types are let in. -/
theorem Sound.subscribe_beside (hb : b.Sound) {client k : ℕ} {options : SubscribeOptions}
    (hserves : b.Serves options.topic options.subscription k)
    (hopen : b.clients[client]? = some false) (hwilling : b.failSubscribe = none) :
    (b.subscribe client options).1 =
      if options.type = .exclusive then .error (.consumerBusy options.subscription)
      else .ok b.consumers.length := by
  obtain ⟨o, ha, ht, hn⟩ := hserves
  have hpos := attachments_pos ha
  rw [ht, hn, ← hb.counted] at hpos
  rw [subscribe_fst, hwilling, List.getD_eq_getElem?_getD, hopen]
  simp [hpos]

/-! ## Who comes when -/

/-- The number of consumers that there ever were goes up only where one is let in. -/
theorem Operation.length_or_subscribe (h : Operation gone b b') (hb : b.Sound) :
    b'.consumers.length = b.consumers.length ∨
      ∃ client options, (b.subscribe client options).1 = .ok b.consumers.length ∧
        b.Attaches options b' := by
  cases h with
  | connect options => exact .inl (congrArg _ (b.connect_quiet options).2)
  | subscribe client options =>
      rcases b.subscribe_cases client options with ⟨e, -, haway⟩ | ⟨hok, hattach⟩
      · exact .inl (congrArg _ haway.consumers)
      · exact .inr ⟨client, options, hok, hattach⟩
  | receive consumer =>
      rcases tryReceive_cases hb consumer with ⟨m, options, s, hfirst⟩ | hquiet
      · exact .inl (congrArg _ hfirst.handsOut.consumers)
      · exact .inl (congrArg _ hquiet.2)
  | acknowledge consumer id =>
      rcases hr : b.acknowledge consumer id with ⟨result, after⟩
      cases result with
      | error e => exact .inl (congrArg _ (acknowledge_quiet hr).2)
      | ok u =>
          obtain ⟨options, hsettles⟩ := settles_of_acknowledge hb hr
          exact .inl (congrArg _ hsettles.consumers)
  | close consumer => exact .inl (b.length_release consumer)
  | drop h => exact .inl (b.length_release _)
  | closeClient client => exact .inl (congrArg _ (b.closeClient_quiet client).2)
  | stimulate stimulus =>
      cases stimulus with
      | publish topic key payload eventTime now =>
          exact .inl (congrArg _ (b.appends_publish topic key payload eventTime now).consumers)
      | _ => exact .inl rfl

/-- Whoever is attached after an operation was attached before, or has just been let in. -/
theorem Operation.attached_cases (h : Operation gone b b') (hb : b.Sound) {c : ℕ}
    {options : SubscribeOptions} (hc : b'.attached? c = some options) :
    b.attached? c = some options ∨
      c = b.consumers.length ∧ ∃ client, (b.subscribe client options).1 = .ok c := by
  by_cases hlt : c < b.consumers.length
  · exact .inl ((h.leads hb).extends_.attached hc hlt)
  · rcases h.length_or_subscribe hb with hlength | ⟨client, newcomer, hok, hattach⟩
    · have hlt' := (List.getElem?_eq_some_iff.mp (attached?_eq_some.mp hc)).1
      omega
    · rw [hattach.attached?_after] at hc
      split at hc
      · rename_i hnew
        cases hc
        exact .inr ⟨hnew, client, hnew ▸ hok⟩
      · exact .inl hc

/-- Whoever is attached beside an exclusive consumer came after it and is not exclusive. -/
def ExclusiveFirst (b : Store) : Prop :=
  ∀ (c k : ℕ) (o p : SubscribeOptions), b.attached? c = some o → b.attached? k = some p →
    o.type = .exclusive → SameSubscription o p → k ≠ c → c < k ∧ p.type ≠ .exclusive

theorem Operation.exclusiveFirst (h : Operation gone b b') (hb : b.Sound)
    (hf : b.ExclusiveFirst) : b'.ExclusiveFirst := by
  intro c k o p hc hk hexclusive hsame hne
  rcases h.attached_cases hb hc with hc | ⟨rfl, client, hok⟩
  · rcases h.attached_cases hb hk with hk | ⟨rfl, client, hok⟩
    · exact hf c k o p hc hk hexclusive hsame hne
    · -- The other one has just come, so it cannot be exclusive.
      refine ⟨(List.getElem?_eq_some_iff.mp (attached?_eq_some.mp hc)).1, fun hp => ?_⟩
      exact hb.deserted_of_subscribe hp hok c ⟨o, hc, hsame.1.symm, hsame.2.symm⟩
  · -- The exclusive one has just come, so nobody else was there.
    rcases h.attached_cases hb hk with hk | ⟨rfl, -⟩
    · exact absurd ⟨p, hk, hsame⟩ (hb.deserted_of_subscribe hexclusive hok k)
    · exact absurd rfl hne

end Store

theorem exclusiveFirst_run (steps : List (Step Store)) :
    (Deployment.fresh.run steps).2.broker.ExclusiveFirst := by
  apply Deployment.Regular.initial.preserve (fun h hb => h.exclusiveFirst hb)
  intro c k o p hc
  cases hc

/-- In whatever state a run has come to, let an exclusive consumer be attached. Whoever is attached
beside it came later and is of another type. So it is alone if and only if everybody of another
type who came later has gone again. And an open client that subscribes beside it, where no failure
is arranged for, is turned away if it is exclusive and gets its consumer otherwise. -/
theorem beside_exclusive {steps : List (Step Store)} {c : ℕ} {options : SubscribeOptions}
    (ha : (Deployment.fresh.run steps).2.broker.attached? c = some options)
    (hexclusive : options.type = .exclusive) :
    let b := (Deployment.fresh.run steps).2.broker
    (∀ k o, b.attached? k = some o → SameSubscription options o → k ≠ c →
      c < k ∧ o.type ≠ .exclusive) ∧
    ((∀ k, b.Serves options.topic options.subscription k → k = c) ↔
      ∀ k a, c < k → b.consumers[k]? = some a → SameSubscription options a.options →
        a.options.type ≠ .exclusive → a.closed = true) ∧
    ∀ client newcomer, SameSubscription options newcomer → b.clients[client]? = some false →
      b.failSubscribe = none →
      (b.subscribe client newcomer).1 =
        if newcomer.type = .exclusive then .error (.consumerBusy newcomer.subscription)
        else .ok b.consumers.length := by
  intro b
  have hb : b.Sound := (Deployment.recorded_run steps).sound
  have hfirst : ∀ k o, b.attached? k = some o → SameSubscription options o → k ≠ c →
      c < k ∧ o.type ≠ .exclusive :=
    fun k o hk hsame hne => exclusiveFirst_run steps c k options o ha hk hexclusive hsame hne
  refine ⟨hfirst, ⟨fun halone k a hlt hk hsame hother => ?_, fun hgone k hserves => ?_⟩,
    fun client newcomer hsame hopen hwilling => ?_⟩
  · obtain ⟨o, closed⟩ := a
    cases closed with
    | true => rfl
    | false =>
        have hattached : b.attached? k = some o := Store.attached?_eq_some.mpr hk
        exact absurd (halone k ⟨o, hattached, hsame⟩) (Nat.ne_of_gt hlt)
  · obtain ⟨o, hattached, hsame⟩ := hserves
    by_contra hne
    obtain ⟨hlt, hother⟩ := hfirst k o hattached hsame hne
    cases hgone k _ hlt (Store.attached?_eq_some.mp hattached) hsame hother
  · have hserves : b.Serves newcomer.topic newcomer.subscription c :=
      ⟨options, ha, hsame.1.symm, hsame.2.symm⟩
    exact hb.subscribe_beside hserves hopen hwilling

/-- A source of an exclusive subscription opens, and after it one that would share it. -/
def mixedRun : List (Step Store) :=
  [.create "a" (some (sampleConfig.withSubscriptionType .exclusive)),
    .create "b" (some sampleConfig), .openSource "a" none "", .openSource "b" none ""]

set_option maxRecDepth 10000 in
/-- An exclusive consumer need not be alone. -/
theorem joined_of_mixedRun :
    let b := (Deployment.fresh.run mixedRun).2.broker
    ¬ ∀ c options, b.attached? c = some options → options.type = .exclusive →
      ∀ k, b.Serves options.topic options.subscription k → k = c := by
  have hfirst : (Deployment.fresh.run mixedRun).2.broker.attached? 0 =
      some ⟨"t", "s", .exclusive⟩ := by decide +kernel
  have hsecond : (Deployment.fresh.run mixedRun).2.broker.Serves "t" "s" 1 := by decide +kernel
  intro b halone
  cases halone 0 _ hfirst rfl 1 hsecond

set_option maxRecDepth 10000 in
theorem beside_of_mixedRun :
    let b := (Deployment.fresh.run mixedRun).2.broker
    b.attached? 0 = some ⟨"t", "s", .exclusive⟩ ∧
    (∀ k o, b.attached? k = some o → SameSubscription ⟨"t", "s", .exclusive⟩ o → k ≠ 0 →
      0 < k ∧ o.type ≠ .exclusive) ∧
    (b.subscribe 0 ⟨"t", "s", .exclusive⟩).1 = .error (.consumerBusy "s") ∧
    (b.subscribe 0 ⟨"t", "s", .keyShared⟩).1 = .ok 2 := by
  have ha : (Deployment.fresh.run mixedRun).2.broker.attached? 0 =
      some ⟨"t", "s", .exclusive⟩ := by decide +kernel
  have hopen : (Deployment.fresh.run mixedRun).2.broker.clients[0]? = some false := by
    decide +kernel
  have hwilling : (Deployment.fresh.run mixedRun).2.broker.failSubscribe = none := by
    decide +kernel
  have hlength : (Deployment.fresh.run mixedRun).2.broker.consumers.length = 2 := by
    decide +kernel
  obtain ⟨hfirst, -, hsubscribe⟩ := beside_exclusive ha rfl
  have hbusy := hsubscribe 0 ⟨"t", "s", .exclusive⟩ ⟨rfl, rfl⟩ hopen hwilling
  have hlet := hsubscribe 0 ⟨"t", "s", .keyShared⟩ ⟨rfl, rfl⟩ hopen hwilling
  rw [hlength] at hlet
  exact ⟨ha, hfirst, hbusy, hlet⟩

end TrackedDelivery.Memory
