import TrackedDelivery.Proofs.Deployment.Cancellation
import TrackedDelivery.Proofs.Deployment.Sessions
import TrackedDelivery.Proofs.Memory.Isolation
/-!
# Subscriptions do not disturb one another

A step has to do with few consumers and with few subscriptions: those that it names, that of the
tracker it is made to, and those that nothing refers to afterwards. All other subscriptions stay as
they are, and so does what they have still to hand out. Hence every message of a topic comes to
every subscription of it, whatever happens at the others.
-/
namespace TrackedDelivery

/-- The step publishes a message. -/
def Step.Publishes : Step Memory.Store → Prop
  | .stimulate (.publish ..) => True
  | _ => False

instance : DecidablePred Step.Publishes := fun s => by
  unfold Step.Publishes
  split <;> infer_instance

/-- A subscription is as it was, and whoever was attached to it still is. -/
structure Memory.Store.Undisturbed (topic name : String) (b b' : Memory.Store) : Prop where
  subscription : b'.subscription? topic name = b.subscription? topic name
  serves : ∀ c, b.Serves topic name c → b'.Serves topic name c

end TrackedDelivery

namespace TrackedDelivery.Deployment

open Memory Memory.Store

variable {d : Deployment Store} {s : Step Store} {topic name : String}

/-! ## What a step has to do with -/

instance (d : Deployment Store) (c : ℕ) : Decidable (d.Unheld c) :=
  decidable_of_iff (∃ n ∈ List.range d.trackers.length, ∃ t ∈ d.trackers[n]?,
    d.isHeld n = false ∧ t.consumerNumber = c) <| by
  constructor
  · rintro ⟨n, -, t, ht, h⟩
    exact ⟨n, t, ht, h⟩
  · rintro ⟨n, t, ht, h⟩
    exact ⟨n, List.mem_range.mpr (List.getElem?_eq_some_iff.mp ht).1, t, ht, h⟩

/-- The consumers that a step has to do with: the one through which it asks something, a bare one
that gives up its name, and those of trackers that nothing refers to afterwards. -/
def Involves (d : Deployment Store) (s : Step Store) (consumer : ℕ) : Prop :=
  d.workedThrough? s = some consumer ∨ d.givenUp? s = some consumer ∨
    (d.step s).2.Unheld consumer

/-- The subscriptions that a step has to do with: those that its consumers are attached to, and the
one that it asks to attach a consumer to. -/
def Touches (d : Deployment Store) (s : Step Store) (topic name : String) : Prop :=
  (∃ c, d.Involves s c ∧ d.broker.Serves topic name c) ∨
    ∃ options, d.sought? s = some options ∧ options.topic = topic ∧ options.subscription = name

instance (d : Deployment Store) (s : Step Store) (topic name : String) :
    Decidable (d.Touches s topic name) :=
  decidable_of_iff ((∃ c ∈ List.range d.broker.consumers.length,
    (d.workedThrough? s = some c ∨ d.givenUp? s = some c ∨ (d.step s).2.Unheld c) ∧
      d.broker.Serves topic name c) ∨
    ∃ options ∈ d.sought? s, options.topic = topic ∧ options.subscription = name) <| by
  apply or_congr_left
  constructor
  · rintro ⟨c, -, h⟩
    exact ⟨c, h⟩
  · rintro ⟨c, h, options, ha, hplace⟩
    have hlt := (List.getElem?_eq_some_iff.mp (attached?_eq_some.mp ha)).1
    exact ⟨c, List.mem_range.mpr hlt, h, options, ha, hplace⟩

/-- None of the steps that are made one after another has to do with a subscription. -/
def Untouched (d : Deployment Store) (topic name : String) : List (Step Store) → Prop
  | [] => True
  | s :: rest => ¬ d.Touches s topic name ∧ (d.step s).2.Untouched topic name rest

/-! ## One step -/

theorem within_of_involves {c : ℕ} (h : d.Involves s c) : Within (d.Touches s) d.broker c :=
  fun options ha => .inl ⟨c, h, options, ha, rfl, rfl⟩

/-- A step that publishes nothing changes at most the subscriptions that it has to do with. -/
theorem confined_step (hs : ¬ s.Publishes) :
    Confined (d.Touches s) d.broker (d.step s).2.broker := by
  have hact : Confined (d.Touches s) d.broker (act { d with log := [] } s).2.broker := by
    apply (acts { d with log := [] } s).asks.confined
    constructor
    · intro c hc
      exact within_of_involves (.inl hc)
    · intro c hc
      exact within_of_involves (.inl (workedThrough?_of_closing? hc))
    · intro c hc
      exact within_of_involves (.inr (.inl hc))
    · intro options h
      exact .inr ⟨options, h, rfl, rfl⟩
    · rintro topic key payload eventTime now rfl
      exact hs trivial
  apply hact.trans
  apply (asks_dropUnheld _).confined
  constructor
  · intro c hc
    cases hc
  · intro c hc
    cases hc
  · intro c hc
    exact hact.within (within_of_involves (.inr (.inr hc)))
  · intro options h
    cases h
  · intro topic key payload eventTime now h
    cases h

/-- In tidy deployments a publish does just what the broker does. -/
theorem Tidy.step_publish (h : d.Tidy) (topic : String) (key payload : Bytes)
    (eventTime : Option Time) (now : Time) :
    d.step (.stimulate (Stimulus.publish topic key payload eventTime now)) =
      (.reported (d.broker.publish topic key payload eventTime now).1,
        { d with
          broker := (d.broker.publish topic key payload eventTime now).2
          log := [] }) := by
  have hconsumers := (d.broker.appends_publish topic key payload eventTime now).consumers
  have htidy : Tidy { d with
      broker := (d.broker.publish topic key payload eventTime now).2
      log := [] } := h.of_holds ⟨rfl, rfl, rfl, rfl, hconsumers⟩
  exact Prod.ext rfl htidy.dropUnheld

theorem Tidy.step_publish_spec (h : d.Tidy) (topic : String) (key payload : Bytes)
    (eventTime : Option Time) (now : Time) :
    let result := d.step (.stimulate (Stimulus.publish topic key payload eventTime now))
    (result.1 = .reported none ∧ logCapacity ≤ (d.broker.log topic).length ∧
      result.2.broker = d.broker) ∨
    ∃ id, result.1 = .reported (some id) ∧
      d.broker.Publishes { id, topic, eventTime, publishTime := now, key, payload }
        result.2.broker := by
  intro result
  rw [show result = _ from h.step_publish topic key payload eventTime now]
  rcases d.broker.publish_spec topic key payload eventTime now with
    ⟨hfull, hlength⟩ | ⟨id, hid, hpublishes⟩
  · rw [hfull]
    exact .inl ⟨rfl, hlength, rfl⟩
  · rw [hid]
    exact .inr ⟨id, rfl, hpublishes⟩

/-! ## Steps one after another -/

instance decidableUntouched (topic name : String) :
    (steps : List (Step Store)) → (d : Deployment Store) → Decidable (d.Untouched topic name steps)
  | [], _ => inferInstanceAs (Decidable True)
  | s :: rest, d =>
      have := decidableUntouched topic name rest (d.step s).2
      inferInstanceAs (Decidable (_ ∧ _))

theorem Tidy.undisturbed_step (h : d.Tidy) (hs : ¬ d.Touches s topic name) :
    Undisturbed topic name d.broker (d.step s).2.broker := by
  by_cases hpublishes : s.Publishes
  · cases s with
    | stimulate stimulus =>
        cases stimulus with
        | publish t key payload eventTime now =>
            have hspec := h.step_publish_spec t key payload eventTime now
            rcases hspec with ⟨-, -, hsame⟩ | ⟨id, -, hspec⟩
            · rw [hsame]
              exact ⟨rfl, fun c hc => hc⟩
            · refine ⟨hspec.subscription topic name, ?_⟩
              rintro c ⟨options, ha, hplace⟩
              exact ⟨options, by rwa [attached?_congr hspec.consumers], hplace⟩
        | _ => cases hpublishes
    | _ => cases hpublishes
  · have hconfined := confined_step (d := d) hpublishes
    refine ⟨hconfined.subscription topic name hs, ?_⟩
    rintro c ⟨options, ha, rfl, rfl⟩
    exact ⟨options, hconfined.stays c options hs ha, rfl, rfl⟩

/-- Steps that have nothing to do with a subscription leave it undisturbed. -/
theorem Tidy.undisturbed_run (h : d.Tidy) {steps : List (Step Store)}
    (hs : d.Untouched topic name steps) :
    Undisturbed topic name d.broker (d.run steps).2.broker := by
  induction steps generalizing d with
  | nil => exact ⟨rfl, fun c hc => hc⟩
  | cons s rest ih =>
      have hfirst := h.undisturbed_step hs.1
      have hrest := ih (tidy_dropUnheld _) hs.2
      exact ⟨hrest.subscription.trans hfirst.subscription,
        fun c hc => hrest.serves c (hfirst.serves c hc)⟩

end TrackedDelivery.Deployment

/-! ## Every message comes to every subscription -/

namespace TrackedDelivery.Memory

open Store

theorem Store.ledger_topicOrNew {b : Store} {topic : String} {ledger : UInt64}
    (h : b.ledger? topic = some ledger) : (b.topicOrNew topic).ledger = ledger := by
  obtain ⟨t, ht, rfl⟩ := Option.map_eq_some_iff.mp h
  rw [topicOrNew, ht, Option.getD_some]

/-- What is received under the number of a message of the log is this message. -/
theorem Attended.id_of_receipt {b : Store} {past : List Deed} (h : Attended b past)
    (hb : b.Sound) {topic name : String} {r : Receipt} (hr : r ∈ b.receiptsOf topic name past)
    {m : Message EntryId} (hm : m ∈ b.log topic) (he : r.entry = m.id.entry.toNat) :
    r.id = m.id := by
  obtain ⟨hreceived, hbelongs⟩ := List.mem_filter.mp hr
  obtain ⟨a, ha, hledger, -⟩ := h.vouched r (mem_receipts.mp hreceived)
  rw [Store.belongs, ha, Option.any_some, decide_eq_true_iff] at hbelongs
  rw [hbelongs.1] at hledger
  obtain ⟨i, hi⟩ := List.getElem?_of_mem hm
  have hmessage := ((hb.topicOrNew topic).message i m hi).1
  rw [ledger_topicOrNew hledger] at hmessage
  have hsame : r.id.ledger = m.id.ledger := by rw [hmessage]
  cases hid : r.id
  cases hmid : m.id
  rw [Receipt.entry] at he
  rw [hid, hmid] at he hsame
  rw [EntryId.mk.injEq]
  exact ⟨hsame, UInt64.toNat_inj.mp he⟩

/-- Every message of a topic was received by a consumer of a subscription, or it is left to be
handed out there. -/
theorem received_or_left (steps : List (Step Store)) {topic name : String}
    {m : Message EntryId} (hm : m ∈ (Deployment.fresh.run steps).2.broker.log topic) :
    (∃ r ∈ (Deployment.fresh.run steps).2.broker.receiptsOf topic name
      (Deployment.fresh.history steps), r.id = m.id) ∨
    m.id.entry.toNat ∈ (Deployment.fresh.run steps).2.broker.remaining topic name := by
  have h := Deployment.recorded_run steps
  have hturns := Deployment.turns_run (d := Deployment.fresh) .initial steps
  obtain ⟨i, hi⟩ := List.getElem?_of_mem hm
  have hentry := (h.sound.topicOrNew topic).toNat_entry hi
  have hlt := (List.getElem?_eq_some_iff.mp hi).1
  rcases hturns.received_or_new .initial (.refl _) (Nat.zero_le m.id.entry.toNat) with
    ⟨r, hr, hre⟩ | hnew
  · exact .inl ⟨r, hr, h.attended.id_of_receipt h.sound hr hm hre⟩
  · right
    apply Subscription.mem_remaining.mpr
    exact .inr ⟨hnew, by rwa [hentry]⟩

/-- What is asked through a tracker changes at most the subscription of its consumer. -/
theorem confined_request (w : Delivery Store) (cancelled : Bool) :
    (∀ request, Confined (w.broker.Serves · · w.tracker.consumer) w.broker
      (Call.start cancelled w request).2.broker) ∧
    ∀ call, Confined (w.broker.Serves · · w.tracker.consumer) w.broker
      (Call.poll cancelled w call).2.broker := by
  let σ : Scope := { consumer := (· = w.tracker.consumer) }
  have hσ : σ.KeepsTo (w.broker.Serves · · w.tracker.consumer) w.broker := by
    constructor
    · rintro c rfl options ha
      exact ⟨options, ha, rfl, rfl⟩
    · intro c hc
      cases hc
    · intro c hc
      cases hc
    · intro options h
      cases h
    · intro topic key payload eventTime now h
      cases h
  constructor
  · intro request
    exact (proceeds_start (σ := σ) w rfl cancelled request).asks.confined hσ
  · intro call
    exact (asks_poll (σ := σ) w rfl cancelled call).confined hσ

/-- Whatever is asked through a tracker, and whatever a step does that publishes nothing, changes at
most the subscriptions that it has to do with: all others stay as they are, with everybody who is
attached to them, and so do all logs and all ledgers. A publish appends its message to the log of
its topic and changes no subscription. So in every run, while nobody has to do with a subscription,
nothing happens to it but that new messages of its topic are left to it in addition. Every message
of the topic was received there or is left to be handed out there, and whoever is attached there and
receives again and again is handed all that is left, in order. -/
theorem subscriptions_isolated :
    (∀ (w : Delivery Store) (cancelled : Bool),
      (∀ request, Confined (w.broker.Serves · · w.tracker.consumer) w.broker
        (Call.start cancelled w request).2.broker) ∧
      ∀ call, Confined (w.broker.Serves · · w.tracker.consumer) w.broker
        (Call.poll cancelled w call).2.broker) ∧
    ∀ steps : List (Step Store),
      let d := (Deployment.fresh.run steps).2
      (∀ s : Step Store, ¬ s.Publishes → Confined (d.Touches s) d.broker (d.step s).2.broker) ∧
      (∀ (topic : String) (key payload : Bytes) (eventTime : Option Time) (now : Time),
        let result := d.step (.stimulate (Stimulus.publish topic key payload eventTime now))
        (result.1 = .reported none ∧ logCapacity ≤ (d.broker.log topic).length ∧
          result.2.broker = d.broker) ∨
        ∃ id, result.1 = .reported (some id) ∧
          d.broker.Publishes { id, topic, eventTime, publishTime := now, key, payload }
            result.2.broker) ∧
      ∀ topic name : String,
        (∀ rest, d.Untouched topic name rest →
          let after := (d.run rest).2
          Undisturbed topic name d.broker after.broker ∧
          d.broker.log topic <+: after.broker.log topic ∧
          after.broker.remaining topic name = d.broker.remaining topic name ++
            List.range' (d.broker.log topic).length
              ((after.broker.log topic).length - (d.broker.log topic).length)) ∧
        (∀ m ∈ d.broker.log topic,
          (∃ r ∈ d.broker.receiptsOf topic name (Deployment.fresh.history steps), r.id = m.id) ∨
            m.id.entry.toNat ∈ d.broker.remaining topic name) ∧
        ∀ c, d.broker.Serves topic name c → d.broker.failReceives = [] →
          ∃ (messages : List (Message EntryId)) (after : Store),
            receives c d.broker (d.broker.remaining topic name).length =
              (messages.map (.done <| .ok ·), after) ∧
            messages.map some =
              (d.broker.remaining topic name).map ((d.broker.log topic)[·]?) := by
  refine ⟨confined_request, fun steps => ?_⟩
  intro d
  have h : d.Regular := .run .initial steps
  have htidy : d.Tidy := Deployment.tidy_run Deployment.tidy_fresh
  refine ⟨fun s hs => Deployment.confined_step hs, htidy.step_publish_spec,
    fun topic name => ⟨?_, fun m hm => received_or_left steps hm, ?_⟩⟩
  · intro rest hrest after
    have hundisturbed := htidy.undisturbed_run hrest
    have hgrows := h.grows_run rest topic
    have hcursor := (h.sound.subscription topic name).cursor_le
    exact ⟨hundisturbed, hgrows, remaining_of_grows hundisturbed.subscription hgrows hcursor⟩
  · rintro c ⟨options, ha, rfl, rfl⟩ hwilling
    obtain ⟨messages, after, hreceives, hmessages, -⟩ :=
      receives_spec h.sound ha hwilling _ (Nat.le_refl _)
    rw [List.take_length] at hmessages
    exact ⟨messages, after, hreceives, hmessages⟩

/-- Two sources consume one topic under different names, and a third one consumes another topic
under the name of the first. -/
def neighbouringRun : List (Step Store) :=
  [.create "a" (some sampleConfig),
    .create "b" (some (sampleConfig.withSubscriptionName "other")),
    .create "c" (some ((Config.minimal "url" "u").withSubscriptionName "s")),
    .openSource "a" none "", .openSource "b" none "", .openSource "c" none "",
    .stimulate (Stimulus.publish "t" [] [1] none 0),
    .stimulate (Stimulus.publish "u" [] [2] none 0)]

/-- The first source and the third one go on, and the first is dropped. -/
def elsewhere : List (Step Store) :=
  [.ask (.source "a") .read false, .ask (.source "c") .read false,
    .ask (.source "a") .acknowledgeAll false, .stimulate (Stimulus.publish "t" [] [3] none 0),
    .drop .source "a", .teardown "c"]

set_option maxRecDepth 10000 in
theorem isolated_of_neighbouringRun :
    let d := (Deployment.fresh.run neighbouringRun).2
    let after := (d.run elsewhere).2
    ¬ d.Touches (.ask (.source "a") .read false) "t" "other" ∧
      (d.step (.ask (.source "a") .read false)).2.broker.subscription? "t" "other" =
        d.broker.subscription? "t" "other" ∧
      d.Untouched "t" "other" elsewhere ∧
      Undisturbed "t" "other" d.broker after.broker ∧
      after.broker.remaining "t" "other" = [0, 1] ∧
      ∃ (messages : List (Message EntryId)) (last : Store),
        receives 1 after.broker 2 = (messages.map (.done <| .ok ·), last) ∧
          messages.map some = [0, 1].map ((after.broker.log "t")[·]?) := by
  intro d after
  have hread : ¬ d.Touches (.ask (.source "a") .read false) "t" "other" := by decide +kernel
  have huntouched : d.Untouched "t" "other" elsewhere := by decide +kernel
  have hserves : after.broker.Serves "t" "other" 1 := by decide +kernel
  have hwilling : after.broker.failReceives = [] := by decide +kernel
  have hleft : after.broker.remaining "t" "other" = [0, 1] := by decide +kernel
  have hrun : after = (Deployment.fresh.run (neighbouringRun ++ elsewhere)).2 :=
    (Deployment.run_append _ _ _).symm
  obtain ⟨-, hruns⟩ := subscriptions_isolated
  obtain ⟨hstep, -, hplace⟩ := hruns neighbouringRun
  obtain ⟨hundisturbed, -, -⟩ := (hplace "t" "other").1 elsewhere huntouched
  have hreceives := ((hruns (neighbouringRun ++ elsewhere)).2.2 "t" "other").2.2 1
  rw [← hrun, hleft] at hreceives
  exact ⟨hread, (hstep _ id).subscription "t" "other" hread, huntouched, hundisturbed, hleft,
    hreceives hserves hwilling⟩

end TrackedDelivery.Memory
