import TrackedDelivery.Proofs.Deployment.Acts
import TrackedDelivery.Proofs.Deployment.Reading
import TrackedDelivery.Proofs.Memory.Clients
import TrackedDelivery.Proofs.Memory.Scope
/-!
# The calls of a step

All that a step does to the broker is calls on it, one after another, and the step tells which: it
works through the consumers that it names and through that of the tracker that it is made to, it
closes the client of the session that it ends or one that it has just connected, and it subscribes
to what it was told. A consumer is dropped in two places only: where the name of a bare consumer is
given up, and after every step, where nothing refers to a tracker any more.
-/
namespace TrackedDelivery.Memory

open Store

variable {σ : Scope}

theorem Store.receive_snd (b : Store) (consumer : ℕ) :
    (b.receive consumer).2 = (b.tryReceive consumer).2 := by
  unfold receive
  split
  · rename_i h
    rw [h]
  · rename_i h
    rw [h]

theorem Store.asks_receive (b : Store) {consumer : ℕ} (h : σ.consumer consumer) :
    AsksAll σ b (b.receive consumer).2 := by
  rw [receive_snd]
  exact (Asks.receive b h).once

/-! ## Requests -/

/-- A tracker goes on with its consumer, and asks within a scope. -/
structure Proceeds (σ : Scope) (w w' : Delivery Store) : Prop where
  consumer : w'.tracker.consumer = w.tracker.consumer
  asks : AsksAll σ w.broker w'.broker

theorem Proceeds.refl (w : Delivery Store) : Proceeds σ w w := ⟨rfl, .refl⟩

theorem proceeds_each {α : Type} {act : Delivery Store → α → AckCall Store × Delivery Store}
    (hact : ∀ w a, σ.consumer w.tracker.consumer → Proceeds σ w (act w a).2)
    (w : Delivery Store) (h : σ.consumer w.tracker.consumer) (l : List α) :
    Proceeds σ w (Delivery.each act w l).2 := by
  refine each_preserves (P := Proceeds σ w) (fun mid a hmid => ?_) (.refl w) l
  have hnext := hact mid a (hmid.consumer ▸ h)
  exact ⟨hnext.consumer.trans hmid.consumer, hmid.asks.trans hnext.asks⟩

theorem proceeds_confirm (w : Delivery Store) (key : String) (m : Message EntryId)
    (h : σ.consumer w.tracker.consumer) : Proceeds σ w (w.confirm key m).2 := by
  rw [confirm_eq]
  exact ⟨rfl, (Asks.acknowledge w.broker m.id h).once⟩

theorem proceeds_acknowledge (w : Delivery Store) (position : Bytes)
    (h : σ.consumer w.tracker.consumer) : Proceeds σ w (w.acknowledge position).2 := by
  rw [acknowledge_eq]
  cases w.tracker.meaning position with
  | error e => exact .refl w
  | ok id =>
      dsimp only
      rw [acknowledgeId_eq]
      cases w.tracker.pending.find? id.text with
      | none => exact ⟨rfl, .refl⟩
      | some m =>
          have hconfirm := proceeds_confirm (takeOut w id) id.text m h
          exact ⟨hconfirm.consumer, hconfirm.asks⟩

theorem handOut_spec (w : Delivery Store) (m : Message EntryId) :
    (w.handOut m).1 = Record.ofMessage m (Position.forMessage w.tracker.subscription m.id).encode ∧
      (w.handOut m).2.broker = w.broker ∧ (w.handOut m).2.tracker = { w.tracker with
        pending := (w.tracker.pending.insertIfAbsent (MessageId.text m.id) m).2 } := by
  unfold Delivery.handOut
  dsimp only
  split <;> exact ⟨rfl, rfl, rfl⟩

/-- A pull that finds a message hands it out and makes it pending. -/
theorem pull_of_tryReceive (w : Delivery Store) (cancelled : Bool) {m : Message EntryId} {b : Store}
    (h : w.broker.tryReceive w.tracker.consumer = (some (.ok m), b)) :
    ∃ w' : Delivery Store, w.pull cancelled =
        (.done (.ok (.record (Record.ofMessage m
          (Position.forMessage w.tracker.subscription m.id).encode))), w') ∧
      w'.broker = b ∧ w'.tracker = { w.tracker with
        pending := (w.tracker.pending.insertIfAbsent (MessageId.text m.id) m).2 } := by
  have hreceive : w.broker.receive w.tracker.consumer = (.done (.ok m), b) := by
    rw [Store.receive, h]
  obtain ⟨hrecord, hspec⟩ := handOut_spec
    { w.report (.reading w.tracker.subscription) with broker := b } m
  rw [pull_eq, hreceive]
  exact ⟨_, congrArg (fun r => (Reply.done (Except.ok (Read.record r)), _)) hrecord, hspec⟩

theorem asks_settleRead {w : Delivery Store} (cancelled : Bool)
    {reply : Reply ℕ (Except Failure (Message EntryId))} {b : Store}
    (h : AsksAll σ b w.broker) :
    AsksAll σ b (Delivery.settleRead cancelled w reply).2.broker := by
  rwa [(Deployment.settleRead_consumer cancelled w reply).2]

/-- A tracker goes on with its consumer, whatever it is asked for. -/
theorem proceeds_start (w : Delivery Store) (h : σ.consumer w.tracker.consumer)
    (cancelled : Bool) (request : Request) :
    Proceeds σ w (Call.start cancelled w request).2 := by
  cases request with
  | read =>
      rw [start_read_eq, pull_eq]
      exact ⟨(Deployment.settleRead_consumer cancelled _ _).1,
        asks_settleRead cancelled (w.broker.asks_receive h)⟩
  | acknowledge position => exact proceeds_acknowledge w position h
  | acknowledgeBatch positions => exact proceeds_each proceeds_acknowledge w h positions
  | acknowledgeAll =>
      have hstart : Call.start cancelled w .acknowledgeAll =
          (Call.ofAll w.acknowledgeAll.1, w.acknowledgeAll.2) := rfl
      rw [hstart]
      have hconfirm : ∀ (w : Delivery Store) (e : String × Message EntryId),
          σ.consumer w.tracker.consumer → Proceeds σ w (w.confirm e.1 e.2).2 :=
        fun w e => proceeds_confirm w e.1 e.2
      have hall := proceeds_each hconfirm (takeAll w) h w.tracker.pending.entries
      exact ⟨hall.consumer, hall.asks⟩

theorem asks_poll (w : Delivery Store) (h : σ.consumer w.tracker.consumer)
    (cancelled : Bool) (call : Call Store) :
    AsksAll σ w.broker (Call.poll cancelled w call).2.broker := by
  rcases read_or_concludes call with ⟨since, rfl⟩ | hconcludes
  · rw [poll_read_eq, resumePull_eq]
    apply asks_settleRead cancelled
    change AsksAll σ w.broker (w.broker.resumeReceive w.tracker.consumer since).2
    unfold resumeReceive
    split
    · exact w.broker.asks_receive h
    · exact .refl
  · rw [(hconcludes w cancelled).2]

end TrackedDelivery.Memory

namespace TrackedDelivery.Deployment

open Memory Memory.Store

variable {d after : Deployment Store} {s : Step Store} {answer : Answer Store} {σ : Scope}

/-! ## Sessions -/

/-- The consumer and the client of the session of a source may be closed. -/
def MayEnd (d : Deployment Store) (source : Source Store) (σ : Scope) : Prop :=
  ∀ session t, source.session = some session → d.trackers[session.tracker]? = some t →
    σ.closed t.consumer ∧ σ.client session.client

theorem asks_teardown (name : String) {source : Source Store} (h : d.MayEnd source σ) :
    AsksAll σ d.broker (d.teardown name source).2.broker := by
  unfold teardown
  cases hsession : source.session with
  | none => exact .refl
  | some session =>
      dsimp only
      cases ht : d.trackers[session.tracker]? with
      | none => exact .refl
      | some t =>
          obtain ⟨hconsumer, hclient⟩ := h session t hsession ht
          exact (Asks.close d.broker hconsumer).once.tail (.closeClient _ hclient)

theorem asks_connectSource (d : Deployment Store) (name : String) {config : Config}
    {subscription : String} (hconnects : σ.connects)
    (hoptions : σ.options (config.subscribeOptions subscription))
    (hclient : ∀ c, d.broker.clients.length ≤ c → σ.client c) :
    AsksAll σ d.broker (d.connectSource name config subscription).2.broker := by
  have hconnect : AsksAll σ d.broker (d.connected config) :=
    (Asks.connect d.broker config.client hconnects).once
  have hsubscribe := hconnect.tail
    (.subscribe (d.connected config) d.broker.clients.length hoptions)
  rcases d.connectSource_outcomes name config subscription with
    ⟨cause, -, heq⟩ | ⟨-, ⟨cause, b, -, hb, heq⟩ | ⟨b, -, hb, heq⟩⟩
  · rw [heq]
    exact hconnect
  · rw [hb] at hsubscribe
    rw [heq]
    exact hsubscribe.tail (.closeClient b (hclient _ (Nat.le_refl _)))
  · rw [hb] at hsubscribe
    rw [heq]
    exact hsubscribe

theorem asks_openSource {name : String} {source : Source Store} {position : Option Bytes}
    {fresh : String} (hs : d.sources.find? name = some source) (hends : d.MayEnd source σ)
    (hconnects : σ.connects)
    (hoptions : ∀ config subscription isFresh, source.config = some config →
      settleName (ε := Memory.Failure) config position fresh = .ok (subscription, isFresh) →
      σ.options (config.subscribeOptions subscription))
    (hclient : ∀ c, d.broker.clients.length ≤ c → σ.client c) :
    AsksAll σ d.broker (d.openSource name source position fresh).2.broker := by
  rcases openSource_cases hs position fresh with
    ⟨e, -, he⟩ | ⟨config, subscription, isFresh, hconfig, hsettle, hopen⟩
  · rw [he]
  · have hdown := asks_teardown (d := d.assigned subscription isFresh) name hends
    rw [hopen]
    refine hdown.trans (asks_connectSource _ name hconnects (hoptions _ _ _ hconfig hsettle)
      fun c hc => ?_)
    have hle := (hdown.operations fun c => id).keepsClients.length_le
    exact hclient c (Nat.le_trans hle hc)

/-- The calls of a teardown, whatever they may be. -/
theorem calls_teardown (d : Deployment Store) (name : String) (source : Source Store) :
    Operations (fun _ => False) d.broker (d.teardown name source).2.broker :=
  (asks_teardown (σ := { closed := fun _ => True, client := fun _ => True }) name
    fun _ _ _ _ => ⟨trivial, trivial⟩).operations fun _ => id

theorem calls_connectSource (d : Deployment Store) (name : String) (config : Config)
    (subscription : String) :
    Operations (fun _ => False) d.broker (d.connectSource name config subscription).2.broker :=
  (asks_connectSource (σ := { connects := True, client := fun _ => True, options := fun _ => True })
    d name trivial trivial fun _ _ => trivial).operations fun _ => id

/-! ## Steps -/

/-- Steps that may connect a client. -/
def MayConnect : Step Store → Prop
  | .openSource .. | .connect .. => True
  | _ => False

/-- The consumer through which a step asks something of the broker. -/
def workedThrough? (d : Deployment Store) : Step Store → Option ℕ
  | .openSource name .. | .teardown name => d.consumerOf? (.source name)
  | .ask target .. | .start _ target _ => d.consumerOf? target
  | .poll name =>
      (d.tasks.find? name).bind fun task => (d.trackers[task.tracker]?).map (·.consumer)
  | .closeTracker name => d.consumerOf? (.tracker name)
  | .receive name | .acknowledge name _ | .closeConsumer name => d.consumers.find? name
  | _ => none

/-- The consumer that a step closes at the broker. -/
def closing? (d : Deployment Store) : Step Store → Option ℕ
  | .openSource name .. | .teardown name => d.consumerOf? (.source name)
  | .closeTracker name => d.consumerOf? (.tracker name)
  | .closeConsumer name => d.consumers.find? name
  | _ => none

theorem workedThrough?_of_closing? {s : Step Store} {c : ℕ} (h : d.closing? s = some c) :
    d.workedThrough? s = some c := by
  cases s with
  | openSource | teardown | closeTracker | closeConsumer => exact h
  | _ => cases h

/-- The bare consumer that gives up its name to a step. -/
def givenUp? (d : Deployment Store) : Step Store → Option ℕ
  | .drop .consumer name | .subscribe _ name _ => d.consumers.find? name
  | _ => none

/-- The clients that a step may close: the one that it names, that of the session that it ends, and
one that it has just connected. -/
def MayClose (d : Deployment Store) (s : Step Store) (client : ℕ) : Prop :=
  match s with
  | .closeClient name => d.clients.find? name = some client
  | .teardown name => (d.session? name).map (·.client) = some client
  | .openSource name .. => (d.session? name).map (·.client) = some client ∨
      d.broker.clients.length ≤ client
  | _ => False

/-- What a source that is opened asks the broker to attach a consumer with. -/
def wanted? (source : Source Store) (position : Option Bytes) (fresh : String) :
    Option SubscribeOptions :=
  source.config.bind fun config =>
    match settleName (ε := Memory.Failure) config position fresh with
    | .ok (subscription, _) => some (config.subscribeOptions subscription)
    | .error _ => none

/-- What a step asks the broker to attach a consumer with. -/
def sought? (d : Deployment Store) : Step Store → Option SubscribeOptions
  | .subscribe _ _ options => some options
  | .openSource name position fresh =>
      (d.sources.find? name).bind fun source => wanted? source position fresh
  | _ => none

/-- The scope of a step. -/
def scope (d : Deployment Store) (s : Step Store) : Scope where
  connects := MayConnect s
  consumer c := d.workedThrough? s = some c
  closed c := d.closing? s = some c
  dropped c := d.givenUp? s = some c
  client := d.MayClose s
  options options := d.sought? s = some options
  stimulus stimulus := s = .stimulate stimulus

/-- A bare consumer has this number. -/
def Bare (d : Deployment Store) (consumer : ℕ) : Prop :=
  ∃ name, d.consumers.find? name = some consumer

/-- A tracker that nothing refers to owns this consumer. -/
def Unheld (d : Deployment Store) (consumer : ℕ) : Prop :=
  ∃ n t, d.trackers[n]? = some t ∧ d.isHeld n = false ∧ t.consumer = consumer

theorem bare_of_givenUp {s : Step Store} {c : ℕ} (h : d.givenUp? s = some c) : d.Bare c := by
  cases s with
  | drop kind name =>
      cases kind with
      | consumer => exact ⟨name, h⟩
      | _ => cases h
  | subscribe client name options => exact ⟨name, h⟩
  | _ => cases h

theorem consumerOf?_eq_some {target : Target} {t : Tracker Store} (h : d.tracker? target = some t) :
    d.consumerOf? target = some t.consumer := by
  rw [consumerOf?, h, Option.map_some]

theorem consumerOf?_source {name : String} {session : Session Store} {t : Tracker Store}
    (hsession : d.session? name = some session) (ht : d.trackers[session.tracker]? = some t) :
    d.consumerOf? (.source name) = some t.consumer := by
  apply consumerOf?_eq_some
  apply tracker?_eq_some.mpr
  exact ⟨session.tracker, by rw [trackerNumber?, hsession, Option.map_some], ht⟩

theorem ends_scope {name : String} {source : Source Store} (hs : d.sources.find? name = some source)
    (hconsumer : ∀ c, d.consumerOf? (.source name) = some c → σ.closed c)
    (hclient : ∀ c, (d.session? name).map (·.client) = some c → σ.client c) :
    d.MayEnd source σ := by
  intro session t hsession ht
  have hfound : d.session? name = some session := by rw [session?, hs, Option.bind_some, hsession]
  constructor
  · exact hconsumer t.consumer (consumerOf?_source hfound ht)
  · apply hclient
    rw [hfound, Option.map_some]

theorem asks_dropConsumer {name : String}
    (h : ∀ c, d.consumers.find? name = some c → σ.dropped c) :
    AsksAll σ d.broker (d.drop name .consumer).2.broker := by
  unfold drop
  cases hc : d.consumers.find? name with
  | none => exact .refl
  | some c => exact (Asks.drop d.broker (h c hc)).once

theorem asks_subscribe (client : ℕ) {name : String} {options : SubscribeOptions}
    (hoptions : σ.options options)
    (hdropped : ∀ c, d.consumers.find? name = some c → σ.dropped c) :
    AsksAll σ d.broker (d.subscribe name client options).2.broker := by
  have hsubscribe : AsksAll σ d.broker (d.broker.subscribe client options).2 :=
    (Asks.subscribe d.broker client hoptions).once
  rw [subscribe_eq]
  cases (d.broker.subscribe client options).1 with
  | error cause => exact hsubscribe
  | ok consumer =>
      apply hsubscribe.trans
      exact asks_dropConsumer (d := { d with broker := (d.broker.subscribe client options).2 })
        hdropped

theorem calls_subscribe (d : Deployment Store) (client : ℕ) (name : String)
    (options : SubscribeOptions) :
    Operations d.Bare d.broker (d.subscribe name client options).2.broker :=
  (asks_subscribe (σ := { dropped := d.Bare, options := fun _ => True }) client trivial
    fun _ hc => ⟨name, hc⟩).operations fun _ => id

/-- Every step stays within its scope. -/
theorem Acts.asks (h : d.Acts s answer after) : AsksAll (d.scope s) d.broker after.broker := by
  cases h with
  | openSource name position fresh found after =>
      rw [← after]
      apply asks_openSource found (ends_scope found (fun _ h => h) fun _ h => Or.inl h) trivial
      · intro config subscription isFresh hconfig hsettle
        simp only [Deployment.scope, sought?, wanted?, found, hconfig, hsettle, Option.bind_some]
      · exact fun c hc => .inr hc
  | teardown name found after =>
      rw [← after]
      exact asks_teardown name (ends_scope found (fun _ h => h) fun _ h => h)
  | ask target request cancelled number found =>
      have ht := tracker?_eq_some.mpr ⟨_, number, found⟩
      exact (proceeds_start (d.work _) (consumerOf?_eq_some ht) cancelled request).asks
  | start name target request number found =>
      have ht := tracker?_eq_some.mpr ⟨_, number, found⟩
      exact (proceeds_start (d.work _) (consumerOf?_eq_some ht) false request).asks
  | poll name waits found =>
      apply asks_poll (d.work _)
      simp only [Deployment.scope, workedThrough?, waits, Option.bind_some, found, Option.map_some]
      rfl
  | closeTracker name found => exact (Asks.close d.broker (consumerOf?_eq_some found)).once
  | dropConsumer name found => exact (Asks.drop d.broker found).once
  | connect name options | refuse name options =>
      exact (Asks.connect d.broker options trivial).once
  | subscribe clientName name options found after =>
      rw [← after]
      exact asks_subscribe _ rfl fun c hc => hc
  | receive name found => exact d.broker.asks_receive found
  | acknowledge name id found => exact (Asks.acknowledge d.broker id found).once
  | closeClient name found => exact (Asks.closeClient d.broker found).once
  | closeConsumer name found => exact (Asks.close d.broker found).once
  | stimulate stimulus => exact (Asks.stimulate d.broker rfl).once
  | vain | create | configure | hold | cancel | dropSource | dropTracker | dropClient | dropTask
  | track => exact .refl

theorem calls_act (d : Deployment Store) (s : Step Store) :
    Operations d.Bare d.broker (d.act s).2.broker :=
  (d.acts s).asks.operations fun _ => bare_of_givenUp

theorem asks_dropUnheld (d : Deployment Store) :
    AsksAll { dropped := d.Unheld } d.broker d.dropUnheld.broker := by
  refine dropUnheld_preserves (P := fun b => AsksAll { dropped := d.Unheld } d.broker b)
    (fun b n t ht hheld h => ?_) .refl
  have hunheld : d.Unheld t.consumer := ⟨n, t, ht, hheld, rfl⟩
  exact h.trans (Asks.drop b hunheld).once

theorem calls_dropUnheld (d : Deployment Store) :
    Operations d.Unheld d.broker d.dropUnheld.broker :=
  d.asks_dropUnheld.operations fun _ => id

end TrackedDelivery.Deployment
