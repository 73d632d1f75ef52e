import TrackedDelivery.Proofs.Deployment.Requests
/-!
# Steps as moves

Every tracker-driven step of a deployment is a sequence of moves with the deeds that the step
tells, and so is every run with its history.
-/
namespace TrackedDelivery

/-- Failures that an open comes to before it touches anything. -/
def SourceError.Preliminary {ε : Type} : SourceError ε → Prop
  | .notConfigured | .malformedPosition _ | .subscriptionMismatch _ _ => True
  | _ => False

theorem settleName_preliminary {ε : Type} {config : Config} {position : Option Bytes}
    {fresh : String} {e : SourceError ε} (h : settleName config position fresh = .error e) :
    e.Preliminary := by
  unfold settleName at h
  repeat' split at h
  all_goals cases h
  all_goals trivial

end TrackedDelivery

namespace TrackedDelivery.Deployment

open Memory

/-- The broker and the trackers of a deployment. -/
def floor (d : Deployment Store) : Floor where
  broker := d.broker
  trackers := d.trackers

/-- Every tracker keeps its messages under the texts of their identifiers. -/
def AllKeyed (trackers : List (Tracker Store)) : Prop :=
  ∀ t ∈ trackers, Keyed t

variable {d after : Deployment Store}

theorem moves_quiet (htrackers : after.trackers = d.trackers)
    (htopics : after.broker.topics = d.broker.topics)
    (hconsumers : after.broker.consumers = d.broker.consumers) :
    Moves d.floor [] after.floor := by
  have hafter : after.floor = { d.floor with broker := after.broker } := by
    rw [floor, floor, htrackers]
  rw [hafter]
  exact .single (.quiet htopics hconsumers)

theorem moves_refl (h : after.floor = d.floor) : Moves d.floor [] after.floor := h ▸ .nil _

/-! ## Consumers that come and go -/

theorem came_of_eq (h : after.broker.consumers = d.broker.consumers) : d.came after = [] := by
  rw [came, h, List.getElem?_eq_none (Nat.le_refl _)]

theorem came_of_attach {options : SubscribeOptions} {closed : Bool}
    (h : after.broker.consumers[d.broker.consumers.length]? = some { options, closed }) :
    d.came after = [.attached d.broker.consumers.length options] := by
  rw [came, h]

/-- Whoever lets go of a consumer and changes nothing more makes the one move that is told. -/
theorem moves_went {consumer : ℕ} (htrackers : after.trackers = d.trackers)
    (htopics : after.broker.topics = (d.broker.release consumer).topics)
    (hconsumers : after.broker.consumers = (d.broker.release consumer).consumers) :
    Moves d.floor (after.went (some consumer)) after.floor := by
  have hnone : after.broker.attached? consumer = none := by
    rw [Store.attached?_congr hconsumers, Store.attached?_release, if_pos rfl]
  have hwent : after.went (some consumer) = [.released consumer] := by simp [went, hnone]
  have hquiet : Moves { d.floor with broker := d.broker.release consumer } [] after.floor := by
    have hafter : after.floor = { d.floor with broker := after.broker } := by
      rw [floor, floor, htrackers]
    rw [hafter]
    exact .single (.quiet htopics hconsumers)
  rw [hwent]
  exact .cons (.release consumer) hquiet

theorem moves_stay (consumer? : Option ℕ) : Moves d.floor (d.went consumer?) d.floor := by
  cases consumer? with
  | none => exact .nil _
  | some c =>
      cases ha : d.broker.attached? c with
      | none =>
          have hrelease := Store.release_of_closed ha
          exact moves_went rfl (by rw [hrelease]) (by rw [hrelease])
      | some options =>
          have hwent : d.went (some c) = [] := by simp [went, ha]
          rw [hwent]
          exact .nil _

/-! ## Requests -/

theorem floor_at {n : ℕ} {t : Tracker Store} (h : d.trackers[n]? = some t) :
    d.floor.At n { tracker := t, broker := d.broker, log := d.log } :=
  ⟨rfl, h⟩

theorem moves_ask (hk : AllKeyed d.trackers) (target : Target) (request : Request)
    (cancelled : Bool) :
    Moves d.floor (d.actDeeds (.ask target request cancelled))
      (d.act (.ask target request cancelled)).2.floor := by
  simp only [actDeeds, asked?, act, ask, tracker?]
  cases hn : d.trackerNumber? target with
  | none => exact .nil _
  | some n =>
      dsimp only [Option.map_some, Option.bind_some]
      cases ht : d.trackers[n]? with
      | none => exact .nil _
      | some t => exact (floor_at ht).moves_start (hk t (List.mem_of_getElem? ht)) cancelled request

theorem moves_start (hk : AllKeyed d.trackers) (task : String) (target : Target)
    (request : Request) :
    Moves d.floor (d.actDeeds (.start task target request))
      (d.act (.start task target request)).2.floor := by
  simp only [actDeeds, asked?, act, start, tracker?]
  cases hn : d.trackerNumber? target with
  | none => exact .nil _
  | some n =>
      dsimp only [Option.map_some, Option.bind_some]
      cases ht : d.trackers[n]? with
      | none => exact .nil _
      | some t => exact (floor_at ht).moves_start (hk t (List.mem_of_getElem? ht)) false request

theorem moves_poll (task : String) :
    Moves d.floor (d.actDeeds (.poll task)) (d.act (.poll task)).2.floor := by
  simp only [actDeeds, asked?, act, poll]
  cases d.tasks.find? task with
  | none => exact .nil _
  | some task =>
      dsimp only [Option.map_some]
      cases ht : d.trackers[task.tracker]? with
      | none => exact .nil _
      | some t => exact (floor_at ht).moves_poll task.cancelled task.call

/-! ## Sessions -/

theorem foldl_report (d : Deployment Store) (keys : List String) :
    keys.foldl (fun d key => d.report (.unknownKey key)) d =
      { d with log := d.log ++ keys.map .unknownKey } := by
  induction keys generalizing d with
  | nil => rw [List.foldl_nil, List.map_nil, List.append_nil]
  | cons key rest ih =>
      rw [List.foldl_cons, ih (d.report (.unknownKey key))]
      simp [report]

/-- How a source is configured. Bad pairs change nothing, and good ones its configuration. -/
theorem configure_cases (d : Deployment Store) (name : String) (source : Source Store)
    (pairs : TextMap String) :
    (∃ cause, Config.ofPairs pairs = .error cause ∧ d.configure name source pairs =
      (.error (.config cause), { d with log := d.log ++ [.configuring] })) ∨
    ∃ config, Config.ofPairs pairs = .ok config ∧ d.configure name source pairs =
      (.ok (), { d with
        sources := d.sources.insert name { source with config := some config }
        log := d.log ++ [.configuring] ++ (Config.unknownKeys pairs).map .unknownKey }) := by
  unfold configure
  cases Config.ofPairs pairs with
  | error cause => exact .inl ⟨cause, rfl, rfl⟩
  | ok config =>
      refine .inr ⟨config, rfl, ?_⟩
      dsimp only
      rw [foldl_report]
      rfl

theorem floor_configure (d : Deployment Store) (name : String) (source : Source Store)
    (pairs : TextMap String) : (d.configure name source pairs).2.floor = d.floor := by
  rcases d.configure_cases name source pairs with ⟨cause, -, h⟩ | ⟨config, -, h⟩
  · rw [h]
    rfl
  · rw [h]
    rfl

/-- A closed session has let go of its consumer. -/
theorem closeSession_spec (d : Deployment Store) (session : Session Store)
    (t : Tracker Store) :
    (d.closeSession session t).1 = true ∧
      (d.closeSession session t).2.trackers = d.trackers ∧
      (d.closeSession session t).2.broker.topics = (d.broker.release t.consumer).topics ∧
      (d.closeSession session t).2.broker.consumers =
        (d.broker.release t.consumer).consumers := by
  have h := Store.closeClient_quiet (d.broker.closeConsumer t.consumer) session.client
  exact ⟨rfl, rfl, h.1, h.2⟩

/-- A torn down source has let go of the consumer of its session, if it had one. -/
structure TearsDown (d : Deployment Store) (name : String) (d' : Deployment Store) : Prop where
  trackers : d'.trackers = d.trackers
  broker : match d.consumerOf? (.source name) with
    | none => d'.broker = d.broker
    | some c => d'.broker.topics = (d.broker.release c).topics ∧
        d'.broker.consumers = (d.broker.release c).consumers

theorem teardown_spec {name : String} {source : Source Store}
    (h : d.sources.find? name = some source) :
    (d.teardown name source).1 = true ∧ d.TearsDown name (d.teardown name source).2 := by
  unfold teardown
  cases hs : source.session with
  | none =>
      refine ⟨rfl, rfl, ?_⟩
      have hnone : d.consumerOf? (.source name) = none := by
        simp [consumerOf?, tracker?, trackerNumber?, session?, h, hs]
      rw [hnone]
  | some session =>
      dsimp only
      cases ht : d.trackers[session.tracker]? with
      | none =>
          refine ⟨rfl, rfl, ?_⟩
          have hnone : d.consumerOf? (.source name) = none := by
            simp [consumerOf?, tracker?, trackerNumber?, session?, h, hs, ht]
          rw [hnone]
      | some t =>
          have hsome : d.consumerOf? (.source name) = some t.consumer := by
            simp [consumerOf?, tracker?, trackerNumber?, session?, h, hs, ht]
          obtain ⟨hended, htrackers, hbroker⟩ := closeSession_spec
            { d with sources := d.sources.insert name { source with session := none } } session t
          refine ⟨hended, htrackers, ?_⟩
          rw [hsome]
          exact hbroker

theorem TearsDown.consumers_length {name : String} (h : d.TearsDown name after) :
    after.broker.consumers.length = d.broker.consumers.length := by
  have hb := h.broker
  split at hb
  · rw [hb]
  · rename_i c _
    rw [hb.2, Store.length_release]

theorem TearsDown.moves {name : String} (h : d.TearsDown name after) :
    Moves d.floor (after.went (d.consumerOf? (.source name))) after.floor := by
  have hb := h.broker
  split at hb
  · rename_i hnone
    rw [hnone]
    exact moves_quiet h.trackers (by rw [hb]) (by rw [hb])
  · rename_i c hsome
    rw [hsome]
    exact moves_went h.trackers hb.1 hb.2

/-- What it is for a deployment to connect a source: nothing came of it, or one more tracker has
a consumer of its own. -/
structure Connects (d d' : Deployment Store) : Prop where
  moves : Moves d.floor (d.came d') d'.floor
  attached? : ∀ c, c < d.broker.consumers.length →
    d'.broker.attached? c = d.broker.attached? c

theorem connects_quiet (htrackers : after.trackers = d.trackers)
    (htopics : after.broker.topics = d.broker.topics)
    (hconsumers : after.broker.consumers = d.broker.consumers) : d.Connects after where
  moves := by
    rw [came_of_eq hconsumers]
    exact moves_quiet htrackers htopics hconsumers
  attached? c _ := Store.attached?_congr hconsumers c

/-- The state in which a source subscribes, once it has a client. -/
def connected (d : Deployment Store) (config : Config) : Store :=
  (d.broker.connect config.client).2

/-- How a source connects. The broker refuses it; or it gets a client, which it closes again if it
is turned away, and with a consumer it has a session. -/
theorem connectSource_outcomes (d : Deployment Store) (name : String) (config : Config)
    (subscription : String) :
    (∃ cause, (d.connected config).clients = d.broker.clients ∧
      d.connectSource name config subscription =
        (some (.error (.connect cause)), { d with broker := d.connected config })) ∨
    (d.connected config).clients = d.broker.clients ++ [false] ∧
    ((∃ cause b, (d.connected config).TurnsAway (config.subscribeOptions subscription) b ∧
      (d.connected config).subscribe d.broker.clients.length
        (config.subscribeOptions subscription) = (.error cause, b) ∧
      d.connectSource name config subscription =
        (some (.error (.subscribe cause)),
          { d with broker := b.closeClient d.broker.clients.length })) ∨
    ∃ b, (d.connected config).Attaches (config.subscribeOptions subscription) b ∧
      (d.connected config).subscribe d.broker.clients.length
        (config.subscribeOptions subscription) = (.ok d.broker.consumers.length, b) ∧
      d.connectSource name config subscription = (some (.ok ()), { d with
        broker := b
        trackers := d.trackers ++ [{ consumer := d.broker.consumers.length, subscription }]
        sources := d.sources.insert name
          { config := some config, session := some ⟨d.broker.clients.length, d.trackers.length⟩ }
        log := d.log ++ [.opened config.topic subscription config.subscriptionType] })) := by
  have hreply : Broker.connect config.client d.broker =
      (Reply.done (d.broker.connect config.client).1, d.connected config) := rfl
  unfold connectSource
  rw [hreply]
  rcases d.broker.connect_cases config.client with
    ⟨cause, hcause, hclients⟩ | ⟨hclient, hclients⟩
  · rw [hcause]
    exact .inl ⟨cause, hclients, rfl⟩
  · rw [hclient]
    dsimp only
    have hreply' : ∀ client options, Broker.subscribe client options (d.connected config) =
        (Reply.done ((d.connected config).subscribe client options).1,
          ((d.connected config).subscribe client options).2) := fun _ _ => rfl
    have hconsumers : (d.connected config).consumers = d.broker.consumers :=
      (Store.connect_quiet d.broker config.client).2
    rw [hreply']
    refine .inr ⟨hclients, ?_⟩
    rcases (d.connected config).subscribe_cases d.broker.clients.length
      (config.subscribeOptions subscription) with ⟨cause, hcause, haway⟩ | ⟨hconsumer, hattach⟩
    · rw [hcause]
      exact .inl ⟨cause, _, haway, Prod.ext hcause rfl, rfl⟩
    · rw [hconsumers] at hconsumer
      rw [hconsumer]
      exact .inr ⟨_, hattach, Prod.ext hconsumer rfl, rfl⟩

/-- A source that connects is turned away, or it gets a consumer and a tracker of its own. -/
theorem connectSource_cases (d : Deployment Store) (name : String) (config : Config)
    (subscription : String) :
    (∃ e, (d.connectSource name config subscription).1 = some (.error e) ∧
      d.Connects (d.connectSource name config subscription).2) ∨
    ∃ client b, (d.connected config).Attaches (config.subscribeOptions subscription) b ∧
      d.connectSource name config subscription = (some (.ok ()), { d with
        broker := b
        trackers := d.trackers ++ [{ consumer := d.broker.consumers.length, subscription }]
        sources := d.sources.insert name
          { config := some config, session := some { client, tracker := d.trackers.length } }
        log := d.log ++ [.opened config.topic subscription config.subscriptionType] }) := by
  have hconnect := Store.connect_quiet d.broker config.client
  rcases d.connectSource_outcomes name config subscription with
    ⟨cause, -, heq⟩ | ⟨-, ⟨cause, b, haway, -, heq⟩ | ⟨b, hattach, -, heq⟩⟩
  · rw [heq]
    exact .inl ⟨_, rfl, connects_quiet rfl hconnect.1 hconnect.2⟩
  · rw [heq]
    have hclose := b.closeClient_quiet d.broker.clients.length
    have hconsumers := hclose.2.trans (haway.consumers.trans hconnect.2)
    refine .inl ⟨_, rfl, ?_, fun c _ => Store.attached?_congr hconsumers c⟩
    rw [came_of_eq hconsumers]
    refine .cons (.quiet hconnect.1 hconnect.2) (.cons (.turnAway haway) ?_)
    exact .single (.quiet hclose.1 hclose.2)
  · exact .inr ⟨_, b, hattach, heq⟩

/-- A connection attaches its consumer under the next number. -/
theorem attached_of_connected {config : Config} {options : SubscribeOptions} {b : Store}
    (h : (d.connected config).Attaches options b) :
    b.consumers[d.broker.consumers.length]? = some { options } ∧
      ∀ c, c < d.broker.consumers.length → b.attached? c = d.broker.attached? c := by
  have hconsumers : (d.connected config).consumers = d.broker.consumers :=
    (Store.connect_quiet d.broker config.client).2
  refine ⟨?_, fun c hc => ?_⟩
  · rw [h.consumers, hconsumers, List.getElem?_concat_length]
  · rw [h.attached?_after, hconsumers, if_neg (Nat.ne_of_lt hc), Store.attached?_congr hconsumers]

theorem connectSource_spec (d : Deployment Store) (name : String) (config : Config)
    (subscription : String) : d.Connects (d.connectSource name config subscription).2 := by
  rcases d.connectSource_cases name config subscription with
    ⟨_, -, hconnects⟩ | ⟨client, b, hattach, heq⟩
  · exact hconnects
  · rw [heq]
    obtain ⟨hnew, hold⟩ := attached_of_connected hattach
    have hconnect := Store.connect_quiet d.broker config.client
    have hconsumers : (d.connected config).consumers = d.broker.consumers := hconnect.2
    have hmove : Move { d.floor with broker := d.connected config } _ _ := .attach hattach
    rw [hconsumers] at hmove
    refine ⟨?_, hold⟩
    rw [came_of_attach hnew]
    exact .cons (.quiet hconnect.1 hconnect.2) (.cons hmove (.single (.track _ subscription)))

/-- A teardown and a connection after it tell first who went and then who came. -/
theorem Connects.after_tearsDown {d' : Deployment Store} {name : String}
    (hc : d'.Connects after) (ht : d.TearsDown name d') :
    Moves d.floor (after.went (d.consumerOf? (.source name)) ++ d.came after) after.floor := by
  have hlength := ht.consumers_length
  have hcame : d.came after = d'.came after := by rw [came, came, hlength]
  have hbroker := ht.broker
  rw [hcame]
  cases hconsumer : d.consumerOf? (.source name) with
  | none =>
      rw [hconsumer] at hbroker
      exact (moves_quiet ht.trackers (by rw [hbroker]) (by rw [hbroker])).trans hc.moves
  | some c =>
      rw [hconsumer] at hbroker
      have hgone : d'.broker.attached? c = none := by
        rw [Store.attached?_congr hbroker.2, Store.attached?_release, if_pos rfl]
      cases ha : after.broker.attached? c with
      | none =>
          have hwent : after.went (some c) = d'.went (some c) := by simp [went, ha, hgone]
          rw [hwent]
          exact (moves_went ht.trackers hbroker.1 hbroker.2).trans hc.moves
      | some options =>
          -- The number of the session's consumer was not in use before.
          have hnew : ¬ c < d'.broker.consumers.length := by
            intro hlt
            rw [hc.attached? c hlt, hgone] at ha
            cases ha
          have hnone : d.broker.attached? c = none := by
            rw [Store.attached?, List.getElem?_eq_none (by omega)]
          have hwent : after.went (some c) = [] := by simp [went, ha]
          dsimp only at hbroker
          rw [Store.release_of_closed hnone] at hbroker
          rw [hwent]
          exact (moves_quiet ht.trackers hbroker.1 hbroker.2).trans hc.moves

/-- A deployment in which a source knows the name of its subscription. A fresh one was reported and
counted. -/
def assigned (d : Deployment Store) (subscription : String) (isFresh : Bool) : Deployment Store :=
  { d with
    log := d.log ++ if isFresh then [.nameAssigned subscription] else []
    generated := d.generated + isFresh.toNat }

/-- A source whose name settles is torn down, and connects. -/
theorem openSource_of_settled {name : String} {source : Source Store} {config : Config}
    {position : Option Bytes} {fresh subscription : String} {isFresh : Bool}
    (h : d.sources.find? name = some source) (hconfig : source.config = some config)
    (hsettle : settleName (ε := Memory.Failure) config position fresh =
      .ok (subscription, isFresh)) :
    d.openSource name source position fresh =
      ((d.assigned subscription isFresh).teardown name source).2.connectSource name config
        subscription := by
  have hassigned : (if isFresh then
      { d.report (.nameAssigned subscription) with generated := d.generated + 1 }
    else d) = d.assigned subscription isFresh := by
    cases isFresh with
    | true => rfl
    | false => simp [assigned]
  have hended := (teardown_spec (d := d.assigned subscription isFresh) h).1
  unfold openSource
  rw [hconfig]
  dsimp only
  rw [hsettle]
  dsimp only
  rw [hassigned]
  rcases ht : (d.assigned subscription isFresh).teardown name source with ⟨ended, after⟩
  rw [ht] at hended
  cases hended
  rfl

/-- An open comes to nothing, or it is a teardown and a connection after it. -/
theorem openSource_cases {name : String} {source : Source Store}
    (h : d.sources.find? name = some source) (position : Option Bytes) (fresh : String) :
    (∃ e, e.Preliminary ∧ d.openSource name source position fresh = (some (.error e), d)) ∨
    ∃ (config : Config) (subscription : String) (isFresh : Bool),
      source.config = some config ∧
      settleName (ε := Memory.Failure) config position fresh = .ok (subscription, isFresh) ∧
      d.openSource name source position fresh =
        ((d.assigned subscription isFresh).teardown name source).2.connectSource name config
          subscription := by
  cases hconfig : source.config with
  | none =>
      refine .inl ⟨.notConfigured, trivial, ?_⟩
      rw [openSource, hconfig]
  | some config =>
      cases hsettle : settleName (ε := Memory.Failure) config position fresh with
      | error e =>
          refine .inl ⟨e, settleName_preliminary hsettle, ?_⟩
          simp only [openSource, hconfig, hsettle]
      | ok settled =>
          exact .inr ⟨config, settled.1, settled.2, rfl, hsettle,
            openSource_of_settled h hconfig hsettle⟩

theorem moves_openSource (name : String) (position : Option Bytes) (fresh : String) :
    Moves d.floor (d.actDeeds (.openSource name position fresh))
      (d.act (.openSource name position fresh)).2.floor := by
  have hstay : Moves d.floor (d.went (d.consumerOf? (.source name)) ++ d.came d) d.floor := by
    rw [came_of_eq rfl, List.append_nil]
    exact moves_stay _
  simp only [actDeeds, act]
  cases hs : d.sources.find? name with
  | none => exact hstay
  | some source =>
      dsimp only [Prod.map]
      rcases openSource_cases hs position fresh with
        ⟨e, -, he⟩ | ⟨config, subscription, isFresh, -, -, hopen⟩
      · rw [he]
        exact hstay
      · have hdown := (teardown_spec (d := d.assigned subscription isFresh) hs).2
        have hmoves := (connectSource_spec _ name config subscription).after_tearsDown hdown
        rw [hopen]
        exact hmoves

/-! ## Bare consumers -/

theorem moves_dropConsumer (d : Deployment Store) (name : String) :
    Moves d.floor ((d.drop name .consumer).2.went (d.consumers.find? name))
      (d.drop name .consumer).2.floor := by
  unfold drop
  cases d.consumers.find? name with
  | none => exact .nil _
  | some c => exact moves_went rfl rfl rfl

theorem getElem?_dropConsumer (name : String) {i : ℕ} {a : Attachment}
    (h : d.broker.consumers[i]? = some a) :
    ∃ closed, (d.drop name .consumer).2.broker.consumers[i]? =
      some { options := a.options, closed } := by
  unfold drop
  cases d.consumers.find? name with
  | none => exact ⟨a.closed, h⟩
  | some c => exact Store.getElem?_release h

/-- A consumer that is attached under a name tells who came, and then who had the name. -/
theorem moves_attach {b : Store} {options : SubscribeOptions}
    (hattach : d.broker.Attaches options b) (name : String)
    (h : after.floor = (({ d with broker := b } : Deployment Store).drop name .consumer).2.floor) :
    Moves d.floor (d.came after ++ after.went (d.consumers.find? name)) after.floor := by
  have hnew : b.consumers[d.broker.consumers.length]? = some { options := options } := by
    rw [hattach.consumers, List.getElem?_concat_length]
  obtain ⟨closed, hclosed⟩ := getElem?_dropConsumer (d := { d with broker := b }) name hnew
  have hbroker := congrArg Floor.broker h
  rw [floor, floor] at hbroker
  dsimp only at hbroker
  rw [← hbroker] at hclosed
  have hdrop := moves_dropConsumer { d with broker := b } name
  rw [← h] at hdrop
  simp only [went, ← hbroker] at hdrop
  rw [came_of_attach hclosed]
  exact .cons (.attach hattach) hdrop

theorem moves_subscribe (client name : String) (options : SubscribeOptions) :
    Moves d.floor (d.actDeeds (.subscribe client name options))
      (d.act (.subscribe client name options)).2.floor := by
  have hstay : Moves d.floor (d.came d ++ d.went (d.consumers.find? name)) d.floor := by
    rw [came_of_eq rfl]
    exact moves_stay _
  simp only [actDeeds, act]
  cases d.clients.find? client with
  | none => exact hstay
  | some client =>
      dsimp only [subscribe]
      have hreply : Broker.subscribe client options d.broker =
          (Reply.done (d.broker.subscribe client options).1,
            (d.broker.subscribe client options).2) := rfl
      rw [hreply]
      rcases d.broker.subscribe_cases client options with
        ⟨cause, hcause, haway⟩ | ⟨hconsumer, hattach⟩
      · rw [hcause]
        have hcame : d.came { d with broker := (d.broker.subscribe client options).2 } = [] :=
          came_of_eq haway.consumers
        have hstay' := moves_stay
          (d := { d with broker := (d.broker.subscribe client options).2 })
          (d.consumers.find? name)
        dsimp only
        rw [hcame]
        exact .cons (.turnAway haway) hstay'
      · rw [hconsumer]
        exact moves_attach hattach name rfl

theorem moves_receive (name : String) :
    Moves d.floor (d.actDeeds (.receive name)) (d.act (.receive name)).2.floor := by
  simp only [actDeeds, act]
  cases d.consumers.find? name with
  | none => exact .nil _
  | some c =>
      dsimp only [call]
      have hreply : Broker.receive c d.broker = d.broker.receive c := rfl
      rw [hreply]
      rcases ends_receive d.broker c with ⟨m, hm, hdone⟩ | ⟨hnot, htopics, hconsumers⟩
      · rw [hdone]
        exact .single (.receive hm)
      · have hquiet : Moves d.floor [] { d.floor with broker := (d.broker.receive c).2 } :=
          .single (.quiet htopics hconsumers)
        cases hr : (d.broker.receive c).1 with
        | waiting w => exact hquiet
        | done result =>
            cases result with
            | error e => exact hquiet
            | ok m => exact absurd hr (hnot m)

/-! ## All steps -/

theorem moves_stimulate (stimulus : Stimulus) :
    Moves d.floor [] { d.floor with broker := (d.broker.stimulate stimulus).2 } := by
  cases stimulus with
  | publish topic key payload eventTime now =>
      exact .single (.publish (Store.appends_publish d.broker topic key payload eventTime now))
  | failConnect reason => exact .single (.quiet rfl rfl)
  | failSubscribe reason => exact .single (.quiet rfl rfl)
  | failNextReceive reason => exact .single (.quiet rfl rfl)
  | failNextAcknowledge reason => exact .single (.quiet rfl rfl)

theorem moves_act (hk : AllKeyed d.trackers) {s : Step Store} (hs : s.TrackerDriven) :
    Moves d.floor (d.actDeeds s) (d.act s).2.floor := by
  cases s with
  | create source config => exact .nil _
  | configure name pairs =>
      simp only [actDeeds, act]
      cases d.sources.find? name with
      | none => exact .nil _
      | some source => exact moves_refl (floor_configure d name source pairs)
  | openSource name position fresh => exact moves_openSource name position fresh
  | teardown name =>
      simp only [actDeeds, act]
      cases hs : d.sources.find? name with
      | none => exact moves_stay _
      | some source => exact (teardown_spec hs).2.moves
  | hold name tracker =>
      simp only [actDeeds, act]
      cases d.trackerNumber? (.source name) <;> exact .nil _
  | ask target request cancelled => exact moves_ask hk target request cancelled
  | start task target request => exact moves_start hk task target request
  | poll task => exact moves_poll task
  | cancel name =>
      simp only [actDeeds, act]
      cases d.tasks.find? name <;> exact .nil _
  | closeTracker name =>
      simp only [actDeeds, act, consumerOf?]
      cases d.tracker? (.tracker name) with
      | none => exact .nil _
      | some t => exact moves_went rfl rfl rfl
  | drop kind name =>
      cases kind with
      | consumer => exact moves_dropConsumer d name
      | _ => exact .nil _
  | connect name options =>
      have hconnect := Store.connect_quiet d.broker options
      have hreply : Broker.connect options d.broker =
          (Reply.done (d.broker.connect options).1, (d.broker.connect options).2) := rfl
      simp only [actDeeds, act]
      rw [hreply]
      cases (d.broker.connect options).1 with
      | error cause => exact .single (.quiet hconnect.1 hconnect.2)
      | ok client => exact .single (.quiet hconnect.1 hconnect.2)
  | subscribe client name options => exact moves_subscribe client name options
  | receive name => exact moves_receive name
  | acknowledge name id => exact absurd hs (fun h => h)
  | closeClient name =>
      simp only [actDeeds, act]
      cases d.clients.find? name with
      | none => exact .nil _
      | some client =>
          have hclose := Store.closeClient_quiet d.broker client
          exact .single (.quiet hclose.1 hclose.2)
  | closeConsumer name =>
      simp only [actDeeds, act]
      cases d.consumers.find? name with
      | none => exact .nil _
      | some c => exact moves_went rfl rfl rfl
  | track name tracker subscription =>
      simp only [actDeeds, act]
      cases d.consumers.find? name with
      | none => exact .nil _
      | some c => exact .single (.track c subscription)
  | stimulate stimulus => exact moves_stimulate stimulus

/-- Drops the consumer of one tracker if nothing refers to the tracker. -/
def dropAt (d : Deployment Store) (b : Store) (n : ℕ) : Store :=
  match d.trackers[n]? with
  | some t => if d.isHeld n then b else b.release t.consumer
  | none => b

theorem dropUnheld_eq (d : Deployment Store) : d.dropUnheld =
    { d with broker := (List.range d.trackers.length).foldl d.dropAt d.broker } := by
  unfold dropUnheld
  dsimp only
  congr 2
  funext b n
  unfold dropAt
  cases d.trackers[n]? <;> rfl

/-- What the drop of the consumer of a tracker that nothing refers to keeps is kept when several are
dropped. -/
theorem foldl_dropAt_preserves {P : Store → Prop}
    (hP : ∀ (b : Store) (n : ℕ) (t : Tracker Store), d.trackers[n]? = some t →
      d.isHeld n = false → P b → P (b.release t.consumer))
    (numbers : List ℕ) {b : Store} (hb : P b) : P (numbers.foldl d.dropAt b) := by
  refine List.foldlRecOn numbers d.dropAt hb fun b hb n _ => ?_
  unfold dropAt
  cases ht : d.trackers[n]? with
  | none => exact hb
  | some t =>
      cases hheld : d.isHeld n with
      | true => exact hb
      | false => exact hP b n t ht hheld hb

theorem dropUnheld_preserves {P : Store → Prop}
    (hP : ∀ (b : Store) (n : ℕ) (t : Tracker Store), d.trackers[n]? = some t →
      d.isHeld n = false → P b → P (b.release t.consumer))
    (h : P d.broker) : P d.dropUnheld.broker := by
  rw [dropUnheld_eq]
  exact foldl_dropAt_preserves hP _ h

theorem moves_drop (d : Deployment Store) (numbers : List ℕ) {b : Store}
    (h : ∀ c, d.broker.attached? c = none → b.attached? c = none) :
    Moves { broker := b, trackers := d.trackers } (numbers.filterMap d.letGo?)
      { broker := numbers.foldl d.dropAt b, trackers := d.trackers } := by
  induction numbers generalizing b with
  | nil => exact .nil _
  | cons n rest ih =>
      rw [List.filterMap_cons, List.foldl_cons, letGo?, dropAt]
      cases ht : d.trackers[n]? with
      | none => exact ih h
      | some t =>
          dsimp only
          by_cases hheld : d.isHeld n
          · simp only [hheld, true_or, if_true]
            exact ih h
          · cases ha : d.broker.attached? t.consumer with
            | none =>
                simp only [hheld, Option.isNone_none, or_true, if_true,
                  Store.release_of_closed (h _ ha), ite_self]
                exact ih h
            | some options =>
                simp only [hheld, Option.isNone_some, or_self]
                refine .cons (.release t.consumer) (ih fun c hc => ?_)
                rw [Store.attached?_release, h c hc]
                split <;> rfl

theorem moves_dropUnheld (d : Deployment Store) :
    Moves d.floor d.dropDeeds d.dropUnheld.floor := by
  rw [dropUnheld_eq]
  exact moves_drop d (List.range d.trackers.length) fun _ h => h

/-- A tracker-driven step makes the moves whose deeds it tells. -/
theorem moves_step (hk : AllKeyed d.trackers) {s : Step Store} (hs : s.TrackerDriven) :
    Moves d.floor (d.deeds s) (d.step s).2.floor :=
  (moves_act (d := { d with log := [] }) hk hs).trans (moves_dropUnheld _)

/-- Moves keep the messages of every tracker under their texts. -/
theorem allKeyed_of_move {f g : Floor} {deeds : List Deed} (m : Move f deeds g)
    (h : AllKeyed f.trackers) : AllKeyed g.trackers := by
  cases m with
  | quiet | publish | turnAway | attach | release | receive => exact h
  | track consumer subscription =>
      intro t ht
      rcases List.mem_append.mp ht with ht | ht
      · exact h t ht
      · rw [List.mem_singleton.mp ht]
        intro key m hm
        cases hm
  | pull htracker =>
      intro t ht
      rcases List.mem_or_eq_of_mem_set ht with ht | rfl
      · exact h t ht
      · exact keyed_insertIfAbsent (h _ (List.mem_of_getElem? htracker)) _
  | confirm htracker | refuse htracker =>
      intro t ht
      rcases List.mem_or_eq_of_mem_set ht with ht | rfl
      · exact h t ht
      · exact keyed_erase (h _ (List.mem_of_getElem? htracker)) _

theorem allKeyed_of_moves {f g : Floor} {deeds : List Deed} (m : Moves f deeds g)
    (h : AllKeyed f.trackers) : AllKeyed g.trackers := by
  induction m with
  | nil => exact h
  | cons m _ ih => exact ih (allKeyed_of_move m h)

/-- A tracker-driven run makes the moves whose deeds are its history. -/
theorem moves_run (hk : AllKeyed d.trackers) {steps : List (Step Store)}
    (hs : ∀ s ∈ steps, s.TrackerDriven) :
    Moves d.floor (d.history steps) (d.run steps).2.floor := by
  induction steps generalizing d with
  | nil => exact .nil _
  | cons s rest ih =>
      have hstep := moves_step hk (hs s (List.mem_cons_self ..))
      exact hstep.trans (ih (allKeyed_of_moves hstep hk) fun s' hs' =>
        hs s' (List.mem_cons_of_mem _ hs'))

end TrackedDelivery.Deployment
