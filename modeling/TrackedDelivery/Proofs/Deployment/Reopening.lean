import TrackedDelivery.Proofs.Deployment.Exclusivity
import TrackedDelivery.Proofs.Deployment.FailedOpens
import TrackedDelivery.Proofs.Deployment.Resuming
/-!
# Opening a source anew

A source that is opened settles the name of its subscription first and is torn down afterwards, so
it makes no difference whether it had been torn down before. Either way its old consumer is gone
when the new one attaches, even if tasks still hold the old tracker, and a source that was alone at
its subscription cannot be turned away. It then reads again what it left unacknowledged.
-/
namespace TrackedDelivery.Memory.Store

variable {b : Store} {topic name : String}

/-! ## What the store is asked -/

/-- The failures that are arranged for are as they were. -/
structure SameFailures (b b' : Store) : Prop where
  connect : b'.failConnect = b.failConnect
  subscribe : b'.failSubscribe = b.failSubscribe
  receives : b'.failReceives = b.failReceives

theorem sameFailures_close (b : Store) (consumer client : ℕ) :
    b.SameFailures ((b.closeConsumer consumer).closeClient client) := by
  obtain ⟨_, _, hclient⟩ := (b.closeConsumer consumer).frame_closeClient client
  obtain ⟨_, _, hconsumer⟩ := b.frame_release consumer
  rw [hclient, closeConsumer, hconsumer]
  exact ⟨rfl, rfl, rfl⟩

/-- The messages at places of a log are known by these places. -/
theorem Sound.ids_of_places (hb : b.Sound) {messages : List (Message EntryId)} {entries : List ℕ}
    (h : messages.map some = entries.map ((b.log topic)[·]?)) :
    messages.map (·.id) = entries.map (b.idAt topic) := by
  induction entries generalizing messages with
  | nil =>
      rw [List.map_eq_nil_iff.mp h]
      rfl
  | cons e rest ih =>
      cases messages with
      | nil => cases h
      | cons m messages =>
          rw [List.map_cons, List.map_cons, List.cons.injEq] at h
          have hid : m.id = b.idAt topic e := ((hb.topicOrNew topic).message e m h.1.symm).1
          rw [List.map_cons, List.map_cons, hid, ih h.2]

end TrackedDelivery.Memory.Store

namespace TrackedDelivery.Deployment

open Memory

variable {d after : Deployment Store} {name subscription : String} {source : Source Store}
  {config : Config} {position : Option Bytes} {unused : String} {isFresh : Bool}

/-! ## Tearing down -/

/-- A teardown looks neither at what was reported nor at how many names were generated. -/
theorem teardown_relabeled (d : Deployment Store) (name : String) (source : Source Store)
    (events : List Event) (count : ℕ) : ∃ events',
      (teardown { d with log := events, generated := count } name source).2 =
        { (d.teardown name source).2 with log := events', generated := count } := by
  unfold teardown
  cases source.session with
  | none => exact ⟨events, rfl⟩
  | some session =>
      dsimp only
      cases d.trackers[session.tracker]? with
      | none => exact ⟨events, rfl⟩
      | some t => exact ⟨events ++ [.tornDown t.pending.size], rfl⟩

/-- A tracker stays held while the sessions that refer to it stay, and its other names. -/
theorem isHeld_of_sessions (hheld : after.held = d.held) (htasks : after.tasks = d.tasks) {n : ℕ}
    (hsessions : ∀ other session, d.session? other = some session → session.tracker = n →
      after.session? other = some session) (h : d.isHeld n = true) : after.isHeld n = true := by
  apply isHeld_iff.mpr
  rw [hheld, htasks]
  rcases isHeld_iff.mp h with ⟨other, session, hsession, htracker⟩ | hother
  · exact .inl ⟨other, session, hsessions other session hsession htracker, htracker⟩
  · exact .inr hother

/-- A teardown detaches the consumer of its source, and no other. -/
theorem TearsDown.attached? (h : d.TearsDown name after) (c : ℕ) : after.broker.attached? c =
    if d.consumerOf? (.source name) = some c then none else d.broker.attached? c := by
  have hbroker := h.broker
  split at hbroker
  · rename_i hnone
    rw [hbroker, hnone, if_neg nofun]
  · rename_i k hk
    rw [Store.attached?_congr hbroker.2, Store.attached?_release, hk]
    simp only [Option.some.injEq, eq_comm]

/-- A teardown changes nothing of a subscription but the count of its consumers. -/
theorem TearsDown.subscriptionOrNew (h : d.TearsDown name after) (hb : d.broker.Sound)
    (t n : String) :
    after.broker.subscriptionOrNew t n =
      { d.broker.subscriptionOrNew t n with
        activeConsumers := (after.broker.subscriptionOrNew t n).activeConsumers } := by
  have hbroker := h.broker
  split at hbroker
  · rw [hbroker]
  · rename_i c _
    rw [Store.subscriptionOrNew_congr hbroker.1, ← Store.subscription_release hb]

theorem sameFailures_teardown (d : Deployment Store) (name : String) (source : Source Store) :
    d.broker.SameFailures (d.teardown name source).2.broker := by
  cases hsession : source.session with
  | none =>
      unfold teardown
      rw [hsession]
      exact ⟨rfl, rfl, rfl⟩
  | some session =>
      cases ht : d.trackers[session.tracker]? with
      | none =>
          unfold teardown
          rw [hsession]
          dsimp only
          rw [ht]
          exact ⟨rfl, rfl, rfl⟩
      | some t =>
          rw [broker_teardown hsession ht]
          exact d.broker.sameFailures_close t.consumer session.client

/-- The tracker of a session that is torn down has lost its consumer, so nothing is left to be
dropped. -/
theorem Tidy.teardown (h : d.Tidy) (hs : d.sources.find? name = some source) :
    (d.teardown name source).2.Tidy := by
  intro n t ht hn
  obtain ⟨-, hdown⟩ := teardown_spec hs
  rw [hdown.trackers] at ht
  obtain ⟨_, _, _, hframe⟩ := d.frame_teardown name source
  have hheld : (d.teardown name source).2.held = d.held := by rw [hframe]
  have htasks : (d.teardown name source).2.tasks = d.tasks := by rw [hframe]
  by_cases hsession : (d.session? name).map (·.tracker) = some n
  · have hown : d.consumerOf? (.source name) = some t.consumer := by
      simp [consumerOf?, tracker?, trackerNumber?, hsession, ht]
    exact (hdown.attached? t.consumer).trans (if_pos hown)
  · suffices hbefore : d.broker.attached? t.consumer = none by
      rw [hdown.attached?, hbefore, ite_self]
    apply h n t ht
    rw [Bool.eq_false_iff] at hn ⊢
    refine fun hbefore => hn (isHeld_of_sessions hheld htasks ?_ hbefore)
    rintro other session hother rfl
    have hne : other ≠ name := by
      rintro rfl
      exact hsession (by rw [hother, Option.map_some])
    rw [session?_teardown hs, if_neg hne, hother]

/-- A torn down source is torn down once more. -/
theorem step_teardown (h : d.Tidy) (hs : d.sources.find? name = some source) :
    d.step (.teardown name) = (.done, (teardown { d with log := [] } name source).2) := by
  have hended := (teardown_spec (d := { d with log := [] }) hs).1
  have htidy : (teardown { d with log := [] } name source).2.Tidy :=
    Tidy.teardown (d := { d with log := [] }) h hs
  simp only [step, act, hs, Prod.map, id]
  rw [hended, htidy.dropUnheld]
  rfl

/-! ## Opening -/

/-- A source connects whatever was reported before. -/
theorem connectSource_relabeled (d : Deployment Store) (name : String) (config : Config)
    (subscription : String) (events : List Event) : ∃ events',
      connectSource { d with log := events } name config subscription =
        ((d.connectSource name config subscription).1,
          { (d.connectSource name config subscription).2 with log := events' }) := by
  have hconnect : Broker.connect config.client d.broker =
      (Reply.done (d.broker.connect config.client).1, d.connected config) := rfl
  have hsubscribe : ∀ client options, Broker.subscribe client options (d.connected config) =
      (Reply.done ((d.connected config).subscribe client options).1,
        ((d.connected config).subscribe client options).2) := fun _ _ => rfl
  unfold connectSource
  rw [hconnect]
  cases (d.broker.connect config.client).1 with
  | error cause => exact ⟨events, rfl⟩
  | ok client =>
      dsimp only
      rw [hsubscribe]
      cases ((d.connected config).subscribe client (config.subscribeOptions subscription)).1 with
      | error cause => exact ⟨events, rfl⟩
      | ok consumer =>
          exact ⟨events ++ [.opened config.topic subscription config.subscriptionType], rfl⟩

/-- The state in which a source connects that was opened: it is torn down, and a fresh name is
counted. -/
def vacated (d : Deployment Store) (name : String) (source : Source Store) (isFresh : Bool) :
    Deployment Store :=
  { (d.teardown name source).2 with generated := d.generated + isFresh.toNat }

/-- A source whose name settles is torn down and connects, whatever is reported. -/
theorem openSource_eq (hs : d.sources.find? name = some source)
    (hconfig : source.config = some config)
    (hsettle : settleName (ε := Memory.Failure) config position unused =
      .ok (subscription, isFresh)) :
    ∃ events, d.openSource name source position unused =
      (((d.vacated name source isFresh).connectSource name config subscription).1,
        { ((d.vacated name source isFresh).connectSource name config subscription).2 with
          log := events }) := by
  obtain ⟨events, hdown⟩ := d.teardown_relabeled name source
    (d.assigned subscription isFresh).log (d.generated + isFresh.toNat)
  obtain ⟨events', hconnect⟩ :=
    (d.vacated name source isFresh).connectSource_relabeled name config subscription events
  have hvacated : ((d.assigned subscription isFresh).teardown name source).2 =
      { d.vacated name source isFresh with log := events } := hdown
  refine ⟨events', ?_⟩
  rw [openSource_of_settled hs hconfig hsettle, hvacated]
  exact hconnect

/-- A source that was torn down is opened as if it had not been. -/
theorem openSource_torn_down (hs : d.sources.find? name = some source)
    (hconfig : source.config = some config)
    (hsettle : settleName (ε := Memory.Failure) config position unused =
      .ok (subscription, isFresh)) (events : List Event) :
    ∃ events', openSource { (d.teardown name source).2 with log := events } name
        { source with session := none } position unused =
      (((d.vacated name source isFresh).connectSource name config subscription).1,
        { ((d.vacated name source isFresh).connectSource name config subscription).2 with
          log := events' }) := by
  obtain ⟨_, _, _, hframe⟩ := d.frame_teardown name source
  have hgenerated : (d.teardown name source).2.generated = d.generated := by rw [hframe]
  have hfound : (d.teardown name source).2.sources.find? name =
      some { source with session := none } := by
    rw [find?_teardown hs, if_pos rfl]
  have hvacated : vacated { (d.teardown name source).2 with log := events } name
      { source with session := none } isFresh =
        { d.vacated name source isFresh with log := events } := by
    rw [vacated, vacated, ← hgenerated]
    rfl
  obtain ⟨events', hconnect⟩ :=
    (d.vacated name source isFresh).connectSource_relabeled name config subscription events
  obtain ⟨events'', hopen⟩ := openSource_eq
    (d := { (d.teardown name source).2 with log := events }) hfound hconfig hsettle
  rw [hvacated, hconnect] at hopen
  exact ⟨events'', hopen⟩

theorem step_openSource (hs : d.sources.find? name = some source) (position : Option Bytes)
    (unused : String) : d.step (.openSource name position unused) =
      (.ofSession (openSource { d with log := [] } name source position unused).1,
        (openSource { d with log := [] } name source position unused).2.dropUnheld) := by
  simp only [step, act, hs]
  rfl

/-- The step that opens a source answers as it would had the source been torn down before, and
leaves the same deployment. -/
theorem step_openSource_eq (h : d.Tidy) (hs : d.sources.find? name = some source)
    (hconfig : source.config = some config)
    (hsettle : settleName (ε := Memory.Failure) config position unused =
      .ok (subscription, isFresh)) :
    ∃ events, d.step (.openSource name position unused) =
      (((d.step (.teardown name)).2.step (.openSource name position unused)).1,
        { ((d.step (.teardown name)).2.step (.openSource name position unused)).2 with
          log := events }) := by
  obtain ⟨events, hdirect⟩ := openSource_eq (d := { d with log := [] }) hs hconfig hsettle
  obtain ⟨events', hafter⟩ :=
    openSource_torn_down (d := { d with log := [] }) hs hconfig hsettle []
  have hfound : (teardown { d with log := [] } name source).2.sources.find? name =
      some { source with session := none } := by
    rw [find?_teardown (d := { d with log := [] }) hs, if_pos rfl]
  refine ⟨events, ?_⟩
  rw [step_teardown h hs, step_openSource hs, step_openSource hfound, hdirect, hafter]
  rfl

/-! ## Connecting where nobody is attached -/

/-- What a deployment is after a source has got a consumer. -/
def seated (d : Deployment Store) (name : String) (config : Config) (subscription : String)
    (b : Store) (events : List Event) : Deployment Store :=
  { d with
    broker := b
    trackers := d.trackers ++ [{ consumer := d.broker.consumers.length, subscription }]
    sources := d.sources.insert name
      { config := some config, session := some ⟨d.broker.clients.length, d.trackers.length⟩ }
    log := events }

theorem session?_seated (d : Deployment Store) (name : String) (config : Config)
    (subscription : String) (b : Store) (events : List Event) (other : String) :
    (d.seated name config subscription b events).session? other =
      if other = name then some ⟨d.broker.clients.length, d.trackers.length⟩
      else d.session? other := by
  have hsources : (d.seated name config subscription b events).sources = d.sources.insert name _ :=
    rfl
  exact session?_insert _ hsources other

/-- A source without a session that gets a consumer leaves nothing to be dropped. -/
theorem tidy_seated {b : Store} (h : d.Regular) (hd : d.Tidy) (hclosed : d.session? name = none)
    (hattach : (d.connected config).Attaches (config.subscribeOptions subscription) b)
    (events : List Event) : (d.seated name config subscription b events).Tidy := by
  intro n t ht hn
  rw [Bool.eq_false_iff] at hn
  rcases Nat.lt_or_ge n d.trackers.length with hlt | hge
  · simp only [seated, List.getElem?_append_left hlt] at ht
    have hknown : t.consumerNumber < d.broker.consumers.length :=
      h.consumers_lt t (List.mem_of_getElem? ht)
    refine ((attached_of_connected hattach).2 _ hknown).trans (hd n t ht ?_)
    rw [Bool.eq_false_iff]
    have hheld : (d.seated name config subscription b events).held = d.held := rfl
    refine fun hbefore => hn (isHeld_of_sessions hheld rfl ?_ hbefore)
    intro other session hother _
    have hne : other ≠ name := by
      rintro rfl
      cases hclosed.symm.trans hother
    rw [session?_seated, if_neg hne, hother]
  · obtain rfl : n = d.trackers.length := by
      have hlength := (List.getElem?_eq_some_iff.mp ht).1
      simp only [seated, List.length_append, List.length_singleton] at hlength
      omega
    have hsession := d.session?_seated name config subscription b events name
    rw [if_pos rfl] at hsession
    exact absurd (isHeld_of_session hsession) hn

/-- Where nobody is attached and no failure is arranged for, a source gets its consumer. -/
theorem connectSource_of_deserted (hb : d.broker.Sound) (name : String)
    (hconnect : d.broker.failConnect = none) (hsubscribe : d.broker.failSubscribe = none)
    (hdeserted : ∀ c, ¬ d.broker.Serves config.topic subscription c) :
    ∃ b events, (d.connected config).Attaches (config.subscribeOptions subscription) b ∧
      b.failReceives = d.broker.failReceives ∧ d.connectSource name config subscription =
        (some (.ok ()), d.seated name config subscription b events) := by
  have htopics : (d.connected config).topics = d.broker.topics :=
    (d.broker.connect_quiet config.client).1
  have hclients : (d.connected config).clients = d.broker.clients ++ [false] := by
    simp only [connected, Store.connect, hconnect]
  have hwilling : (d.connected config).failSubscribe = none := by
    simp only [connected, Store.connect, hconnect, hsubscribe]
  have hzero : ((d.connected config).subscriptionOrNew config.topic
      subscription).activeConsumers = 0 := by
    rw [Store.subscriptionOrNew_congr htopics]
    exact hb.activeConsumers_eq_zero hdeserted
  rcases d.connectSource_outcomes name config subscription with
    ⟨_, hsame, -⟩ | ⟨-, ⟨cause, b, -, hrefused, -⟩ | ⟨b, hattach, hok, heq⟩⟩
  · rw [hclients] at hsame
    simp at hsame
  · have hanswer := (d.connected config).subscribe_fst d.broker.clients.length
      (config.subscribeOptions subscription)
    rw [hrefused, hwilling, hclients] at hanswer
    simp [Config.subscribeOptions, hzero] at hanswer
  · have hsilent := ((d.connected config).silent_subscribe d.broker.clients.length
      (config.subscribeOptions subscription)).failReceives
    rw [hok] at hsilent
    exact ⟨b, _, hattach,
      hsilent.trans (d.broker.silent_connect config.client).failReceives, heq⟩

/-! ## Reading -/

/-- What an answer says that hands out a message under the name of a subscription. -/
def handedOut (subscription : String) (m : Message EntryId) : Answer Store :=
  .outcome (.read (.record
    (Record.ofMessage m (Position.forMessage subscription m.id).encode)))

/-- A source can be read: its consumer is attached, and no failure of a receive is arranged for. -/
structure Readable (d : Deployment Store) (name subscription : String)
    (options : SubscribeOptions) : Prop where
  sound : d.broker.Sound
  tidy : d.Tidy
  willing : d.broker.failReceives = []
  tracker : ∃ n t, d.trackerNumber? (.source name) = some n ∧ d.trackers[n]? = some t ∧
    t.subscription = subscription ∧ d.broker.attached? t.consumer = some options

theorem Readable.relabeled {options : SubscribeOptions} (h : d.Readable name subscription options)
    (events : List Event) : Readable { d with log := events } name subscription options :=
  ⟨h.sound, h.tidy, h.willing, h.tracker⟩

/-- A read of a source that can be read hands out the first of the entries that remain. -/
theorem Readable.read {options : SubscribeOptions} (h : d.Readable name subscription options)
    {e : ℕ} {rest : List ℕ}
    (hrest : d.broker.remaining options.topic options.subscription = e :: rest) :
    ∃ m after, d.step (.ask (.source name) .read false) = (handedOut subscription m, after) ∧
      (d.broker.log options.topic)[e]? = some m ∧ after.Readable name subscription options ∧
      after.broker.log options.topic = d.broker.log options.topic ∧
      after.broker.remaining options.topic options.subscription = rest := by
  obtain ⟨n, t, hn, ht, rfl, ha⟩ := h.tracker
  obtain ⟨m, b, hr⟩ := Store.tryReceive_of_remaining_cons h.sound ha h.willing hrest
  obtain ⟨options', s, hfirst⟩ := Store.handsOutFirst_of_tryReceive h.sound hr
  obtain rfl : options' = options := Option.some.inj (hfirst.handsOut.attached.symm.trans ha)
  have hleft := hfirst.remaining
  rw [hrest, List.cons.injEq] at hleft
  obtain ⟨rfl, rfl⟩ := hleft
  obtain ⟨w, hpull, rfl, htracker⟩ := pull_of_tryReceive (work { d with log := [] } t) false hr
  have hask : act { d with log := [] } (.ask (.source name) .read false) =
      (handedOut t.subscription m, worked { d with log := [] } n w) := by
    have hn' : trackerNumber? { d with log := [] } (.source name) = some n := hn
    change ask { d with log := [] } (.source name) .read false = _
    rw [ask_eq hn' ht, start_read_eq, hpull]
    rfl
  have hkept := holds_act (d := { d with log := [] }) h.sound (.ask (.source name) false)
  have htidy := Tidy.of_holds (d := { d with log := [] }) h.tidy hkept
  rw [hask] at hkept htidy
  refine ⟨m, worked { d with log := [] } n w, ?_, hfirst.place, ?_, ?_, rfl⟩
  · rw [step, hask]
    dsimp only
    rw [htidy.dropUnheld]
  · refine ⟨hfirst.handsOut.sound_after h.sound, htidy, ?_, n, w.tracker, hn, ?_, ?_, ?_⟩
    · exact (congrArg Store.failReceives hfirst.handsOut.after).trans h.willing
    · exact List.getElem?_set_self (List.getElem?_eq_some_iff.mp ht).1
    · rw [htracker]
      rfl
    · rw [htracker]
      exact (Store.attached?_congr hfirst.handsOut.consumers _).trans ha
  · change w.broker.log _ = _
    rw [hfirst.handsOut.after, Store.log_put]

/-- Reads of a source that can be read, one after another, hand out what remains in order. -/
theorem Readable.reads {options : SubscribeOptions} (h : d.Readable name subscription options) :
    ∃ messages : List (Message EntryId),
      messages.map some = (d.broker.remaining options.topic options.subscription).map
        ((d.broker.log options.topic)[·]?) ∧
      (d.run (List.replicate (d.broker.remaining options.topic options.subscription).length
        (.ask (.source name) .read false))).1 = messages.map (handedOut subscription) := by
  generalize hentries : d.broker.remaining options.topic options.subscription = entries
  induction entries generalizing d with
  | nil => exact ⟨[], rfl, rfl⟩
  | cons e rest ih =>
      obtain ⟨m, after, hstep, hplace, hafter, hlog, hrest⟩ := h.read hentries
      obtain ⟨messages, hmessages, hrun⟩ := ih hafter hrest
      refine ⟨m :: messages, ?_, ?_⟩
      · rw [List.map_cons, List.map_cons, hplace, hmessages, hlog]
      · rw [List.length_cons, List.replicate_succ, run, hstep]
        dsimp only
        rw [hrun, List.map_cons]

/-! ## Opening where nobody is attached -/

/-- A source without a session that is opened where nobody is attached gets its consumer, and can
be read unless a failure of a receive is arranged for. -/
theorem opened_of_deserted (h : d.Regular) (hd : d.Tidy)
    (hs : d.sources.find? name = some source) (hclosed : source.session = none)
    (hconfig : source.config = some config)
    (hsettle : settleName (ε := Memory.Failure) config position unused =
      .ok (subscription, isFresh))
    (hconnect : d.broker.failConnect = none) (hsubscribe : d.broker.failSubscribe = none)
    (hdeserted : ∀ c, ¬ d.broker.Serves config.topic subscription c) :
    ∃ after, d.step (.openSource name position unused) = (.done, after) ∧
      (d.connected config).Attaches (config.subscribeOptions subscription) after.broker ∧
      (d.broker.failReceives = [] →
        after.Readable name subscription (config.subscribeOptions subscription)) := by
  let ready : Deployment Store := { d with log := [], generated := d.generated + isFresh.toNat }
  have hready : ready.Regular :=
    ⟨h.sound, h.allKeyed, ⟨h.owned.nodup, h.owned.known⟩, h.watchful⟩
  have hnone : ready.session? name = none := by
    change d.session? name = none
    rw [session?, hs]
    exact hclosed
  have hvacated : vacated { d with log := [] } name source isFresh = ready := by
    rw [vacated, teardown, hclosed]
  obtain ⟨events, hopen⟩ := openSource_eq (d := { d with log := [] }) hs hconfig hsettle
  obtain ⟨b, events', hattach, hsilent, hseated⟩ :=
    connectSource_of_deserted (d := ready) h.sound name hconnect hsubscribe hdeserted
  have htidy : (ready.seated name config subscription b events).Tidy :=
    tidy_seated hready hd hnone hattach events
  have hattached := (attached_of_connected hattach).1
  rw [hvacated, hseated] at hopen
  refine ⟨ready.seated name config subscription b events, ?_, hattach, fun hwilling => ?_⟩
  · rw [step_openSource hs, hopen]
    exact congrArg _ htidy.dropUnheld
  · refine ⟨hattach.sound_after ?_, htidy, hsilent.trans hwilling, d.trackers.length, _, ?_,
      List.getElem?_concat_length, rfl, Store.attached?_eq_some.mpr hattached⟩
    · have hquiet := d.broker.connect_quiet config.client
      exact h.sound.of_eq hquiet.1 hquiet.2
    · rw [trackerNumber?, session?_seated, if_pos rfl]
      rfl

/-- Where nobody is attached but the source itself, nobody is after it is torn down. -/
theorem TearsDown.deserted (h : d.TearsDown name after)
    (halone : ∀ c, d.broker.Serves config.topic subscription c →
      d.consumerOf? (.source name) = some c) (c : ℕ) :
    ¬ after.broker.Serves config.topic subscription c := by
  rintro ⟨options, ha, hwhere⟩
  rw [h.attached?] at ha
  split at ha
  · cases ha
  · rename_i hother
    exact hother (halone c ⟨options, ha, hwhere⟩)

/-- A consumer that is attached after a teardown has what was unacknowledged to read, and then
what was not read yet. -/
theorem TearsDown.remaining_attached {b : Store} (h : d.TearsDown name after)
    (hd : d.broker.Sound) (hafter : after.broker.Sound)
    (hlog : after.broker.log config.topic = d.broker.log config.topic)
    (hdeserted : ∀ c, ¬ after.broker.Serves config.topic subscription c)
    (hattach : (after.connected config).Attaches (config.subscribeOptions subscription) b) :
    let s := d.broker.subscriptionOrNew config.topic subscription
    let log := d.broker.log config.topic
    b.log config.topic = log ∧ b.remaining config.topic subscription =
      s.unacked ++ List.range' s.cursor (log.length - s.cursor) := by
  have htopics : (after.connected config).topics = after.broker.topics :=
    (after.broker.connect_quiet config.client).1
  have hconnected : (after.connected config).subscriptionOrNew config.topic subscription =
      after.broker.subscriptionOrNew config.topic subscription :=
    Store.subscriptionOrNew_congr htopics _ _
  have hlogConnected : (after.connected config).log config.topic = d.broker.log config.topic :=
    (Store.log_congr htopics _).trans hlog
  have hzero : ((after.connected config).subscriptionOrNew config.topic
      subscription).activeConsumers = 0 := by
    rw [hconnected]
    exact hafter.activeConsumers_eq_zero hdeserted
  have hremaining := hattach.remaining hzero
  dsimp only [Config.subscribeOptions] at hremaining
  refine ⟨?_, ?_⟩
  · rw [← hlogConnected, Store.log_congr hattach.topics]
    exact Store.log_put ..
  · rw [hremaining, hconnected, hlogConnected, h.subscriptionOrNew hd]

end TrackedDelivery.Deployment

namespace TrackedDelivery.Memory

/-- A source of any run whose name settles is opened as if it had been torn down before: the answer
is the same, and so is the deployment but for the events of the step. To tear a source down twice
does no more than to do it once. Where nobody is attached but the source itself, and without
arranged failures, a source is opened indeed; and whatever it was opened with before, the first
reads hand out what was unacknowledged, in ascending order, and the next ones the rest of the
log. -/
theorem reopened_as_if_torn_down {steps : List (Step Store)} {name : String}
    {source : Source Store}
    (hs : (Deployment.fresh.run steps).2.sources.find? name = some source) :
    let d := (Deployment.fresh.run steps).2
    let down := (d.step (.teardown name)).2
    (d.step (.teardown name)).1 = .done ∧
    down.step (.teardown name) = (.done, { down with log := [] }) ∧
    ∀ (config : Config) (position : Option Bytes) (unused subscription : String) (isFresh : Bool),
      source.config = some config →
      settleName (ε := Memory.Failure) config position unused = .ok (subscription, isFresh) →
      let direct := d.step (.openSource name position unused)
      let reopened := down.step (.openSource name position unused)
      direct.1 = reopened.1 ∧ direct.2 = { reopened.2 with log := direct.2.log } ∧
      (d.broker.failConnect = none → d.broker.failSubscribe = none →
        (∀ c, d.broker.Serves config.topic subscription c →
          d.consumerOf? (.source name) = some c) →
        direct.1 = .done ∧
        (d.broker.failReceives = [] →
          let s := d.broker.subscriptionOrNew config.topic subscription
          let log := d.broker.log config.topic
          let entries := s.unacked ++ List.range' s.cursor (log.length - s.cursor)
          entries.Pairwise (· < ·) ∧
          ∃ messages : List (Message EntryId), messages.map some = entries.map (log[·]?) ∧
            (messages.take s.unacked.length).map (·.id) =
              d.broker.unacknowledged config.topic subscription ∧
            (direct.2.run (List.replicate entries.length (.ask (.source name) .read false))).1 =
              messages.map (Deployment.handedOut subscription))) := by
  intro d down
  have hregular : d.Regular := .run .initial steps
  have htidy : d.Tidy := Deployment.tidy_run Deployment.tidy_fresh
  have hstep := Deployment.step_teardown htidy hs
  have hdown : down = (Deployment.teardown { d with log := [] } name source).2 :=
    congrArg Prod.snd hstep
  have hfound : down.sources.find? name = some { source with session := none } := by
    rw [hdown, Deployment.find?_teardown (d := { d with log := [] }) hs, if_pos rfl]
  have htidy' : down.Tidy := Deployment.tidy_dropUnheld _
  refine ⟨congrArg Prod.fst hstep, Deployment.step_teardown htidy' hfound, ?_⟩
  intro config position unused subscription isFresh hconfig hsettle direct reopened
  obtain ⟨events, hdirect⟩ := Deployment.step_openSource_eq htidy hs hconfig hsettle
  change direct = (reopened.1, { reopened.2 with log := events }) at hdirect
  rw [hdirect]
  refine ⟨rfl, rfl, fun hconnect hsubscribe halone => ?_⟩
  obtain ⟨-, htears⟩ := Deployment.teardown_spec (d := { d with log := [] }) hs
  have hsame := Deployment.sameFailures_teardown { d with log := [] } name source
  rw [← hdown] at htears hsame
  have hdeserted := htears.deserted halone
  have hregular' : down.Regular := hregular.step (.teardown name)
  obtain ⟨after, hopened, hattach, hreadable⟩ := Deployment.opened_of_deserted hregular' htidy'
    hfound rfl hconfig hsettle (hsame.connect.trans hconnect) (hsame.subscribe.trans hsubscribe)
    hdeserted
  rw [show reopened = (.done, after) from hopened]
  refine ⟨rfl, fun hwilling => ?_⟩
  intro s log entries
  have hreadable := (hreadable (hsame.receives.trans hwilling)).relabeled events
  have hintact := (Deployment.unwound_teardown (d := { d with log := [] }) hs).intact
  rw [← hdown] at hintact
  obtain ⟨hlog, hremaining⟩ := htears.remaining_attached hregular.sound hregular'.sound
    (hintact.log config.topic) hdeserted hattach
  have hascending := hreadable.sound.remaining_ascending config.topic subscription
  obtain ⟨messages, hmessages, hreads⟩ := hreadable.reads
  dsimp only [Config.subscribeOptions] at hmessages hreads
  rw [hremaining, hlog] at hmessages
  rw [hremaining] at hascending hreads
  refine ⟨hascending, messages, hmessages, ?_, ?_⟩
  · have hfirst := congrArg (List.take s.unacked.length) hmessages
    rw [← List.map_take, ← List.map_take, List.take_left] at hfirst
    rw [Store.unacknowledged_eq]
    exact hregular.sound.ids_of_places hfirst
  · exact hreads

/-- An exclusive source has read three messages and acknowledged the second. A task that waits for
a fourth message still holds its tracker when the message comes. -/
def busyRun : List (Step Store) :=
  [.create "a" (some exclusiveConfig), .openSource "a" none "",
    .stimulate (Stimulus.publish "t" [] [1] none 0),
    .stimulate (Stimulus.publish "t" [] [2] none 0),
    .stimulate (Stimulus.publish "t" [] [3] none 0),
    .ask (.source "a") .read false, .ask (.source "a") .read false, .ask (.source "a") .read false,
    .ask (.source "a") (.acknowledge (Position.forMessage "s" (⟨0, 1⟩ : EntryId)).encode) false,
    .start "r" (.source "a") .read, .stimulate (Stimulus.publish "t" [] [4] none 0)]

set_option maxRecDepth 10000 in
theorem reopened_of_busyRun :
    let d := (Deployment.fresh.run busyRun).2
    let direct := d.step (.openSource "a" none "")
    direct.1 = .done ∧ (d.tasks.find? "r").isSome ∧
    ∃ messages : List (Message EntryId), (messages.take 2).map (·.id) = [⟨0, 0⟩, ⟨0, 2⟩] ∧
      (direct.2.run (List.replicate 3 (.ask (.source "a") .read false))).1 =
        messages.map (Deployment.handedOut "s") := by
  intro d direct
  have hconfig : (d.sources.find? "a").map (·.config) = some (some exclusiveConfig) := by
    decide +kernel
  have hs : d.broker.subscriptionOrNew exclusiveConfig.topic "s" =
      { cursor := 3, unacked := [0, 2], acked := [⟨0, 1⟩], activeConsumers := 1 } := by
    decide +kernel
  have hlength : (d.broker.log exclusiveConfig.topic).length = 4 := by
    decide +kernel
  have hids : d.broker.unacknowledged exclusiveConfig.topic "s" = [⟨0, 0⟩, ⟨0, 2⟩] := by
    decide +kernel
  have hone : d.broker.consumers.length = 1 := by
    decide +kernel
  have hown : d.consumerOf? (.source "a") = some 0 := by
    decide +kernel
  have halone : ∀ c, d.broker.Serves exclusiveConfig.topic "s" c →
      d.consumerOf? (.source "a") = some c := by
    rintro c ⟨options, hc, -⟩
    have hlt := (List.getElem?_eq_some_iff.mp (Store.attached?_eq_some.mp hc)).1
    obtain rfl : c = 0 := by omega
    exact hown
  obtain ⟨source, hfound, hconfig⟩ := Option.map_eq_some_iff.mp hconfig
  obtain ⟨-, -, hopen⟩ := reopened_as_if_torn_down hfound
  obtain ⟨-, -, hdone⟩ := hopen exclusiveConfig none "" "s" false hconfig rfl
  obtain ⟨hdone, hreads⟩ := hdone (by decide +kernel) (by decide +kernel) halone
  obtain ⟨-, messages, -, hfirst, hrun⟩ := hreads (by decide +kernel)
  rw [hs, hids] at hfirst
  rw [hs, hlength] at hrun
  exact ⟨hdone, by decide +kernel, messages, hfirst, hrun⟩

end TrackedDelivery.Memory
