import TrackedDelivery.Proofs.Deployment.Waiting
import TrackedDelivery.Proofs.Memory.Clients
/-!
# Sessions

A source that is torn down, or opened again, closes the client and the consumer of the session that
it had, and both are closed for good. A source that is replaced or dropped just forgets its session.
No other step touches the session of a source.
-/
namespace TrackedDelivery

/-- Steps that replace the source of a name, or drop it. -/
def Step.Replaces (name : String) : Step Memory.Store → Prop
  | .create source _ | .drop .source source => source = name
  | _ => False

/-- Steps that open the source of a name, or tear it down. -/
def Step.Renews (name : String) : Step Memory.Store → Prop
  | .openSource source _ _ | .teardown source => source = name
  | _ => False

/-- The number by which the broker knows the client of a session. -/
abbrev Session.clientNumber (session : Session Memory.Store) : ℕ := session.client

/-- The number by which the broker knows the consumer of a tracker. -/
abbrev Tracker.consumerNumber (t : Tracker Memory.Store) : ℕ := t.consumer

end TrackedDelivery

namespace TrackedDelivery.Deployment

open Memory

variable {d after : Deployment Store} {name other : String} {session : Session Store}
  {source : Source Store} {s : Step Store} {answer : Answer Store}

/-! ## The session of a source -/

/-- A tracker is held by a session, by a name or by a task. -/
theorem isHeld_iff {n : ℕ} : d.isHeld n = true ↔
    (∃ name session, d.session? name = some session ∧ session.tracker = n) ∨
      (∃ name, d.held.find? name = some n) ∨
        ∃ name task, d.tasks.find? name = some task ∧ task.tracker = n := by
  simp only [isHeld, Bool.or_eq_true, List.any_eq_true, TextMap.mem_values, decide_eq_true_eq,
    or_assoc]
  refine or_congr ?_ (or_congr ?_ ?_)
  · constructor
    · rintro ⟨source, ⟨name, hname⟩, htracker⟩
      obtain ⟨session, hsession, rfl⟩ := Option.map_eq_some_iff.mp htracker
      exact ⟨name, session, by rw [session?, hname]; exact hsession, rfl⟩
    · rintro ⟨name, session, hsession, rfl⟩
      obtain ⟨source, hname, hsession⟩ := Option.bind_eq_some_iff.mp hsession
      exact ⟨source, ⟨name, hname⟩, by rw [hsession]; rfl⟩
  · constructor
    · rintro ⟨k, ⟨name, hname⟩, rfl⟩
      exact ⟨name, hname⟩
    · rintro ⟨name, hname⟩
      exact ⟨n, ⟨name, hname⟩, rfl⟩
  · constructor
    · rintro ⟨task, ⟨name, hname⟩, htracker⟩
      exact ⟨name, task, hname, htracker⟩
    · rintro ⟨name, task, hname, htracker⟩
      exact ⟨task, ⟨name, hname⟩, htracker⟩

theorem isHeld_of_session (h : d.session? name = some session) :
    d.isHeld session.tracker = true :=
  isHeld_iff.mpr (.inl ⟨name, session, h, rfl⟩)

theorem session?_insert (source : Source Store)
    (h : after.sources = d.sources.insert other source) (name : String) :
    after.session? name = if name = other then source.session else d.session? name := by
  rw [session?, h, TextMap.find?_insert]
  split <;> rfl

theorem session?_teardown (hs : d.sources.find? other = some source) (name : String) :
    (d.teardown other source).2.session? name =
      if name = other then none else d.session? name := by
  unfold teardown
  cases hsession : source.session with
  | none =>
      dsimp only
      split
      · rename_i hname
        rw [session?, hname, hs]
        exact hsession
      · rfl
  | some session =>
      dsimp only
      cases d.trackers[session.tracker]? with
      | none => exact session?_insert (d := d) { source with session := none } rfl name
      | some t => exact session?_insert (d := d) { source with session := none } rfl name

theorem session?_configure (hs : d.sources.find? other = some source) (pairs : TextMap String)
    (name : String) : (d.configure other source pairs).2.session? name = d.session? name := by
  rcases d.configure_cases other source pairs with ⟨cause, -, heq⟩ | ⟨config, -, heq⟩
  · rw [heq]
    rfl
  · rw [heq, session?_insert (d := d) _ rfl]
    split
    · rename_i hname
      rw [session?, hname, hs]
      rfl
    · rfl

theorem act_openSource (hs : d.sources.find? name = some source) (position : Option Bytes)
    (fresh : String) : (d.act (.openSource name position fresh)).2 =
      (d.openSource name source position fresh).2 := by
  simp only [act, hs]
  rfl

theorem act_teardown (hs : d.sources.find? name = some source) :
    (d.act (.teardown name)).2 = (d.teardown name source).2 := by
  simp only [act, hs]
  rfl

theorem session?_openSource (hs : d.sources.find? other = some source) (position : Option Bytes)
    (fresh : String) (hne : name ≠ other) :
    (d.openSource other source position fresh).2.session? name = d.session? name := by
  rcases openSource_cases hs position fresh with
    ⟨e, -, he⟩ | ⟨config, subscription, isFresh, -, -, hopen⟩
  · rw [he]
  · have hdown := session?_teardown (d := d.assigned subscription isFresh) hs name
    rw [if_neg hne] at hdown
    rw [hopen]
    refine Eq.trans ?_ hdown
    rcases ((d.assigned subscription isFresh).teardown other source).2.connectSource_outcomes other
      config subscription with ⟨_, -, heq⟩ | ⟨-, ⟨_, _, -, -, heq⟩ | ⟨b, -, -, heq⟩⟩
    · rw [heq]
      rfl
    · rw [heq]
      rfl
    · rw [heq]
      exact (session?_insert _ rfl name).trans (if_neg hne)

/-- A source that is neither replaced nor opened nor torn down keeps its session. -/
theorem Acts.session? (h : d.Acts s answer after) (hreplaces : ¬ s.Replaces name)
    (hrenews : ¬ s.Renews name) : after.session? name = d.session? name := by
  cases h with
  | create other config =>
      have hne : name ≠ other := fun h => hreplaces h.symm
      exact (session?_insert _ rfl name).trans (if_neg hne)
  | configure other pairs found after =>
      rw [← after]
      exact session?_configure found pairs name
  | openSource other position fresh found after =>
      rw [← after]
      exact session?_openSource found position fresh fun h => hrenews h.symm
  | teardown other found after =>
      have hne : name ≠ other := fun h => hrenews h.symm
      rw [← after]
      exact (session?_teardown found name).trans (if_neg hne)
  | dropSource other =>
      have hne : name ≠ other := fun h => hreplaces h.symm
      rw [Deployment.session?, TextMap.find?_erase, if_neg hne]
      rfl
  | _ => rfl

/-! ## From step to step -/

theorem session?_dropUnheld (d : Deployment Store) (name : String) :
    d.dropUnheld.session? name = d.session? name := by
  rw [dropUnheld_eq]
  rfl

theorem session?_step (d : Deployment Store) (s : Step Store) (name : String) :
    (d.step s).2.session? name = (act { d with log := [] } s).2.session? name :=
  session?_dropUnheld _ name

theorem keepsClients_step (d : Deployment Store) (s : Step Store) :
    d.broker.KeepsClients (d.step s).2.broker :=
  (calls_act { d with log := [] } s).keepsClients.trans (calls_dropUnheld _).keepsClients

theorem Regular.extends_step (h : d.Regular) (s : Step Store) :
    d.broker.Extends (d.step s).2.broker := by
  obtain ⟨mid, -, -, -, hact, hdrop⟩ := h.parts s
  exact hact.extends_.trans hdrop.extends_

theorem Regular.tracker_step (h : d.Regular) (s : Step Store) {n : ℕ} {t : Tracker Store}
    (ht : d.trackers[n]? = some t) : ∃ t', (d.step s).2.trackers[n]? = some t' ∧
      t'.consumer = t.consumer ∧ t'.subscription = t.subscription :=
  (turns_step h.sound h.allKeyed s).tracker ht

/-- The client and the tracker of a session exist. -/
structure Knows (d : Deployment Store) (session : Session Store) : Prop where
  client : session.clientNumber < d.broker.clients.length
  tracker : session.tracker < d.trackers.length

/-- The client and the consumer of a session are closed. -/
structure Closed (d : Deployment Store) (session : Session Store) : Prop where
  client : d.broker.clients[session.clientNumber]? = some true
  consumer : ∀ t, d.trackers[session.tracker]? = some t → d.broker.Gone t.consumer

theorem Regular.knows_step (h : d.Regular) (hk : d.Knows session) (s : Step Store) :
    (d.step s).2.Knows session where
  client := Nat.lt_of_lt_of_le hk.client (d.keepsClients_step s).length_le
  tracker := by
    obtain ⟨t', ht', -⟩ := h.tracker_step s (List.getElem?_eq_getElem hk.tracker)
    exact (List.getElem?_eq_some_iff.mp ht').1

/-- A session that is closed stays closed as long as its tracker has the same consumer. -/
theorem Closed.mono (hc : d.Closed session) (hclients : d.broker.KeepsClients after.broker)
    (hx : d.broker.Extends after.broker)
    (htracker : ∀ t', after.trackers[session.tracker]? = some t' →
      ∃ t, d.trackers[session.tracker]? = some t ∧ t'.consumer = t.consumer) :
    after.Closed session where
  client := hclients.closed _ hc.client
  consumer t' ht' := by
    obtain ⟨t, ht, hsame⟩ := htracker t' ht'
    rw [hsame]
    exact hx.stays_gone (hc.consumer t ht)

theorem Closed.step (hc : d.Closed session) (h : d.Regular) (hk : d.Knows session)
    (s : Step Store) : (d.step s).2.Closed session := by
  apply hc.mono (d.keepsClients_step s) (h.extends_step s)
  intro t' ht'
  have ht := List.getElem?_eq_getElem hk.tracker
  obtain ⟨u, hu, hconsumer, -⟩ := h.tracker_step s ht
  rw [hu] at ht'
  cases ht'
  exact ⟨_, ht, hconsumer⟩

theorem Closed.run (hc : d.Closed session) (h : d.Regular) (hk : d.Knows session)
    (steps : List (Step Store)) : (d.run steps).2.Closed session := by
  have hboth := h.run_preserves (P := fun d => d.Knows session ∧ d.Closed session)
    (fun _ s hregular hd => ⟨hregular.knows_step hd.1 s, hd.2.step hregular hd.1 s⟩)
    ⟨hk, hc⟩ steps
  exact hboth.2

/-! ## Every session is known -/

def AllKnown (d : Deployment Store) : Prop :=
  ∀ name session, d.session? name = some session → d.Knows session

/-- A session that has just been opened: its client and its tracker are the next ones. -/
structure Arises (d after : Deployment Store) (session : Session Store) : Prop where
  client : session.clientNumber = d.broker.clients.length
  tracker : session.tracker = d.trackers.length
  known : after.Knows session

/-- A source that connects has the session that it had, or a new one. -/
theorem session_of_connectSource {config : Config} {subscription : String}
    (h : (d.connectSource other config subscription).2.session? name = some session) :
    d.session? name = some session ∨
      other = name ∧ (d.connectSource other config subscription).1 = some (.ok ()) ∧
        d.Arises (d.connectSource other config subscription).2 session := by
  rcases d.connectSource_outcomes other config subscription with
    ⟨_, -, heq⟩ | ⟨hclients, ⟨_, _, -, -, heq⟩ | ⟨b, -, hb, heq⟩⟩
  · rw [heq] at h
    exact .inl h
  · rw [heq] at h
    exact .inl h
  · rw [heq] at h ⊢
    rw [session?_insert (d := d) _ rfl] at h
    split at h
    · rename_i hname
      have hsubscribed := ((d.connected config).sameClients_subscribe d.broker.clients.length
        (config.subscribeOptions subscription)).clients
      rw [hb] at hsubscribed
      cases h
      refine .inr ⟨hname.symm, rfl, rfl, rfl, ?_, ?_⟩
      · change d.broker.clients.length < b.clients.length
        rw [hsubscribed, hclients, List.length_append]
        exact Nat.lt_succ_self _
      · rw [List.length_append]
        exact Nat.lt_succ_self _
    · exact .inl h

theorem broker_teardown (hsession : source.session = some session) {t : Tracker Store}
    (ht : d.trackers[session.tracker]? = some t) (name : String) :
    (d.teardown name source).2.broker =
      (d.broker.closeConsumer t.consumer).closeClient session.client := by
  unfold teardown
  rw [hsession]
  dsimp only
  rw [ht]
  rfl

theorem clients_length_teardown (d : Deployment Store) (name : String) (source : Source Store) :
    (d.teardown name source).2.broker.clients.length = d.broker.clients.length := by
  cases hsession : source.session with
  | none =>
      unfold teardown
      rw [hsession]
  | some session =>
      cases ht : d.trackers[session.tracker]? with
      | none =>
          unfold teardown
          rw [hsession]
          dsimp only
          rw [ht]
      | some t =>
          rw [broker_teardown hsession ht, Store.clients_closeClient, List.length_set]
          exact congrArg List.length (d.broker.sameClients_closeConsumer t.consumer).clients

/-- A source that is opened has no session afterwards but a new one, unless nothing comes of it. -/
theorem session_of_openSource (hs : d.sources.find? name = some source) {position : Option Bytes}
    {fresh : String}
    (h : (d.openSource name source position fresh).2.session? name = some session) :
    d.session? name = some session ∨
      (d.openSource name source position fresh).1 = some (.ok ()) ∧
        d.Arises (d.openSource name source position fresh).2 session := by
  rcases openSource_cases hs position fresh with
    ⟨e, -, he⟩ | ⟨config, subscription, isFresh, -, -, hopen⟩
  · rw [he] at h
    exact .inl h
  · rw [hopen] at h ⊢
    rcases session_of_connectSource h with hold | ⟨-, hdone, harises⟩
    · rw [session?_teardown (d := d.assigned subscription isFresh) hs, if_pos rfl] at hold
      cases hold
    · refine .inr ⟨hdone, ?_, ?_, harises.known⟩
      · rw [harises.client, clients_length_teardown]
        rfl
      · rw [harises.tracker, (teardown_spec (d := d.assigned subscription isFresh) hs).2.trackers]
        rfl

/-- A source has the session that it had, or one that has just been opened. -/
theorem Acts.session_cases (ha : d.Acts s answer after) (h : after.session? name = some session) :
    d.session? name = some session ∨
      (∃ position unused, s = .openSource name position unused) ∧ answer = .done ∧
        d.Arises after session := by
  by_cases hrenews : s.Renews name
  · cases ha with
    | vain => exact .inl h
    | openSource other position fresh found after =>
        obtain rfl : other = name := hrenews
        rw [← after] at h ⊢
        rcases session_of_openSource found h with hold | ⟨hdone, harises⟩
        · exact .inl hold
        · rw [hdone]
          exact .inr ⟨⟨position, fresh, rfl⟩, rfl, harises⟩
    | teardown other found after =>
        obtain rfl : other = name := hrenews
        rw [← after, session?_teardown found, if_pos rfl] at h
        cases h
    | _ => cases hrenews
  by_cases hreplaces : s.Replaces name
  · cases ha with
    | vain => exact .inl h
    | create other config =>
        obtain rfl : other = name := hreplaces
        rw [session?_insert (d := d) { config } rfl, if_pos rfl] at h
        cases h
    | dropSource other =>
        obtain rfl : other = name := hreplaces
        rw [Deployment.session?, TextMap.find?_erase, if_pos rfl] at h
        cases h
    | _ => cases hreplaces
  · rw [ha.session? hreplaces hrenews] at h
    exact .inl h

/-- A source has the session that it had before a step, or one that the step has opened. -/
theorem session_of_step (h : (d.step s).2.session? name = some session) :
    d.session? name = some session ∨
      (∃ position unused, s = .openSource name position unused) ∧ (d.step s).1 = .done ∧
        d.Arises (d.step s).2 session := by
  have hact := (d.session?_step s name).symm.trans h
  rcases (acts { d with log := [] } s).session_cases hact with hold | ⟨hs, hdone, harises⟩
  · exact .inl hold
  · refine .inr ⟨hs, hdone, harises.client, harises.tracker, ?_, harises.known.tracker⟩
    exact Nat.lt_of_lt_of_le harises.known.client (calls_dropUnheld _).keepsClients.length_le

theorem Regular.allKnown_step (h : d.Regular) (hk : d.AllKnown) (s : Step Store) :
    (d.step s).2.AllKnown := by
  intro name session hsession
  rcases session_of_step hsession with hold | ⟨-, -, harises⟩
  · exact h.knows_step (hk name session hold) s
  · exact harises.known

theorem Regular.allKnown_run (h : d.Regular) (hk : d.AllKnown) (steps : List (Step Store)) :
    (d.run steps).2.AllKnown :=
  h.run_preserves (fun _ s hregular hd => hregular.allKnown_step hd s) hk steps

theorem allKnown_fresh : fresh.AllKnown := by
  intro name session h
  cases h

/-! ## What becomes of a session -/

/-- A source that is torn down closes its session. -/
theorem closed_of_teardown (hs : d.sources.find? name = some source)
    (hsession : source.session = some session) (hk : d.Knows session)
    (hconsumers : ∀ t ∈ d.trackers, t.consumerNumber < d.broker.consumers.length) :
    (d.teardown name source).2.Closed session := by
  have ht := List.getElem?_eq_getElem hk.tracker
  have hbroker := broker_teardown hsession ht name
  obtain ⟨-, hdown⟩ := teardown_spec hs
  constructor
  · rw [hbroker, Store.clients_closeClient]
    rw [(d.broker.sameClients_closeConsumer _).clients, List.getElem?_set_self hk.client]
  · intro t ht'
    rw [hdown.trackers] at ht'
    constructor
    · rw [hdown.consumers_length]
      exact hconsumers t (List.mem_of_getElem? ht')
    · rw [ht] at ht'
      cases ht'
      rw [hbroker, Store.attached?_congr (Store.closeClient_quiet _ _).2]
      change (d.broker.release _).attached? _ = none
      rw [Store.attached?_release, if_pos rfl]

/-- A source that connects leaves closed what is closed. -/
theorem Closed.connectSource (hc : d.Closed session) (h : d.broker.Sound) (hk : d.Knows session)
    (name : String) (config : Config) (subscription : String) :
    (d.connectSource name config subscription).2.Closed session := by
  have hcalls : Store.Operations (fun _ => False) d.broker
      (d.connectSource name config subscription).2.broker := d.calls_connectSource name config _
  apply hc.mono hcalls.keepsClients (hcalls.guides h).extends_
  intro t' ht'
  have ht := List.getElem?_eq_getElem hk.tracker
  refine ⟨_, ht, ?_⟩
  rcases d.connectSource_outcomes name config subscription with
    ⟨_, -, heq⟩ | ⟨-, ⟨_, _, -, -, heq⟩ | ⟨b, -, -, heq⟩⟩
  · rw [heq] at ht'
    cases ht'.symm.trans ht
    rfl
  · rw [heq] at ht'
    cases ht'.symm.trans ht
    rfl
  · rw [heq] at ht'
    dsimp only at ht'
    rw [List.getElem?_append_left hk.tracker, ht] at ht'
    cases ht'
    rfl

theorem Closed.dropUnheld (hc : d.Closed session) (h : d.broker.Sound) :
    d.dropUnheld.Closed session :=
  hc.mono d.calls_dropUnheld.keepsClients (d.calls_dropUnheld.guides h).extends_
    fun t ht => ⟨t, ht, rfl⟩

/-- A source that is opened stays as it is, or the session that it had is closed. -/
theorem closed_of_openSource (h : d.broker.Sound)
    (hconsumers : ∀ t ∈ d.trackers, t.consumerNumber < d.broker.consumers.length)
    (hs : d.sources.find? name = some source) (position : Option Bytes) (fresh : String) :
    (d.openSource name source position fresh).2 = d ∨
      ∀ session, source.session = some session → d.Knows session →
        (d.openSource name source position fresh).2.Closed session := by
  rcases openSource_cases hs position fresh with
    ⟨e, -, he⟩ | ⟨config, subscription, isFresh, -, -, hopen⟩
  · rw [he]
    exact .inl rfl
  · right
    intro session hsession hk
    have hk' : (d.assigned subscription isFresh).Knows session := ⟨hk.client, hk.tracker⟩
    have hclosed := closed_of_teardown (d := d.assigned subscription isFresh) hs hsession hk'
      hconsumers
    have hcalls := (d.assigned subscription isFresh).calls_teardown name source
    rw [hopen]
    apply hclosed.connectSource (hcalls.guides h).sound
    constructor
    · exact Nat.lt_of_lt_of_le hk'.client hcalls.keepsClients.length_le
    · rw [(teardown_spec (d := d.assigned subscription isFresh) hs).2.trackers]
      exact hk'.tracker

theorem Regular.consumers_lt (h : d.Regular) :
    ∀ t ∈ d.trackers, t.consumerNumber < d.broker.consumers.length := fun _ ht =>
  h.owned.known _ (List.mem_append_left _ (List.mem_map_of_mem ht))

/-- A source that is not replaced keeps its session through a step, or the session is closed. -/
theorem Regular.session_step (h : d.Regular) (hk : d.AllKnown) (hs : ¬ s.Replaces name) :
    (d.step s).2.session? name = d.session? name ∨
      ∀ session, d.session? name = some session → (d.step s).2.Closed session := by
  have hsound := (h.cleared.act s).sound
  rw [session?_step, Deployment.step]
  dsimp only
  by_cases hrenews : s.Renews name
  · cases hfind : d.sources.find? name with
    | none =>
        right
        intro session hsession
        rw [session?, hfind] at hsession
        cases hsession
    | some source =>
        have hof : ∀ session, d.session? name = some session → source.session = some session := by
          intro session hsession
          rwa [session?, hfind] at hsession
        cases s with
        | openSource other position fresh =>
            obtain rfl : other = name := hrenews
            rw [act_openSource (d := { d with log := [] }) hfind] at hsound ⊢
            rcases closed_of_openSource (d := { d with log := [] }) h.sound h.consumers_lt hfind
              position fresh with hsame | hclosed
            · rw [hsame]
              exact .inl rfl
            · right
              intro session hsession
              have hknown := hk other session hsession
              exact (hclosed session (hof session hsession)
                ⟨hknown.client, hknown.tracker⟩).dropUnheld hsound
        | teardown other =>
            obtain rfl : other = name := hrenews
            rw [act_teardown (d := { d with log := [] }) hfind] at hsound ⊢
            right
            intro session hsession
            have hknown := hk other session hsession
            have hclosed := closed_of_teardown (d := { d with log := [] }) hfind
              (hof session hsession) ⟨hknown.client, hknown.tracker⟩ h.consumers_lt
            exact hclosed.dropUnheld hsound
        | _ => cases hrenews
  · exact .inl ((acts { d with log := [] } s).session? hs hrenews)

end TrackedDelivery.Deployment
