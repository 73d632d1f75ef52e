import TrackedDelivery.Proofs.Deployment.FailedOpens
import TrackedDelivery.Proofs.Memory.Closings
/-!
# Sessions are apart

A session has its client and its tracker for itself: no other session has them, and the client has
no name of its own. So nobody else closes the client, and it is open as long as the session is.
-/
namespace TrackedDelivery.Deployment

open Memory Memory.Store

variable {d after : Deployment Store} {name : String} {session : Session Store}
  {source : Source Store} {s : Step Store} {answer : Answer Store}

/-! ## Bare clients -/

/-- A bare client had its name before a step, or has just been connected under it. -/
theorem Acts.client (h : d.Acts s answer after) {key : String} {c : ℕ}
    (hc : after.clients.find? key = some c) :
    d.clients.find? key = some c ∨ (∃ options, s = .connect key options) ∧
      c = d.broker.clients.length ∧ c < after.broker.clients.length := by
  cases h with
  | connect other options connects =>
      rw [TextMap.find?_insert] at hc
      split at hc
      · rename_i hkey
        cases hc
        rcases d.broker.connect_cases options with ⟨cause, hcause, -⟩ | ⟨hclient, hclients⟩
        · cases connects.symm.trans hcause
        · cases connects.symm.trans hclient
          refine .inr ⟨⟨options, by rw [hkey]⟩, rfl, ?_⟩
          rw [hclients, List.length_append]
          exact Nat.lt_succ_self _
      · exact .inl hc
  | dropClient other =>
      rw [TextMap.find?_erase] at hc
      split at hc
      · cases hc
      · exact .inl hc
  | _ => exact .inl hc

/-! ## Opening and closing -/

/-- The client of the session that a source has, if it has one. -/
def sessionClients (d : Deployment Store) (name : String) : List ℕ :=
  ((d.session? name).map (·.clientNumber)).toList

theorem mem_sessionClients {c : ℕ} : c ∈ d.sessionClients name ↔
    ∃ session, d.session? name = some session ∧ session.clientNumber = c := by
  rw [sessionClients, Option.mem_toList, Option.map_eq_some_iff]

/-- The clients of the broker once the session of a source is closed. -/
def endedClients (d : Deployment Store) (name : String) : List Bool :=
  (d.sessionClients name).foldl (·.set · true) d.broker.clients

theorem endedClients_of_none (h : d.session? name = none) :
    d.endedClients name = d.broker.clients := by
  rw [endedClients, sessionClients, h]
  rfl

theorem endedClients_of_some (h : d.session? name = some session) :
    d.endedClients name = d.broker.clients.set session.clientNumber true := by
  rw [endedClients, sessionClients, h]
  rfl

theorem length_endedClients (d : Deployment Store) (name : String) :
    (d.endedClients name).length = d.broker.clients.length := by
  cases h : d.session? name with
  | none => rw [endedClients_of_none h]
  | some session => rw [endedClients_of_some h, List.length_set]

/-- What becomes of clients and sessions when a source is opened or torn down. Nothing may come of
it. Otherwise the session that it had is closed, and it may get a client, which it closes again if
it has no session with it. -/
inductive Renewal (d : Deployment Store) (name : String) (after : Deployment Store) : Prop
  | idle (broker : after.broker = d.broker) (session : after.session? name = d.session? name)
  | ended (clients : after.broker.clients = d.endedClients name)
      (session : after.session? name = none)
  | refused (clients : after.broker.clients = d.endedClients name ++ [true])
      (session : after.session? name = none)
  | opened (clients : after.broker.clients = d.endedClients name ++ [false])
      (session : after.sessionClients name = [d.broker.clients.length])

theorem clients_teardown (hs : d.sources.find? name = some source)
    (hk : ∀ session, d.session? name = some session → d.Knows session) :
    (d.teardown name source).2.broker.clients = d.endedClients name := by
  have hfound : d.session? name = source.session := by rw [session?, hs, Option.bind_some]
  cases hsession : source.session with
  | none =>
      rw [endedClients_of_none (hfound.trans hsession)]
      unfold teardown
      rw [hsession]
  | some session =>
      have hknown := hk session (hfound.trans hsession)
      rw [endedClients_of_some (hfound.trans hsession),
        broker_teardown hsession (List.getElem?_eq_getElem hknown.tracker), clients_closeClient,
        (d.broker.sameClients_closeConsumer _).clients]

theorem renewal_teardown (hs : d.sources.find? name = some source)
    (hk : ∀ session, d.session? name = some session → d.Knows session) :
    d.Renewal name (d.teardown name source).2 :=
  .ended (clients_teardown hs hk) ((session?_teardown hs name).trans (if_pos rfl))

theorem renewal_connectSource (hsession : d.session? name = none) (config : Config)
    (subscription : String) : d.Renewal name (d.connectSource name config subscription).2 := by
  have hended := endedClients_of_none hsession
  have hsubscribed := ((d.connected config).sameClients_subscribe d.broker.clients.length
    (config.subscribeOptions subscription)).clients
  rcases d.connectSource_outcomes name config subscription with
    ⟨cause, hclients, heq⟩ | ⟨hclients, ⟨cause, b, -, hb, heq⟩ | ⟨b, -, hb, heq⟩⟩
  · rw [heq]
    exact .ended (hclients.trans hended.symm) hsession
  · rw [heq]
    rw [hb, hclients] at hsubscribed
    refine .refused ?_ hsession
    rw [hended]
    change (b.closeClient d.broker.clients.length).clients = _
    rw [clients_closeClient, hsubscribed, List.set_append_right _ _ (Nat.le_refl _), Nat.sub_self]
    rfl
  · rw [heq]
    rw [hb, hclients] at hsubscribed
    refine .opened (hsubscribed.trans (congrArg (· ++ [false]) hended.symm)) ?_
    rw [sessionClients, session?_insert (d := d) _ rfl, if_pos rfl]
    rfl

/-- A source that is open is torn down and connects again. -/
theorem renewal_reconnect (hs : d.sources.find? name = some source)
    (hk : ∀ session, d.session? name = some session → d.Knows session) (config : Config)
    (subscription : String) :
    d.Renewal name ((d.teardown name source).2.connectSource name config subscription).2 := by
  have hnone : (d.teardown name source).2.session? name = none :=
    (session?_teardown hs name).trans (if_pos rfl)
  have hclients := clients_teardown hs hk
  have hdown : (d.teardown name source).2.endedClients name = d.endedClients name :=
    (endedClients_of_none hnone).trans hclients
  have hlength := d.clients_length_teardown name source
  cases renewal_connectSource hnone config subscription with
  | idle broker session => exact .ended (by rw [broker, hclients]) (session.trans hnone)
  | ended clients session => exact .ended (clients.trans hdown) session
  | refused clients session => exact .refused (by rw [clients, hdown]) session
  | opened clients session => exact .opened (by rw [clients, hdown]) (by rw [session, hlength])

theorem Renewal.of_same {d' : Deployment Store} (h : d'.Renewal name after)
    (hbroker : d'.broker = d.broker) (hsession : d'.session? name = d.session? name) :
    d.Renewal name after := by
  have hended : d'.endedClients name = d.endedClients name := by
    rw [endedClients, endedClients, sessionClients, sessionClients, hsession, hbroker]
  cases h with
  | idle broker session => exact .idle (broker.trans hbroker) (session.trans hsession)
  | ended clients session => exact .ended (clients.trans hended) session
  | refused clients session => exact .refused (by rw [clients, hended]) session
  | opened clients session => exact .opened (by rw [clients, hended]) (by rw [session, hbroker])

theorem renewal_openSource (hs : d.sources.find? name = some source)
    (hk : ∀ session, d.session? name = some session → d.Knows session) (position : Option Bytes)
    (fresh : String) : d.Renewal name (d.openSource name source position fresh).2 := by
  rcases openSource_cases hs position fresh with
    ⟨e, -, he⟩ | ⟨config, subscription, isFresh, -, -, hopen⟩
  · rw [he]
    exact .idle rfl rfl
  · have hk' : ∀ session, (d.assigned subscription isFresh).session? name = some session →
        (d.assigned subscription isFresh).Knows session := fun session hsession =>
      ⟨(hk session hsession).client, (hk session hsession).tracker⟩
    have hrenewal := renewal_reconnect (d := d.assigned subscription isFresh) hs hk' config
      subscription
    rw [hopen]
    exact hrenewal.of_same rfl rfl

/-- What a step does that opens a source or tears it down. -/
theorem Acts.renewal (h : d.Acts s answer after) (hs : s.Renews name)
    (hk : ∀ session, d.session? name = some session → d.Knows session) :
    d.Renewal name after := by
  cases h with
  | vain => exact .idle rfl rfl
  | openSource other position fresh found after =>
      obtain rfl : other = name := hs
      rw [← after]
      exact renewal_openSource found hk position fresh
  | teardown other found after =>
      obtain rfl : other = name := hs
      rw [← after]
      exact renewal_teardown found hk
  | _ => cases hs

/-! ## Nobody else has what a session has -/

/-- The client of a session is open, and nobody else has the client or the tracker. -/
structure Apart (d : Deployment Store) : Prop where
  client_open : ∀ name session, d.session? name = some session →
    d.broker.clients[session.clientNumber]? = some false
  inj : ∀ name other session session', d.session? name = some session →
    d.session? other = some session' →
    session.clientNumber = session'.clientNumber ∨ session.tracker = session'.tracker → name = other
  not_bare : ∀ name session key, d.session? name = some session →
    d.clients.find? key ≠ some session.clientNumber
  bare_known : ∀ (key : String) (c : ℕ), d.clients.find? key = some c →
    c < d.broker.clients.length

/-- A step that neither opens the source of a session nor tears it down leaves its client open. -/
theorem Apart.spared (h : d.Apart) (hk : d.AllKnown) (hs : ¬ s.Renews name)
    (hsession : d.session? name = some session) :
    (d.act s).2.broker.clients[session.clientNumber]? = some false := by
  apply (d.acts s).asks.spares_client _ (h.client_open name session hsession)
  have hother : ∀ other, (d.session? other).map (·.client) = some session.clientNumber →
      other = name := by
    intro other hclient
    obtain ⟨session', hsession', hsame⟩ := Option.map_eq_some_iff.mp hclient
    exact h.inj other name session' session hsession' hsession (.inl hsame)
  intro hclose
  cases s with
  | closeClient key => exact h.not_bare name session key hsession hclose
  | teardown other => exact hs (hother other hclose)
  | openSource other position fresh =>
      rcases hclose with hclose | hnew
      · exact hs (hother other hclose)
      · exact absurd (hk name session hsession).client (Nat.not_lt.mpr hnew)
  | _ => exact hclose

theorem Apart.act (h : d.Apart) (hk : d.AllKnown) (s : Step Store) : (d.act s).2.Apart where
  client_open name session hsession := by
    by_cases hs : s.Renews name
    · cases (d.acts s).renewal hs (hk name) with
      | idle broker same =>
          rw [broker]
          exact h.client_open name session (same.symm.trans hsession)
      | ended _ hnone | refused _ hnone => cases hnone.symm.trans hsession
      | opened clients opened =>
          have hmem : session.clientNumber ∈ (d.act s).2.sessionClients name :=
            mem_sessionClients.mpr ⟨session, hsession, rfl⟩
          rw [opened, List.mem_singleton] at hmem
          rw [clients, hmem, ← length_endedClients d name, List.getElem?_concat_length]
    · rcases (d.acts _).session_cases hsession with hold | ⟨⟨position, fresh, rfl⟩, -⟩
      · exact h.spared hk hs hold
      · exact absurd rfl hs
  inj name other session session' hsession hsession' hsame := by
    rcases (d.acts _).session_cases hsession with hold | ⟨⟨position, fresh, rfl⟩, -, hnew⟩
    · rcases (d.acts _).session_cases hsession' with hold' | ⟨-, -, hnew'⟩
      · exact h.inj name other session session' hold hold' hsame
      · have hknown := hk name session hold
        have hclient := hknown.client
        have htracker := hknown.tracker
        rw [hnew'.client, hnew'.tracker] at hsame
        omega
    · rcases (d.acts _).session_cases hsession' with hold' | ⟨⟨_, _, heq⟩, -⟩
      · have hknown := hk other session' hold'
        have hclient := hknown.client
        have htracker := hknown.tracker
        rw [hnew.client, hnew.tracker] at hsame
        omega
      · cases heq
        rfl
  not_bare name session key hsession hbare := by
    rcases (d.acts _).session_cases hsession with hold | ⟨⟨position, fresh, rfl⟩, -, hnew⟩
    · rcases (d.acts _).client hbare with hbare | ⟨-, hlength, -⟩
      · exact h.not_bare name session key hold hbare
      · have hknown := (hk name session hold).client
        omega
    · rcases (d.acts _).client hbare with hbare | ⟨⟨options, heq⟩, -⟩
      · have hknown := h.bare_known key _ hbare
        rw [hnew.client] at hknown
        exact Nat.lt_irrefl _ hknown
      · cases heq
  bare_known key c hbare := by
    rcases (d.acts _).client hbare with hbare | ⟨-, -, hlt⟩
    · exact Nat.lt_of_lt_of_le (h.bare_known key c hbare) (d.calls_act s).keepsClients.length_le
    · exact hlt

theorem Apart.dropUnheld (h : d.Apart) : d.dropUnheld.Apart where
  client_open name session hsession := by
    rw [session?_dropUnheld] at hsession
    rw [clients_dropUnheld]
    exact h.client_open name session hsession
  inj name other session session' hsession hsession' := by
    rw [session?_dropUnheld] at hsession hsession'
    exact h.inj name other session session' hsession hsession'
  not_bare name session key hsession := by
    rw [session?_dropUnheld] at hsession
    exact h.not_bare name session key hsession
  bare_known key c hbare := by
    rw [clients_dropUnheld]
    exact h.bare_known key c hbare

theorem Apart.cleared (h : d.Apart) : Apart { d with log := [] } :=
  ⟨h.client_open, h.inj, h.not_bare, h.bare_known⟩

theorem AllKnown.cleared (h : d.AllKnown) : AllKnown { d with log := [] } :=
  fun name session hsession => ⟨(h name session hsession).client, (h name session hsession).tracker⟩

theorem Apart.step (h : d.Apart) (hk : d.AllKnown) (s : Step Store) : (d.step s).2.Apart :=
  (h.cleared.act hk.cleared s).dropUnheld

theorem apart_fresh : fresh.Apart where
  client_open name session h := by cases h
  inj name other session session' h := by cases h
  not_bare name session key h := by cases h
  bare_known key c h := by cases h

theorem Regular.apart_run (h : d.Regular) (hk : d.AllKnown) (ha : d.Apart)
    (steps : List (Step Store)) : (d.run steps).2.Apart := by
  have hboth := h.run_preserves (P := fun d => d.AllKnown ∧ d.Apart)
    (fun _ s hregular hd => ⟨hregular.allKnown_step hd.1 s, hd.2.step hd.1 s⟩) ⟨hk, ha⟩ steps
  exact hboth.2

end TrackedDelivery.Deployment
