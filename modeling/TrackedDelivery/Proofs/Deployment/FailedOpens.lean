import TrackedDelivery.Proofs.Deployment.Guarantees
import TrackedDelivery.Proofs.Deployment.Sessions
/-!
# Opens and configurations that fail

An open may fail before it touches anything, and then nothing has happened. Once it has asked the
broker it has torn down the session that the source had, and whatever it got since it gives back:
the source is left configured and without a session, and all that it ever obtained is closed.
-/
namespace TrackedDelivery.Memory.Store

variable {b b' : Store}

/-! ## What opening and closing leave alone -/

/-- All logs are as they were, and so is every subscription that there was, but for the count of
its consumers. -/
structure Intact (b b' : Store) : Prop where
  log : ∀ t, b'.log t = b.log t
  subscription : ∀ t n s, b.subscription? t n = some s →
    ∃ k, b'.subscription? t n = some { s with activeConsumers := k }

theorem intact_of_eq (h : b'.topics = b.topics) : b.Intact b' where
  log := log_congr h
  subscription t n s hs := ⟨s.activeConsumers, by rw [subscription?, h]; exact hs⟩

theorem Intact.trans {b'' : Store} (h : b.Intact b') (h' : b'.Intact b'') : b.Intact b'' where
  log t := (h'.log t).trans (h.log t)
  subscription t n s hs := by
    obtain ⟨k, hk⟩ := h.subscription t n s hs
    obtain ⟨k', hk'⟩ := h'.subscription t n _ hk
    exact ⟨k', hk'⟩

theorem intact_release (b : Store) (consumer : ℕ) : b.Intact (b.release consumer) where
  log := b.log_release consumer
  subscription t n s hs := by
    cases ha : b.attached? consumer with
    | none => exact ⟨s.activeConsumers, by rw [release_of_closed ha]; exact hs⟩
    | some options =>
        have hsub : (b.release consumer).subscription? t n = (b.modifySubscription options.topic
            options.subscription Subscription.detach).subscription? t n := by
          simp [release, ha, subscription?]
        rw [hsub, subscription?_modifySubscription, hs]
        split
        · exact ⟨_, rfl⟩
        · exact ⟨_, rfl⟩

theorem intact_closeClient (b : Store) (client : ℕ) : b.Intact (b.closeClient client) :=
  intact_of_eq (b.closeClient_quiet client).1

theorem intact_connect (b : Store) (options : ClientOptions) : b.Intact (b.connect options).2 :=
  intact_of_eq (b.connect_quiet options).1

/-- Whoever is turned away may have created a subscription, and changed none. -/
theorem TurnsAway.intact {options : SubscribeOptions} (h : b.TurnsAway options b') :
    b.Intact b' where
  log := h.log
  subscription t n s hs := by
    refine ⟨s.activeConsumers, ?_⟩
    rcases h.topics with ht | ht
    · rw [subscription?, ht]
      exact hs
    · rw [subscription?, ht]
      change (b.put _ _ _).subscription? t n = _
      rw [subscription?_put]
      split
      · rename_i hw
        rw [← hw.1, ← hw.2, subscriptionOrNew_of_some hs]
      · exact hs

end TrackedDelivery.Memory.Store

namespace TrackedDelivery.Deployment

open Memory

variable {d after : Deployment Store} {name : String} {session : Session Store}
  {source : Source Store} {s : Step Store}

/-! ## One open -/

/-- What an open leaves behind that had to give back what it got. -/
structure Unwound (d : Deployment Store) (name : String) (source : Source Store)
    (after : Deployment Store) : Prop where
  source : after.sources.find? name = some { source with session := none }
  others : ∀ other, other ≠ name → after.sources.find? other = d.sources.find? other
  trackers : after.trackers = d.trackers
  intact : d.broker.Intact after.broker

/-- What an open leaves behind, by the failure that it comes to. -/
def AfterFailure (d : Deployment Store) (name : String) (source : Source Store)
    (after : Deployment Store) : SourceError Memory.Failure → Prop
  | .notConfigured | .malformedPosition _ | .subscriptionMismatch _ _ => after = d
  | .connect _ | .subscribe _ => d.Unwound name source after
  | _ => False

theorem find?_teardown (hs : d.sources.find? name = some source) (other : String) :
    (d.teardown name source).2.sources.find? other =
      if other = name then some { source with session := none } else d.sources.find? other := by
  unfold teardown
  cases hsession : source.session with
  | none =>
      dsimp only
      split
      · rename_i hother
        rw [hother, hs, ← hsession]
      · rfl
  | some session =>
      dsimp only
      cases d.trackers[session.tracker]? with
      | none => exact TextMap.find?_insert ..
      | some t => exact TextMap.find?_insert ..

theorem unwound_teardown (hs : d.sources.find? name = some source) :
    d.Unwound name source (d.teardown name source).2 where
  source := by rw [find?_teardown hs, if_pos rfl]
  others other hother := by rw [find?_teardown hs, if_neg hother]
  trackers := (teardown_spec hs).2.trackers
  intact := by
    unfold teardown
    cases source.session with
    | none => exact Store.intact_of_eq rfl
    | some session =>
        dsimp only
        cases d.trackers[session.tracker]? with
        | none => exact Store.intact_of_eq rfl
        | some t =>
            have hclose : (d.broker.release t.consumer).Intact
                (d.broker.closeConsumer t.consumer) := Store.intact_of_eq rfl
            exact ((d.broker.intact_release t.consumer).trans hclose).trans
              (Store.intact_closeClient _ session.client)

/-- What is unwound stays so as long as only the broker goes on, and leaves intact what it has. -/
theorem Unwound.trans {b : Store} (h : d.Unwound name source after)
    (hb : after.broker.Intact b) : d.Unwound name source { after with broker := b } where
  source := h.source
  others := h.others
  trackers := h.trackers
  intact := h.intact.trans hb

theorem openSource_error (hs : d.sources.find? name = some source) {position : Option Bytes}
    {fresh : String} {e : SourceError Memory.Failure}
    (h : d.openSource name source position fresh = (some (.error e), after)) :
    d.AfterFailure name source after e := by
  rcases openSource_cases hs position fresh with
    ⟨e', hearly, he⟩ | ⟨config, subscription, isFresh, -, -, hopen⟩
  · cases he.symm.trans h
    cases e with
    | notConfigured | malformedPosition | subscriptionMismatch => rfl
    | _ => cases hearly
  · have hdown := unwound_teardown (d := d.assigned subscription isFresh) hs
    have hmid : d.Unwound name source ((d.assigned subscription isFresh).teardown name source).2 :=
      ⟨hdown.source, hdown.others, hdown.trackers, hdown.intact⟩
    have hconnect := Store.intact_connect
      ((d.assigned subscription isFresh).teardown name source).2.broker config.client
    rw [hopen] at h
    rcases ((d.assigned subscription isFresh).teardown name source).2.connectSource_outcomes name
      config subscription with ⟨cause, -, heq⟩ | ⟨-, ⟨cause, b, haway, -, heq⟩ | ⟨b, -, -, heq⟩⟩
    · cases heq.symm.trans h
      exact hmid.trans hconnect
    · cases heq.symm.trans h
      exact hmid.trans ((hconnect.trans haway.intact).trans (b.intact_closeClient _))
    · cases heq.symm.trans h

theorem clients_dropUnheld (d : Deployment Store) :
    d.dropUnheld.broker.clients = d.broker.clients :=
  dropUnheld_preserves (P := fun b => b.clients = d.broker.clients)
    (fun b _ t _ _ h => (b.sameClients_release t.consumer).clients.trans h) rfl

theorem consumers_length_dropUnheld (d : Deployment Store) :
    d.dropUnheld.broker.consumers.length = d.broker.consumers.length :=
  dropUnheld_preserves (P := fun b => b.consumers.length = d.broker.consumers.length)
    (fun b _ t _ _ h => (b.length_release t.consumer).trans h) rfl

/-- What a failed open leaves behind is still so when unheld consumers are dropped. -/
theorem AfterFailure.dropUnheld {e : SourceError Memory.Failure}
    (h : d.AfterFailure name source after e) (hd : d.Tidy) :
    d.AfterFailure name source after.dropUnheld e := by
  have hunwound : d.Unwound name source after → d.Unwound name source after.dropUnheld := by
    intro h
    have hintact : after.broker.Intact after.dropUnheld.broker :=
      dropUnheld_preserves (fun b _ t _ _ hb => hb.trans (b.intact_release t.consumer))
        (Store.intact_of_eq rfl)
    rw [dropUnheld_eq] at hintact ⊢
    exact h.trans hintact
  have hsame : after = d → after.dropUnheld = d := by
    intro h
    rw [h, hd.dropUnheld]
  cases e with
  | notConfigured | malformedPosition | subscriptionMismatch => exact hsame h
  | connect | subscribe => exact hunwound h
  | _ => exact h

/-- A step that opens a source in vain does so on a source that there is. -/
theorem afterFailure_of_step {position : Option Bytes} {unused : String}
    {e : SourceError Memory.Failure} (hd : d.Tidy)
    (h : (d.step (.openSource name position unused)).1 = .failed e) :
    ∃ source, d.sources.find? name = some source ∧
      AfterFailure { d with log := [] } name source
        (d.step (.openSource name position unused)).2 e := by
  simp only [step, act] at h ⊢
  cases hs : d.sources.find? name with
  | none =>
      rw [hs] at h
      cases h
  | some source =>
      rw [hs] at h
      dsimp only [Prod.map, id] at h ⊢
      refine ⟨source, rfl, ?_⟩
      rcases hopen : openSource { d with log := [] } name source position unused with
        ⟨result, after⟩
      rw [hopen] at h
      obtain rfl : result = some (.error e) := by
        rcases result with _ | _ | _ <;> cases h
        rfl
      exact (openSource_error (d := { d with log := [] }) hs hopen).dropUnheld hd

/-! ## What a source has obtained -/

/-- A source has obtained, in the course of steps, what the broker counts under a number: an open of
the source brought the count up beyond the number, and the source was not replaced since. -/
def Obtained (count : Store → ℕ) (name : String) (steps : List (Step Store)) (number : ℕ) : Prop :=
  ∃ before position unused rest, steps = before ++ .openSource name position unused :: rest ∧
    (∀ s ∈ rest, ¬ s.Replaces name) ∧ count (fresh.run before).2.broker ≤ number ∧
    number < count ((fresh.run before).2.step (.openSource name position unused)).2.broker

/-- A client is closed, unless it is that of the session. -/
def SettledClient (d : Deployment Store) (name : String) (c : ℕ) : Prop :=
  d.broker.clients[c]? = some true ∨
    ∃ session, d.session? name = some session ∧ session.clientNumber = c

/-- A consumer has gone, unless it is that of the session. -/
def SettledConsumer (d : Deployment Store) (name : String) (c : ℕ) : Prop :=
  d.broker.Gone c ∨ ∃ session t, d.session? name = some session ∧
    d.trackers[session.tracker]? = some t ∧ t.consumerNumber = c

theorem SettledClient.step {c : ℕ} (hc : d.SettledClient name c) (h : d.Regular)
    (hk : d.AllKnown) (hs : ¬ s.Replaces name) : (d.step s).2.SettledClient name c := by
  rcases hc with hclosed | ⟨session, hsession, rfl⟩
  · exact .inl ((d.keepsClients_step s).closed _ hclosed)
  · rcases h.session_step hk hs with hkept | hclosed
    · exact .inr ⟨session, hkept.trans hsession, rfl⟩
    · exact .inl (hclosed session hsession).client

theorem SettledConsumer.step {c : ℕ} (hc : d.SettledConsumer name c) (h : d.Regular)
    (hk : d.AllKnown) (hs : ¬ s.Replaces name) : (d.step s).2.SettledConsumer name c := by
  rcases hc with hgone | ⟨session, t, hsession, ht, rfl⟩
  · exact .inl ((h.extends_step s).stays_gone hgone)
  · obtain ⟨t', ht', hconsumer, -⟩ := h.tracker_step s ht
    rcases h.session_step hk hs with hkept | hclosed
    · exact .inr ⟨session, t', hkept.trans hsession, ht', hconsumer⟩
    · have hgone := (hclosed session hsession).consumer t' ht'
      rw [hconsumer] at hgone
      exact .inl hgone

/-- What holds of a source as long as it is not replaced. -/
theorem Regular.preserve_unreplaced {P : Deployment Store → Prop}
    (hP : ∀ (d : Deployment Store) (s : Step Store), d.Regular → d.AllKnown →
      ¬ s.Replaces name → P d → P (d.step s).2)
    (h : d.Regular) (hk : d.AllKnown) (hd : P d) (steps : List (Step Store))
    (hs : ∀ s ∈ steps, ¬ s.Replaces name) : P (d.run steps).2 := by
  induction steps generalizing d with
  | nil => exact hd
  | cons s rest ih =>
      have hstep := hP d s h hk (hs s (List.mem_cons_self ..)) hd
      exact ih (h.step s) (h.allKnown_step hk s) hstep fun s' hs' =>
        hs s' (List.mem_cons_of_mem _ hs')

/-- Every client and every consumer that came since a state of the broker is closed, unless it is
that of the session. -/
structure SettledSince (d : Deployment Store) (b : Store) (name : String) : Prop where
  client : ∀ c, b.clients.length ≤ c → c < d.broker.clients.length → d.SettledClient name c
  consumer : ∀ c, b.consumers.length ≤ c → c < d.broker.consumers.length →
    d.SettledConsumer name c

theorem settledSince_self (d : Deployment Store) (name : String) :
    d.SettledSince d.broker name where
  client _ hle hlt := absurd hlt (Nat.not_lt.mpr hle)
  consumer _ hle hlt := absurd hlt (Nat.not_lt.mpr hle)

/-- A connection gives back the client that it got, or the source has it with its consumer. -/
theorem settledSince_connectSource (d : Deployment Store) (name : String) (config : Config)
    (subscription : String) :
    (d.connectSource name config subscription).2.SettledSince d.broker name := by
  generalize hafter : (d.connectSource name config subscription).2 = after
  have hconsumers : (d.connected config).consumers = d.broker.consumers :=
    (Store.connect_quiet d.broker config.client).2
  have hsubscribed := ((d.connected config).sameClients_subscribe d.broker.clients.length
    (config.subscribeOptions subscription)).clients
  rcases d.connectSource_outcomes name config subscription with
    ⟨cause, hclients, heq⟩ | ⟨hclients, ⟨cause, b, haway, hb, heq⟩ | ⟨b, hattach, hb, heq⟩⟩
  · rw [heq] at hafter
    subst hafter
    constructor
    · intro c hle hlt
      change c < (d.connected config).clients.length at hlt
      rw [hclients] at hlt
      omega
    · intro c hle hlt
      change c < (d.connected config).consumers.length at hlt
      rw [hconsumers] at hlt
      omega
  · rw [heq] at hafter
    subst hafter
    rw [hb, hclients] at hsubscribed
    constructor
    · intro c hle hlt
      change c < (b.closeClient d.broker.clients.length).clients.length at hlt
      rw [Store.clients_closeClient, List.length_set, hsubscribed, List.length_append,
        List.length_singleton] at hlt
      obtain rfl : c = d.broker.clients.length := by omega
      left
      change (b.closeClient d.broker.clients.length).clients[d.broker.clients.length]? = some true
      rw [Store.clients_closeClient, hsubscribed, List.getElem?_set_self (by simp)]
    · intro c hle hlt
      change c < (b.closeClient d.broker.clients.length).consumers.length at hlt
      rw [(b.closeClient_quiet _).2, haway.consumers, hconsumers] at hlt
      omega
  · rw [heq] at hafter
    have hsession : after.session? name = some ⟨d.broker.clients.length, d.trackers.length⟩ := by
      rw [← hafter]
      exact (session?_insert (d := d) _ rfl name).trans (if_pos rfl)
    have htracker : after.trackers[d.trackers.length]? =
        some { consumer := d.broker.consumers.length, subscription } := by
      rw [← hafter]
      exact List.getElem?_concat_length ..
    have hbroker : after.broker = b := by rw [← hafter]
    rw [hb, hclients] at hsubscribed
    constructor
    · intro c hle hlt
      rw [hbroker, hsubscribed, List.length_append, List.length_singleton] at hlt
      obtain rfl : c = d.broker.clients.length := by omega
      exact .inr ⟨_, hsession, rfl⟩
    · intro c hle hlt
      rw [hbroker, hattach.consumers, hconsumers, List.length_append,
        List.length_singleton] at hlt
      obtain rfl : c = d.broker.consumers.length := by omega
      exact .inr ⟨_, _, hsession, htracker, rfl⟩

theorem settledSince_openSource (hs : d.sources.find? name = some source)
    (position : Option Bytes) (unused : String) :
    (d.openSource name source position unused).2.SettledSince d.broker name := by
  rcases openSource_cases hs position unused with
    ⟨e, -, he⟩ | ⟨config, subscription, isFresh, -, -, hopen⟩
  · rw [he]
    exact settledSince_self d name
  · have hclients := (d.assigned subscription isFresh).clients_length_teardown name source
    have hconsumers :=
      (teardown_spec (d := d.assigned subscription isFresh) hs).2.consumers_length
    have h := settledSince_connectSource ((d.assigned subscription isFresh).teardown name source).2
      name config subscription
    rw [hopen]
    constructor
    · intro c hle hlt
      exact h.client c (hclients.trans_le hle) hlt
    · intro c hle hlt
      exact h.consumer c (hconsumers.trans_le hle) hlt

theorem SettledSince.dropUnheld {b : Store} (h : d.SettledSince b name) (hd : d.broker.Sound) :
    d.dropUnheld.SettledSince b name := by
  have hclients := d.clients_dropUnheld
  have hconsumers := d.consumers_length_dropUnheld
  constructor
  · intro c hle hlt
    rw [hclients] at hlt
    rcases h.client c hle hlt with hclosed | ⟨session, hsession, hc⟩
    · left
      rw [hclients]
      exact hclosed
    · exact .inr ⟨session, (d.session?_dropUnheld name).trans hsession, hc⟩
  · intro c hle hlt
    rw [hconsumers] at hlt
    rcases h.consumer c hle hlt with hgone | ⟨session, t, hsession, ht, hc⟩
    · exact .inl ((d.calls_dropUnheld.guides hd).extends_.stays_gone hgone)
    · exact .inr ⟨session, t, (d.session?_dropUnheld name).trans hsession, ht, hc⟩

theorem Regular.settledSince_step (h : d.Regular) (name : String) (position : Option Bytes)
    (unused : String) :
    (d.step (.openSource name position unused)).2.SettledSince d.broker name := by
  have hsound := (h.cleared.act (.openSource name position unused)).sound
  refine SettledSince.dropUnheld ?_ hsound
  simp only
  cases hs : d.sources.find? name with
  | none => exact settledSince_self { d with log := [] } name
  | some source => exact settledSince_openSource (d := { d with log := [] }) hs position unused

/-- What holds of all that an open brings, and of a source that is not replaced goes on to hold,
holds of all that the source has obtained. -/
theorem holds_of_obtained {P : Deployment Store → ℕ → Prop} {count : Store → ℕ}
    {steps : List (Step Store)} {c : ℕ} (h : Obtained count name steps c)
    (hnew : ∀ (d : Deployment Store) (position : Option Bytes) (unused : String), d.Regular →
      let after := (d.step (.openSource name position unused)).2
      count d.broker ≤ c → c < count after.broker → P after c)
    (hstep : ∀ (d : Deployment Store) (s : Step Store), d.Regular → d.AllKnown →
      ¬ s.Replaces name → P d c → P (d.step s).2 c) : P (fresh.run steps).2 c := by
  obtain ⟨before, position, unused, rest, rfl, hrest, hle, hlt⟩ := h
  have hd := Regular.initial.run before
  have hk := Regular.initial.allKnown_run allKnown_fresh before
  rw [run_append]
  exact (hd.step _).preserve_unreplaced hstep (hd.allKnown_step hk _)
    (hnew _ position unused hd hle hlt) rest hrest

theorem settledClient_of_obtained {steps : List (Step Store)} {c : ℕ}
    (h : Obtained (·.clients.length) name steps c) : (fresh.run steps).2.SettledClient name c :=
  holds_of_obtained (P := fun d c => d.SettledClient name c) h
    (fun _ position unused hd => (hd.settledSince_step name position unused).client c)
    fun _ _ hd hk hs hc => hc.step hd hk hs

theorem settledConsumer_of_obtained {steps : List (Step Store)} {c : ℕ}
    (h : Obtained (·.consumers.length) name steps c) :
    (fresh.run steps).2.SettledConsumer name c :=
  holds_of_obtained (P := fun d c => d.SettledConsumer name c) h
    (fun _ position unused hd => (hd.settledSince_step name position unused).consumer c)
    fun _ _ hd hk hs hc => hc.step hd hk hs

end TrackedDelivery.Deployment

namespace TrackedDelivery.Memory

/-- An open that fails before it asks the broker changes nothing. One that fails later leaves its
source configured and without a session, all logs and subscriptions as they were, and all that the
source ever obtained closed. To configure a source changes nothing but its configuration, and not
even that if it fails. -/
theorem failed_open_undone :
    (∀ (d : Deployment Store) (name : String) (source : Source Store) (position : Option Bytes)
      (unused : String) (e : SourceError Memory.Failure) (after : Deployment Store),
      d.sources.find? name = some source →
      d.openSource name source position unused = (some (.error e), after) →
      d.AfterFailure name source after e) ∧
    (∀ (steps : List (Step Store)) (name : String) (position : Option Bytes) (unused : String)
      (e : SourceError Memory.Failure),
      let opened := steps ++ [.openSource name position unused]
      let d := (Deployment.fresh.run steps).2
      let after := (Deployment.fresh.run opened).2
      (d.step (.openSource name position unused)).1 = .failed e →
      ∃ source, d.sources.find? name = some source ∧
        Deployment.AfterFailure { d with log := [] } name source after e ∧
        (¬ e.Preliminary →
          (∀ c, Deployment.Obtained (·.clients.length) name opened c →
            after.broker.clients[c]? = some true) ∧
          ∀ c, Deployment.Obtained (·.consumers.length) name opened c → after.broker.Gone c)) ∧
    ∀ (d : Deployment Store) (name : String) (source : Source Store) (pairs : TextMap String),
      match d.configure name source pairs with
      | (.error _, after) => after = { d with log := after.log }
      | (.ok (), after) => ∃ config, Config.ofPairs pairs = .ok config ∧ after = { d with
          sources := d.sources.insert name { source with config := some config }
          log := after.log } := by
  refine ⟨fun _ _ _ _ _ _ _ hs h => Deployment.openSource_error hs h, ?_, ?_⟩
  · intro steps name position unused e opened d after hfailed
    have hafter : after = (d.step (.openSource name position unused)).2 :=
      Deployment.run_append _ steps [.openSource name position unused]
    obtain ⟨source, hs, hleft⟩ := Deployment.afterFailure_of_step
      (Deployment.tidy_run Deployment.tidy_fresh) hfailed
    rw [← hafter] at hleft
    refine ⟨source, hs, hleft, fun he => ?_⟩
    have hsession : after.session? name = none := by
      have hunwound : Deployment.Unwound { d with log := [] } name source after := by
        cases e with
        | connect | subscribe => exact hleft
        | notConfigured | malformedPosition | subscriptionMismatch => exact absurd trivial he
        | _ => exact hleft.elim
      rw [Deployment.session?, hunwound.source]
      rfl
    constructor
    · intro c hc
      rcases Deployment.settledClient_of_obtained hc with hclosed | ⟨session, h, -⟩
      · exact hclosed
      · cases hsession.symm.trans h
    · intro c hc
      rcases Deployment.settledConsumer_of_obtained hc with hgone | ⟨session, t, h, -⟩
      · exact hgone
      · cases hsession.symm.trans h
  · intro d name source pairs
    rcases d.configure_cases name source pairs with ⟨cause, -, h⟩ | ⟨config, hconfig, h⟩
    · rw [h]
    · rw [h]
      exact ⟨config, hconfig, rfl⟩

/-- A source that has read a message is to be opened again, and the broker will let it connect and
not subscribe. -/
def turnedAwayRun : List (Step Store) :=
  [.create "a" (some sampleConfig), .openSource "a" none "",
    .stimulate (Stimulus.publish "t" [] [1] none 0), .ask (.source "a") .read false,
    .stimulate (Stimulus.failSubscribe "no")]

set_option maxRecDepth 10000 in
theorem undone_of_turnedAwayRun :
    let d := (Deployment.fresh.run turnedAwayRun).2
    let reopened := (Deployment.fresh.run (turnedAwayRun ++ [.openSource "a" none ""])).2
    let elsewhere := (Position.ofSubscription "other").encode
    ∃ source : Source Store, d.sources.find? "a" = some source ∧
      (d.openSource "a" source (some elsewhere) "").1 =
        some (.error (.subscriptionMismatch "other" "s")) ∧
      (d.openSource "a" source (some elsewhere) "").2 = d ∧
      (d.step (.openSource "a" none "")).1 = .failed (.subscribe (.subscribeRejected "no")) ∧
      reopened.sources.find? "a" = some { source with session := none } ∧
      reopened.broker.clients[0]? = some true ∧ reopened.broker.clients[1]? = some true ∧
      reopened.broker.Gone 0 ∧
      (d.configure "a" source ∅).2.sources = d.sources := by
  intro d reopened elsewhere
  obtain ⟨hopen, hrun, hconfigure⟩ := failed_open_undone
  have hfailed : (d.step (.openSource "a" none "")).1 =
      .failed (.subscribe (.subscribeRejected "no")) := rfl
  obtain ⟨source, hs, hunwound, hclosed⟩ := hrun turnedAwayRun "a" none "" _ hfailed
  obtain ⟨hclients, hconsumers⟩ := hclosed id
  have hconfig : source.config = some sampleConfig := by
    have hmap : (d.sources.find? "a").map (·.config) = some (some sampleConfig) := by
      decide +kernel
    rw [hs] at hmap
    exact Option.some.inj hmap
  have hunreplaced : ∀ s ∈ turnedAwayRun.drop 2 ++ [.openSource "a" none ""],
      ¬ s.Replaces "a" := by
    simp [turnedAwayRun, Step.Replaces]
  have hmismatch : (d.openSource "a" source (some elsewhere) "").1 =
      some (.error (.subscriptionMismatch "other" "s")) := by
    have hsettle : settleName (ε := Memory.Failure) sampleConfig (some elsewhere) "" =
        .error (.subscriptionMismatch "other" "s") := by decide +kernel
    unfold Deployment.openSource
    rw [hconfig]
    dsimp only
    rw [hsettle]
  have hbad : (d.configure "a" source ∅).1 = .error (.config (.missing .url)) := by
    rfl
  refine ⟨source, hs, hmismatch, ?_, hfailed, hunwound.source, ?_, ?_, ?_, ?_⟩
  · exact hopen d "a" source _ _ _ _ hs (Prod.ext hmismatch rfl)
  · exact hclients 0 ⟨[.create "a" (some sampleConfig)], none, "", _, rfl, hunreplaced,
      by decide +kernel, by decide +kernel⟩
  · exact hclients 1 ⟨turnedAwayRun, none, "", [], rfl, by simp, by decide +kernel,
      by decide +kernel⟩
  · exact hconsumers 0 ⟨[.create "a" (some sampleConfig)], none, "", _, rfl, hunreplaced,
      by decide +kernel, by decide +kernel⟩
  · have h := hconfigure d "a" source ∅
    generalize d.configure "a" source ∅ = r at hbad h ⊢
    obtain ⟨result, after⟩ := r
    cases hbad
    rw [h]

end TrackedDelivery.Memory
