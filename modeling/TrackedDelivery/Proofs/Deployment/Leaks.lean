import TrackedDelivery.Proofs.Deployment.Balance
/-!
# Sources leak nothing

The consumers that a source obtained have gone, except that of its session. That one stays attached
unless it is closed through a handle to its tracker. With the balance of the clients this says that
whatever a source gets from its broker it gives back, as often as it is opened and however the opens
end.
-/
namespace TrackedDelivery.Deployment

open Memory Memory.Store

variable {d : Deployment Store} {name : String} {session : Session Store} {s : Step Store}
  {t : Tracker Store} {options : SubscribeOptions} {steps : List (Step Store)} {c : ℕ}

/-! ## Consumers of sessions that have ended -/

/-- A consumer that comes in a step that is not made elsewhere is that of the session, or gone. -/
theorem Regular.settledConsumer_of_new (h : d.Regular) (helsewhere : ¬ s.Elsewhere name)
    (hc : c ∈ newConsumers d.broker (d.step s).2.broker) :
    (d.step s).2.SettledConsumer name c := by
  obtain ⟨hle, hlt⟩ := mem_newConsumers.mp hc
  have hidle : d.sought? s = none → (d.step s).2.SettledConsumer name c := by
    intro hsought
    rw [consumers_length_step hsought] at hlt
    omega
  cases s with
  | openSource other position unused =>
      obtain rfl : other = name := not_not.mp helsewhere
      exact (h.settledSince_step other position unused).consumer c hle hlt
  | subscribe => exact absurd trivial helsewhere
  | _ => exact hidle rfl

/-- All consumers that came for a source are that of its session, or gone. -/
theorem Regular.settledConsumer_of_tally (h : d.Regular) (hk : d.AllKnown)
    (hs : ∀ s ∈ steps, ¬ s.Replaces name)
    (hc : c ∈ d.tally (¬ ·.Elsewhere name) newConsumers steps) :
    (d.run steps).2.SettledConsumer name c := by
  obtain ⟨before, s, rest, rfl, helsewhere, hnew⟩ := mem_tally.mp hc
  have hmid := h.run before
  have hknown := h.allKnown_run hk before
  rw [run_append]
  have hrest : ∀ s ∈ rest, ¬ s.Replaces name := fun s' hs' =>
    hs s' (List.mem_append_right _ (List.mem_cons_of_mem _ hs'))
  exact (hmid.step s).preserve_unreplaced (P := fun d => d.SettledConsumer name c)
    (fun _ _ hd hk hs hsettled => hsettled.step hd hk hs) (hmid.allKnown_step hknown s)
    (hmid.settledConsumer_of_new helsewhere hnew) rest hrest

/-! ## The consumer of the session -/

theorem consumerOf?_cases {target : Target} (h : d.consumerOf? target = some c) :
    ∃ n u, d.trackerNumber? target = some n ∧ d.trackers[n]? = some u ∧ u.consumer = c := by
  obtain ⟨u, hu, hc⟩ := Option.map_eq_some_iff.mp h
  obtain ⟨n, hn, hu⟩ := tracker?_eq_some.mp hu
  exact ⟨n, u, hn, hu, hc⟩

/-- The consumer of a session is closed by a step of its source, or through a handle. -/
theorem Apart.closing_session (h : d.Apart) (ho : d.Owned)
    (hsession : d.session? name = some session) (ht : d.trackers[session.tracker]? = some t)
    (hclosing : d.closing? s = some t.consumer) :
    s.Renews name ∨ ∃ key, s = .closeTracker key ∧ d.held.find? key = some session.tracker := by
  cases s with
  | openSource other | teardown other =>
      obtain ⟨n, u, hn, hu, hc⟩ := consumerOf?_cases hclosing
      obtain rfl := ho.tracker_inj hu ht hc
      obtain ⟨session', hsession', hn⟩ := Option.map_eq_some_iff.mp hn
      exact .inl (h.inj other name session' session hsession' hsession (.inr hn))
  | closeTracker key =>
      obtain ⟨n, u, hn, hu, hc⟩ := consumerOf?_cases hclosing
      obtain rfl := ho.tracker_inj hu ht hc
      exact .inr ⟨key, rfl, hn⟩
  | closeConsumer key => exact absurd ⟨key, hclosing⟩ (ho.not_bare ht)
  | _ => cases hclosing

/-- A source that has the same session after it was opened or torn down was left alone. -/
theorem broker_of_renewed (hs : s.Renews name) (hk : d.AllKnown)
    (hsession : d.session? name = some session)
    (hafter : (d.act s).2.session? name = some session) : (d.act s).2.broker = d.broker := by
  cases (d.acts s).renewal hs (hk name) with
  | idle broker => exact broker
  | ended _ hnone | refused _ hnone => cases hnone.symm.trans hafter
  | opened _ hopened =>
      have hmem : session.clientNumber ∈ (d.act s).2.sessionClients name :=
        mem_sessionClients.mpr ⟨session, hafter, rfl⟩
      rw [hopened, List.mem_singleton] at hmem
      exact absurd (hk name session hsession).client (Nat.not_lt.mpr (Nat.le_of_eq hmem.symm))

/-- As long as a source has a session the consumer is attached, unless it is closed through a
handle. -/
theorem Apart.attached_act (h : d.Apart) (hd : d.Regular) (hk : d.AllKnown)
    (hsession : d.session? name = some session)
    (hafter : (d.act s).2.session? name = some session)
    (ht : d.trackers[session.tracker]? = some t)
    (ha : d.broker.attached? t.consumer = some options)
    (hs : ∀ key, s = .closeTracker key → d.held.find? key ≠ some session.tracker) :
    (d.act s).2.broker.attached? t.consumer = some options := by
  by_cases hrenews : s.Renews name
  · rwa [broker_of_renewed hrenews hk hsession hafter]
  · refine (d.acts s).asks.keeps_attached ?_ ?_ ha
    · intro hclosing
      rcases h.closing_session hd.owned hsession ht hclosing with hown | ⟨key, hkey, hheld⟩
      · exact hrenews hown
      · exact hs key hkey hheld
    · intro hgiven
      exact hd.owned.not_bare ht (bare_of_givenUp hgiven)

/-- The consumer of a session is not dropped. -/
theorem Owned.attached_dropUnheld (h : d.Owned) (hsession : d.session? name = some session)
    (ht : d.trackers[session.tracker]? = some t)
    (ha : d.broker.attached? t.consumer = some options) :
    d.dropUnheld.broker.attached? t.consumer = some options :=
  d.asks_dropUnheld.keeps_attached id (h.not_unheld ht (isHeld_of_session hsession)) ha

theorem Apart.attached_step (h : d.Apart) (hd : d.Regular) (hk : d.AllKnown)
    (hsession : d.session? name = some session)
    (hafter : (d.step s).2.session? name = some session)
    (ht : d.trackers[session.tracker]? = some t)
    (ha : d.broker.attached? t.consumer = some options)
    (hs : ∀ key, s = .closeTracker key → d.held.find? key ≠ some session.tracker) :
    (d.step s).2.broker.attached? t.consumer = some options := by
  have hmid := (d.session?_step s name).symm.trans hafter
  have hacted := h.cleared.attached_act hd.cleared hk.cleared hsession hmid ht ha hs
  obtain ⟨u, hu, hconsumer, -⟩ := (turns_act hd.cleared.sound hd.cleared.allKeyed s).tracker ht
  have howned := (hd.cleared.act s).owned
  rw [← hconsumer] at hacted ⊢
  exact howned.attached_dropUnheld hmid hu hacted

/-- A session that has just been opened has a consumer that has just been attached. -/
theorem Regular.attached_of_opened (h : d.Regular) {position : Option Bytes} {unused : String}
    (hdone : (d.step (.openSource name position unused)).1 = .done)
    (hsession : (d.step (.openSource name position unused)).2.session? name = some session)
    (ht : (d.step (.openSource name position unused)).2.trackers[session.tracker]? = some t) :
    t.consumerNumber ∈ newConsumers d.broker
        (d.step (.openSource name position unused)).2.broker ∧
      ∃ options, (d.step (.openSource name position unused)).2.broker.attached? t.consumer =
        some options := by
  obtain ⟨source, hs, hopen, hact⟩ := openSource_of_done (d := { d with log := [] }) hdone
  obtain ⟨⟨hof, options, hattached, -⟩, -⟩ := openSource_arrives hs hopen
  rw [← hact] at hof hattached
  have howned := (h.cleared.act (.openSource name position unused)).owned
  rw [session?_step] at hsession
  have hnew : t.consumerNumber = d.broker.consumers.length :=
    Option.some.inj ((consumerOf?_source hsession ht).symm.trans hof)
  have hkept : (d.step (.openSource name position unused)).2.broker.attached? t.consumer =
      some options := by
    rw [← hnew] at hattached
    exact howned.attached_dropUnheld hsession ht hattached
  refine ⟨mem_newConsumers.mpr ⟨Nat.le_of_eq hnew.symm, ?_⟩, options, hkept⟩
  exact (List.getElem?_eq_some_iff.mp (Store.attached?_eq_some.mp hkept)).1

/-- The tracker of this number was closed through a handle in the course of steps. -/
def ClosedByHandle (d : Deployment Store) (steps : List (Step Store)) (n : ℕ) : Prop :=
  ∃ before key rest, steps = before ++ .closeTracker key :: rest ∧
    (d.run before).2.held.find? key = some n

theorem ClosedByHandle.append {n : ℕ} (h : d.ClosedByHandle steps n) (rest : List (Step Store)) :
    d.ClosedByHandle (steps ++ rest) n := by
  obtain ⟨before, key, after, rfl, hheld⟩ := h
  exact ⟨before, key, after ++ rest, List.append_assoc .., hheld⟩

/-- The consumer of a session came for its source, and is attached unless it was closed through a
handle. -/
structure Possesses (d : Deployment Store) (name : String) (steps : List (Step Store))
    (session : Session Store) (t : Tracker Store) : Prop where
  tracker : (d.run steps).2.trackers[session.tracker]? = some t
  came : t.consumerNumber ∈ d.tally (¬ ·.Elsewhere name) newConsumers steps
  attached : (∃ options, (d.run steps).2.broker.attached? t.consumer = some options) ∨
    d.ClosedByHandle steps session.tracker

theorem Apart.possesses_step (h : d.Apart) (hd : d.Regular) (hk : d.AllKnown)
    (hp : d.Possesses name steps session t)
    (hsession : (d.run steps).2.session? name = some session)
    (hafter : ((d.run steps).2.step s).2.session? name = some session) :
    ∃ t', d.Possesses name (steps ++ [s]) session t' := by
  have hmid := hd.run steps
  obtain ⟨t', ht', hconsumer, -⟩ := hmid.tracker_step s hp.tracker
  have hrun : (d.run (steps ++ [s])).2 = ((d.run steps).2.step s).2 := d.run_append steps [s]
  refine ⟨t', by rw [hrun]; exact ht', ?_, ?_⟩
  · rw [tally_append]
    apply List.mem_append_left
    rw [Tracker.consumerNumber, hconsumer]
    exact hp.came
  · rcases hp.attached with ⟨options, ha⟩ | hclosed
    · by_cases hs : ∃ key, s = .closeTracker key ∧
        (d.run steps).2.held.find? key = some session.tracker
      · obtain ⟨key, rfl, hheld⟩ := hs
        exact .inr ⟨steps, key, [], rfl, hheld⟩
      · left
        rw [hrun, hconsumer]
        exact ⟨options, (hd.apart_run hk h steps).attached_step hmid (hd.allKnown_run hk steps)
          hsession hafter hp.tracker ha fun key hkey hheld => hs ⟨key, hkey, hheld⟩⟩
    · exact .inr (hclosed.append [s])

/-- The session that a source without one gets in the course of steps possesses its consumer. -/
theorem Apart.possesses_run (h : d.Apart) (hd : d.Regular) (hk : d.AllKnown)
    (hnone : d.session? name = none)
    (hsession : (d.run steps).2.session? name = some session) :
    ∃ t, d.Possesses name steps session t := by
  induction steps using List.reverseRecOn with
  | nil => cases hnone.symm.trans hsession
  | append_singleton rest s ih =>
      have hrun : (d.run (rest ++ [s])).2 = ((d.run rest).2.step s).2 := d.run_append rest [s]
      rw [hrun] at hsession
      rcases session_of_step hsession with hold | ⟨⟨position, unused, rfl⟩, hdone, harises⟩
      · obtain ⟨t, ht⟩ := ih hold
        exact h.possesses_step hd hk ht hold hsession
      · have ht := List.getElem?_eq_getElem harises.known.tracker
        obtain ⟨hnew, hattached⟩ := (hd.run rest).attached_of_opened hdone hsession ht
        refine ⟨_, by rw [hrun]; exact ht, ?_, .inl (by rw [hrun]; exact hattached)⟩
        exact mem_tally.mpr ⟨rest, _, [], rfl, not_not_intro rfl, hnew⟩

/-! ## What a source has given back -/

/-- The clients that came for a source. -/
def clientsFor (d : Deployment Store) (name : String) (steps : List (Step Store)) : List ℕ :=
  d.tally (¬ ·.Elsewhere name) newClients steps

/-- The consumers that came for a source. -/
def consumersFor (d : Deployment Store) (name : String) (steps : List (Step Store)) : List ℕ :=
  d.tally (¬ ·.Elsewhere name) newConsumers steps

/-- The clients that were closed in the steps of a source. -/
def closedFor (d : Deployment Store) (name : String) (steps : List (Step Store)) : List ℕ :=
  d.tally (¬ ·.Elsewhere name) closings steps

/-- What a source has got in the course of steps it has given back, but for what its session has. -/
structure GivesBack (d : Deployment Store) (name : String) (steps : List (Step Store)) : Prop where
  balance : (d.clientsFor name steps).Perm
    (d.closedFor name steps ++ (d.run steps).2.sessionClients name)
  nodup : (d.clientsFor name steps).Nodup
  /-- So many clients came as the source was told that it got. -/
  told : (d.clientsFor name steps).length = d.allTold name steps
  length : (d.clientsFor name steps).length = (d.closedFor name steps).length +
    if ((d.run steps).2.session? name).isSome then 1 else 0
  /-- The broker's own count goes up as often in the steps of the source. -/
  counted : (d.tally (¬ ·.Elsewhere name) closingCounts steps).length =
    (d.closedFor name steps).length
  /-- Among all steps there is one that closes the client. -/
  closed : ∀ c ∈ d.clientsFor name steps, c ∉ (d.run steps).2.sessionClients name →
    (d.tally (fun _ => True) closings steps).count c = 1 ∧
      (d.run steps).2.broker.clients[c]? = some true
  session_client : ∀ c ∈ (d.run steps).2.sessionClients name,
    (d.tally (fun _ => True) closings steps).count c = 0 ∧
      (d.run steps).2.broker.clients[c]? = some false
  consumer : ∀ c ∈ d.consumersFor name steps, (d.run steps).2.SettledConsumer name c
  session_consumer : ∀ session, (d.run steps).2.session? name = some session →
    ∃ t, d.Possesses name steps session t

theorem length_sessionClients (d : Deployment Store) (name : String) :
    (d.sessionClients name).length = if (d.session? name).isSome then 1 else 0 := by
  rw [sessionClients]
  cases d.session? name <;> rfl

theorem Apart.givesBack (h : d.Apart) (hd : d.Regular) (hk : d.AllKnown)
    (hcounts : d.broker.CountsClosed) (hnone : d.session? name = none)
    (hs : ∀ s ∈ steps, ¬ s.Replaces name) : d.GivesBack name steps := by
  have hafter := hd.apart_run hk h steps
  have hclosings := d.tally_closings steps
  have hbalance := h.balance_run hd hk hs
  rw [sessionClients_of_none hnone, List.nil_append] at hbalance
  constructor
  case balance => exact hbalance
  case nodup => exact nodup_tally_newClients
  case told => exact d.length_tally_newClients name steps
  case length =>
    rw [← length_sessionClients, ← List.length_append]
    exact hbalance.length_eq
  case counted => exact hd.length_tally_closingCounts hcounts
  case closed =>
    intro c hc hsession
    have hclosed : (d.run steps).2.broker.clients[c]? = some true := by
      rcases List.mem_append.mp (hbalance.subset hc) with hc | hc
      · exact closed_of_mem_tally hc
      · exact absurd hc hsession
    have hunknown : d.broker.clients[c]? ≠ some true := by
      rw [List.getElem?_eq_none (lt_of_mem_tally hc).1]
      simp
    refine ⟨?_, hclosed⟩
    rw [hclosings.count_eq]
    exact List.count_eq_one_of_mem (nodup_closings _ _) (mem_closings.mpr ⟨hclosed, hunknown⟩)
  case session_client =>
    intro c hc
    have hopen := hafter.not_closed hc
    refine ⟨?_, hopen⟩
    rw [hclosings.count_eq]
    apply List.count_eq_zero_of_not_mem
    intro hclosed
    cases hopen.symm.trans (mem_closings.mp hclosed).1
  case consumer => exact fun c hc => hd.settledConsumer_of_tally hk hs hc
  case session_consumer => exact fun session hsession => h.possesses_run hd hk hnone hsession

end TrackedDelivery.Deployment

namespace TrackedDelivery.Memory

open Store

/-- Of the clients that a source connects, each is closed by one step and stays closed, except that
of its session, which nobody closes. Its consumers have gone, except that of its session. This holds
from the creation of the source on for as long as it is not replaced or dropped, whatever else is
done. -/
theorem source_gives_back (before rest : List (Step Store)) (name : String)
    (config : Option Config) (hrest : ∀ s ∈ rest, ¬ s.Replaces name) :
    (Deployment.fresh.run (before ++ [.create name config])).2.GivesBack name rest := by
  have hd := Deployment.Regular.initial.run (before ++ [.create name config])
  have hk := Deployment.Regular.initial.allKnown_run Deployment.allKnown_fresh
    (before ++ [.create name config])
  have happart := Deployment.Regular.initial.apart_run Deployment.allKnown_fresh
    Deployment.apart_fresh (before ++ [.create name config])
  have hcounts := Deployment.Regular.initial.countsClosed_run rfl (before ++ [.create name config])
  refine happart.givesBack hd hk hcounts ?_ hrest
  rw [Deployment.run_append]
  exact (Deployment.session?_insert { config } rfl name).trans (if_pos rfl)

/-- A source is opened, opened in vain, opened again, torn down twice, turned away and opened once
more. -/
def reopenedOftenRun : List (Step Store) :=
  [.openSource "a" none "", .openSource "a" (some (Position.ofSubscription "other").encode) "",
    .hold "a" "h", .openSource "a" none "", .closeTracker "h", .closeClient "k", .teardown "a",
    .teardown "a", .create "b" (some exclusiveConfig), .openSource "b" none "",
    .openSource "a" none "", .teardown "b", .openSource "a" none ""]

set_option maxRecDepth 10000 in
theorem givesBack_of_reopenedOftenRun :
    let start := (Deployment.fresh.run
      ([.connect "k" { url := "url" }] ++ [.create "a" (some exclusiveConfig)])).2
    (∀ s ∈ reopenedOftenRun, ¬ s.Replaces "a") ∧ start.GivesBack "a" reopenedOftenRun ∧
      start.clientsFor "a" reopenedOftenRun = [1, 2, 4, 5] ∧
      start.closedFor "a" reopenedOftenRun = [1, 2, 4] ∧
      (start.run reopenedOftenRun).2.sessionClients "a" = [5] ∧
      start.allTold "a" reopenedOftenRun = 4 ∧
      start.tally (fun _ => True) closings reopenedOftenRun = [1, 0, 2, 4, 3] ∧
      start.consumersFor "a" reopenedOftenRun = [0, 1, 3] := by
  intro start
  have hrest : ∀ s ∈ reopenedOftenRun, ¬ s.Replaces "a" := by
    simp [reopenedOftenRun, Step.Replaces]
  refine ⟨hrest, source_gives_back _ reopenedOftenRun "a" _ hrest, ?_⟩
  decide +kernel

end TrackedDelivery.Memory
