import TrackedDelivery.Proofs.Deployment.Acknowledgment
import TrackedDelivery.Proofs.Deployment.Opening
import TrackedDelivery.Proofs.Deployment.Reopening
/-!
# Restarts

A position names the subscription that its record was read from. Whoever opens a source of the same
configuration with it therefore comes to the same subscription, also when the name was generated: a
configured name is the name of every session, and without one the position decides. So a chain of
sessions in which each resumes from a position of the one before stays at one subscription.
-/
namespace TrackedDelivery

variable {ε : Type} {config : Config} {position : Option Bytes} {bytes : Bytes}
  {unused unused' subscription : String} {isFresh : Bool}

/-! ## Settled names -/

/-- Every session of a configuration with a name has this name. -/
theorem configured_of_settleName
    (h : settleName (ε := ε) config position unused = .ok (subscription, isFresh))
    {configured : String} (hconfig : config.subscriptionName = some configured) :
    configured = subscription := by
  unfold settleName at h
  rw [hconfig] at h
  cases position with
  | none =>
      cases h
      rfl
  | some bytes =>
      dsimp only at h
      split at h
      · cases h
      · split at h
        · cases h
          assumption
        · cases h

/-- Whoever resumes from a position comes to the subscription that it names. -/
theorem decode_of_settleName
    (h : settleName (ε := ε) config (some bytes) unused = .ok (subscription, isFresh)) :
    ∃ p, Position.decode bytes = .ok p ∧ p.subscription = subscription := by
  unfold settleName at h
  dsimp only at h
  split at h
  · cases h
  · rename_i p hp
    refine ⟨p, hp, ?_⟩
    split at h
    · cases h
      rfl
    · split at h
      · cases h
        rfl
      · cases h

/-- The position of a message settles the name that it was written for, unless another one is
configured. -/
theorem settleName_forMessage {ι : Type} [MessageId ι]
    (h : ∀ configured, config.subscriptionName = some configured → configured = subscription)
    (id : ι) (unused : String) :
    settleName (ε := ε) config (some (Position.forMessage subscription id).encode) unused =
      .ok (subscription, false) := by
  unfold settleName
  simp only [Position.decode_encode, Position.forMessage]
  cases hconfig : config.subscriptionName with
  | none => rfl
  | some configured => exact if_pos (h configured hconfig)

end TrackedDelivery

namespace TrackedDelivery.Deployment

open Memory

variable {d : Deployment Store} {name unused subscription : String} {config : Config}
  {source : Source Store} {position : Option Bytes} {n : ℕ}

/-! ## Opens that succeed -/

/-- The name of the subscription that a tracker was made for. -/
def nameOf? (d : Deployment Store) (n : ℕ) : Option String := (d.trackers[n]?).map (·.subscription)

theorem subscriptionName?_eq (h : d.trackerNumber? (.source name) = some n) :
    d.subscriptionName? name = d.nameOf? n := by
  rw [subscriptionName?, tracker?, h]
  rfl

/-- A source that gets connected has a tracker of its subscription. -/
theorem nameOf?_of_connected
    (h : (d.connectSource name config subscription).1 = some (.ok ())) :
    ∃ n, (d.connectSource name config subscription).2.dropUnheld.trackerNumber? (.source name) =
        some n ∧
      (d.connectSource name config subscription).2.dropUnheld.nameOf? n = some subscription := by
  rw [dropUnheld_eq]
  rcases d.connectSource_cases name config subscription with ⟨e, he, -⟩ | ⟨client, b, -, heq⟩
  · rw [he] at h
    cases h
  · rw [heq]
    refine ⟨d.trackers.length, ?_, ?_⟩
    · simp [trackerNumber?, session?, TextMap.find?_insert]
    · simp [nameOf?]

/-- An open that succeeds gives its source a tracker of the subscription whose name was settled. -/
theorem opened_of_done (h : (d.step (.openSource name position unused)).1 = .done) :
    ∃ (source : Source Store) (config : Config) (subscription : String) (isFresh : Bool) (n : ℕ),
      d.sources.find? name = some source ∧ source.config = some config ∧
      settleName (ε := Memory.Failure) config position unused = .ok (subscription, isFresh) ∧
      (d.step (.openSource name position unused)).2.trackerNumber? (.source name) = some n ∧
      (d.step (.openSource name position unused)).2.nameOf? n = some subscription := by
  obtain ⟨source, hs, hopen, hact⟩ := openSource_of_done (d := { d with log := [] }) h
  rw [step]
  dsimp only
  rw [hact]
  rcases openSource_cases hs position unused with
    ⟨e, -, he⟩ | ⟨config, subscription, isFresh, hconfig, hsettle, heq⟩
  · rw [he] at hopen
    cases hopen
  · rw [heq] at hopen ⊢
    obtain ⟨n, hn, hname⟩ := nameOf?_of_connected hopen
    exact ⟨source, config, subscription, isFresh, n, hs, hconfig, hsettle, hn, hname⟩

/-- An open whose name settles does not fail for the sake of the name. -/
theorem answer_of_settled (hs : d.sources.find? name = some source)
    (hconfig : source.config = some config) {isFresh : Bool}
    (hsettle : settleName (ε := Memory.Failure) config position unused =
      .ok (subscription, isFresh)) :
    (d.step (.openSource name position unused)).1 = .done ∨
      ∃ cause, (d.step (.openSource name position unused)).1 = .failed (.connect cause) ∨
        (d.step (.openSource name position unused)).1 = .failed (.subscribe cause) := by
  obtain ⟨events, hopen⟩ := openSource_eq (d := { d with log := [] }) hs hconfig hsettle
  rw [step_openSource hs, hopen]
  rcases (vacated { d with log := [] } name source isFresh).connectSource_outcomes name config
    subscription with ⟨cause, -, heq⟩ | ⟨-, ⟨cause, b, -, -, heq⟩ | ⟨b, -, -, heq⟩⟩
  · rw [heq]
    exact .inr ⟨cause, .inl rfl⟩
  · rw [heq]
    exact .inr ⟨cause, .inr rfl⟩
  · rw [heq]
    exact .inl rfl

/-- A tracker keeps its subscription along a run. -/
theorem nameOf?_run {before rest : List (Step Store)}
    (h : (fresh.run before).2.nameOf? n = some subscription) :
    (fresh.run (before ++ rest)).2.nameOf? n = some subscription := by
  obtain ⟨t, ht, rfl⟩ := Option.map_eq_some_iff.mp h
  have hturns := turns_run (recorded_run before) rest
  rw [← run_append] at hturns
  obtain ⟨u, hu, -, hsame⟩ := hturns.tracker ht
  exact Option.map_eq_some_iff.mpr ⟨u, hu, hsame⟩

/-! ## Sessions and their positions -/

/-- In the course of steps a source of a configuration was opened, from a position or from none: its
session has a tracker and consumes under a name. -/
def Opened (steps : List (Step Store)) (config : Config) (position : Option Bytes) (n : ℕ)
    (subscription : String) : Prop :=
  ∃ (before : List (Step Store)) (name unused : String) (rest : List (Step Store))
    (source : Source Store), steps = before ++ .openSource name position unused :: rest ∧
    (fresh.run before).2.sources.find? name = some source ∧ source.config = some config ∧
    ((fresh.run before).2.step (.openSource name position unused)).1 = .done ∧
    ((fresh.run before).2.step (.openSource name position unused)).2.trackerNumber?
      (.source name) = some n ∧
    ((fresh.run before).2.step (.openSource name position unused)).2.subscriptionName? name =
      some subscription

theorem Opened.intro (before rest : List (Step Store))
    (h : ((fresh.run before).2.sources.find? name).map (·.config) = some (some config) ∧
      ((fresh.run before).2.step (.openSource name position unused)).1 = .done ∧
      ((fresh.run before).2.step (.openSource name position unused)).2.trackerNumber?
        (.source name) = some n ∧
      ((fresh.run before).2.step (.openSource name position unused)).2.subscriptionName? name =
        some subscription) :
    Opened (before ++ .openSource name position unused :: rest) config position n subscription := by
  obtain ⟨source, hs, hconfig⟩ := Option.map_eq_some_iff.mp h.1
  exact ⟨before, name, unused, rest, source, rfl, hs, hconfig, h.2⟩

/-- In the course of steps a request to a tracker was answered with the record of a position. -/
def Emitted (steps : List (Step Store)) (n : ℕ) (position : Bytes) : Prop :=
  ∃ (before : List (Step Store)) (s : Step Store) (rest : List (Step Store)) (request : Request),
    steps = before ++ s :: rest ∧ (fresh.run before).2.asked? s = some (n, request) ∧
    position? ((fresh.run before).2.step s).1 = some position

/-- Sessions of one configuration, each of which but the first was resumed from a position of the
one before: the first and the last of them, with their names. -/
inductive Restarts (steps : List (Step Store)) (config : Config) (n : ℕ) (subscription : String) :
    ℕ → String → Prop
  | opened {position : Option Bytes} (opened : Opened steps config position n subscription) :
      Restarts steps config n subscription n subscription
  | resumed {k l : ℕ} {last next : String} {position : Bytes}
      (restarts : Restarts steps config n subscription k last) (emitted : Emitted steps k position)
      (opened : Opened steps config (some position) l next) :
      Restarts steps config n subscription l next

variable {steps : List (Step Store)}

/-- The session that was opened goes by the name that was settled, and its tracker keeps it. -/
theorem Opened.settled (h : Opened steps config position n subscription) :
    (fresh.run steps).2.nameOf? n = some subscription ∧ ∃ (unused : String) (isFresh : Bool),
      settleName (ε := Memory.Failure) config position unused = .ok (subscription, isFresh) := by
  obtain ⟨before, name, unused, rest, source, rfl, hs, hconfig, hdone, hn, hname⟩ := h
  obtain ⟨source', config', settled, isFresh, k, hs', hconfig', hsettle, hk, hsettled⟩ :=
    opened_of_done hdone
  cases hs.symm.trans hs'
  cases hconfig.symm.trans hconfig'
  cases hn.symm.trans hk
  rw [subscriptionName?_eq hn] at hname
  cases hname.symm.trans hsettled
  refine ⟨?_, unused, isFresh, hsettle⟩
  rw [List.append_cons]
  apply nameOf?_run
  rw [run_append]
  exact hname

/-- A position that a tracker emitted names its subscription. -/
theorem Emitted.eq_forMessage {position : Bytes} (h : Emitted steps n position) :
    ∃ (subscription : String) (id : EntryId), (fresh.run steps).2.nameOf? n = some subscription ∧
      position = (Position.forMessage subscription id).encode := by
  obtain ⟨before, s, rest, request, rfl, hasked, hposition⟩ := h
  obtain ⟨t, id, ht, hid⟩ := (acts { (fresh.run before).2 with log := [] } s).position? hasked
    hposition
  refine ⟨t.subscription, id, nameOf?_run ?_, hid⟩
  exact Option.map_eq_some_iff.mpr ⟨t, ht, rfl⟩

/-- A position of a session settles the name of the session, wherever the configuration is the
same. -/
theorem Opened.settleName_emitted (h : Opened steps config position n subscription)
    {emitted : Bytes} (hemitted : Emitted steps n emitted) (unused : String) :
    settleName (ε := Memory.Failure) config (some emitted) unused = .ok (subscription, false) := by
  obtain ⟨hname, _, _, hsettle⟩ := h.settled
  obtain ⟨written, id, hwritten, rfl⟩ := hemitted.eq_forMessage
  cases hname.symm.trans hwritten
  exact settleName_forMessage (fun _ => configured_of_settleName hsettle) id unused

/-- The last of a chain of sessions was opened, and it goes by the name of the first. -/
theorem Restarts.opened_last {k : ℕ} {last : String}
    (h : Restarts steps config n subscription k last) :
    last = subscription ∧ ∃ position, Opened steps config position k last := by
  induction h with
  | opened opened => exact ⟨rfl, _, opened⟩
  | resumed _ emitted opened ih =>
      obtain ⟨rfl, position, hbefore⟩ := ih
      obtain ⟨-, unused, _, hsettle⟩ := opened.settled
      cases hsettle.symm.trans (hbefore.settleName_emitted emitted unused)
      exact ⟨rfl, _, opened⟩

end TrackedDelivery.Deployment

namespace TrackedDelivery.Memory

instance decidableDone : (answer : Answer Store) → Decidable (answer = .done)
  | .done => isTrue rfl
  | .outcome _ | .failed _ | .refused _ | .waits | .notOpen | .received _ | .reported _
  | .existed _ | .unknown => isFalse nofun

/-- However often the sessions of one configuration are resumed, each from a position of the one
before, the name of the subscription does not change; and whoever opens a source of the same
configuration from a position of the last of them, at any time, is not told that the position is
malformed or that it is of another subscription, and comes to the same subscription if the open
succeeds. Every open from a position that succeeds comes to the subscription that the position
names, which is the configured one if one is configured. -/
theorem restarts_keep_subscription :
    (∀ (steps : List (Step Store)) (config : Config) (n k : ℕ) (subscription last : String),
      Deployment.Restarts steps config n subscription k last → last = subscription ∧
      ∀ position, Deployment.Emitted steps k position →
        ∀ (d : Deployment Store) (name unused : String) (source : Source Store),
          d.sources.find? name = some source → source.config = some config →
          let (answer, after) := d.step (.openSource name (some position) unused)
          (∀ cause, answer ≠ .failed (.malformedPosition cause)) ∧
          (∀ named configured, answer ≠ .failed (.subscriptionMismatch named configured)) ∧
          (answer = .done → after.subscriptionName? name = some subscription)) ∧
    ∀ (d : Deployment Store) (name : String) (position : Bytes) (unused : String),
      (d.step (.openSource name (some position) unused)).1 = .done →
      ∃ (source : Source Store) (config : Config) (p : Position),
        d.sources.find? name = some source ∧ source.config = some config ∧
        Position.decode position = .ok p ∧
        (d.step (.openSource name (some position) unused)).2.subscriptionName? name =
          some p.subscription ∧
        ∀ configured, config.subscriptionName = some configured →
          configured = p.subscription := by
  constructor
  · intro steps config n k subscription last hrestarts
    obtain ⟨rfl, _, hopened⟩ := hrestarts.opened_last
    refine ⟨rfl, fun position hemitted d name unused source hs hconfig => ?_⟩
    have hsettle := hopened.settleName_emitted hemitted unused
    have hanswer := Deployment.answer_of_settled hs hconfig hsettle
    rcases hstep : d.step (.openSource name (some position) unused) with ⟨answer, after⟩
    rw [hstep] at hanswer
    dsimp only at hanswer ⊢
    refine ⟨?_, ?_, ?_⟩
    · rintro cause rfl
      simp at hanswer
    · rintro named configured rfl
      simp at hanswer
    · rintro rfl
      obtain ⟨source', config', settled, isFresh, number, hs', hconfig', hsettle', hn, hname⟩ :=
        Deployment.opened_of_done (congrArg Prod.fst hstep)
      cases hs.symm.trans hs'
      cases hconfig.symm.trans hconfig'
      cases hsettle.symm.trans hsettle'
      rw [hstep] at hn hname
      rw [Deployment.subscriptionName?_eq hn, hname]
  · intro d name position unused hdone
    obtain ⟨source, config, subscription, isFresh, n, hs, hconfig, hsettle, hn, hname⟩ :=
      Deployment.opened_of_done hdone
    obtain ⟨p, hp, rfl⟩ := decode_of_settleName hsettle
    refine ⟨source, config, p, hs, hconfig, hp, ?_, fun _ => configured_of_settleName hsettle⟩
    rw [Deployment.subscriptionName?_eq hn, hname]

/-- A source without a configured name. -/
def namelessConfig : Config := Config.minimal "url" "t"

def emittedPosition (entry : UInt64) : Bytes :=
  (Position.forMessage "first name" (⟨0, entry⟩ : EntryId)).encode

/-- A source is opened under a generated name and reads a message. Another source resumes from the
position, reads that message again and then one more, and is dropped. The first source resumes from
the last position. -/
def resumedRun : List (Step Store) :=
  [.create "a" (some namelessConfig), .openSource "a" none "first name",
    .stimulate (Stimulus.publish "t" [] [1] none 0), .ask (.source "a") .read false,
    .teardown "a", .create "b" (some namelessConfig),
    .openSource "b" (some (emittedPosition 0)) "second name",
    .stimulate (Stimulus.publish "t" [] [2] none 0),
    .ask (.source "b") .read false, .ask (.source "b") .read false, .drop .source "b",
    .openSource "a" (some (emittedPosition 1)) "third name", .ask (.source "a") .read false]

set_option maxRecDepth 10000 in
theorem restarted_of_resumedRun :
    let d := (Deployment.fresh.run resumedRun).2
    Deployment.Restarts resumedRun namelessConfig 0 "first name" 2 "first name" ∧
    (d.step (.openSource "a" (some (emittedPosition 0)) "fourth name")).1 = .done ∧
    (d.step (.openSource "a" (some (emittedPosition 0)) "fourth name")).2.subscriptionName? "a" =
      some "first name" := by
  intro d
  have hfirst : Deployment.Opened resumedRun namelessConfig none 0 "first name" :=
    Deployment.Opened.intro (resumedRun.take 1) (resumedRun.drop 2) (by decide +kernel)
  have hsecond : Deployment.Opened resumedRun namelessConfig (some (emittedPosition 0)) 1
      "first name" :=
    Deployment.Opened.intro (resumedRun.take 6) (resumedRun.drop 7) (by decide +kernel)
  have hthird : Deployment.Opened resumedRun namelessConfig (some (emittedPosition 1)) 2
      "first name" :=
    Deployment.Opened.intro (resumedRun.take 11) (resumedRun.drop 12) (by decide +kernel)
  have hemitted : Deployment.Emitted resumedRun 0 (emittedPosition 0) ∧
      Deployment.Emitted resumedRun 1 (emittedPosition 1) ∧
      Deployment.Emitted resumedRun 2 (emittedPosition 0) :=
    ⟨⟨resumedRun.take 3, _, resumedRun.drop 4, .read, rfl, by decide +kernel, by decide +kernel⟩,
      ⟨resumedRun.take 9, _, resumedRun.drop 10, .read, rfl, by decide +kernel, by decide +kernel⟩,
      ⟨resumedRun.take 12, _, [], .read, rfl, by decide +kernel, by decide +kernel⟩⟩
  have hrestarts := ((Deployment.Restarts.opened hfirst).resumed hemitted.1 hsecond).resumed
    hemitted.2.1 hthird
  have hconfig : (d.sources.find? "a").map (·.config) = some (some namelessConfig) := by
    decide +kernel
  obtain ⟨source, hs, hconfig⟩ := Option.map_eq_some_iff.mp hconfig
  obtain ⟨-, hresumes⟩ := restarts_keep_subscription.1 _ _ _ _ _ _ hrestarts
  obtain ⟨-, -, hname⟩ := hresumes _ hemitted.2.2 d "a" "fourth name" source hs hconfig
  have hdone : (d.step (.openSource "a" (some (emittedPosition 0)) "fourth name")).1 = .done := by
    decide +kernel
  exact ⟨hrestarts, hdone, hname hdone⟩

end TrackedDelivery.Memory
