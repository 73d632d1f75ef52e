import TrackedDelivery.Proofs.Deployment.Simulation
/-!
# What a step can do

A step either names something that does not exist, and nothing happens, or it does the one thing
that it is for. `Acts` has a case for each way in which a step can go, with its answer and with the
deployment after it, whose other fields are those before the step. So what a step leaves alone is
read off the cases, and what it changes is the matter of the operation that it stands for.
-/
namespace TrackedDelivery.Deployment

open Memory

variable {d after : Deployment Store} {s : Step Store} {answer : Answer Store}

/-! ## Requests to trackers -/

/-- What a tracker has to work with. -/
def work (d : Deployment Store) (t : Tracker Store) : Delivery Store :=
  { tracker := t, broker := d.broker, log := d.log }

/-- What a deployment is after a tracker has worked. -/
def worked (d : Deployment Store) (n : ℕ) (w : Delivery Store) : Deployment Store :=
  { d with broker := w.broker, trackers := d.trackers.set n w.tracker, log := w.log }

theorem ask_eq {target : Target} {n : ℕ} {t : Tracker Store}
    (hn : d.trackerNumber? target = some n) (ht : d.trackers[n]? = some t) (request : Request)
    (cancelled : Bool) : d.ask target request cancelled =
      (.ofCall (Call.start cancelled (d.work t) request).1,
        d.worked n (Call.start cancelled (d.work t) request).2) := by
  unfold ask tracker?
  rw [hn]
  dsimp only [Option.bind_some]
  rw [ht]
  rfl

theorem start_eq {target : Target} {n : ℕ} {t : Tracker Store}
    (hn : d.trackerNumber? target = some n) (ht : d.trackers[n]? = some t) (name : String)
    (request : Request) : d.start name target request =
      (d.worked n (Call.start false (d.work t) request).2).settleTask name n false
        (Call.start false (d.work t) request).1 := by
  unfold start tracker?
  rw [hn]
  dsimp only [Option.bind_some]
  rw [ht]
  rfl

theorem poll_eq {name : String} {task : Task Store} {t : Tracker Store}
    (htask : d.tasks.find? name = some task) (ht : d.trackers[task.tracker]? = some t) :
    d.poll name =
      (d.worked task.tracker (Call.poll task.cancelled (d.work t) task.call).2).settleTask name
        task.tracker task.cancelled (Call.poll task.cancelled (d.work t) task.call).1 := by
  unfold poll
  rw [htask]
  dsimp only
  rw [ht]
  rfl

theorem tracker?_eq_some {target : Target} {t : Tracker Store} : d.tracker? target = some t ↔
    ∃ n, d.trackerNumber? target = some n ∧ d.trackers[n]? = some t :=
  Option.bind_eq_some_iff

/-! ## The fields that an operation writes -/

theorem frame_configure (d : Deployment Store) (name : String) (source : Source Store)
    (pairs : TextMap String) :
    ∃ sources log, (d.configure name source pairs).2 = { d with sources, log } := by
  rcases d.configure_cases name source pairs with ⟨cause, -, h⟩ | ⟨config, -, h⟩
  · rw [h]
    exact ⟨_, _, rfl⟩
  · rw [h]
    exact ⟨_, _, rfl⟩

theorem frame_teardown (d : Deployment Store) (name : String) (source : Source Store) :
    ∃ broker sources log, (d.teardown name source).2 = { d with broker, sources, log } := by
  unfold teardown
  cases source.session with
  | none => exact ⟨_, _, _, rfl⟩
  | some session =>
      dsimp only
      cases d.trackers[session.tracker]? <;> exact ⟨_, _, _, rfl⟩

theorem frame_connectSource (d : Deployment Store) (name : String) (config : Config)
    (subscription : String) : ∃ broker trackers sources log,
      (d.connectSource name config subscription).2 =
        { d with broker, trackers, sources, log } := by
  rcases d.connectSource_outcomes name config subscription with
    ⟨_, -, h⟩ | ⟨-, ⟨_, _, -, -, h⟩ | ⟨_, -, -, h⟩⟩
  · rw [h]
    exact ⟨_, _, _, _, rfl⟩
  · rw [h]
    exact ⟨_, _, _, _, rfl⟩
  · rw [h]
    exact ⟨_, _, _, _, rfl⟩

theorem frame_openSource {name : String} {source : Source Store}
    (hs : d.sources.find? name = some source) (position : Option Bytes) (fresh : String) :
    ∃ broker trackers sources log generated,
      (d.openSource name source position fresh).2 =
        { d with broker, trackers, sources, log, generated } := by
  rcases openSource_cases hs position fresh with
    ⟨_, -, h⟩ | ⟨config, subscription, isFresh, -, -, h⟩
  · rw [h]
    exact ⟨_, _, _, _, _, rfl⟩
  · obtain ⟨_, _, _, hdown⟩ := (d.assigned subscription isFresh).frame_teardown name source
    rw [h, hdown]
    obtain ⟨_, _, _, _, hconnect⟩ := frame_connectSource _ name config subscription
    rw [hconnect]
    exact ⟨_, _, _, _, _, rfl⟩

theorem frame_dropConsumer (d : Deployment Store) (name : String) :
    ∃ broker consumers, (d.drop name .consumer).2 = { d with broker, consumers } := by
  unfold drop
  cases d.consumers.find? name <;> exact ⟨_, _, rfl⟩

/-- What a subscribe under a name does, whatever the broker answers. -/
theorem subscribe_eq (d : Deployment Store) (name : String) (client : ℕ)
    (options : SubscribeOptions) : d.subscribe name client options =
      let after : Deployment Store := { d with broker := (d.broker.subscribe client options).2 }
      match (d.broker.subscribe client options).1 with
      | .error cause => (.refused cause, after)
      | .ok consumer => (.done, { (after.drop name .consumer).2 with
          consumers := (after.drop name .consumer).2.consumers.insert name consumer }) := by
  have hreply : Broker.subscribe client options d.broker =
      (Reply.done (d.broker.subscribe client options).1,
        (d.broker.subscribe client options).2) := rfl
  unfold subscribe
  rw [hreply]
  cases (d.broker.subscribe client options).1 <;> rfl

theorem frame_subscribe (d : Deployment Store) (name : String) (client : ℕ)
    (options : SubscribeOptions) :
    ∃ broker consumers, (d.subscribe name client options).2 = { d with broker, consumers } := by
  rw [subscribe_eq]
  cases (d.broker.subscribe client options).1 with
  | error cause => exact ⟨_, _, rfl⟩
  | ok consumer =>
      obtain ⟨_, _, hdrop⟩ := frame_dropConsumer
        { d with broker := (d.broker.subscribe client options).2 } name
      dsimp only
      rw [hdrop]
      exact ⟨_, _, rfl⟩

/-! ## Steps -/

/-- What a step names does not exist. -/
def Vain (d : Deployment Store) : Step Store → Prop
  | .configure name _ | .openSource name _ _ | .teardown name => d.sources.find? name = none
  | .hold name _ => d.trackerNumber? (.source name) = none
  | .ask target _ _ | .start _ target _ => d.tracker? target = none
  | .poll name => (d.tasks.find? name).bind (d.trackers[·.tracker]?) = none
  | .cancel name => d.tasks.find? name = none
  | .closeTracker name => d.tracker? (.tracker name) = none
  | .drop .consumer name | .receive name | .acknowledge name _ | .closeConsumer name
  | .track name _ _ => d.consumers.find? name = none
  | .subscribe name _ _ | .closeClient name => d.clients.find? name = none
  | _ => False

/-- The answer to a step that is in vain. -/
def answerVain : Step Store → Answer Store
  | .ask target request _ => answerClosed target request
  | .hold .. | .start .. => .notOpen
  | .drop .. => .existed false
  | _ => .unknown

inductive Acts (d : Deployment Store) : Step Store → Answer Store → Deployment Store → Prop
  | vain {s : Step Store} (vain : d.Vain s) : Acts d s (answerVain s) d
  | create (name : String) (config : Option Config) :
      Acts d (.create name config) .done
        { d with sources := d.sources.insert name { config } }
  | configure (name : String) (pairs : TextMap String) {source : Source Store}
      {sources : TextMap (Source Store)} {log : List Event}
      (found : d.sources.find? name = some source)
      (after : (d.configure name source pairs).2 = { d with sources, log }) :
      Acts d (.configure name pairs) (.ofSession (some (d.configure name source pairs).1))
        { d with sources, log }
  | openSource (name : String) (position : Option Bytes) (fresh : String) {source : Source Store}
      {broker : Store} {trackers : List (Tracker Store)} {sources : TextMap (Source Store)}
      {log : List Event} {generated : ℕ} (found : d.sources.find? name = some source)
      (after : (d.openSource name source position fresh).2 =
        { d with broker, trackers, sources, log, generated }) :
      Acts d (.openSource name position fresh)
        (.ofSession (d.openSource name source position fresh).1)
        { d with broker, trackers, sources, log, generated }
  | teardown (name : String) {source : Source Store} {broker : Store}
      {sources : TextMap (Source Store)} {log : List Event}
      (found : d.sources.find? name = some source)
      (after : (d.teardown name source).2 = { d with broker, sources, log }) :
      Acts d (.teardown name) .done { d with broker, sources, log }
  | hold (name tracker : String) {n : ℕ} (number : d.trackerNumber? (.source name) = some n) :
      Acts d (.hold name tracker) .done { d with held := d.held.insert tracker n }
  | ask (target : Target) (request : Request) (cancelled : Bool) {n : ℕ} {t : Tracker Store}
      (number : d.trackerNumber? target = some n) (found : d.trackers[n]? = some t) :
      Acts d (.ask target request cancelled)
        (.ofCall (Call.start cancelled (d.work t) request).1)
        (d.worked n (Call.start cancelled (d.work t) request).2)
  | start (name : String) (target : Target) (request : Request) {n : ℕ} {t : Tracker Store}
      (number : d.trackerNumber? target = some n) (found : d.trackers[n]? = some t) :
      Acts d (.start name target request) (.ofCall (Call.start false (d.work t) request).1)
        ((d.worked n (Call.start false (d.work t) request).2).settleTask name n false
          (Call.start false (d.work t) request).1).2
  | poll (name : String) {task : Task Store} {t : Tracker Store}
      (waits : d.tasks.find? name = some task) (found : d.trackers[task.tracker]? = some t) :
      Acts d (.poll name) (.ofCall (Call.poll task.cancelled (d.work t) task.call).1)
        ((d.worked task.tracker (Call.poll task.cancelled (d.work t) task.call).2).settleTask name
          task.tracker task.cancelled (Call.poll task.cancelled (d.work t) task.call).1).2
  | cancel (name : String) {task : Task Store} (waits : d.tasks.find? name = some task) :
      Acts d (.cancel name) .done
        { d with tasks := d.tasks.insert name { task with cancelled := true } }
  | closeTracker (name : String) {t : Tracker Store}
      (found : d.tracker? (.tracker name) = some t) :
      Acts d (.closeTracker name) .done { d with broker := d.broker.closeConsumer t.consumer }
  | dropSource (name : String) : Acts d (.drop .source name) (.existed (d.sources.contains name))
      { d with sources := d.sources.erase name }
  | dropTracker (name : String) : Acts d (.drop .tracker name) (.existed (d.held.contains name))
      { d with held := d.held.erase name }
  | dropClient (name : String) : Acts d (.drop .client name) (.existed (d.clients.contains name))
      { d with clients := d.clients.erase name }
  | dropTask (name : String) : Acts d (.drop .task name) (.existed (d.tasks.contains name))
      { d with tasks := d.tasks.erase name }
  | dropConsumer (name : String) {c : ℕ} (found : d.consumers.find? name = some c) :
      Acts d (.drop .consumer name) (.existed true)
        { d with consumers := d.consumers.erase name, broker := d.broker.release c }
  | connect (name : String) (options : ClientOptions) {client : ℕ}
      (connects : (d.broker.connect options).1 = .ok client) :
      Acts d (.connect name options) .done
        { d with
          broker := (d.broker.connect options).2
          clients := d.clients.insert name client }
  | refuse (name : String) (options : ClientOptions) {cause : Memory.Failure}
      (refuses : (d.broker.connect options).1 = .error cause) :
      Acts d (.connect name options) (.refused cause)
        { d with broker := (d.broker.connect options).2 }
  | subscribe (clientName name : String) (options : SubscribeOptions) {client : ℕ}
      {broker : Store} {consumers : TextMap ℕ} (found : d.clients.find? clientName = some client)
      (after : (d.subscribe name client options).2 = { d with broker, consumers }) :
      Acts d (.subscribe clientName name options) (d.subscribe name client options).1
        { d with broker, consumers }
  | receive (name : String) {c : ℕ} (found : d.consumers.find? name = some c) :
      Acts d (.receive name) (.ofRaw .received (d.broker.receive c).1)
        { d with broker := (d.broker.receive c).2 }
  | acknowledge (name : String) (id : EntryId) {c : ℕ}
      (found : d.consumers.find? name = some c) :
      Acts d (.acknowledge name id)
        (.ofRaw (ω := Empty) (fun _ => .done) (.done (d.broker.acknowledge c id).1))
        { d with broker := (d.broker.acknowledge c id).2 }
  | closeClient (name : String) {client : ℕ} (found : d.clients.find? name = some client) :
      Acts d (.closeClient name) .done { d with broker := d.broker.closeClient client }
  | closeConsumer (name : String) {c : ℕ} (found : d.consumers.find? name = some c) :
      Acts d (.closeConsumer name) .done { d with broker := d.broker.closeConsumer c }
  | track (name tracker subscription : String) {c : ℕ}
      (found : d.consumers.find? name = some c) :
      Acts d (.track name tracker subscription) .done
        { d with
          consumers := d.consumers.erase name
          trackers := d.trackers ++ [{ consumer := c, subscription }]
          held := d.held.insert tracker d.trackers.length }
  | stimulate (stimulus : Stimulus) :
      Acts d (.stimulate stimulus) (.reported (d.broker.stimulate stimulus).1)
        { d with broker := (d.broker.stimulate stimulus).2 }

theorem acts_ask (d : Deployment Store) (target : Target) (request : Request)
    (cancelled : Bool) : d.Acts (.ask target request cancelled)
      (d.ask target request cancelled).1 (d.ask target request cancelled).2 := by
  cases htarget : d.tracker? target with
  | none =>
      have hnone : d.ask target request cancelled = (answerClosed target request, d) := by
        unfold ask
        rw [htarget]
        cases d.trackerNumber? target <;> rfl
      rw [hnone]
      exact .vain htarget
  | some t =>
      obtain ⟨n, hn, ht⟩ := tracker?_eq_some.mp htarget
      rw [ask_eq hn ht]
      exact .ask target request cancelled hn ht

theorem acts_start (d : Deployment Store) (name : String) (target : Target)
    (request : Request) : d.Acts (.start name target request)
      (d.start name target request).1 (d.start name target request).2 := by
  cases htarget : d.tracker? target with
  | none =>
      have hnone : d.start name target request = (.notOpen, d) := by
        unfold start
        rw [htarget]
        cases d.trackerNumber? target <;> rfl
      rw [hnone]
      exact .vain htarget
  | some t =>
      obtain ⟨n, hn, ht⟩ := tracker?_eq_some.mp htarget
      rw [start_eq hn ht]
      exact .start name target request hn ht

theorem acts_poll (d : Deployment Store) (name : String) :
    d.Acts (.poll name) (d.poll name).1 (d.poll name).2 := by
  cases htask : d.tasks.find? name with
  | none =>
      have hnone : d.poll name = (.unknown, d) := by rw [poll, htask]
      rw [hnone]
      exact .vain (by rw [Vain, htask, Option.bind_none])
  | some task =>
      cases ht : d.trackers[task.tracker]? with
      | none =>
          have hnone : d.poll name = (.unknown, d) := by simp only [poll, htask, ht]
          rw [hnone]
          exact .vain (by rw [Vain, htask, Option.bind_some, ht])
      | some t =>
          rw [poll_eq htask ht]
          exact .poll name htask ht

theorem acts_drop (d : Deployment Store) (kind : Named) (name : String) :
    d.Acts (.drop kind name) (.existed (d.drop name kind).1) (d.drop name kind).2 := by
  cases kind with
  | source => exact .dropSource name
  | tracker => exact .dropTracker name
  | client => exact .dropClient name
  | task => exact .dropTask name
  | consumer =>
      unfold drop
      cases hc : d.consumers.find? name with
      | none => exact .vain hc
      | some c => exact .dropConsumer name hc

theorem acts_connect (d : Deployment Store) (name : String) (options : ClientOptions) :
    d.Acts (.connect name options) (d.act (.connect name options)).1
      (d.act (.connect name options)).2 := by
  have hreply : Broker.connect options d.broker =
      (Reply.done (d.broker.connect options).1, (d.broker.connect options).2) := rfl
  simp only [act]
  rw [hreply]
  cases hr : (d.broker.connect options).1 with
  | error cause => exact .refuse name options hr
  | ok client => exact .connect name options hr

/-- Every step acts in one of these ways. -/
theorem acts (d : Deployment Store) (s : Step Store) : d.Acts s (d.act s).1 (d.act s).2 := by
  cases s with
  | create name config => exact .create name config
  | configure name pairs =>
      simp only [act]
      cases hs : d.sources.find? name with
      | none => exact .vain hs
      | some source =>
          obtain ⟨sources, log, hafter⟩ := d.frame_configure name source pairs
          have hacts := Acts.configure name pairs hs hafter
          rw [← hafter] at hacts
          exact hacts
  | openSource name position fresh =>
      simp only [act]
      cases hs : d.sources.find? name with
      | none => exact .vain hs
      | some source =>
          obtain ⟨_, _, _, _, _, hafter⟩ := frame_openSource hs position fresh
          have hacts := Acts.openSource name position fresh hs hafter
          rw [← hafter] at hacts
          exact hacts
  | teardown name =>
      simp only [act]
      cases hs : d.sources.find? name with
      | none => exact .vain hs
      | some source =>
          obtain ⟨_, _, _, hafter⟩ := d.frame_teardown name source
          have hacts := Acts.teardown name hs hafter
          rw [← hafter] at hacts
          dsimp only [Prod.map]
          rw [(teardown_spec hs).1, if_pos rfl]
          exact hacts
  | hold name tracker =>
      simp only [act]
      cases hn : d.trackerNumber? (.source name) with
      | none => exact .vain hn
      | some n => exact .hold name tracker hn
  | ask target request cancelled => exact d.acts_ask target request cancelled
  | start name target request => exact d.acts_start name target request
  | poll name => exact d.acts_poll name
  | cancel name =>
      simp only [act]
      cases htask : d.tasks.find? name with
      | none => exact .vain htask
      | some task => exact .cancel name htask
  | closeTracker name =>
      simp only [act]
      cases ht : d.tracker? (.tracker name) with
      | none => exact .vain ht
      | some t => exact .closeTracker name ht
  | drop kind name => exact d.acts_drop kind name
  | connect name options => exact d.acts_connect name options
  | subscribe clientName name options =>
      simp only [act]
      cases hclient : d.clients.find? clientName with
      | none => exact .vain hclient
      | some client =>
          obtain ⟨_, _, hafter⟩ := d.frame_subscribe name client options
          have hacts := Acts.subscribe clientName name options hclient hafter
          rw [← hafter] at hacts
          exact hacts
  | receive name =>
      simp only [act]
      cases hc : d.consumers.find? name with
      | none => exact .vain hc
      | some c => exact .receive name hc
  | acknowledge name id =>
      simp only [act]
      cases hc : d.consumers.find? name with
      | none => exact .vain hc
      | some c => exact .acknowledge name id hc
  | closeClient name =>
      simp only [act]
      cases hclient : d.clients.find? name with
      | none => exact .vain hclient
      | some client => exact .closeClient name hclient
  | closeConsumer name =>
      simp only [act]
      cases hc : d.consumers.find? name with
      | none => exact .vain hc
      | some c => exact .closeConsumer name hc
  | track name tracker subscription =>
      simp only [act]
      cases hc : d.consumers.find? name with
      | none => exact .vain hc
      | some c => exact .track name tracker subscription hc
  | stimulate stimulus => exact .stimulate stimulus

/-! ## Records -/

theorem answerVain_ne_record (s : Step Store) (r : Record) :
    answerVain s ≠ .outcome (.read (.record r)) := by
  cases s with
  | ask target request cancelled => cases target <;> cases request <;> exact nofun
  | _ => exact nofun

theorem ofSession_ne_record (result : SessionResult Store) (r : Record) :
    Answer.ofSession result ≠ .outcome (.read (.record r)) := by
  rcases result with _ | _ | _ <;> exact nofun

theorem ofRaw_ne_record {ω α : Type} {result : α → Answer Store} {r : Record}
    (h : ∀ a, result a ≠ .outcome (.read (.record r)))
    (reply : Reply ω (Except Memory.Failure α)) :
    Answer.ofRaw result reply ≠ .outcome (.read (.record r)) := by
  match reply with
  | .done (.ok a) => exact h a
  | .done (.error _) | .waiting _ => exact nofun

theorem subscribe_ne_record (d : Deployment Store) (name : String) (client : ℕ)
    (options : SubscribeOptions) (r : Record) :
    (d.subscribe name client options).1 ≠ .outcome (.read (.record r)) := by
  rw [subscribe_eq]
  cases (d.broker.subscribe client options).1 <;> exact nofun

/-- A step that is answered with a record reads at a tracker, which hands out the record. -/
theorem Acts.yields (ha : d.Acts s answer after) {r : Record}
    (h : answer = .outcome (.read (.record r))) :
    ∃ n t m, d.asked? s = some (n, .read) ∧ d.trackers[n]? = some t ∧ Yields d.broker t m r := by
  cases ha with
  | ask target request cancelled number found =>
      obtain ⟨rfl, m, hm⟩ := yields_of_start h
      exact ⟨_, _, m, by rw [asked?, number, Option.map_some], found, hm⟩
  | start name target request number found =>
      obtain ⟨rfl, m, hm⟩ := yields_of_start h
      exact ⟨_, _, m, by rw [asked?, number, Option.map_some], found, hm⟩
  | poll name waits found =>
      obtain ⟨m, hm⟩ := yields_of_poll h
      exact ⟨_, _, m, by rw [asked?, waits, Option.map_some], found, hm⟩
  | vain => exact absurd h (answerVain_ne_record s r)
  | configure | openSource => exact absurd h (ofSession_ne_record _ r)
  | subscribe clientName name options => exact absurd h (d.subscribe_ne_record name _ options r)
  | receive | acknowledge =>
      refine absurd h (ofRaw_ne_record (fun _ hr => ?_) _)
      cases hr
  | _ => cases h

theorem position?_eq_some {position : Bytes} : position? answer = some position ↔
    ∃ r, answer = .outcome (.read (.record r)) ∧ r.position = position := by
  unfold position?
  constructor
  · intro h
    split at h
    · exact ⟨_, rfl, Option.some.inj h⟩
    · cases h
  · rintro ⟨r, rfl, rfl⟩
    rfl

/-- The position of a record was written for the tracker that handed it out. -/
theorem Acts.position? (ha : d.Acts s answer after) {n : ℕ} {request : Request}
    {position : Bytes} (hasked : d.asked? s = some (n, request))
    (h : position? answer = some position) :
    ∃ t id, d.trackers[n]? = some t ∧
      position = (Position.forMessage t.subscription (id : EntryId)).encode := by
  obtain ⟨r, hrecord, rfl⟩ := position?_eq_some.mp h
  obtain ⟨k, t, m, hk, ht, hyields⟩ := ha.yields hrecord
  cases hasked.symm.trans hk
  refine ⟨t, m.id, ht, ?_⟩
  rw [hyields.record]
  rfl

end TrackedDelivery.Deployment
