import TrackedDelivery.Proofs.Deployment.Ownership
/-!
# Reads that wait

A read waits in a task from its last look at the broker on, and at that look nothing was there. As
long as it has not been woken, nothing is there: every step that brings something for it wakes it,
or cancels it. The one thing that happens without a wake-up, the drop of a consumer, spares the
consumer of a read that waits, since the task refers to the tracker that owns it.
-/
namespace TrackedDelivery.Memory

/-! ## Consumers that wait -/

namespace Store

variable {b b' : Store} {gone : ℕ → Prop} {consumer since : ℕ} {options : SubscribeOptions}

/-- A consumer waits since a wake-up. If there was none after it, nothing is there for it. -/
structure Watches (b : Store) (consumer since : ℕ) : Prop where
  known : consumer < b.consumers.length
  since_le : since ≤ b.wakeUps
  idle : since = b.wakeUps → ∃ options, b.Idle consumer options
  /-- Its subscription has been attended since, so nothing is queued anew. -/
  unqueued : ∀ options, b.attached? consumer = some options →
    (b.subscriptionOrNew options.topic options.subscription).redeliver = []

/-- A consumer for which nothing is there begins to wait. -/
theorem Idle.watches (h : b.Idle consumer options) : b.Watches consumer b.wakeUps where
  known := (List.getElem?_eq_some_iff.mp (attached?_eq_some.mp h.attached)).1
  since_le := Nat.le_refl _
  idle _ := ⟨options, h⟩
  unqueued options' ha := by
    rw [h.attached] at ha
    cases ha
    exact (Subscription.remaining_eq_nil_iff.mp h.remaining).1

/-- A consumer that waits goes on to wait, unless it is dropped. -/
theorem Guides.watches (h : Guides gone b b') (hc : ¬ gone consumer)
    (hw : b.Watches consumer since) : b'.Watches consumer since where
  known := by
    obtain ⟨a, ha, -⟩ := h.extends_.consumer consumer _ (List.getElem?_eq_getElem hw.known)
    exact (List.getElem?_eq_some_iff.mp ha).1
  since_le := Nat.le_trans hw.since_le h.wakeUps_le
  idle hs := by
    have hle := hw.since_le
    have hle' := h.wakeUps_le
    obtain ⟨options, hidle⟩ := hw.idle (by omega)
    exact ⟨options, h.idle (by omega) consumer options hc hidle⟩
  unqueued options ha := by
    have hold := h.extends_.attached ha hw.known
    apply List.eq_nil_of_subset_nil
    rw [← hw.unqueued options hold]
    exact h.unqueued consumer options hw.known ha

/-- A receive waits exactly if nothing is there. -/
theorem receive_eq (b : Store) (consumer : ℕ) : b.receive consumer =
    match (b.tryReceive consumer).1 with
    | some result => (.done result, (b.tryReceive consumer).2)
    | none => (.waiting (b.tryReceive consumer).2.wakeUps, (b.tryReceive consumer).2) := by
  unfold receive
  rcases b.tryReceive consumer with ⟨result, after⟩
  cases result <;> rfl

theorem receive_of_waiting (hb : b.Sound) {wait : ℕ}
    (h : (b.receive consumer).1 = .waiting wait) :
    wait = b.wakeUps ∧ (b.receive consumer).2 = b ∧ ∃ options, b.Idle consumer options := by
  rw [receive_eq] at h ⊢
  cases hr : (b.tryReceive consumer).1 with
  | some result =>
      rw [hr] at h
      cases h
  | none =>
      obtain ⟨options, hidle⟩ := idle_of_tryReceive hb hr
      rw [hr] at h
      rw [hidle.tryReceive hb] at h ⊢
      cases h
      exact ⟨rfl, rfl, options, hidle⟩

/-- Whether it was woken or not, a receive that waited waits on exactly if nothing is there. -/
theorem Watches.resumeReceive_iff (h : b.Watches consumer since) (hb : b.Sound) :
    (∃ wait, (b.resumeReceive consumer since).1 = .waiting wait) ↔
      (b.tryReceive consumer).1 = none := by
  unfold resumeReceive
  split
  · rw [receive_eq]
    cases (b.tryReceive consumer).1 <;> simp
  · have hle := h.since_le
    obtain ⟨options, hidle⟩ := h.idle (by omega)
    rw [hidle.tryReceive hb]
    simp

/-- A receive that still waits either was not woken or found nothing. -/
theorem resumeReceive_of_waiting (hb : b.Sound) {wait : ℕ}
    (h : (b.resumeReceive consumer since).1 = .waiting wait) :
    (b.resumeReceive consumer since).2 = b ∧
      (wait = since ∨ wait = b.wakeUps ∧ ∃ options, b.Idle consumer options) := by
  unfold resumeReceive at h ⊢
  split at h
  · rename_i hwoken
    obtain ⟨hwait, hbroker, hidle⟩ := receive_of_waiting hb h
    rw [if_pos hwoken]
    exact ⟨hbroker, .inr ⟨hwait, hidle⟩⟩
  · rename_i hasleep
    cases h
    rw [if_neg hasleep]
    exact ⟨rfl, .inl rfl⟩

end Store

/-! ## Requests that wait -/

/-- A read that goes on to wait has not been cancelled, and nothing is done. -/
theorem settleRead_of_waiting {cancelled : Bool} {w : Delivery Store}
    {reply : Reply ℕ (Except Failure (Message EntryId))} {call : Call Store}
    (h : Call.ofRead (Delivery.settleRead cancelled w reply).1 = .waiting call) :
    ∃ wait, reply = .waiting wait ∧ call = .read wait ∧ cancelled = false ∧
      (Delivery.settleRead cancelled w reply).2 = w := by
  match reply with
  | .done (.ok m) => cases h
  | .done (.error e) => cases h
  | .waiting wait =>
      cases cancelled with
      | true => cases h
      | false =>
          cases h
          exact ⟨wait, rfl, rfl, rfl, rfl⟩

/-- A read is answered to wait if its receive waits and it has not been cancelled. -/
theorem ofCall_settleRead_iff {cancelled : Bool} {w : Delivery Store}
    {reply : Reply ℕ (Except Failure (Message EntryId))} :
    Answer.ofCall (Call.ofRead (Delivery.settleRead cancelled w reply).1) = .waits ↔
      cancelled = false ∧ ∃ wait, reply = .waiting wait := by
  match reply with
  | .done (.ok m) => simp [Delivery.settleRead, Call.ofRead, Answer.ofCall]
  | .done (.error e) => simp [Delivery.settleRead, Call.ofRead, Answer.ofCall]
  | .waiting wait => cases cancelled <;> simp [Delivery.settleRead, Call.ofRead, Answer.ofCall]

/-- What it is for a request at a tracker to have looked at the broker and found nothing. -/
structure FindsNothing (w : Delivery Store) (call : Call Store) (after : Delivery Store) :
    Prop where
  call : call = .read w.broker.wakeUps
  idle : ∃ options, w.broker.Idle w.tracker.consumer options
  tracker : after.tracker = w.tracker
  broker : after.broker = w.broker

section

variable {w : Delivery Store} {cancelled : Bool} {call : Call Store}

theorem findsNothing_of_start (hb : w.broker.Sound) {request : Request}
    (h : (Call.start cancelled w request).1 = .waiting call) :
    FindsNothing w call (Call.start cancelled w request).2 := by
  by_cases hread : request = .read
  · subst hread
    rw [start_read_eq, pull_eq] at h ⊢
    obtain ⟨wait, hreply, hcall, -, hafter⟩ := settleRead_of_waiting h
    obtain ⟨hwait, hbroker, hidle⟩ := Store.receive_of_waiting hb hreply
    rw [hafter]
    exact ⟨hcall.trans (by rw [hwait]), hidle, rfl, hbroker⟩
  · exact absurd h ((concludes_start hread w cancelled).ne_waiting call)

/-- A read that is looked at and still waits either was not woken or found nothing. -/
theorem findsNothing_of_poll (hb : w.broker.Sound) {call' : Call Store}
    (h : (Call.poll cancelled w call).1 = .waiting call') :
    FindsNothing w call' (Call.poll cancelled w call).2 ∨
      (call' = call ∧ (Call.poll cancelled w call).2 = w) := by
  rcases read_or_concludes call with ⟨since, rfl⟩ | hconcludes
  · rw [poll_read_eq, resumePull_eq] at h ⊢
    obtain ⟨wait, hreply, hcall, -, hafter⟩ := settleRead_of_waiting h
    obtain ⟨hbroker, hwait | ⟨hwait, hidle⟩⟩ := Store.resumeReceive_of_waiting hb hreply
    · rw [hafter, hcall, hwait, hbroker]
      exact .inr ⟨rfl, rfl⟩
    · rw [hafter, hcall, hwait]
      exact .inl ⟨rfl, hidle, rfl, hbroker⟩
  · exact absurd h ((hconcludes w cancelled).1.ne_waiting call')

end

end TrackedDelivery.Memory

namespace TrackedDelivery.Deployment

open Memory

variable {d after : Deployment Store} {s : Step Store} {answer : Answer Store} {name : String}
  {task : Task Store} {n : ℕ} {t : Tracker Store}

/-! ## Tasks, step by step -/

/-- A task waited before, with the same request, and may have been cancelled since. -/
def Carries (d : Deployment Store) (name : String) (task : Task Store) : Prop :=
  ∃ old, d.tasks.find? name = some old ∧ task.tracker = old.tracker ∧ task.call = old.call

/-- A task has just looked at the broker and found nothing. -/
def Begins (d : Deployment Store) (task : Task Store) : Prop :=
  ∃ t options, d.trackers[task.tracker]? = some t ∧ task.call = .read d.broker.wakeUps ∧
    d.broker.Idle t.consumer options

theorem carries_self (h : d.tasks.find? name = some task) : d.Carries name task :=
  ⟨task, h, rfl, rfl⟩

theorem find?_settleTask {number : ℕ} {cancelled : Bool}
    {reply : Reply (Call Store) (Call.Result Store)} {other : String}
    (h : (d.settleTask other number cancelled reply).2.tasks.find? name = some task) :
    d.tasks.find? name = some task ∨
      name = other ∧ ∃ call, reply = .waiting call ∧
        task = { tracker := number, cancelled, call } := by
  cases reply with
  | done result =>
      simp only [settleTask, TextMap.find?_erase] at h
      split at h
      · cases h
      · exact .inl h
  | waiting call =>
      simp only [settleTask, TextMap.find?_insert] at h
      split at h
      · rename_i hname
        cases h
        exact .inr ⟨hname, call, rfl, rfl⟩
      · exact .inl h

/-- A request that found nothing begins a task. -/
theorem begins_of_findsNothing {call : Call Store} {w : Delivery Store} {cancelled : Bool}
    (ht : d.trackers[n]? = some t) (h : FindsNothing (d.work t) call w)
    (htrackers : after.trackers = d.trackers.set n w.tracker)
    (hbroker : after.broker = w.broker) :
    after.Begins { tracker := n, cancelled, call } := by
  obtain ⟨options, hidle⟩ := h.idle
  have hsame : after.broker = d.broker := hbroker.trans h.broker
  have htracker : w.tracker = t := h.tracker
  refine ⟨t, options, ?_, ?_, ?_⟩
  · rw [htrackers, htracker, List.getElem?_set_self (List.getElem?_eq_some_iff.mp ht).1]
  · rw [hsame]
    exact h.call
  · rw [hsame]
    exact hidle

/-- Whatever waits after a step waited before it, or has just found nothing. -/
theorem Acts.tasks (ha : d.Acts s answer after) (hb : d.broker.Sound)
    (h : after.tasks.find? name = some task) : d.Carries name task ∨ after.Begins task := by
  cases ha with
  | start other target request number found =>
      rcases find?_settleTask h with hold | ⟨-, call, hcall, rfl⟩
      · exact .inl (carries_self hold)
      · exact .inr (begins_of_findsNothing found (findsNothing_of_start hb hcall) rfl rfl)
  | poll other waits found =>
      rcases find?_settleTask h with hold | ⟨rfl, call, hcall, rfl⟩
      · exact .inl (carries_self hold)
      · rcases findsNothing_of_poll hb hcall with hfinds | ⟨rfl, -⟩
        · exact .inr (begins_of_findsNothing found hfinds rfl rfl)
        · exact .inl ⟨_, waits, rfl, rfl⟩
  | cancel other waits =>
      rw [TextMap.find?_insert] at h
      split at h
      · rename_i hname
        cases h
        subst hname
        exact .inl ⟨_, waits, rfl, rfl⟩
      · exact .inl (carries_self h)
  | dropTask other =>
      rw [TextMap.find?_erase] at h
      split at h
      · cases h
      · exact .inl (carries_self h)
  | _ => exact .inl (carries_self h)

/-! ## All that holds of a deployment -/

/-- Every task is a read that waits at a tracker. -/
def Watchful (d : Deployment Store) : Prop :=
  ∀ name task, d.tasks.find? name = some task → ∃ (t : Tracker Store) (since : ℕ),
    d.trackers[task.tracker]? = some t ∧ task.call = .read since ∧
      d.broker.Watches t.consumer since

/-- What holds of every deployment that a run comes to. -/
structure Regular (d : Deployment Store) : Prop where
  sound : d.broker.Sound
  allKeyed : AllKeyed d.trackers
  owned : d.Owned
  watchful : d.Watchful

theorem isHeld_of_task (h : d.tasks.find? name = some task) : d.isHeld task.tracker = true := by
  have hmem : task ∈ d.tasks.values := TextMap.mem_values.mpr ⟨name, h⟩
  simp only [isHeld, Bool.or_eq_true, List.any_eq_true]
  exact .inr ⟨task, hmem, decide_eq_true rfl⟩

namespace Regular

theorem initial : Regular fresh where
  sound := (recorded_run []).sound
  allKeyed := (recorded_run []).allKeyed
  owned := .initial
  watchful _ _ h := by cases h

theorem act (h : d.Regular) (s : Step Store) : (d.act s).2.Regular where
  sound := ((d.calls_act s).guides h.sound).sound
  allKeyed := (turns_act h.sound h.allKeyed s).allKeyed h.allKeyed
  owned := h.owned.act h.sound h.allKeyed s
  watchful name task htask := by
    rcases (d.acts s).tasks h.sound htask with ⟨old, hold, htracker, hcall⟩ | ⟨t, options, hbegins⟩
    · obtain ⟨t, since, ht, hsince, hwatches⟩ := h.watchful name old hold
      obtain ⟨t', ht', hconsumer, -⟩ := (turns_act h.sound h.allKeyed s).tracker ht
      refine ⟨t', since, ?_, hcall.trans hsince, ?_⟩
      · rw [htracker]
        exact ht'
      · rw [hconsumer]
        exact ((d.calls_act s).guides h.sound).watches (h.owned.not_bare ht) hwatches
    · exact ⟨t, _, hbegins.1, hbegins.2.1, hbegins.2.2.watches⟩

theorem dropUnheld (h : d.Regular) : d.dropUnheld.Regular where
  sound := (d.calls_dropUnheld.guides h.sound).sound
  allKeyed := h.allKeyed
  owned := h.owned.dropUnheld h.sound
  watchful name task htask := by
    obtain ⟨t, since, ht, hsince, hwatches⟩ := h.watchful name task htask
    refine ⟨t, since, ht, hsince, ?_⟩
    apply (d.calls_dropUnheld.guides h.sound).watches _ hwatches
    exact h.owned.not_unheld ht (isHeld_of_task htask)

/-- A step begins with an empty log of events. -/
theorem cleared (h : d.Regular) : Regular { d with log := [] } :=
  ⟨h.sound, h.allKeyed, ⟨h.owned.nodup, h.owned.known⟩, h.watchful⟩

/-- A step in two parts: what it does, and the drop of what nothing refers to any more. -/
theorem parts (h : d.Regular) (s : Step Store) : ∃ mid : Deployment Store,
    mid = (Deployment.act { d with log := [] } s).2 ∧ (d.step s).2 = mid.dropUnheld ∧
      mid.Regular ∧ Store.Guides d.Bare d.broker mid.broker ∧
      Store.Guides mid.Unheld mid.broker (d.step s).2.broker :=
  ⟨_, rfl, rfl, h.cleared.act s, (calls_act { d with log := [] } s).guides h.sound,
    (calls_dropUnheld _).guides (h.cleared.act s).sound⟩

theorem wakeUps_step_le (h : d.Regular) (s : Step Store) :
    d.broker.wakeUps ≤ (d.step s).2.broker.wakeUps := by
  obtain ⟨mid, -, -, -, hact, hdrop⟩ := h.parts s
  exact Nat.le_trans hact.wakeUps_le hdrop.wakeUps_le

theorem step (h : d.Regular) (s : Step Store) : (d.step s).2.Regular :=
  (h.cleared.act s).dropUnheld

theorem run (h : d.Regular) (steps : List (Step Store)) : (d.run steps).2.Regular :=
  run_preserves (fun _ s hd => hd.step s) h steps

/-- What every step of a regular deployment keeps, a run keeps. -/
theorem run_preserves {P : Deployment Store → Prop}
    (hstep : ∀ (d : Deployment Store) (s : Step Store), d.Regular → P d → P (d.step s).2)
    (h : d.Regular) (hd : P d) (steps : List (Step Store)) : P (d.run steps).2 := by
  have hboth : ∀ (d : Deployment Store) (s : Step Store), d.Regular ∧ P d →
      (d.step s).2.Regular ∧ P (d.step s).2 :=
    fun d s hd => ⟨hd.1.step s, hstep d s hd.1 hd.2⟩
  exact (Deployment.run_preserves hboth ⟨h, hd⟩ steps).2

/-- What every operation on a sound store keeps, a run keeps. -/
theorem preserve {P : Store → Prop} (hP : ∀ {gone : ℕ → Prop} {b b' : Store},
    Store.Operation gone b b' → b.Sound → P b → P b') (h : d.Regular) (hd : P d.broker)
    (steps : List (Step Store)) : P (d.run steps).2.broker := by
  refine h.run_preserves (P := fun d => P d.broker) (fun d s hregular hd => ?_) hd steps
  have hmid := (calls_act { d with log := [] } s).preserve hP hregular.sound hd
  exact (calls_dropUnheld _).preserve hP (hregular.cleared.act s).sound hmid

/-- Logs only grow. -/
theorem grows_run (h : d.Regular) (steps : List (Step Store)) (topic : String) :
    d.broker.log topic <+: (d.run steps).2.broker.log topic := by
  refine h.preserve (P := fun b => d.broker.log topic <+: b.log topic)
    (fun hop hb hlog => ?_) List.prefix_rfl steps
  have hguides := Store.Operations.guides (.single hop) hb
  exact hlog.trans (hguides.grows topic)

end Regular

end TrackedDelivery.Deployment
