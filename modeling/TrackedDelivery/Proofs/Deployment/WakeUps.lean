import TrackedDelivery.Proofs.Deployment.Guarantees
import TrackedDelivery.Proofs.Deployment.Waiting
/-!
# No read is stuck

A read that waits is looked at again once it was woken, by its cancellation or by the broker. A
read that was not woken since it was last looked at has nothing to look at: its consumer is
attached, no failure is arranged for, and its subscription is exhausted. Every step that brings
something for it is a wake-up of the broker, or it is the cancellation.
-/
namespace TrackedDelivery

open Memory

/-- A read that waits was woken since it was last looked at, by its cancellation or by the
broker. -/
def Task.Woken (task : Task Store) (b : Store) : Prop :=
  task.cancelled = true ∨ ∃ since : ℕ, task.call = .read since ∧ since < b.wakeUps

/-- A read that waits could end, with what its consumer receives or with its cancellation. -/
def Task.Ready (task : Task Store) (d : Deployment Store) : Prop :=
  task.cancelled = true ∨
    ∃ t, d.trackers[task.tracker]? = some t ∧ (d.broker.tryReceive t.consumer).1 ≠ none

namespace Deployment

variable {d : Deployment Store} {name : String} {task : Task Store} {t : Tracker Store}

/-- For a read that has not been woken, nothing is there. -/
theorem Regular.idle (h : d.Regular) (htask : d.tasks.find? name = some task)
    (hasleep : ¬ task.Woken d.broker) :
    task.cancelled = false ∧ ∃ t options, d.trackers[task.tracker]? = some t ∧
      d.broker.Idle t.consumer options := by
  obtain ⟨t, since, ht, hsince, hwatches⟩ := h.watchful name task htask
  constructor
  · cases hc : task.cancelled with
    | false => rfl
    | true => exact absurd (.inl hc) hasleep
  · have hlast : ¬ since < d.broker.wakeUps := fun hlt => hasleep (.inr ⟨since, hsince, hlt⟩)
    have hle := hwatches.since_le
    obtain ⟨options, hidle⟩ := hwatches.idle (by omega)
    exact ⟨t, options, ht, hidle⟩

/-- For a read that is idle, nothing is there. -/
theorem Regular.not_ready (h : d.Regular) {options : SubscribeOptions}
    (hcancelled : task.cancelled = false) (ht : d.trackers[task.tracker]? = some t)
    (hidle : d.broker.Idle t.consumer options) : ¬ task.Ready d := by
  rintro (hc | ⟨u, hu, hready⟩)
  · rw [hcancelled] at hc
    cases hc
  · rw [ht] at hu
    cases hu
    exact hready (by rw [hidle.tryReceive h.sound])

/-- A read for which nothing is there is idle. -/
theorem Regular.idle_of_not_ready (h : d.Regular) (ht : d.trackers[task.tracker]? = some t)
    (hnot : ¬ task.Ready d) :
    task.cancelled = false ∧ ∃ options, d.broker.Idle t.consumer options := by
  constructor
  · cases hc : task.cancelled with
    | false => rfl
    | true => exact absurd (.inl hc) hnot
  · apply Store.idle_of_tryReceive h.sound
    cases hr : (d.broker.tryReceive t.consumer).1 with
    | none => rfl
    | some result => exact absurd (.inr ⟨t, ht, by simp [hr]⟩) hnot

/-- Without a wake-up, a step brings nothing for a read that waited before it and waits on. -/
theorem Regular.idle_step (h : d.Regular) {s : Step Store} {options : SubscribeOptions}
    (ht : d.trackers[task.tracker]? = some t) (hidle : d.broker.Idle t.consumer options)
    (hwaits : (d.step s).2.tasks.find? name = some task)
    (hquiet : (d.step s).2.broker.wakeUps = d.broker.wakeUps) :
    (d.step s).2.broker.Idle t.consumer options := by
  obtain ⟨mid, hmid, hstep, hregular, hact, hdrop⟩ := h.parts s
  obtain ⟨t', ht', hconsumer, -⟩ :=
    (turns_act h.cleared.sound h.cleared.allKeyed s).tracker ht
  have htracker : mid.trackers[task.tracker]? = some t' := hmid ▸ ht'
  have hheld : mid.tasks.find? name = some task := by rwa [hstep] at hwaits
  have hle := hact.wakeUps_le
  have hle' := hdrop.wakeUps_le
  apply hdrop.idle (by omega) t.consumer options
  · rw [← hconsumer]
    exact hregular.owned.not_unheld htracker (isHeld_of_task hheld)
  · exact hact.idle (by omega) t.consumer options (h.owned.not_bare ht) hidle

/-- Without a wake-up, a read that waits after a step and was woken waited before it. -/
theorem Regular.carries_of_woken (h : d.Regular) {s : Step Store}
    (hwaits : (d.step s).2.tasks.find? name = some task) (hcancelled : task.cancelled = false)
    (hwoken : task.Woken (d.step s).2.broker)
    (hquiet : (d.step s).2.broker.wakeUps = d.broker.wakeUps) : d.Carries name task := by
  obtain ⟨mid, hmid, hstep, -, hact, hdrop⟩ := h.parts s
  have hle := hact.wakeUps_le
  have hle' := hdrop.wakeUps_le
  rw [hstep] at hwaits
  have hheld : (Deployment.act { d with log := [] } s).2.tasks.find? name = some task :=
    hmid ▸ hwaits
  have htasks := (acts { d with log := [] } s).tasks h.cleared.sound hheld
  rcases htasks with hcarries | ⟨_, _, -, hcall, -⟩
  · exact hcarries
  · rcases hwoken with hc | ⟨since, hsince, hlt⟩
    · rw [hcancelled] at hc
      cases hc
    · rw [← hmid, hsince, Call.read.injEq] at hcall
      have hlast : since = mid.broker.wakeUps := hcall
      omega

/-- A step that brings something for a read that waits is a wake-up, or it cancels the read. -/
theorem Regular.woken_step (h : d.Regular) {s : Step Store} {task' : Task Store}
    (htask : d.tasks.find? name = some task)
    (hwaits : (d.step s).2.tasks.find? name = some task') (hnot : ¬ task.Ready d)
    (hready : task'.Ready (d.step s).2) :
    task'.Woken (d.step s).2.broker ∧
      (d.broker.wakeUps < (d.step s).2.broker.wakeUps ∨
        task.cancelled = false ∧ task'.cancelled = true) := by
  have hafter := h.step s
  obtain ⟨t, -, ht, -⟩ := h.watchful name task htask
  obtain ⟨hcancelled, options, hidle⟩ := h.idle_of_not_ready ht hnot
  have hwoken : task'.Woken (d.step s).2.broker := by
    by_contra hasleep
    obtain ⟨hc, u, options', hu, hidle'⟩ := hafter.idle hwaits hasleep
    exact hafter.not_ready hc hu hidle' hready
  refine ⟨hwoken, ?_⟩
  -- Otherwise the read is the one that was idle before, and without a wake-up it is idle still.
  by_contra hquiet
  rw [not_or, not_and] at hquiet
  have hc : task'.cancelled = false := Bool.eq_false_iff.mpr (hquiet.2 hcancelled)
  have hle := h.wakeUps_step_le s
  have hsame : (d.step s).2.broker.wakeUps = d.broker.wakeUps := by omega
  obtain ⟨old, hold, htracker, -⟩ := h.carries_of_woken hwaits hc hwoken hsame
  rw [htask] at hold
  cases hold
  rw [← htracker] at ht
  have hidle' := h.idle_step ht hidle hwaits hsame
  obtain ⟨t', ht', hconsumer, -⟩ := (turns_step h.sound h.allKeyed s).tracker ht
  rw [← hconsumer] at hidle'
  exact hafter.not_ready hc ht' hidle' hready

/-- A look at a read that waits ends it exactly if something is there for it. -/
theorem Regular.poll_waits_iff (h : d.Regular) (htask : d.tasks.find? name = some task) :
    (d.step (.poll name)).1 = .waits ↔ ¬ task.Ready d := by
  obtain ⟨t, since, ht, hsince, hwatches⟩ := h.watchful name task htask
  have hanswer : (d.step (.poll name)).1 = Answer.ofCall
      (Call.poll task.cancelled (work { d with log := [] } t) task.call).1 := by
    change (Deployment.poll { d with log := [] } name).1 = _
    rw [poll_eq (d := { d with log := [] }) htask ht]
    rfl
  rw [hanswer, hsince, poll_read_eq, resumePull_eq, ofCall_settleRead_iff]
  change (_ ∧ ∃ wait, (d.broker.resumeReceive t.consumer since).1 = .waiting wait) ↔ _
  rw [hwatches.resumeReceive_iff h.sound]
  constructor
  · rintro ⟨hcancelled, hnone⟩
    obtain ⟨options, hidle⟩ := Store.idle_of_tryReceive h.sound hnone
    exact h.not_ready hcancelled ht hidle
  · intro hnot
    obtain ⟨hcancelled, options, hidle⟩ := h.idle_of_not_ready ht hnot
    exact ⟨hcancelled, by rw [hidle.tryReceive h.sound]⟩

end Deployment

namespace Memory

/-- In every run, a read that waits in a task and was not woken since it was last looked at has
not been cancelled, its consumer is attached, no failure of a receive is arranged for, and its
subscription has nothing queued and has come to the end of the log. A step after which the read
could end, while it could not before, calls a wake-up or is its cancellation. And a look at the
read ends it exactly if it could end, so the wake-ups that are missing would find nothing. -/
theorem woken_if_ready {steps : List (Step Store)} {name : String} {task : Task Store}
    (htask : (Deployment.fresh.run steps).2.tasks.find? name = some task) :
    let d := (Deployment.fresh.run steps).2
    (¬ task.Woken d.broker → task.cancelled = false ∧
      ∃ t options, d.trackers[task.tracker]? = some t ∧
        d.broker.attached? t.consumer = some options ∧ d.broker.failReceives = [] ∧
        d.broker.Exhausted options.topic options.subscription) ∧
    (∀ (s : Step Store) (task' : Task Store), (d.step s).2.tasks.find? name = some task' →
      ¬ task.Ready d → task'.Ready (d.step s).2 →
      task'.Woken (d.step s).2.broker ∧
        (d.broker.wakeUps < (d.step s).2.broker.wakeUps ∨
          task.cancelled = false ∧ task'.cancelled = true)) ∧
    ((d.step (.poll name)).1 = .waits ↔ ¬ task.Ready d) := by
  intro d
  have h : d.Regular := .run .initial steps
  refine ⟨?_, ?_, h.poll_waits_iff htask⟩
  · intro hasleep
    obtain ⟨hcancelled, t, options, ht, hidle⟩ := h.idle htask hasleep
    refine ⟨hcancelled, t, options, ht, hidle.attached, hidle.willing, ?_⟩
    exact (h.sound.exhausted_iff hidle.attached).mpr hidle.remaining
  · intro s task' hwaits hnot hready
    exact h.woken_step htask hwaits hnot hready

/-- Two sources of one subscription read in tasks. A message is published, the first source
receives it, and reads again. -/
def waitingRun : List (Step Store) :=
  [.create "a" (some sampleConfig), .create "b" (some sampleConfig),
    .openSource "a" none "", .openSource "b" none "",
    .start "r" (.source "a") .read, .start "q" (.source "b") .read,
    .stimulate (Stimulus.publish "t" [] [1] none 0), .poll "r", .start "r" (.source "a") .read]

/-- The second message. -/
def awaitedStep : Step Store := .stimulate (Stimulus.publish "t" [] [2] none 0)

set_option maxRecDepth 10000 in
/-- The read of the first source waits for the wake-up that comes with the second message. -/
theorem woken_of_waitingRun : ∃ task task',
    (Deployment.fresh.run waitingRun).2.tasks.find? "r" = some task ∧
      ((Deployment.fresh.run waitingRun).2.step (.poll "r")).1 = .waits ∧
      (∃ t options, (Deployment.fresh.run waitingRun).2.trackers[task.tracker]? = some t ∧
        (Deployment.fresh.run waitingRun).2.broker.attached? t.consumer = some options ∧
        (Deployment.fresh.run waitingRun).2.broker.Exhausted options.topic
          options.subscription) ∧
      ((Deployment.fresh.run waitingRun).2.step awaitedStep).2.tasks.find? "r" = some task' ∧
      task'.Ready ((Deployment.fresh.run waitingRun).2.step awaitedStep).2 ∧
      task'.Woken ((Deployment.fresh.run waitingRun).2.step awaitedStep).2.broker := by
  have htask : (Deployment.fresh.run waitingRun).2.tasks.find? "r" =
      some { tracker := 0, call := .read (1 : ℕ) } :=
    rfl
  have htask' : ((Deployment.fresh.run waitingRun).2.step awaitedStep).2.tasks.find? "r" =
      some { tracker := 0, call := .read (1 : ℕ) } :=
    rfl
  have hwakeUps : (Deployment.fresh.run waitingRun).2.broker.wakeUps = 1 := by
    decide +kernel
  have hpoll : ((Deployment.fresh.run waitingRun).2.step (.poll "r")).1 = .waits := rfl
  have hconsumer : ((Deployment.fresh.run waitingRun).2.step awaitedStep).2.trackers[0]?.map
      (·.consumer) = some (0 : ℕ) := by
    decide +kernel
  have hthere : (((Deployment.fresh.run waitingRun).2.step awaitedStep).2.broker.tryReceive
      0).1.isSome := by
    decide +kernel
  obtain ⟨hidle, hwakes, hlook⟩ := woken_if_ready htask
  obtain ⟨-, t, options, ht, ha, -, hexhausted⟩ := hidle (by
    rintro (hc | ⟨since, hsince, hlt⟩)
    · cases hc
    · cases hsince
      rw [hwakeUps] at hlt
      exact Nat.lt_irrefl 1 hlt)
  obtain ⟨u, hu, huc⟩ := Option.map_eq_some_iff.mp hconsumer
  have hready : Task.Ready { tracker := 0, call := .read (1 : ℕ) }
      ((Deployment.fresh.run waitingRun).2.step awaitedStep).2 := by
    right
    refine ⟨u, hu, ?_⟩
    rw [huc]
    exact Option.isSome_iff_ne_none.mp hthere
  exact ⟨_, _, htask, hpoll, ⟨t, options, ht, ha, hexhausted⟩, htask', hready,
    (hwakes _ _ htask' (hlook.mp hpoll) hready).1⟩

end Memory
end TrackedDelivery
