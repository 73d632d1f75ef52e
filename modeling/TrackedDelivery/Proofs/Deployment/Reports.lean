import TrackedDelivery.Proofs.Deployment.Acts
/-!
# What a step reports

A step reports that a message was redelivered while still pending only if its tracker receives a
message whose key it already keeps. All else that is reported is of other kinds.
-/
namespace TrackedDelivery.Memory

/-- No message was reported to have been redelivered while still pending. -/
def Unrepeated (log : List Event) : Prop := ∀ key, .redelivered key ∉ log

/-- What the broker would hand out to a tracker is not pending there. -/
def Unexpecting (b : Store) (t : Tracker Store) : Prop :=
  ∀ m b', b.tryReceive t.consumer = (some (.ok m), b') → t.pending.find? m.id.text = none

theorem Unrepeated.report {log : List Event} (h : Unrepeated log) {event : Event}
    (he : ∀ key, event ≠ .redelivered key) : Unrepeated (log ++ [event]) := by
  intro key hmem
  rcases List.mem_append.mp hmem with hmem | hmem
  · exact h key hmem
  · exact he key (List.mem_singleton.mp hmem).symm

variable {d : Delivery Store}

theorem log_confirm (d : Delivery Store) (key : String) (m : Message EntryId) :
    (d.confirm key m).2.log = d.log := by rw [confirm_eq]

theorem unrepeated_acknowledge (h : Unrepeated d.log) (position : Bytes) :
    Unrepeated (d.acknowledge position).2.log := by
  rw [acknowledge_eq]
  cases d.tracker.meaning position with
  | error e => exact h
  | ok id =>
      dsimp only
      rw [acknowledgeId_eq]
      cases d.tracker.pending.find? id.text with
      | none => exact h.report (by simp)
      | some m =>
          dsimp only
          rw [log_confirm]
          exact h.report (by simp)

theorem unrepeated_settleRead (cancelled : Bool) (h : Unrepeated d.log) {b b' : Store}
    {reply : Reply ℕ (Except Failure (Message EntryId))} (hfree : Unexpecting b d.tracker)
    (hr : Ends b d.tracker.consumer reply b') :
    Unrepeated (Delivery.settleRead cancelled d reply).2.log := by
  match reply with
  | .done (.ok m) =>
      rcases hr with ⟨m', hm, hreply⟩ | ⟨hnot, -⟩
      · cases hreply
        have hnone : d.tracker.pending.contains (MessageId.text (m.id : Broker.Id Store)) =
            false := congrArg Option.isSome (hfree m b' hm)
        simp only [Delivery.settleRead, Delivery.handOut, PendingSet.insertIfAbsent, hnone]
        exact h.report (by simp)
      · exact absurd rfl (hnot m)
  | .done (.error e) => exact h
  | .waiting w =>
      simp only [Delivery.settleRead]
      split
      · exact h.report (by simp)
      · exact h

theorem unrepeated_start (cancelled : Bool) (h : Unrepeated d.log)
    (hfree : Unexpecting d.broker d.tracker) (request : Request) :
    Unrepeated (Call.start cancelled d request).2.log := by
  match request with
  | .read =>
      exact unrepeated_settleRead cancelled (h.report (by simp)) hfree
        (ends_receive d.broker d.tracker.consumer)
  | .acknowledge position => exact unrepeated_acknowledge h position
  | .acknowledgeBatch positions =>
      exact each_preserves (P := fun d => Unrepeated d.log)
        (fun _ position hd => unrepeated_acknowledge hd position) h positions
  | .acknowledgeAll =>
      have hreported : Unrepeated (takeAll d).log := h.report (by simp)
      refine each_preserves (P := fun d => Unrepeated d.log) (fun d e hd => ?_) hreported
        d.tracker.pending.entries
      rw [log_confirm]
      exact hd

theorem unrepeated_poll (cancelled : Bool) (h : Unrepeated d.log)
    (hfree : Unexpecting d.broker d.tracker) (call : Call Store) :
    Unrepeated (Call.poll cancelled d call).2.log := by
  rcases read_or_concludes call with ⟨since, rfl⟩ | hconcludes
  · exact unrepeated_settleRead
      (d := { d with broker := (d.broker.resumeReceive d.tracker.consumer since).2 })
      cancelled h hfree (ends_resumeReceive d.broker d.tracker.consumer since)
  · rw [(hconcludes d cancelled).2]
    exact h

end TrackedDelivery.Memory

namespace TrackedDelivery.Deployment

open Memory

variable {d after : Deployment Store} {s : Step Store} {answer : Answer Store}

theorem unrepeated_configure (h : Unrepeated d.log) (name : String) (source : Source Store)
    (pairs : TextMap String) : Unrepeated (d.configure name source pairs).2.log := by
  have hbegun : Unrepeated (d.log ++ [.configuring]) := h.report (by simp)
  rcases d.configure_cases name source pairs with ⟨cause, -, heq⟩ | ⟨config, -, heq⟩
  · rw [heq]
    exact hbegun
  · rw [heq]
    intro key hmem
    rcases List.mem_append.mp hmem with hmem | hmem
    · exact hbegun key hmem
    · obtain ⟨unknown, -, hevent⟩ := List.mem_map.mp hmem
      cases hevent

theorem unrepeated_teardown (h : Unrepeated d.log) (name : String) (source : Source Store) :
    Unrepeated (d.teardown name source).2.log := by
  unfold teardown
  cases source.session with
  | none => exact h
  | some session =>
      dsimp only
      cases d.trackers[session.tracker]? with
      | none => exact h
      | some t => exact h.report (by simp)

theorem unrepeated_connectSource (h : Unrepeated d.log) (name : String) (config : Config)
    (subscription : String) : Unrepeated (d.connectSource name config subscription).2.log := by
  rcases d.connectSource_outcomes name config subscription with
    ⟨_, -, heq⟩ | ⟨-, ⟨_, _, -, -, heq⟩ | ⟨_, -, -, heq⟩⟩
  · rw [heq]
    exact h
  · rw [heq]
    exact h
  · rw [heq]
    exact h.report (by simp)

theorem unrepeated_openSource (h : Unrepeated d.log) {name : String} {source : Source Store}
    (hs : d.sources.find? name = some source) (position : Option Bytes) (fresh : String) :
    Unrepeated (d.openSource name source position fresh).2.log := by
  rcases openSource_cases hs position fresh with
    ⟨e, -, heq⟩ | ⟨config, subscription, isFresh, -, -, heq⟩
  · rw [heq]
    exact h
  · have hassigned : Unrepeated (d.assigned subscription isFresh).log := by
      cases isFresh with
      | true => exact h.report (by simp)
      | false => simpa [assigned] using h
    rw [heq]
    exact unrepeated_connectSource (unrepeated_teardown hassigned name source) name config
      subscription

theorem Acts.unrepeated (ha : d.Acts s answer after) (h : Unrepeated d.log)
    (hfree : ∀ t ∈ d.trackers, Unexpecting d.broker t) : Unrepeated after.log := by
  cases ha with
  | configure name pairs found after =>
      rw [← after]
      exact unrepeated_configure h name _ pairs
  | openSource name position fresh found after =>
      rw [← after]
      exact unrepeated_openSource h found position fresh
  | teardown name found after =>
      rw [← after]
      exact unrepeated_teardown h name _
  | ask target request cancelled number found =>
      exact unrepeated_start (d := d.work _) cancelled h
        (hfree _ (List.mem_of_getElem? found)) request
  | start name target request number found =>
      exact unrepeated_start (d := d.work _) false h
        (hfree _ (List.mem_of_getElem? found)) request
  | @poll _ task _ _ found =>
      exact unrepeated_poll (d := d.work _) task.cancelled h
        (hfree _ (List.mem_of_getElem? found)) task.call
  | _ => exact h

theorem unrepeated_step (hfree : ∀ t ∈ d.trackers, Unexpecting d.broker t) (s : Step Store) :
    Unrepeated (d.step s).2.log := by
  have hcleared : Unrepeated ({ d with log := [] } : Deployment Store).log := by simp [Unrepeated]
  exact (acts { d with log := [] } s).unrepeated hcleared hfree

end TrackedDelivery.Deployment
