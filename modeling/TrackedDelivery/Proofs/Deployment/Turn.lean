import TrackedDelivery.Proofs.Deployment.Simulation
import TrackedDelivery.Proofs.Deployment.Shift
/-!
# Runs of every kind

A handle to a bare consumer may acknowledge any identifier at the broker, past all trackers and
whoever received the message. No deed tells of it, and the accounts of the trackers do not survive
it. The broker stays sound nevertheless, and the shifts stay in order. So what is proved here holds
of every run and of every part of its history.
-/
namespace TrackedDelivery.Memory

/-- A move, or an acknowledgment that passes the trackers by. -/
inductive Turn : Floor → List Deed → Floor → Prop
  | move {f g : Floor} {deeds : List Deed} (m : Move f deeds g) : Turn f deeds g
  | settle {f : Floor} {b : Store} {consumer : ℕ} {id : EntryId} {options : SubscribeOptions}
      (settles : f.broker.Settles consumer id b options) : Turn f [] { f with broker := b }

namespace Turn

variable {f g : Floor} {past deeds : List Deed}

theorem sound (t : Turn f deeds g) (h : f.broker.Sound) : g.broker.Sound := by
  cases t with
  | move m => exact m.sound h
  | settle settles => exact settles.sound_after h

theorem store_extends (t : Turn f deeds g) (h : f.broker.Sound) :
    f.broker.Extends g.broker := by
  cases t with
  | move m => exact m.store_extends h
  | settle settles => exact settles.extends

theorem attended (t : Turn f deeds g) (hb : f.broker.Sound) (h : Attended f.broker past) :
    Attended g.broker (past ++ deeds) := by
  cases t with
  | move m => exact h.move hb m
  | settle settles =>
      rw [List.append_nil]
      exact h.settle settles (fun _ _ => rfl) fun _ => .rfl

theorem allKeyed (t : Turn f deeds g) (h : Deployment.AllKeyed f.trackers) :
    Deployment.AllKeyed g.trackers := by
  cases t with
  | move m => exact Deployment.allKeyed_of_move m h
  | settle => exact h

theorem tracker (t : Turn f deeds g) {n : ℕ} {u : Tracker Store}
    (h : f.trackers[n]? = some u) :
    ∃ u', g.trackers[n]? = some u' ∧ u'.consumer = u.consumer ∧
      u'.subscription = u.subscription := by
  cases t with
  | move m => exact m.tracker h
  | settle => exact ⟨u, h, rfl, rfl⟩

/-- No turn tells of more than one deed. -/
theorem deeds_cases (t : Turn f deeds g) : deeds = [] ∨ ∃ deed, deeds = [deed] := by
  cases t with
  | move m => cases m <;> simp
  | settle => exact .inl rfl

end Turn

/-- Turns one after another, with all their deeds. -/
inductive Turns : Floor → List Deed → Floor → Prop
  | nil (f : Floor) : Turns f [] f
  | cons {f g h : Floor} {deeds rest : List Deed} :
      Turn f deeds g → Turns g rest h → Turns f (deeds ++ rest) h

theorem Moves.turns {f g : Floor} {deeds : List Deed} (m : Moves f deeds g) :
    Turns f deeds g := by
  induction m with
  | nil => exact .nil _
  | cons m _ ih => exact .cons (.move m) ih

namespace Turns

variable {f g h : Floor} {past deeds rest : List Deed}

theorem trans (t : Turns f deeds g) (t' : Turns g rest h) : Turns f (deeds ++ rest) h := by
  induction t with
  | nil => exact t'
  | cons t _ ih =>
      rw [List.append_assoc]
      exact .cons t (ih t')

/-- Every part of the deeds was told on the way. -/
theorem split (t : Turns f (deeds ++ rest) h) : ∃ g, Turns f deeds g ∧ Turns g rest h := by
  generalize hall : deeds ++ rest = all at t
  induction t generalizing deeds with
  | nil f =>
      obtain ⟨rfl, rfl⟩ := List.append_eq_nil_iff.mp hall
      exact ⟨f, .nil f, .nil f⟩
  | @cons f g h first others t ts ih =>
      cases deeds with
      | nil =>
          rw [List.nil_append] at hall
          exact ⟨f, .nil f, hall ▸ .cons t ts⟩
      | cons deed deeds =>
          -- One turn tells of one deed at most, so no turn stands on both sides of the cut.
          rcases t.deeds_cases with rfl | ⟨deed', rfl⟩
          · obtain ⟨k, hk, hk'⟩ := ih hall
            exact ⟨k, .cons t hk, hk'⟩
          · obtain ⟨rfl, htail⟩ := List.cons.inj hall
            obtain ⟨k, hk, hk'⟩ := ih htail
            exact ⟨k, .cons t hk, hk'⟩

theorem tracker (t : Turns f deeds g) {n : ℕ} {u : Tracker Store}
    (hu : f.trackers[n]? = some u) :
    ∃ u', g.trackers[n]? = some u' ∧ u'.consumer = u.consumer ∧
      u'.subscription = u.subscription := by
  induction t generalizing u with
  | nil => exact ⟨u, hu, rfl, rfl⟩
  | cons t _ ih =>
      obtain ⟨v, hv, hc, hs⟩ := t.tracker hu
      obtain ⟨w, hw, hc', hs'⟩ := ih hv
      exact ⟨w, hw, hc'.trans hc, hs'.trans hs⟩

theorem allKeyed (t : Turns f deeds g) (h : Deployment.AllKeyed f.trackers) :
    Deployment.AllKeyed g.trackers := by
  induction t with
  | nil => exact h
  | cons t _ ih => exact ih (t.allKeyed h)

end Turns

/-- What is true of every run: the broker is sound, its past is in order, and the trackers keep
their messages under the texts of their identifiers. -/
structure Recorded (f : Floor) (past : List Deed) : Prop where
  sound : f.broker.Sound
  attended : Attended f.broker past
  allKeyed : Deployment.AllKeyed f.trackers

namespace Recorded

variable {f g : Floor} {past deeds : List Deed}

theorem initial : Recorded { broker := {}, trackers := [] } [] where
  sound :=
    { topic := fun _ _ h => by cases h
      counted := fun _ _ => rfl }
  attended := .initial
  allKeyed _ h := by cases h

theorem turn (h : Recorded f past) (t : Turn f deeds g) : Recorded g (past ++ deeds) where
  sound := t.sound h.sound
  attended := t.attended h.sound h.attended
  allKeyed := t.allKeyed h.allKeyed

theorem turns (h : Recorded f past) (t : Turns f deeds g) : Recorded g (past ++ deeds) := by
  induction t generalizing past with
  | nil => rwa [List.append_nil]
  | cons t _ ih =>
      rw [← List.append_assoc]
      exact ih (h.turn t)

theorem store_extends (h : Recorded f past) (t : Turns f deeds g) :
    f.broker.Extends g.broker := by
  induction t generalizing past with
  | nil => exact .refl _
  | cons t _ ih => exact (t.store_extends h.sound).trans (ih (h.turn t))

end Recorded
end TrackedDelivery.Memory

namespace TrackedDelivery.Deployment

open Memory

variable {d : Deployment Store}

/-- An acknowledgment of a bare consumer is refused, or it settles what was named. -/
theorem turns_acknowledge (hb : d.broker.Sound) (name : String) (id : EntryId) :
    Turns d.floor [] (d.act (.acknowledge name id)).2.floor := by
  simp only [act]
  cases d.consumers.find? name with
  | none => exact .nil _
  | some c =>
      have hafter : (d.call (fun _ => .done) (Broker.acknowledge c id d.broker)).2.floor =
          { d.floor with broker := (d.broker.acknowledge c id).2 } := rfl
      change Turns d.floor [] (d.call (fun _ => .done) (Broker.acknowledge c id d.broker)).2.floor
      rw [hafter]
      rcases hr : d.broker.acknowledge c id with ⟨result, b⟩
      cases result with
      | ok u =>
          obtain ⟨options, hsettles⟩ := Store.settles_of_acknowledge hb hr
          exact .cons (.settle hsettles) (.nil _)
      | error e =>
          obtain ⟨htopics, hconsumers⟩ := Store.acknowledge_quiet hr
          exact .cons (.move (.quiet htopics hconsumers)) (.nil _)

theorem turns_act (hb : d.broker.Sound) (hk : AllKeyed d.trackers) (s : Step Store) :
    Turns d.floor (d.actDeeds s) (d.act s).2.floor := by
  cases s with
  | acknowledge name id => exact turns_acknowledge hb name id
  | _ => exact Moves.turns (moves_act hk trivial)

theorem turns_step (hb : d.broker.Sound) (hk : AllKeyed d.trackers) (s : Step Store) :
    Turns d.floor (d.deeds s) (d.step s).2.floor :=
  (turns_act (d := { d with log := [] }) hb hk s).trans (moves_dropUnheld _).turns

/-- Every run takes the turns whose deeds are its history. -/
theorem turns_run {past : List Deed} (h : Recorded d.floor past) (steps : List (Step Store)) :
    Turns d.floor (d.history steps) (d.run steps).2.floor := by
  induction steps generalizing d past with
  | nil => exact .nil _
  | cons s rest ih =>
      have hstep := turns_step h.sound h.allKeyed s
      exact hstep.trans (ih (h.turns hstep))

/-- The record of every run that starts from a fresh broker. -/
theorem recorded_run (steps : List (Step Store)) :
    Recorded (fresh.run steps).2.floor (fresh.history steps) :=
  Recorded.initial.turns (turns_run (d := fresh) .initial steps)

end TrackedDelivery.Deployment
