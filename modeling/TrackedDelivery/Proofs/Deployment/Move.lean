import TrackedDelivery.Deployment.Step
import TrackedDelivery.Proofs.Memory.Operations
/-!
# Moves of trackers and their broker

What becomes of messages is a matter of the in-memory broker and of the trackers alone. A move is
the least that can happen to them, and a step of a deployment is a sequence of moves. Every move
comes with the deeds that can be told from outside: who attached, who let go, which message was
received by whom, and how the acknowledgment of a pending message ended. There is no move for an
acknowledgment that passes a tracker by.
-/
namespace TrackedDelivery.Memory

/-- The receipt of a message by a consumer, for the tracker of that number if one was reading. -/
structure Receipt where
  consumer : ℕ
  reader : Option ℕ
  id : EntryId
  deriving DecidableEq, Repr

def Receipt.entry (r : Receipt) : ℕ := r.id.entry.toNat

inductive Deed
  | attached (consumer : ℕ) (options : SubscribeOptions)
  | released (consumer : ℕ)
  | received (receipt : Receipt)
  /-- The broker took the acknowledgment. -/
  | confirmed (tracker : ℕ) (id : EntryId)
  /-- The broker was asked for the acknowledgment and refused it. -/
  | refused (tracker : ℕ) (id : EntryId)
  deriving DecidableEq, Repr

/-- A broker and the trackers that work at it. -/
structure Floor where
  broker : Store
  trackers : List (Tracker Store)

inductive Move : Floor → List Deed → Floor → Prop
  | quiet {f : Floor} {b : Store} (topics : b.topics = f.broker.topics)
      (consumers : b.consumers = f.broker.consumers) : Move f [] { f with broker := b }
  | publish {f : Floor} {b : Store} (appends : f.broker.Appends b) :
      Move f [] { f with broker := b }
  | turnAway {f : Floor} {b : Store} {options : SubscribeOptions}
      (away : f.broker.TurnsAway options b) : Move f [] { f with broker := b }
  | attach {f : Floor} {b : Store} {options : SubscribeOptions}
      (attaches : f.broker.Attaches options b) :
      Move f [.attached f.broker.consumers.length options] { f with broker := b }
  | release {f : Floor} (consumer : ℕ) :
      Move f [.released consumer] { f with broker := f.broker.release consumer }
  | track {f : Floor} (consumer : ℕ) (subscription : String) :
      Move f [] { f with trackers := f.trackers ++ [{ consumer, subscription }] }
  | receive {f : Floor} {b : Store} {consumer : ℕ} {m : Message EntryId}
      (received : f.broker.tryReceive consumer = (some (.ok m), b)) :
      Move f [.received ⟨consumer, none, m.id⟩] { f with broker := b }
  | pull {f : Floor} {b : Store} {n : ℕ} {t : Tracker Store} {m : Message EntryId}
      (tracker : f.trackers[n]? = some t)
      (received : f.broker.tryReceive t.consumer = (some (.ok m), b)) :
      Move f [.received ⟨t.consumer, some n, m.id⟩]
        { broker := b
          trackers := f.trackers.set n
            { t with pending := (t.pending.insertIfAbsent m.id.text m).2 } }
  | confirm {f : Floor} {b : Store} {n : ℕ} {t : Tracker Store} {key : String}
      {m : Message EntryId} (tracker : f.trackers[n]? = some t)
      (pending : t.pending.find? key = some m)
      (acknowledged : f.broker.acknowledge t.consumer m.id = (.ok (), b)) :
      Move f [.confirmed n m.id]
        { broker := b, trackers := f.trackers.set n { t with pending := t.pending.erase key } }
  | refuse {f : Floor} {b : Store} {n : ℕ} {t : Tracker Store} {key : String}
      {m : Message EntryId} {cause : Failure} (tracker : f.trackers[n]? = some t)
      (pending : t.pending.find? key = some m)
      (rejected : f.broker.acknowledge t.consumer m.id = (.error cause, b)) :
      Move f [.refused n m.id]
        { broker := b, trackers := f.trackers.set n { t with pending := t.pending.erase key } }

theorem tracker_set {trackers : List (Tracker Store)} {i n : ℕ} {s s' t : Tracker Store}
    (hs : trackers[i]? = some s) (hc : s'.consumer = s.consumer)
    (hsub : s'.subscription = s.subscription) (h : trackers[n]? = some t) :
    ∃ t', (trackers.set i s')[n]? = some t' ∧ t'.consumer = t.consumer ∧
      t'.subscription = t.subscription := by
  rw [List.getElem?_set]
  by_cases hn : i = n
  · subst hn
    have hlt := (List.getElem?_eq_some_iff.mp hs).1
    rw [h] at hs
    cases hs
    exact ⟨s', by rw [if_pos rfl, if_pos hlt], hc, hsub⟩
  · exact ⟨t, by rw [if_neg hn, h], rfl, rfl⟩

namespace Move

variable {f g : Floor} {deeds : List Deed}

theorem sound (m : Move f deeds g) (h : f.broker.Sound) : g.broker.Sound := by
  cases m with
  | quiet topics consumers => exact h.of_eq topics consumers
  | publish appends => exact appends.sound h
  | turnAway away => exact away.sound_after h
  | attach attaches => exact attaches.sound_after h
  | release consumer => exact h.release consumer
  | track => exact h
  | receive received | pull _ received =>
      obtain ⟨_, _, hout⟩ := Store.handsOut_of_tryReceive h received
      exact hout.sound_after h
  | confirm _ _ acknowledged =>
      obtain ⟨_, hsettles⟩ := Store.settles_of_acknowledge h acknowledged
      exact hsettles.sound_after h
  | refuse _ _ rejected =>
      obtain ⟨topics, consumers⟩ := Store.acknowledge_quiet rejected
      exact h.of_eq topics consumers

theorem store_extends (m : Move f deeds g) (h : f.broker.Sound) : f.broker.Extends g.broker := by
  cases m with
  | quiet topics consumers => exact Store.extends_of_eq topics consumers
  | publish appends => exact appends.extends
  | turnAway away => exact away.extends
  | attach attaches => exact attaches.extends
  | release consumer => exact Store.extends_release h consumer
  | track => exact .refl _
  | receive received | pull _ received =>
      obtain ⟨_, _, hout⟩ := Store.handsOut_of_tryReceive h received
      exact hout.extends
  | confirm _ _ acknowledged =>
      obtain ⟨_, hsettles⟩ := Store.settles_of_acknowledge h acknowledged
      exact hsettles.extends
  | refuse _ _ rejected =>
      obtain ⟨topics, consumers⟩ := Store.acknowledge_quiet rejected
      exact Store.extends_of_eq topics consumers

/-- A tracker keeps its place, its consumer and the name of its subscription. -/
theorem tracker (m : Move f deeds g) {n : ℕ} {t : Tracker Store} (h : f.trackers[n]? = some t) :
    ∃ t', g.trackers[n]? = some t' ∧ t'.consumer = t.consumer ∧
      t'.subscription = t.subscription := by
  cases m with
  | quiet | publish | turnAway | attach | release | receive => exact ⟨t, h, rfl, rfl⟩
  | track =>
      have hlt := (List.getElem?_eq_some_iff.mp h).1
      exact ⟨t, by rw [List.getElem?_append_left hlt, h], rfl, rfl⟩
  | pull htracker | confirm htracker | refuse htracker =>
      exact tracker_set htracker rfl rfl h

end Move

/-- Moves one after another, with all their deeds. -/
inductive Moves : Floor → List Deed → Floor → Prop
  | nil (f : Floor) : Moves f [] f
  | cons {f g h : Floor} {deeds rest : List Deed} :
      Move f deeds g → Moves g rest h → Moves f (deeds ++ rest) h

namespace Moves

variable {f g h : Floor} {deeds rest : List Deed}

theorem single (m : Move f deeds g) : Moves f deeds g := by
  have := cons m (nil g)
  rwa [List.append_nil] at this

theorem trans (m : Moves f deeds g) (m' : Moves g rest h) : Moves f (deeds ++ rest) h := by
  induction m with
  | nil => exact m'
  | cons m _ ih =>
      rw [List.append_assoc]
      exact cons m (ih m')

theorem sound (m : Moves f deeds g) (h : f.broker.Sound) : g.broker.Sound := by
  induction m with
  | nil => exact h
  | cons m _ ih => exact ih (m.sound h)

theorem tracker (m : Moves f deeds g) {n : ℕ} {t : Tracker Store}
    (h : f.trackers[n]? = some t) :
    ∃ t', g.trackers[n]? = some t' ∧ t'.consumer = t.consumer ∧
      t'.subscription = t.subscription := by
  induction m generalizing t with
  | nil => exact ⟨t, h, rfl, rfl⟩
  | cons m _ ih =>
      obtain ⟨u, hu, hc, hs⟩ := m.tracker h
      obtain ⟨v, hv, hc', hs'⟩ := ih hu
      exact ⟨v, hv, hc'.trans hc, hs'.trans hs⟩

/-- What every move keeps true of the state and its past, a sequence of moves keeps true. -/
theorem preserve {P : Floor → List Deed → Prop}
    (step : ∀ {f g past deeds}, P f past → Move f deeds g → P g (past ++ deeds))
    {past : List Deed} (hf : P f past) (m : Moves f deeds g) : P g (past ++ deeds) := by
  induction m generalizing past with
  | nil => rwa [List.append_nil]
  | cons m _ ih =>
      rw [← List.append_assoc]
      exact ih (step hf m)

end Moves

end TrackedDelivery.Memory
