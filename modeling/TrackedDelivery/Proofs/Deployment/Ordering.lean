import TrackedDelivery.Proofs.Deployment.Turn
import TrackedDelivery.Proofs.Memory.Remaining
import Mathlib.Data.List.Infix
/-!
# The order of receipts

As long as somebody is attached to a subscription, its queue is not filled anew. What was received
in a shift then lies before everything that is still to be handed out, and the next entry comes
after all of it, whichever of the consumers receives it and whatever is acknowledged meanwhile.
-/
namespace TrackedDelivery.Memory

/-! ## Turns, as the broker takes them -/

/-- Nobody comes or goes and nothing is handed out. What is queued was queued before. -/
structure Calm (b : Store) (deeds : List Deed) (b' : Store) : Prop where
  consumers : b'.consumers = b.consumers
  cursor : ∀ t n, (b'.subscriptionOrNew t n).cursor = (b.subscriptionOrNew t n).cursor
  redeliver : ∀ t n,
    (b'.subscriptionOrNew t n).redeliver ⊆ (b.subscriptionOrNew t n).redeliver
  shift : ∀ past t n, shift t n (past ++ deeds) = shift t n past
  unreceived : deeds.filterMap Deed.receipt? = []

/-- What a turn is to the broker. -/
inductive Change (b : Store) : List Deed → Store → Prop
  | calm {deeds : List Deed} {b' : Store} (h : Calm b deeds b') : Change b deeds b'
  | attach {b' : Store} {options : SubscribeOptions} (h : b.Attaches options b') :
      Change b [.attached b.consumers.length options] b'
  | release (consumer : ℕ) : Change b [.released consumer] (b.release consumer)
  | handOut {b' : Store} {consumer : ℕ} {m : Message EntryId} {options : SubscribeOptions}
      {s : Subscription} (reader : Option ℕ) (h : b.HandsOutFirst consumer m b' options s) :
      Change b [.received ⟨consumer, reader, m.id⟩] b'

section

variable {b b' : Store}

theorem calm_of_eq (hconsumers : b'.consumers = b.consumers)
    (hsub : ∀ t n, b'.subscriptionOrNew t n = b.subscriptionOrNew t n) : Calm b [] b' where
  consumers := hconsumers
  cursor t n := by rw [hsub]
  redeliver t n := by
    rw [hsub]
    exact List.Subset.refl _
  shift past t n := by rw [List.append_nil]
  unreceived := rfl

theorem calm_of_settles {consumer : ℕ} {id : EntryId} {options : SubscribeOptions}
    (h : b.Settles consumer id b' options) {deeds : List Deed}
    (hshift : ∀ past t n, shift t n (past ++ deeds) = shift t n past)
    (hunreceived : deeds.filterMap Deed.receipt? = []) : Calm b deeds b' where
  consumers := h.consumers
  cursor t n := by
    rw [h.subscription]
    split <;> rfl
  redeliver t n := by
    rw [h.subscription]
    split
    · exact fun e he => (List.mem_filter.mp he).1
    · exact List.Subset.refl _
  shift := hshift
  unreceived := hunreceived

end

theorem Turn.change {f g : Floor} {deeds : List Deed} (t : Turn f deeds g)
    (hb : f.broker.Sound) : Change f.broker deeds g.broker := by
  cases t with
  | settle settles =>
      apply Change.calm
      apply calm_of_settles settles
      · intro past t n
        rw [List.append_nil]
      · rfl
  | move m =>
      cases m with
      | quiet topics consumers =>
          exact .calm (calm_of_eq consumers (Store.subscriptionOrNew_congr topics))
      | publish appends => exact .calm (calm_of_eq appends.consumers appends.subscription)
      | turnAway away => exact .calm (calm_of_eq away.consumers away.subscription)
      | track => exact .calm (calm_of_eq rfl fun _ _ => rfl)
      | attach attaches => exact .attach attaches
      | release consumer => exact .release consumer
      | receive received | pull _ received =>
          obtain ⟨_, _, hfirst⟩ := Store.handsOutFirst_of_tryReceive hb received
          exact .handOut _ hfirst
      | confirm _ _ acknowledged =>
          obtain ⟨_, hsettles⟩ := Store.settles_of_acknowledge hb acknowledged
          apply Change.calm
          apply calm_of_settles hsettles
          · intro past t n
            rw [shift_append, Shift.next]
          · rfl
      | refuse _ _ rejected =>
          obtain ⟨topics, consumers⟩ := Store.acknowledge_quiet rejected
          have hcalm := calm_of_eq consumers (Store.subscriptionOrNew_congr topics)
          exact .calm { hcalm with
            shift := fun past t n => by rw [shift_append, Shift.next]
            unreceived := rfl }

/-! ## The receipts of a shift are in order -/

/-- The receipts of every shift are ascending and lie before what is queued. -/
structure Ordered (b : Store) (past : List Deed) : Prop where
  ascending : ∀ topic name,
    ((shift topic name past).receipts.map Receipt.entry).Pairwise (· < ·)
  queued : ∀ topic name, ∀ r ∈ (shift topic name past).receipts,
    ∀ e ∈ (b.subscriptionOrNew topic name).redeliver, r.entry < e

namespace Ordered

variable {b b' : Store} {past deeds : List Deed} {topic name : String}

theorem initial : Ordered {} [] where
  ascending _ _ := .nil
  queued _ _ _ h := by cases h

/-- Everything received in the shift lies before everything that remains. -/
theorem lt_of_mem_remaining (h : Ordered b past) (ha : Attended b past) {r : Receipt}
    (hr : r ∈ (shift topic name past).receipts) {e : ℕ} (he : e ∈ b.remaining topic name) :
    r.entry < e := by
  rcases Subscription.mem_remaining.mp he with hqueued | ⟨hcursor, -⟩
  · exact h.queued topic name r hr e hqueued
  · have hlt := ha.entry_lt hr
    omega

/-- The receipts of a shift stay, or a new shift begins without any. -/
theorem keep (h : Ordered b past)
    (hkeep : ∀ topic name, (shift topic name (past ++ deeds)).receipts = [] ∨
      ((shift topic name (past ++ deeds)).receipts = (shift topic name past).receipts ∧
        (b'.subscriptionOrNew topic name).redeliver ⊆
          (b.subscriptionOrNew topic name).redeliver)) :
    Ordered b' (past ++ deeds) where
  ascending topic name := by
    rcases hkeep topic name with hnil | ⟨hsame, -⟩
    · rw [hnil]
      exact .nil
    · rw [hsame]
      exact h.ascending topic name
  queued topic name r hr e he := by
    rcases hkeep topic name with hnil | ⟨hsame, hsubset⟩
    · rw [hnil] at hr
      cases hr
    · rw [hsame] at hr
      exact h.queued topic name r hr e (hsubset he)

theorem handOut (h : Ordered b past) (ha : Attended b past) (hb : b.Sound) {consumer : ℕ}
    {m : Message EntryId} {options : SubscribeOptions} {s : Subscription}
    (hfirst : b.HandsOutFirst consumer m b' options s) (reader : Option ℕ) :
    Ordered b' (past ++ [.received ⟨consumer, reader, m.id⟩]) := by
  have hremaining := hb.remaining_ascending options.topic options.subscription
  rw [hfirst.remaining, List.pairwise_cons] at hremaining
  have hold : ∀ r ∈ (shift options.topic options.subscription past).receipts,
      r.entry < m.id.entry.toNat := by
    intro r hr
    apply h.lt_of_mem_remaining ha hr
    rw [hfirst.remaining]
    exact List.mem_cons_self ..
  constructor
  · intro topic name
    rw [ha.shift_received hfirst.handsOut]
    split
    · rename_i hw
      obtain ⟨rfl, rfl⟩ := hw
      rw [List.map_append, List.pairwise_append]
      refine ⟨h.ascending _ _, List.pairwise_singleton _ _, ?_⟩
      intro e he e' he'
      obtain ⟨r, hr, rfl⟩ := List.mem_map.mp he
      rw [List.mem_singleton.mp he']
      exact hold r hr
    · exact h.ascending topic name
  · intro topic name r hr e he
    rw [ha.shift_received hfirst.handsOut] at hr
    split at hr
    · rename_i hw
      obtain ⟨rfl, rfl⟩ := hw
      have hafter : e ∈ b'.remaining options.topic options.subscription :=
        Subscription.mem_remaining.mpr (.inl he)
      have hlt := hremaining.1 e hafter
      rcases List.mem_append.mp hr with hr | hr
      · exact Nat.lt_trans (hold r hr) hlt
      · rw [List.mem_singleton.mp hr]
        exact hlt
    · rename_i hw
      rw [hfirst.handsOut.subscription, if_neg hw] at he
      exact h.queued topic name r hr e he

theorem change (h : Ordered b past) (ha : Attended b past) (hb : b.Sound)
    (hc : Change b deeds b') : Ordered b' (past ++ deeds) := by
  cases hc with
  | calm hcalm =>
      apply h.keep
      intro topic name
      exact .inr ⟨by rw [hcalm.shift], hcalm.redeliver topic name⟩
  | attach hattach =>
      apply h.keep
      intro topic name
      rcases ha.attached_cases hb hattach topic name with
        ⟨-, hs, hsub⟩ | ⟨-, -, hs, -⟩ | ⟨-, -, hs, hqueue, -⟩
      · rw [hs, hsub]
        exact .inr ⟨rfl, List.Subset.refl _⟩
      · rw [hs]
        exact .inl rfl
      · rw [hs, hqueue]
        exact .inr ⟨rfl, List.Subset.refl _⟩
  | release consumer =>
      apply h.keep
      intro topic name
      rw [shift_append, Shift.next, Store.subscription_release hb]
      exact .inr ⟨rfl, List.Subset.refl _⟩
  | handOut reader hfirst => exact h.handOut ha hb hfirst reader

end Ordered

theorem Turns.ordered {f g : Floor} {past deeds : List Deed} (t : Turns f deeds g)
    (hr : Recorded f past) (h : Ordered f.broker past) : Ordered g.broker (past ++ deeds) := by
  induction t generalizing past with
  | nil => rwa [List.append_nil]
  | cons t _ ih =>
      rw [← List.append_assoc]
      exact ih (hr.turn t) (h.change hr.attended hr.sound (t.change hr.sound))

/-! ## What the consumers of a subscription receive -/

/-- A consumer was attached to a subscription, and perhaps it has gone since. -/
def Store.belongs (b : Store) (topic name : String) (consumer : ℕ) : Bool :=
  b.consumers[consumer]?.any fun a => a.options.topic = topic ∧ a.options.subscription = name

/-- What the consumers of a subscription received, in the order of the receipts. -/
def Store.receiptsOf (b : Store) (topic name : String) (deeds : List Deed) : List Receipt :=
  (deeds.filterMap Deed.receipt?).filter (b.belongs topic name ·.consumer)

theorem Store.receiptsOf_append (b : Store) (topic name : String) (first rest : List Deed) :
    b.receiptsOf topic name (first ++ rest) =
      b.receiptsOf topic name first ++ b.receiptsOf topic name rest := by
  simp only [receiptsOf, List.filterMap_append, List.filter_append]

/-- Where a consumer belongs does not change. -/
theorem Store.Extends.belongs_iff {b b' : Store} (hx : b.Extends b') {consumer : ℕ}
    {options : SubscribeOptions} (ha : b.attached? consumer = some options)
    (topic name : String) : b'.belongs topic name consumer ↔
      topic = options.topic ∧ name = options.subscription := by
  obtain ⟨a, ha', hoptions, -⟩ := hx.consumer _ _ (Store.attached?_eq_some.mp ha)
  rw [Store.belongs, ha', Option.any_some, decide_eq_true_iff, hoptions]
  exact and_congr eq_comm eq_comm

section

variable {f g : Floor} {b b' last : Store} {past deeds : List Deed} {topic name : String}

/-- While somebody is present, the shift gains what the consumers of its subscription receive. -/
theorem Change.receipts (hc : Change b deeds b') (ha : Attended b past) (hb : b.Sound)
    (hx : b.Extends last) (hp : (shift topic name past).present ≠ []) :
    (shift topic name (past ++ deeds)).receipts =
      (shift topic name past).receipts ++ last.receiptsOf topic name deeds := by
  cases hc with
  | calm hcalm => rw [hcalm.shift, Store.receiptsOf, hcalm.unreceived, List.filter_nil,
      List.append_nil]
  | attach hattach =>
      rw [show last.receiptsOf topic name [.attached b.consumers.length _] = [] from rfl,
        List.append_nil]
      rcases ha.attached_cases hb hattach topic name with
        ⟨-, hs, -⟩ | ⟨-, hnil, -⟩ | ⟨-, -, hs, -⟩
      · rw [hs]
      · exact absurd hnil hp
      · rw [hs]
  | release consumer =>
      rw [show last.receiptsOf topic name [.released consumer] = [] from rfl, List.append_nil,
        shift_append, Shift.next]
  | @handOut _ consumer m options _ reader hfirst =>
      have hbelongs := hx.belongs_iff hfirst.handsOut.attached topic name
      rw [ha.shift_received hfirst.handsOut]
      by_cases hw : topic = options.topic ∧ name = options.subscription
      · simp [if_pos hw, Store.receiptsOf, Deed.receipt?, hbelongs.mpr hw]
      · simp [if_neg hw, Store.receiptsOf, Deed.receipt?, mt hbelongs.mp hw]

/-- As long as somebody is present, all that is received belongs to one shift. -/
theorem Turns.receipts (t : Turns f deeds g) (h : Recorded f past)
    (hx : g.broker.Extends last)
    (hp : ∀ part, part <+: deeds → (shift topic name (past ++ part)).present ≠ []) :
    (shift topic name (past ++ deeds)).receipts =
      (shift topic name past).receipts ++ last.receiptsOf topic name deeds := by
  induction t generalizing past with
  | nil => simp [Store.receiptsOf]
  | @cons f₁ f₂ f₃ first rest t ts ih =>
      have hpast := hp [] (List.nil_prefix)
      rw [List.append_nil] at hpast
      have hx₁ : f₁.broker.Extends last := (h.store_extends (.cons t ts)).trans hx
      have hfirst := (t.change h.sound).receipts h.attended h.sound hx₁ hpast
      have hrest := ih (h.turn t) hx fun part hpart => by
        rw [List.append_assoc]
        apply hp
        exact (List.prefix_append_right_inj first).mpr hpart
      rw [← List.append_assoc, hrest, hfirst, Store.receiptsOf_append, List.append_assoc]

end

/-- In every run, and in every part of its history in which somebody is attached to a subscription
all the time, the entries that the consumers of the subscription are handed are strictly ascending
in the order of their receipts. Between two steps, those who are present according to the history
are those who are attached at the broker. -/
theorem received_in_order {steps : List (Step Store)} {topic name : String}
    {before during after : List Deed}
    (hhistory : Deployment.fresh.history steps = before ++ (during ++ after))
    (hpresent : ∀ part, part <+: during → (shift topic name (before ++ part)).present ≠ []) :
    (((Deployment.fresh.run steps).2.broker.receiptsOf topic name during).map
      Receipt.entry).Pairwise (· < ·) ∧
    ∀ k c, c ∈ (shift topic name (Deployment.fresh.history (steps.take k))).present ↔
      (Deployment.fresh.run (steps.take k)).2.broker.Serves topic name c := by
  constructor
  · have hrun := Deployment.turns_run (d := Deployment.fresh) .initial steps
    rw [hhistory] at hrun
    obtain ⟨f, hbefore, hrest⟩ := hrun.split
    obtain ⟨g, hduring, hafter⟩ := hrest.split
    have hf : Recorded f before := Recorded.initial.turns hbefore
    have hg : Recorded g (before ++ during) := hf.turns hduring
    have hreceipts := hduring.receipts hf (hg.store_extends hafter) hpresent
    have hordered := hduring.ordered hf (hbefore.ordered .initial .initial)
    have hascending := hordered.ascending topic name
    rw [hreceipts, List.map_append, List.pairwise_append] at hascending
    exact hascending.2.1
  · intro k c
    exact (Deployment.recorded_run (steps.take k)).attended.present topic name c

/-- A consumer receives two messages and is dropped. Another one attaches and receives the first
again, a third one joins it, and the second consumer is dropped. The third acknowledges a message
that nobody has received, and then receives the rest. -/
def handoverRun : List (Step Store) :=
  [.connect "k" { url := "url" },
    .stimulate (Stimulus.publish "t" [] [1] none 0),
    .stimulate (Stimulus.publish "t" [] [2] none 0),
    .stimulate (Stimulus.publish "t" [] [3] none 0),
    .subscribe "k" "a" ⟨"t", "s", .shared⟩, .receive "a", .receive "a", .drop .consumer "a",
    .subscribe "k" "b" ⟨"t", "s", .shared⟩, .receive "b",
    .subscribe "k" "c" ⟨"t", "s", .shared⟩, .drop .consumer "b",
    .acknowledge "c" (⟨0, 2⟩ : EntryId), .receive "c", .receive "c"]

set_option maxRecDepth 10000 in
theorem ascending_of_handoverRun : ∃ before during,
    Deployment.fresh.history handoverRun = before ++ (during ++ []) ∧
      ((Deployment.fresh.run handoverRun).2.broker.receiptsOf "t" "s" during).map
        (fun r => (r.consumer, r.entry)) = [(1, 0), (2, 1), (2, 2)] ∧
      (((Deployment.fresh.run handoverRun).2.broker.receiptsOf "t" "s" during).map
        Receipt.entry).Pairwise (· < ·) := by
  have hhistory : Deployment.fresh.history handoverRun =
      (Deployment.fresh.history handoverRun).take 5 ++
        ((Deployment.fresh.history handoverRun).drop 5 ++ []) := by
    rw [List.append_nil, List.take_append_drop]
  have hpresent : ∀ part ∈ ((Deployment.fresh.history handoverRun).drop 5).inits,
      (shift "t" "s" ((Deployment.fresh.history handoverRun).take 5 ++ part)).present ≠ [] := by
    decide +kernel
  have hreceipts : ((Deployment.fresh.run handoverRun).2.broker.receiptsOf "t" "s"
      ((Deployment.fresh.history handoverRun).drop 5)).map (fun r => (r.consumer, r.entry)) =
        [(1, 0), (2, 1), (2, 2)] := by
    decide +kernel
  have h := received_in_order hhistory fun part hpart =>
    hpresent part ((List.mem_inits part _).mpr hpart)
  exact ⟨_, _, hhistory, hreceipts, h.1⟩

end TrackedDelivery.Memory
