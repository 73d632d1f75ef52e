import TrackedDelivery.Proofs.Deployment.Guarantees
import TrackedDelivery.Proofs.Deployment.Ordering
import TrackedDelivery.Proofs.Deployment.Waiting
/-!
# Cancelled reads

A cancellation counts only where a read would have to wait, and then nothing is taken from the
broker. So a read that is cancelled, or given up while it waits, has taken nothing at any time; and
whatever was there for it is received by somebody, perhaps by the read itself, or still there.
-/
namespace TrackedDelivery.Memory

open Store

/-! ## A read that is cancelled beforehand -/

section

variable {w : Delivery Store} {cancelled : Bool}

/-- A cancelled read ends as cancelled exactly if nothing is there for it. -/
theorem pull_cancelled_iff (w : Delivery Store) :
    (w.pull true).1 = .done (.ok .cancelled) ↔
      (w.broker.tryReceive w.tracker.consumer).1 = none := by
  rw [pull_eq, receive_eq]
  match (w.broker.tryReceive w.tracker.consumer).1 with
  | none => simp [Delivery.settleRead]
  | some (.ok m) => simp [Delivery.settleRead]
  | some (.error e) => simp [Delivery.settleRead]

/-- What is there wins over the cancellation. -/
theorem pull_of_there (h : (w.broker.tryReceive w.tracker.consumer).1 ≠ none) :
    w.pull true = w.pull false := by
  rw [pull_eq, pull_eq, receive_eq]
  match hr : (w.broker.tryReceive w.tracker.consumer).1 with
  | none => exact absurd hr h
  | some (.ok m) => rfl
  | some (.error e) => rfl

theorem pull_done (w : Delivery Store) : ∃ result, (w.pull true).1 = .done result := by
  rw [pull_eq]
  match (w.broker.receive w.tracker.consumer).1 with
  | .done (.ok m) => exact ⟨_, rfl⟩
  | .done (.error e) => exact ⟨_, rfl⟩
  | .waiting wait => exact ⟨_, rfl⟩

end

/-! ## Reads that come to nothing -/

/-- The answer to a read that came to nothing: it waits, or it was cancelled. -/
def Fruitless (answer : Answer Store) : Prop :=
  answer = .waits ∨ answer = .outcome (.read .cancelled)

/-- A read comes to nothing only if its receive waits. -/
theorem settleRead_of_fruitless {cancelled : Bool} {w : Delivery Store}
    {reply : Reply ℕ (Except Failure (Message EntryId))}
    (h : Fruitless (.ofCall (Call.ofRead (Delivery.settleRead cancelled w reply).1))) :
    (∃ wait, reply = .waiting wait) ∧
      (Delivery.settleRead cancelled w reply).2.tracker = w.tracker ∧
      (Delivery.settleRead cancelled w reply).2.broker = w.broker := by
  match reply with
  | .done (.ok m) =>
      rcases h with h | h
      · cases h
      · cases h
  | .done (.error e) =>
      rcases h with h | h
      · cases h
      · cases h
  | .waiting wait =>
      cases cancelled with
      | true => exact ⟨⟨wait, rfl⟩, rfl, rfl⟩
      | false => exact ⟨⟨wait, rfl⟩, rfl, rfl⟩

section

variable {w : Delivery Store} {cancelled : Bool}

theorem start_of_fruitless (hb : w.broker.Sound)
    (h : Fruitless (.ofCall (Call.start cancelled w .read).1)) :
    (Call.start cancelled w .read).2.tracker = w.tracker ∧
      (Call.start cancelled w .read).2.broker = w.broker := by
  rw [start_read_eq, pull_eq] at h ⊢
  obtain ⟨⟨wait, hreply⟩, htracker, hbroker⟩ := settleRead_of_fruitless h
  obtain ⟨-, hsame, -⟩ := receive_of_waiting hb hreply
  exact ⟨htracker, hbroker.trans hsame⟩

theorem poll_of_fruitless (hb : w.broker.Sound) {since : ℕ}
    (h : Fruitless (.ofCall (Call.poll cancelled w (.read since)).1)) :
    (Call.poll cancelled w (.read since)).2.tracker = w.tracker ∧
      (Call.poll cancelled w (.read since)).2.broker = w.broker := by
  rw [poll_read_eq, resumePull_eq] at h ⊢
  obtain ⟨⟨wait, hreply⟩, htracker, hbroker⟩ := settleRead_of_fruitless h
  exact ⟨htracker, hbroker.trans (resumeReceive_of_waiting hb hreply).1⟩

end

/-- Nothing is taken from a store: its logs, and what its subscriptions know of them, are as they
were. At most, consumers have gone. -/
structure Store.Spares (b b' : Store) : Prop where
  log : ∀ t, b'.log t = b.log t
  subscription : ∀ t n, b'.subscriptionOrNew t n =
    { b.subscriptionOrNew t n with
      activeConsumers := (b'.subscriptionOrNew t n).activeConsumers }
  failReceives : b'.failReceives = b.failReceives
  wakeUps : b'.wakeUps = b.wakeUps

theorem Store.Spares.refl (b : Store) : b.Spares b := ⟨fun _ => rfl, fun _ _ => rfl, rfl, rfl⟩

theorem Store.Spares.release {b b' : Store} (h : b.Spares b') (hb : b'.Sound) (consumer : ℕ) :
    b.Spares (b'.release consumer) where
  log t := (b'.log_release consumer t).trans (h.log t)
  subscription t n := by
    rw [subscription_release hb, h.subscription]
  failReceives := (b'.silent_release consumer).failReceives.trans h.failReceives
  wakeUps := (b'.silent_release consumer).wakeUps.trans h.wakeUps

end TrackedDelivery.Memory

namespace TrackedDelivery.Deployment

open Memory

variable {d : Deployment Store}

theorem spares_dropUnheld (hb : d.broker.Sound) : d.broker.Spares d.dropUnheld.broker := by
  have hkept := dropUnheld_preserves (P := fun b => b.Sound ∧ d.broker.Spares b)
    (fun _ _ t _ _ h => ⟨h.1.release t.consumer, h.2.release h.1 t.consumer⟩) ⟨hb, .refl _⟩
  exact hkept.2

/-- The steps of a read that comes to nothing: it starts and is looked at without an end, it is
cancelled, and it ends as cancelled or is given up. -/
def IsFruitless (d : Deployment Store) : Step Store → Prop
  | .ask target .read cancelled => Fruitless (d.step (.ask target .read cancelled)).1
  | .start task target .read => Fruitless (d.step (.start task target .read)).1
  | .poll task => Fruitless (d.step (.poll task)).1
  | .cancel _ => True
  | .drop .task _ => True
  | _ => False

/-- Where a tracker has changed nothing, nothing has changed. -/
theorem worked_unchanged {n : ℕ} {t : Tracker Store} {w : Delivery Store}
    (ht : d.trackers[n]? = some t) (htracker : w.tracker = t) (hbroker : w.broker = d.broker) :
    (d.worked n w).trackers = d.trackers ∧ (d.worked n w).broker = d.broker := by
  obtain ⟨hlt, hget⟩ := List.getElem?_eq_some_iff.mp ht
  refine ⟨?_, hbroker⟩
  change d.trackers.set n w.tracker = d.trackers
  rw [htracker, ← hget, List.set_getElem_self]

theorem act_of_fruitless (h : d.Regular) {s : Step Store} (hs : d.IsFruitless s) :
    (act { d with log := [] } s).2.trackers = d.trackers ∧
      (act { d with log := [] } s).2.broker = d.broker := by
  have hacts := acts { d with log := [] } s
  have hanswer : (d.step s).1 = (act { d with log := [] } s).1 := rfl
  generalize act { d with log := [] } s = result at hacts hanswer ⊢
  obtain ⟨answer, after⟩ := result
  cases hacts with
  | vain | cancel | dropTask => exact ⟨rfl, rfl⟩
  | ask target request cancelled number found =>
      cases request with
      | read =>
          obtain ⟨htracker, hbroker⟩ := start_of_fruitless (w := work { d with log := [] } _)
            h.sound ((congrArg Fruitless hanswer).mp hs)
          exact worked_unchanged (d := { d with log := [] }) found htracker hbroker
      | _ => cases hs
  | start name target request number found =>
      cases request with
      | read =>
          obtain ⟨htracker, hbroker⟩ := start_of_fruitless (w := work { d with log := [] } _)
            h.sound ((congrArg Fruitless hanswer).mp hs)
          exact worked_unchanged (d := { d with log := [] }) found htracker hbroker
      | _ => cases hs
  | poll name waits found =>
      obtain ⟨-, since, -, hsince, -⟩ := h.watchful name _ waits
      have hf := (congrArg Fruitless hanswer).mp hs
      rw [hsince] at hf ⊢
      obtain ⟨htracker, hbroker⟩ := poll_of_fruitless (w := work { d with log := [] } _) h.sound hf
      exact worked_unchanged (d := { d with log := [] }) found htracker hbroker
  | _ => cases hs

/-- A read that comes to nothing takes nothing, from its tracker or from the broker. -/
theorem spares_of_fruitless (h : d.Regular) {s : Step Store} (hs : d.IsFruitless s) :
    (d.step s).2.trackers = d.trackers ∧ d.broker.Spares (d.step s).2.broker := by
  obtain ⟨htrackers, hbroker⟩ := act_of_fruitless h hs
  obtain ⟨mid, hmid, hstep, hregular, -⟩ := h.parts s
  rw [← hmid] at htrackers hbroker
  rw [hstep]
  constructor
  · rw [dropUnheld_eq]
    exact htrackers
  · rw [← hbroker]
    exact spares_dropUnheld hregular.sound

end TrackedDelivery.Deployment

/-! ## What was there for a read -/

namespace TrackedDelivery.Memory

/-- An entry that nobody has received is received on the way, or nobody has received it yet. -/
theorem Change.received_or_new {b b' last : Store} {deeds : List Deed} (hc : Change b deeds b')
    (hb : b.Sound) (hx : b.Extends last) {topic name : String} {e : ℕ}
    (he : (b.subscriptionOrNew topic name).cursor ≤ e) :
    (∃ r ∈ last.receiptsOf topic name deeds, r.entry = e) ∨
      (b'.subscriptionOrNew topic name).cursor ≤ e := by
  cases hc with
  | calm hcalm =>
      right
      rwa [hcalm.cursor]
  | attach hattach =>
      right
      rw [hattach.subscription]
      split
      · exact he
      · exact he
  | release consumer =>
      right
      rwa [Store.subscription_release hb]
  | @handOut _ consumer m options s reader hfirst =>
      rw [hfirst.handsOut.subscription]
      split
      · rename_i hw
        by_cases hlt : e < s.cursor
        · left
          obtain ⟨rfl, rfl⟩ := hw
          have hentry : e = m.id.entry.toNat :=
            ((hfirst.handsOut.gives.lt_cursor e).mp hlt).resolve_right (by omega)
          have hbelongs : last.belongs options.topic options.subscription consumer = true :=
            (hx.belongs_iff hfirst.handsOut.attached _ _).mpr ⟨rfl, rfl⟩
          refine ⟨⟨consumer, reader, m.id⟩, ?_, hentry.symm⟩
          simp [Store.receiptsOf, Deed.receipt?, hbelongs]
        · right
          omega
      · exact .inr he

theorem Turns.received_or_new {f g : Floor} {past deeds : List Deed} {last : Store}
    (t : Turns f deeds g) (h : Recorded f past) (hx : g.broker.Extends last)
    {topic name : String} {e : ℕ} (he : (f.broker.subscriptionOrNew topic name).cursor ≤ e) :
    (∃ r ∈ last.receiptsOf topic name deeds, r.entry = e) ∨
      (g.broker.subscriptionOrNew topic name).cursor ≤ e := by
  induction t generalizing past with
  | nil => exact .inr he
  | @cons f₁ f₂ f₃ first rest t ts ih =>
      rw [Store.receiptsOf_append]
      have hx₁ : f₁.broker.Extends last := (h.store_extends (.cons t ts)).trans hx
      rcases (t.change h.sound).received_or_new h.sound hx₁ he with ⟨r, hr, hre⟩ | hnew
      · exact .inl ⟨r, List.mem_append_left _ hr, hre⟩
      · rcases ih (h.turn t) hx hnew with ⟨r, hr, hre⟩ | hstill
        · exact .inl ⟨r, List.mem_append_right _ hr, hre⟩
        · exact .inr hstill

/-- Whoever receives until nothing remains is handed every entry that remains. -/
theorem Store.exists_of_receives {b : Store} (hb : b.Sound) {consumer : ℕ}
    {options : SubscribeOptions} (ha : b.attached? consumer = some options)
    (hf : b.failReceives = []) {e : ℕ}
    (he : e ∈ b.remaining options.topic options.subscription) :
    ∃ (messages : List (Message EntryId)) (after : Store),
      receives consumer b (b.remaining options.topic options.subscription).length =
        (messages.map (.done <| .ok ·), after) ∧
      ∃ m ∈ messages, m.id.entry.toNat = e := by
  obtain ⟨messages, after, hreceives, hmessages, -⟩ := receives_spec hb ha hf _ (Nat.le_refl _)
  rw [List.take_length] at hmessages
  refine ⟨messages, after, hreceives, ?_⟩
  have hplace := List.getElem?_eq_getElem (hb.lt_of_mem_remaining he)
  have hmem := List.mem_map_of_mem (f := ((b.log options.topic)[·]?)) he
  rw [← hmessages, hplace, List.mem_map] at hmem
  obtain ⟨m, hm, hsame⟩ := hmem
  refine ⟨m, hm, (hb.topicOrNew options.topic).toNat_entry ?_⟩
  rw [hsame]
  exact hplace

/-- What is there for a read that waits is received by somebody, or it is still there. -/
theorem received_or_remains {steps rest : List (Step Store)} {name : String}
    {task : Task Store} {t : Tracker Store} {options : SubscribeOptions} {e : ℕ}
    (htask : (Deployment.fresh.run steps).2.tasks.find? name = some task)
    (ht : (Deployment.fresh.run steps).2.trackers[task.tracker]? = some t)
    (ha : (Deployment.fresh.run steps).2.broker.attached? t.consumer = some options)
    (he : e ∈ (Deployment.fresh.run steps).2.broker.remaining options.topic
      options.subscription) :
    (∃ r, .received r ∈ (Deployment.fresh.run steps).2.history rest ∧ r.entry = e ∧
      ((Deployment.fresh.run steps).2.run rest).2.broker.belongs options.topic
        options.subscription r.consumer) ∨
    e ∈ ((Deployment.fresh.run steps).2.run rest).2.broker.remaining options.topic
      options.subscription := by
  have h : (Deployment.fresh.run steps).2.Regular := .run .initial steps
  have hrecorded := Deployment.recorded_run steps
  have hturns := Deployment.turns_run hrecorded rest
  obtain ⟨u, since, hu, -, hwatches⟩ := h.watchful name task htask
  rw [ht] at hu
  cases hu
  -- Nothing is queued for a consumer that waits, so nobody has received the entry.
  have hqueue := hwatches.unqueued options ha
  have hnew : ((Deployment.fresh.run steps).2.broker.subscriptionOrNew options.topic
      options.subscription).cursor ≤ e := by
    rcases Subscription.mem_remaining.mp he with hqueued | ⟨hcursor, -⟩
    · rw [hqueue] at hqueued
      cases hqueued
    · exact hcursor
  rcases hturns.received_or_new hrecorded (.refl _) hnew with ⟨r, hr, hre⟩ | hstill
  · left
    obtain ⟨hreceived, hbelongs⟩ := List.mem_filter.mp hr
    exact ⟨r, mem_receipts.mp hreceived, hre, hbelongs⟩
  · right
    have hlength := (h.grows_run rest options.topic).length_le
    have hlt := h.sound.lt_of_mem_remaining he
    exact Subscription.mem_remaining.mpr (.inr ⟨hstill, Nat.lt_of_lt_of_le hlt hlength⟩)

/-- In every state that a run comes to, a read that was cancelled beforehand ends at once. It ends
as cancelled exactly if its consumer is attached, no failure of a receive is arranged for and its
subscription is exhausted, and otherwise it does just what it would have done without the
cancellation. No step of a read that comes to nothing takes anything from a tracker or from the
broker. And whatever is there for a read that waits is received in the further course of the run by
a consumer of the subscription, or whoever is attached then will be handed it. -/
theorem cancelled_read_spares (steps : List (Step Store)) :
    let d := (Deployment.fresh.run steps).2
    (∀ (t : Tracker Store) (log : List Event),
      let w : Delivery Store := { tracker := t, broker := d.broker, log }
      (∃ result, (w.pull true).1 = .done result) ∧
      ((w.pull true).1 = .done (.ok .cancelled) ↔ ∃ options,
        w.broker.attached? t.consumer = some options ∧ w.broker.failReceives = [] ∧
          w.broker.Exhausted options.topic options.subscription) ∧
      ((w.pull true).1 ≠ .done (.ok .cancelled) → w.pull true = w.pull false)) ∧
    (∀ s : Step Store, d.IsFruitless s →
      (d.step s).2.trackers = d.trackers ∧ d.broker.Spares (d.step s).2.broker) ∧
    ∀ (name : String) (task : Task Store) (t : Tracker Store) (options : SubscribeOptions)
      (e : ℕ) (rest : List (Step Store)),
      let later := (d.run rest).2.broker
      d.tasks.find? name = some task → d.trackers[task.tracker]? = some t →
      d.broker.attached? t.consumer = some options →
      e ∈ d.broker.remaining options.topic options.subscription →
      (∃ r, .received r ∈ d.history rest ∧ r.entry = e ∧
        later.belongs options.topic options.subscription r.consumer) ∨
      (e ∈ later.remaining options.topic options.subscription ∧
        ∀ c, later.Serves options.topic options.subscription c → later.failReceives = [] →
          ∃ (n : ℕ) (messages : List (Message EntryId)) (after : Store),
            Store.receives c later n = (messages.map (.done <| .ok ·), after) ∧
              ∃ m ∈ messages, m.id.entry.toNat = e) := by
  intro d
  have h : d.Regular := .run .initial steps
  refine ⟨fun t log => ?_, fun s hs => Deployment.spares_of_fruitless h hs, ?_⟩
  · intro w
    refine ⟨pull_done w, ?_, fun hnot => pull_of_there (mt (pull_cancelled_iff w).mpr hnot)⟩
    rw [pull_cancelled_iff]
    constructor
    · intro hnone
      obtain ⟨options, hidle⟩ := Store.idle_of_tryReceive h.sound hnone
      exact ⟨options, hidle.attached, hidle.willing,
        (h.sound.exhausted_iff hidle.attached).mpr hidle.remaining⟩
    · rintro ⟨options, ha, hf, hexhausted⟩
      have hidle : w.broker.Idle t.consumer options :=
        ⟨ha, hf, (h.sound.exhausted_iff ha).mp hexhausted⟩
      rw [hidle.tryReceive h.sound]
  · intro name task t options e rest later htask ht ha he
    rcases received_or_remains htask ht ha he with hreceived | hremains
    · exact .inl hreceived
    · refine .inr ⟨hremains, ?_⟩
      rintro c ⟨options', hc, htopic, hname⟩ hf
      have hsound := (h.run rest).sound
      rw [← htopic, ← hname] at hremains
      obtain ⟨messages, after, hreceives, hmem⟩ := Store.exists_of_receives hsound hc hf hremains
      exact ⟨_, messages, after, hreceives, hmem⟩

/-- A source reads in a task, and a message is published. -/
def publishedRun : List (Step Store) :=
  [.create "a" (some sampleConfig), .openSource "a" none "", .start "r" (.source "a") .read,
    .stimulate (Stimulus.publish "t" [] [1] none 0)]

/-- The read is cancelled, and given up before it is looked at again. -/
def abandonment : List (Step Store) := [.cancel "r", .drop .task "r"]

set_option maxRecDepth 10000 in
/-- The message that the read was woken for is there for the next one. -/
theorem spared_of_publishedRun :
    (Deployment.fresh.run publishedRun).2.broker.Spares
        ((Deployment.fresh.run publishedRun).2.step (.cancel "r")).2.broker ∧
      (0 : ℕ) ∈ ((Deployment.fresh.run publishedRun).2.run abandonment).2.broker.remaining
        "t" "s" ∧
      ∃ (n : ℕ) (messages : List (Message EntryId)) (after : Store),
        Store.receives 0 ((Deployment.fresh.run publishedRun).2.run abandonment).2.broker n =
            (messages.map (.done <| .ok ·), after) ∧
          ∃ m ∈ messages, m.id.entry.toNat = 0 := by
  have htask : (Deployment.fresh.run publishedRun).2.tasks.find? "r" =
      some { tracker := 0, call := .read (0 : ℕ) } :=
    rfl
  have htracker : (Deployment.fresh.run publishedRun).2.trackers[0]?.map (·.consumer) =
      some (0 : ℕ) := by
    decide +kernel
  have hattached : (Deployment.fresh.run publishedRun).2.broker.attached? 0 =
      some (sampleConfig.subscribeOptions "s") := by
    decide +kernel
  have hthere : 0 ∈ (Deployment.fresh.run publishedRun).2.broker.remaining "t" "s" := by
    decide +kernel
  have hhistory : (Deployment.fresh.run publishedRun).2.history abandonment = [] := by
    decide +kernel
  have hserves : ((Deployment.fresh.run publishedRun).2.run abandonment).2.broker.Serves
      "t" "s" 0 := by
    decide +kernel
  have hwilling :
      ((Deployment.fresh.run publishedRun).2.run abandonment).2.broker.failReceives = [] := by
    decide +kernel
  obtain ⟨t, ht, htc⟩ := Option.map_eq_some_iff.mp htracker
  rw [← htc] at hattached
  obtain ⟨-, hfruitless, hremains⟩ := cancelled_read_spares publishedRun
  refine ⟨(hfruitless (.cancel "r") trivial).2, ?_⟩
  rcases hremains "r" _ t _ 0 abandonment htask ht hattached hthere with
    ⟨r, hr, -⟩ | ⟨hstill, hhanded⟩
  · rw [hhistory] at hr
    cases hr
  · exact ⟨hstill, hhanded 0 hserves hwilling⟩

end TrackedDelivery.Memory
