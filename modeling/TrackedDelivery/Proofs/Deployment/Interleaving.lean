import TrackedDelivery.Proofs.Deployment.Settling
/-!
# Acknowledgments among reads

A message that is pending is not queued for redelivery, so its acknowledgment leaves alone what the
broker will hand out. A tracker that acknowledges between its reads is therefore given the same
messages as one that only reads, and they differ in nothing but the messages that were acknowledged.
-/
namespace TrackedDelivery

open Memory

/-- What a tracker is asked for by one who reads and acknowledges. -/
inductive Act
  | pull (cancelled : Bool)
  | acknowledge (position : Bytes)

def Act.cancelled? : Act → Option Bool
  | pull cancelled => some cancelled
  | acknowledge _ => none

def Act.position? : Act → Option Bytes
  | pull _ => none
  | acknowledge position => some position

namespace Delivery

def after (w : Delivery Store) : Act → Delivery Store
  | .pull cancelled => (w.pull cancelled).2
  | .acknowledge position => (w.acknowledge position).2

/-- The position of the record that an act returns, if it returns one. -/
def returned? (w : Delivery Store) : Act → Option Bytes
  | .pull cancelled =>
      match (w.pull cancelled).1 with
      | .done (.ok (.record r)) => some r.position
      | _ => none
  | .acknowledge _ => none

def afterAll (w : Delivery Store) (acts : List Act) : Delivery Store := acts.foldl after w

/-- The positions of the records that acts return, one after another. -/
def returned (w : Delivery Store) : List Act → List Bytes
  | [] => []
  | act :: rest => (w.returned? act).toList ++ (w.after act).returned rest

/-- Every acknowledgment of a message comes after the read that returns it. -/
def Timely (w : Delivery Store) : List Act → Prop
  | [] => True
  | act :: rest =>
      (∀ position ∈ act.position?, ∀ id ∈ w.tracker.named? position,
        ∀ later ∈ (w.after act).returned rest, w.tracker.named? later ≠ some id) ∧
      (w.after act).Timely rest

instance decidableTimely : ∀ (w : Delivery Store) (acts : List Act), Decidable (w.Timely acts)
  | _, [] => inferInstanceAs (Decidable True)
  | w, act :: rest =>
      have := decidableTimely (w.after act) rest
      inferInstanceAs (Decidable (_ ∧ _))

/-- Reads, one after another. -/
def pullAll (w : Delivery Store) (flags : List Bool) : Delivery Store :=
  flags.foldl (fun w cancelled => (w.pull cancelled).2) w

end Delivery

namespace PendingSet

variable {α : Type} (set : PendingSet α) (key other : String) (value : α)

theorem find?_insertIfAbsent : (set.insertIfAbsent key value).2.find? other =
    if other = key then some ((set.find? key).getD value) else set.find? other := by
  unfold insertIfAbsent TextMap.contains
  cases h : set.find? key with
  | none => simp [TextMap.find?_insert]
  | some old =>
      split
      · split
        · rename_i hother
          rw [hother, h]
          rfl
        · rfl
      · contradiction

theorem contains_insertIfAbsent : (set.insertIfAbsent key value).2.contains other = true ↔
    other = key ∨ set.contains other = true := by
  rw [TextMap.contains, find?_insertIfAbsent, TextMap.contains]
  split <;> simp_all

end PendingSet

namespace Memory

/-! ## Subscriptions that differ in what is settled -/

theorem Subscription.next?_settled (s : Subscription) (unacked : List ℕ) (acked : List EntryId)
    (length : ℕ) : ({ s with unacked, acked } : Subscription).next? length =
      (s.next? length).map fun given =>
        (given.1, { given.2 with unacked := insertEntry given.1 unacked, acked }) := by
  unfold next?
  cases s.redeliver with
  | nil =>
      dsimp only
      split <;> rfl
  | cons entry rest => rfl

namespace Store

/-- A store differs from another one in what is settled of one subscription. -/
def SettledApart (b : Store) (topic name : String) (b' : Store) : Prop :=
  ∃ unacked acked, b' = b.put topic name { b.subscriptionOrNew topic name with unacked, acked }

variable {b b' : Store} {consumer : ℕ} {options : SubscribeOptions}

/-- What is settled does not matter to one who receives. -/
theorem SettledApart.tryReceive (h : b.SettledApart options.topic options.subscription b')
    (hb : b.Sound) (hb' : b'.Sound) (ha : b.attached? consumer = some options) :
    (b'.tryReceive consumer).1 = (b.tryReceive consumer).1 ∧
      (b.tryReceive consumer).2.SettledApart options.topic options.subscription
        (b'.tryReceive consumer).2 := by
  obtain ⟨unacked, acked, rfl⟩ := h
  have ha' : (b.put options.topic options.subscription
      { b.subscriptionOrNew options.topic options.subscription with unacked, acked }).attached?
        consumer = some options := ha
  cases hf : b.failReceives with
  | cons reason rest =>
      have hf' : (b.put options.topic options.subscription { b.subscriptionOrNew options.topic
          options.subscription with unacked, acked }).failReceives = reason :: rest := hf
      simp only [Store.tryReceive, ha, ha', hf, hf']
      exact ⟨trivial, unacked, acked, rfl⟩
  | nil =>
      rw [tryReceive_eq hb ha hf, tryReceive_eq hb' ha' hf]
      simp only [log_put, subscriptionOrNew_put, and_self, if_true, Subscription.next?_settled]
      cases (b.subscriptionOrNew options.topic options.subscription).next?
          (b.log options.topic).length with
      | none => exact ⟨rfl, unacked, acked, rfl⟩
      | some given =>
          simp only [Option.map_some]
          cases (b.log options.topic)[given.1]? with
          | none => exact ⟨rfl, unacked, acked, rfl⟩
          | some m =>
              refine ⟨rfl, Subscription.insertEntry given.1 unacked, acked, ?_⟩
              simp only [put_put, subscriptionOrNew_put, and_self, if_true]

theorem failAcknowledges_tryReceive (b : Store) (consumer : ℕ) :
    (b.tryReceive consumer).2.failAcknowledges = b.failAcknowledges := by
  obtain ⟨_, _, h⟩ := b.frame_tryReceive consumer
  rw [h]

end Store

/-! ## One read -/

section

variable {v w : Delivery Store} {options : SubscribeOptions} {ids : List EntryId}

@[simp] theorem named?_encode (t : Tracker Store) (id : EntryId) :
    t.named? (Position.forMessage t.subscription id).encode = some id :=
  Tracker.named?_eq_some.mpr (t.meaning_encode id)

/-- A read returns what is received at once and makes it pending. -/
theorem pull_of_some (w : Delivery Store) (cancelled : Bool) {m : Message EntryId}
    (h : (w.broker.tryReceive w.tracker.consumer).1 = some (.ok m)) :
    w.returned? (.pull cancelled) =
        some (Position.forMessage w.tracker.subscription m.id).encode ∧
      (w.pull cancelled).2.broker = (w.broker.tryReceive w.tracker.consumer).2 ∧
      (w.pull cancelled).2.tracker = { w.tracker with
        pending := (w.tracker.pending.insertIfAbsent m.id.text m).2 } := by
  obtain ⟨after, hpull, hbroker, htracker⟩ := pull_of_tryReceive w cancelled (Prod.ext h rfl)
  rw [Delivery.returned?, hpull]
  exact ⟨rfl, hbroker, htracker⟩

/-- A read that receives nothing at once leaves the tracker as it is. -/
theorem pull_of_none (w : Delivery Store) (cancelled : Bool)
    (h : ∀ m, (w.broker.tryReceive w.tracker.consumer).1 ≠ some (.ok m)) :
    (w.pull cancelled).2.broker = (w.broker.tryReceive w.tracker.consumer).2 ∧
      (w.pull cancelled).2.tracker = w.tracker := by
  rw [pull_eq, Store.receive]
  rcases hr : w.broker.tryReceive w.tracker.consumer with ⟨_ | e | m, b⟩
  · cases cancelled <;> exact ⟨rfl, rfl⟩
  · exact ⟨rfl, rfl⟩
  · rw [hr] at h
    exact absurd rfl (h m)

namespace Ready

theorem pull (h : Ready w options) (cancelled : Bool) : Ready (w.pull cancelled).2 options := by
  by_cases hsome : ∃ m, (w.broker.tryReceive w.tracker.consumer).1 = some (.ok m)
  · obtain ⟨m, hm⟩ := hsome
    obtain ⟨-, hbroker, htracker⟩ := pull_of_some w cancelled hm
    obtain ⟨options', s, hout⟩ := Store.handsOut_of_tryReceive h.sound (Prod.ext hm rfl)
    obtain rfl : options' = options := Option.some.inj (hout.attached.symm.trans h.attached)
    constructor
    · rw [hbroker]
      exact hout.sound_after h.sound
    · rw [hbroker, htracker, Store.attached?_congr hout.consumers]
      exact h.attached
    · rw [hbroker, Store.failAcknowledges_tryReceive]
      exact h.willing
    · rw [htracker]
      exact keyed_insertIfAbsent h.keyed m
    · intro id hid
      rw [hbroker, hout.subscription, if_pos ⟨rfl, rfl⟩, hout.gives.mem_redeliver]
      rintro ⟨hqueued, hne⟩
      rw [htracker, PendingSet.contains_insertIfAbsent, EntryId.text_inj] at hid
      rcases hid with rfl | hid
      · exact hne rfl
      · exact h.unqueued id hid hqueued
  · rw [not_exists] at hsome
    obtain ⟨hbroker, htracker⟩ := pull_of_none w cancelled hsome
    obtain ⟨htopics, hconsumers⟩ := Store.tryReceive_quiet hsome
    constructor
    · rw [hbroker]
      exact h.sound.of_eq htopics hconsumers
    · rw [hbroker, htracker, Store.attached?_congr hconsumers]
      exact h.attached
    · rw [hbroker, Store.failAcknowledges_tryReceive]
      exact h.willing
    · rw [htracker]
      exact h.keyed
    · rw [hbroker, htracker, Store.subscriptionOrNew_congr htopics]
      exact h.unqueued

/-- The queue loses nothing by an acknowledgment. -/
theorem settleAll_eq (h : Ready w options)
    (hids : ∀ id ∈ ids, w.tracker.pending.contains id.text = true) :
    (w.broker.subscriptionOrNew options.topic options.subscription).settleAll ids =
      { w.broker.subscriptionOrNew options.topic options.subscription with
        unacked := (w.broker.subscriptionOrNew options.topic
          options.subscription).unacked.filter fun e => ∀ id ∈ ids, e ≠ id.entry.toNat
        acked :=
          (w.broker.subscriptionOrNew options.topic options.subscription).acked ++ ids } := by
  rw [Subscription.settleAll_eq]
  congr 1
  refine List.filter_eq_self.mpr fun e he => ?_
  rw [decide_eq_true_iff]
  rintro id hid rfl
  exact h.unqueued id (hids id hid) he

theorem after (h : Ready w options) (act : Act) : Ready (w.after act) options := by
  cases act with
  | pull cancelled => exact h.pull cancelled
  | acknowledge position => exact h.of_acknowledges (h.acknowledge position).2

end Ready

/-- A message that is named without being pending is not found anyway. -/
theorem find?_unless_meant (t : Tracker Store) (position : Bytes) (key : String) :
    (if key ∈ (t.meant? position).toList.map EntryId.text then none else t.pending.find? key) =
      if key ∈ (t.named? position).toList.map EntryId.text then none
      else t.pending.find? key := by
  cases hnamed : t.named? position with
  | none => simp [Tracker.meant?, hnamed]
  | some id =>
      cases hpending : t.pending.contains id.text with
      | true => rw [Tracker.meant?_eq_some.mpr ⟨hnamed, hpending⟩]
      | false =>
          have hnone : t.pending.find? id.text = none := by
            simpa [TextMap.contains] using hpending
          by_cases hkey : key = id.text
          · simp [hkey, hnone]
          · simp [Tracker.meant?, hnamed, hpending, hkey]

/-! ## Reading alone and acknowledging besides -/

/-- One delivery has read what another one has, and it has acknowledged messages besides. -/
structure Trails (options : SubscribeOptions) (ids : List EntryId) (v w : Delivery Store) :
    Prop where
  consumer : w.tracker.consumer = v.tracker.consumer
  subscription : w.tracker.subscription = v.tracker.subscription
  broker : v.broker.SettledApart options.topic options.subscription w.broker
  find : ∀ key, w.tracker.pending.find? key =
    if key ∈ ids.map EntryId.text then none else v.tracker.pending.find? key

namespace Trails

theorem refl (options : SubscribeOptions) (h : Ready w options) : Trails options [] w w where
  consumer := rfl
  subscription := rfl
  broker := ⟨_, _, (Store.put_of_subscription? h.subscription?).symm⟩
  find _ := rfl

/-- Both are given the same message, which must be none of those acknowledged. -/
theorem pull (h : Trails options ids v w) (hv : Ready v options) (hw : Ready w options)
    (cancelled : Bool) (hnew : ∀ position ∈ w.returned? (.pull cancelled), ∀ id ∈ ids,
      w.tracker.named? position ≠ some id) :
    Trails options ids (v.pull cancelled).2 (w.pull cancelled).2 := by
  obtain ⟨hsame, hapart⟩ := h.broker.tryReceive hv.sound hw.sound hv.attached
  have hc := h.consumer
  by_cases hsome : ∃ m, (v.broker.tryReceive v.tracker.consumer).1 = some (.ok m)
  · obtain ⟨m, hm⟩ := hsome
    obtain ⟨-, hbroker, htracker⟩ := pull_of_some v cancelled hm
    obtain ⟨hreturned, hbroker', htracker'⟩ :=
      pull_of_some w cancelled (by rw [hc, hsame, hm])
    have hm' : m.id.text ∉ ids.map EntryId.text := by
      simp only [List.mem_map, EntryId.text_inj, exists_eq_right]
      intro hid
      exact hnew _ hreturned m.id hid (named?_encode w.tracker m.id)
    constructor
    · rw [htracker, htracker']
      exact hc
    · rw [htracker, htracker']
      exact h.subscription
    · rw [hbroker, hbroker', hc]
      exact hapart
    · intro key
      rw [htracker, htracker']
      simp only [PendingSet.find?_insertIfAbsent, h.find]
      by_cases hkey : key = m.id.text
      · subst hkey
        simp [hm']
      · simp [hkey]
  · rw [not_exists] at hsome
    obtain ⟨hbroker, htracker⟩ := pull_of_none v cancelled hsome
    obtain ⟨hbroker', htracker'⟩ := pull_of_none w cancelled (by rwa [hc, hsame])
    constructor
    · rw [htracker, htracker', hc]
    · rw [htracker, htracker', h.subscription]
    · rw [hbroker, hbroker', hc]
      exact hapart
    · rw [htracker, htracker']
      exact h.find

theorem acknowledge (h : Trails options ids v w) (hw : Ready w options) (position : Bytes) :
    Trails options (ids ++ (w.tracker.named? position).toList) v (w.acknowledge position).2 := by
  obtain ⟨-, hack⟩ := hw.acknowledge position
  constructor
  · rw [hack.consumer, h.consumer]
  · rw [hack.subscription, h.subscription]
  · obtain ⟨unacked, acked, hbroker⟩ := h.broker
    have hs : w.broker.subscriptionOrNew options.topic options.subscription =
        { v.broker.subscriptionOrNew options.topic options.subscription with unacked, acked } := by
      rw [hbroker, Store.subscriptionOrNew_put, if_pos ⟨rfl, rfl⟩]
    rw [hack.broker, hw.settleAll_eq hack.pending, hs, hbroker, Store.put_put]
    exact ⟨_, _, rfl⟩
  · intro key
    rw [hack.find, find?_unless_meant, h.find, List.map_append]
    simp only [List.mem_append]
    by_cases hkey : key ∈ (w.tracker.named? position).toList.map EntryId.text
    · rw [if_pos hkey, if_pos (.inr hkey)]
    · simp only [hkey, if_false, or_false]

end Trails

theorem Ready.named?_after (h : Ready w options) (act : Act) (position : Bytes) :
    (w.after act).tracker.named? position = w.tracker.named? position := by
  cases act with
  | pull cancelled =>
      by_cases hsome : ∃ m, (w.broker.tryReceive w.tracker.consumer).1 = some (.ok m)
      · obtain ⟨m, hm⟩ := hsome
        rw [Delivery.after, (pull_of_some w cancelled hm).2.2]
        rfl
      · rw [Delivery.after, (pull_of_none w cancelled (not_exists.mp hsome)).2]
  | acknowledge other => exact (h.acknowledge other).2.named? position

/-- Whatever is acknowledged after it was read is missing in the end, and nothing else is. -/
theorem Trails.afterAll (h : Trails options ids v w) (hv : Ready v options)
    (hw : Ready w options) {acts : List Act} (htimely : w.Timely acts)
    (hnew : ∀ position ∈ w.returned acts, ∀ id ∈ ids, w.tracker.named? position ≠ some id) :
    Trails options (ids ++ (acts.filterMap Act.position?).filterMap w.tracker.named?)
      (v.pullAll (acts.filterMap Act.cancelled?)) (w.afterAll acts) := by
  induction acts generalizing ids v w with
  | nil =>
      rw [List.filterMap_nil, List.filterMap_nil, List.append_nil]
      exact h
  | cons act rest ih =>
      obtain ⟨hlater, htimely⟩ := htimely
      have hnamed : (w.after act).tracker.named? = w.tracker.named? :=
        funext (hw.named?_after act)
      cases act with
      | pull cancelled =>
          have hread : Trails options ids (v.pull cancelled).2 (w.after (.pull cancelled)) := by
            refine h.pull hv hw cancelled fun position hposition => ?_
            exact hnew position (List.mem_append_left _ (Option.mem_toList.mpr hposition))
          have hrest := ih hread (hv.pull cancelled) (hw.pull cancelled) htimely
          rw [hnamed] at hrest
          exact hrest fun position hposition => hnew position (List.mem_append_right _ hposition)
      | acknowledge position =>
          have hrest := ih (w := w.after (.acknowledge position)) (h.acknowledge hw position) hv
            (hw.after (.acknowledge position)) htimely
          rw [hnamed, List.append_assoc] at hrest
          have hids : (w.tracker.named? position).toList ++
              (rest.filterMap Act.position?).filterMap w.tracker.named? =
                ((Act.acknowledge position :: rest).filterMap Act.position?).filterMap
                  w.tracker.named? := by
            cases hid : w.tracker.named? position <;> simp [Act.position?, hid]
          rw [hids] at hrest
          refine hrest fun later hreturned id hid => ?_
          rcases List.mem_append.mp hid with hid | hid
          · exact hnew later hreturned id hid
          · exact hlater position rfl id (Option.mem_toList.mp hid) later hreturned

/-- Two ways to order acknowledgments among the same reads leave the same tracker, if both let
every acknowledgment of a message come after its read. -/
theorem Ready.afterAll_tracker (h : Ready w options) {acts acts' : List Act}
    (hpulls : acts'.filterMap Act.cancelled? = acts.filterMap Act.cancelled?)
    (hpositions : (acts.filterMap Act.position?).Perm (acts'.filterMap Act.position?))
    (htimely : w.Timely acts) (htimely' : w.Timely acts') :
    (w.afterAll acts').tracker = (w.afterAll acts).tracker := by
  have hfirst := (Trails.refl options h).afterAll h h htimely (by simp)
  have hsecond := (Trails.refl options h).afterAll h h htimely' (by simp)
  rw [hpulls] at hsecond
  have hids := ((hpositions.filterMap w.tracker.named?).map EntryId.text)
  refine tracker_ext ?_ ?_ fun key => ?_
  · rw [hfirst.consumer, hsecond.consumer]
  · rw [hfirst.subscription, hsecond.subscription]
  · rw [hfirst.find, hsecond.find, List.nil_append, List.nil_append]
    simp only [hids.mem_iff]

end

/-! ## Trackers of a run -/

/-- Whatever is pending in a tracker was received for it. -/
def PendingReceived (f : Floor) (past : List Deed) : Prop :=
  ∀ (n : ℕ) t, f.trackers[n]? = some t → ∀ key m, t.pending.find? key = some m →
    .received ⟨t.consumer, some n, m.id⟩ ∈ past

namespace PendingReceived

variable {f g : Floor} {past deeds : List Deed}

theorem initial : PendingReceived { broker := {}, trackers := [] } [] :=
  fun _ _ h => by cases h

theorem turn (h : PendingReceived f past) (turn : Turn f deeds g) :
    PendingReceived g (past ++ deeds) := by
  intro n u hu key m hm
  have hold : f.trackers[n]? = some u → .received ⟨u.consumer, some n, m.id⟩ ∈ past ++ deeds :=
    fun hu => List.mem_append_left _ (h n u hu key m hm)
  cases turn with
  | settle => exact hold hu
  | move move =>
      cases move with
      | quiet | publish | turnAway | attach | release | receive => exact hold hu
      | track =>
          rw [List.getElem?_append] at hu
          split at hu
          · exact hold hu
          · cases List.mem_singleton.mp (List.mem_of_getElem? hu)
            cases hm
      | @pull _ k t m' tracker =>
          rcases Accounted.getElem?_set_cases hu with ⟨rfl, rfl⟩ | ⟨-, hu⟩
          · rw [PendingSet.find?_insertIfAbsent] at hm
            split at hm
            · cases hfree : t.pending.find? m'.id.text with
              | none =>
                  rw [hfree] at hm
                  cases hm
                  exact List.mem_append_right _ (List.mem_singleton_self _)
              | some old =>
                  rw [hfree] at hm
                  cases hm
                  exact List.mem_append_left _ (h _ _ tracker _ old hfree)
            · exact List.mem_append_left _ (h _ _ tracker key m hm)
          · exact hold hu
      | confirm tracker | refuse tracker =>
          rcases Accounted.getElem?_set_cases hu with ⟨rfl, rfl⟩ | ⟨-, hu⟩
          · rw [TextMap.find?_erase] at hm
            split at hm
            · cases hm
            · exact List.mem_append_left _ (h _ _ tracker key m hm)
          · exact hold hu

theorem turns (h : PendingReceived f past) (turns : Turns f deeds g) :
    PendingReceived g (past ++ deeds) := by
  induction turns generalizing past with
  | nil => rwa [List.append_nil]
  | cons turn _ ih =>
      rw [← List.append_assoc]
      exact ih (h.turn turn)

end PendingReceived

section

variable {steps : List (Step Store)} {n : ℕ} {t : Tracker Store} {options : SubscribeOptions}

/-- In every run, a tracker whose consumer is attached is ready while the broker is willing. -/
theorem ready_run (ht : (Deployment.fresh.run steps).2.trackers[n]? = some t)
    (ha : (Deployment.fresh.run steps).2.broker.attached? t.consumer = some options)
    (hwilling : (Deployment.fresh.run steps).2.broker.failAcknowledges = []) (log : List Event) :
    Ready { tracker := t, broker := (Deployment.fresh.run steps).2.broker, log } options := by
  have h := Deployment.recorded_run steps
  have hreceived : PendingReceived (Deployment.fresh.run steps).2.floor
      (Deployment.fresh.history steps) :=
    PendingReceived.initial.turns (Deployment.turns_run (d := .fresh) .initial steps)
  have hkeyed := h.allKeyed t (List.mem_of_getElem? ht)
  refine ⟨h.sound, ha, hwilling, hkeyed, fun id hid => ?_⟩
  obtain ⟨m, hm⟩ := TextMap.contains_iff.mp hid
  obtain rfl : id = m.id := EntryId.text_inj.mp (hkeyed _ m hm)
  have hpast := hreceived n t ht _ m hm
  have hpresent := (h.attended.present options.topic options.subscription t.consumer).mpr
    ⟨options, ha, rfl, rfl⟩
  exact h.attended.unqueued _ _ _ (h.attended.current _ _ _ hpast hpresent)

/-- Let a tracker's consumer be attached and no failure be arranged for acknowledgments. To
acknowledge positions one after another, in either of two orders, leaves the same tracker and, at
the broker, the same but for the order in which the acknowledged are noted; as many acknowledgments
succeed, and at most one for each message. Reads in between do not matter either, as long as every
acknowledgment of a message comes after the read that returns it. -/
theorem acknowledgments_commute
    (ht : (Deployment.fresh.run steps).2.trackers[n]? = some t)
    (ha : (Deployment.fresh.run steps).2.broker.attached? t.consumer = some options)
    (hwilling : (Deployment.fresh.run steps).2.broker.failAcknowledges = []) (log : List Event) :
    let b := (Deployment.fresh.run steps).2.broker
    let w : Delivery Store := { tracker := t, broker := b, log }
    (∀ positions positions' : List Bytes, positions.Perm positions' →
      (w.acknowledgeBatch positions').2.tracker = (w.acknowledgeBatch positions).2.tracker ∧
      (∃ s unacked redeliver new new',
        b.subscription? options.topic options.subscription = some s ∧
        new.Perm new' ∧ new.Nodup ∧
        (w.acknowledgeBatch positions).2.broker = b.put options.topic options.subscription
          { s with unacked, redeliver, acked := s.acked ++ new } ∧
        (w.acknowledgeBatch positions').2.broker = b.put options.topic options.subscription
          { s with unacked, redeliver, acked := s.acked ++ new' }) ∧
      (w.acknowledgeBatch positions').1.countP AckCall.isOk =
        (w.acknowledgeBatch positions).1.countP AckCall.isOk ∧
      ∀ id, t.successes id positions (w.acknowledgeBatch positions).1 ≤ 1) ∧
    ∀ acts acts' : List Act, acts'.filterMap Act.cancelled? = acts.filterMap Act.cancelled? →
      (acts.filterMap Act.position?).Perm (acts'.filterMap Act.position?) →
      w.Timely acts → w.Timely acts' →
      (w.afterAll acts').tracker = (w.afterAll acts).tracker := by
  intro b w
  have h : Ready w options := ready_run ht ha hwilling log
  refine ⟨fun positions positions' hperm => ?_, fun acts acts' => h.afterAll_tracker⟩
  obtain ⟨ids, ids', hids, hfirst, hsecond, hcount, hsuccesses⟩ := h.acknowledgeBatch_perm hperm
  refine ⟨hfirst.tracker_eq hsecond fun id => hids.mem_iff, ?_, hcount.symm, hsuccesses⟩
  let s := b.subscriptionOrNew options.topic options.subscription
  refine ⟨s, (s.settleAll ids).unacked, (s.settleAll ids).redeliver, ids, ids', h.subscription?,
    hids, hfirst.nodup, ?_, ?_⟩
  · rw [hfirst.broker, Subscription.settleAll_eq]
  · rw [hsecond.broker, Subscription.settleAll_perm _ hids, Subscription.settleAll_eq]

end

/-- A source reads two of four messages, opens again and reads the first of them once more. The
second one is queued. -/
def rereadingRun : List (Step Store) :=
  [.create "a" (some sampleConfig), .openSource "a" none "",
    .stimulate (Stimulus.publish "t" [] [1] none 0),
    .stimulate (Stimulus.publish "t" [] [2] none 0),
    .stimulate (Stimulus.publish "t" [] [3] none 0),
    .stimulate (Stimulus.publish "t" [] [4] none 0),
    .ask (.source "a") .read false, .ask (.source "a") .read false, .teardown "a",
    .openSource "a" none "", .ask (.source "a") .read false]

def samplePosition (entry : UInt64) : Bytes :=
  (Position.forMessage "s" (⟨0, entry⟩ : EntryId)).encode

/-- Positions of the pending message, of a message that is not pending, of another subscription,
and bytes that are no position. -/
def mixedPositions : List Bytes :=
  [samplePosition 0, [1], samplePosition 0, samplePosition 3,
    (Position.forMessage "other" (⟨0, 0⟩ : EntryId)).encode]

def promptActs : List Act :=
  [.acknowledge (samplePosition 0), .pull false, .acknowledge (samplePosition 1), .pull false,
    .acknowledge (samplePosition 2)]

def lateActs : List Act :=
  [.pull false, .pull false, .acknowledge (samplePosition 2), .acknowledge (samplePosition 0),
    .acknowledge (samplePosition 1)]

set_option maxRecDepth 10000 in
theorem commuted_of_rereadingRun : ∃ t,
    (Deployment.fresh.run rereadingRun).2.trackers[1]? = some t ∧
    let w : Delivery Store :=
      { tracker := t, broker := (Deployment.fresh.run rereadingRun).2.broker }
    pendingIds t = [⟨0, 0⟩] ∧
    (w.acknowledgeBatch mixedPositions.reverse).2.tracker =
      (w.acknowledgeBatch mixedPositions).2.tracker ∧
    (w.afterAll lateActs).tracker = (w.afterAll promptActs).tracker := by
  have hstate : (Deployment.fresh.run rereadingRun).2.trackers[1]?.map (fun t =>
      let w : Delivery Store :=
        { tracker := t, broker := (Deployment.fresh.run rereadingRun).2.broker }
      (w.broker.attached? t.consumer, pendingIds t, decide (w.Timely promptActs),
        decide (w.Timely lateActs))) =
      some (some (sampleConfig.subscribeOptions "s"), [⟨0, 0⟩], true, true) := by
    decide +kernel
  have hwilling : (Deployment.fresh.run rereadingRun).2.broker.failAcknowledges = [] := by
    decide +kernel
  have hpulls : lateActs.filterMap Act.cancelled? = promptActs.filterMap Act.cancelled? := rfl
  have hpositions :
      (promptActs.filterMap Act.position?).Perm (lateActs.filterMap Act.position?) := by
    decide +kernel
  obtain ⟨t, ht, hstate⟩ := Option.map_eq_some_iff.mp hstate
  dsimp only at hstate
  simp only [Prod.mk.injEq, decide_eq_true_eq] at hstate
  obtain ⟨ha, hpending, htimely, htimely'⟩ := hstate
  obtain ⟨hbatch, hacts⟩ := acknowledgments_commute ht ha hwilling []
  refine ⟨t, ht, hpending, ?_, hacts promptActs lateActs hpulls hpositions htimely htimely'⟩
  exact (hbatch mixedPositions _ mixedPositions.reverse_perm.symm).1

end Memory
end TrackedDelivery
