import TrackedDelivery.Proofs.Memory.Operations
import Mathlib.Data.List.Range
/-!
# What is still to be handed out

A subscription hands out what is queued for redelivery and after it what nobody has received from
the log. An attached consumer receives the first of these entries, and it has to wait exactly when
there are none. So whoever receives again and again, with nothing in between, is handed all of
them in this order.
-/
namespace TrackedDelivery.Memory

/-! ## Subscriptions -/

namespace Subscription

variable {s s' : Subscription} {length entry e : ℕ}

/-- What is still to be handed out of a log of the given length, in order. -/
def remaining (s : Subscription) (length : ℕ) : List ℕ :=
  s.redeliver ++ List.range' s.cursor (length - s.cursor)

theorem mem_remaining :
    e ∈ s.remaining length ↔ e ∈ s.redeliver ∨ (s.cursor ≤ e ∧ e < length) := by
  rw [remaining, List.mem_append, List.mem_range'_1]
  apply or_congr_right
  omega

theorem remaining_eq_nil_iff :
    s.remaining length = [] ↔ s.redeliver = [] ∧ length ≤ s.cursor := by
  rw [remaining, List.append_eq_nil_iff, List.range'_eq_nil_iff]
  apply and_congr_right
  omega

theorem next?_eq_none_iff : s.next? length = none ↔ s.remaining length = [] := by
  rw [remaining_eq_nil_iff, next?]
  cases hq : s.redeliver with
  | nil => simp
  | cons entry rest => simp

/-- The next entry is the first that remains, and the others remain. -/
theorem remaining_of_next? (h : s.next? length = some (entry, s')) :
    s.remaining length = entry :: s'.remaining length := by
  rcases next?_cases h with ⟨rest, hr, rfl⟩ | ⟨hr, rfl, hlt, rfl⟩
  · simp [remaining, hr]
  · have hlength : length - s.cursor = length - (s.cursor + 1) + 1 := by omega
    simp only [remaining, hr, List.nil_append]
    rw [hlength, List.range'_succ]

theorem Sound.remaining_ascending (h : s.Sound length) :
    (s.remaining length).Pairwise (· < ·) := by
  rw [remaining, List.pairwise_append]
  refine ⟨h.redeliver_ascending, List.pairwise_lt_range' _, ?_⟩
  intro e he e' he'
  have hbelow := h.unacked_below e (h.redeliver_subset e he)
  have habove := (List.mem_range'_1.mp he').1
  omega

theorem Sound.lt_of_mem_remaining (h : s.Sound length) (he : e ∈ s.remaining length) :
    e < length := by
  rcases mem_remaining.mp he with hqueued | ⟨-, hlt⟩
  · have hbelow := h.unacked_below e (h.redeliver_subset e hqueued)
    have hle := h.cursor_le
    omega
  · exact hlt

/-- The first consumer to attach finds everything unacknowledged before the rest of the log. -/
theorem remaining_attach (h : s.activeConsumers = 0) :
    s.attach.remaining length =
      s.unacked ++ List.range' s.cursor (length - s.cursor) := by
  simp [remaining, attach, h]

end Subscription

namespace Store

variable {b b' : Store} {consumer : ℕ} {options : SubscribeOptions} {m : Message EntryId}

/-! ## Logs -/

def log (b : Store) (topic : String) : List (Message EntryId) := (b.topicOrNew topic).log

theorem log_congr (h : b'.topics = b.topics) (topic : String) : b'.log topic = b.log topic := by
  simp only [log, topicOrNew, h]

@[simp] theorem log_put (b : Store) (topic name t : String) (s : Subscription) :
    (b.put topic name s).log t = b.log t := by
  simp only [log, topicOrNew, put, setTopic, TextMap.find?_insert]
  by_cases ht : t = topic
  · subst ht
    simp
  · rw [if_neg ht]
    cases b.topics.find? t <;> rfl

theorem log_modifySubscription (b : Store) (topic name t : String)
    (f : Subscription → Subscription) : (b.modifySubscription topic name f).log t = b.log t := by
  rcases b.modifySubscription_cases topic name f with h | ⟨s, h⟩
  · rw [h]
  · rw [h, log_put]

/-- What a subscription has still to hand out. -/
def remaining (b : Store) (topic name : String) : List ℕ :=
  (b.subscriptionOrNew topic name).remaining (b.log topic).length

theorem Sound.remaining_ascending (h : b.Sound) (topic name : String) :
    (b.remaining topic name).Pairwise (· < ·) :=
  (h.subscription topic name).remaining_ascending

theorem Sound.lt_of_mem_remaining (h : b.Sound) {topic name : String} {e : ℕ}
    (he : e ∈ b.remaining topic name) : e < (b.log topic).length :=
  (h.subscription topic name).lt_of_mem_remaining he

/-! ## One receive -/

/-- A receive of an attached consumer while no failure is arranged for. -/
theorem tryReceive_eq (hb : b.Sound) (ha : b.attached? consumer = some options)
    (hf : b.failReceives = []) :
    b.tryReceive consumer =
      match (b.subscriptionOrNew options.topic options.subscription).next?
          (b.log options.topic).length with
      | none => (none, b)
      | some (entry, s) =>
          match (b.log options.topic)[entry]? with
          | none => (none, b)
          | some message =>
              (some (.ok message), b.put options.topic options.subscription s) := by
  obtain ⟨t, ht, hs⟩ := subscription?_eq_some.mp (hb.subscription?_of_attached ha)
  have hnew : b.topicOrNew options.topic = t := by simp [topicOrNew, ht]
  have h := tryReceive.eq_def b consumer
  simp only [ha, hf, ht, hs] at h
  simp only [log, put, hnew]
  exact h

theorem tryReceive_of_remaining_nil (hb : b.Sound) (ha : b.attached? consumer = some options)
    (hf : b.failReceives = []) (h : b.remaining options.topic options.subscription = []) :
    b.tryReceive consumer = (none, b) := by
  rw [tryReceive_eq hb ha hf, Subscription.next?_eq_none_iff.mpr h]

/-- What it is for a store to hand out the first of the entries that remain. -/
structure HandsOutFirst (b : Store) (consumer : ℕ) (m : Message EntryId) (b' : Store)
    (options : SubscribeOptions) (s : Subscription) : Prop where
  handsOut : b.HandsOut consumer m b' options s
  willing : b.failReceives = []
  place : (b.log options.topic)[m.id.entry.toNat]? = some m
  remaining : b.remaining options.topic options.subscription =
    m.id.entry.toNat :: b'.remaining options.topic options.subscription

theorem willing_of_tryReceive (hr : b.tryReceive consumer = (some (.ok m), b')) :
    b.failReceives = [] := by
  unfold tryReceive at hr
  split at hr
  · cases hr
  · split at hr
    · cases hr
    · assumption

theorem handsOutFirst_of_tryReceive (hb : b.Sound)
    (hr : b.tryReceive consumer = (some (.ok m), b')) :
    ∃ options s, b.HandsOutFirst consumer m b' options s := by
  obtain ⟨options, s, hout⟩ := handsOut_of_tryReceive hb hr
  have hwilling := willing_of_tryReceive hr
  rw [tryReceive_eq hb hout.attached hwilling] at hr
  split at hr
  · cases hr
  · rename_i entry s' hnext
    split at hr
    · cases hr
    · rename_i message hplace
      cases hr
      have hentry := (hb.topicOrNew options.topic).toNat_entry hplace
      refine ⟨options, s, hout, hwilling, hentry ▸ hplace, ?_⟩
      rw [hentry, remaining, Subscription.remaining_of_next? hnext, remaining,
        subscriptionOrNew_put, if_pos ⟨rfl, rfl⟩, log_put]

/-- While anything remains, an attached consumer is handed the first of it. -/
theorem tryReceive_of_remaining_cons (hb : b.Sound) (ha : b.attached? consumer = some options)
    (hf : b.failReceives = []) {e : ℕ} {rest : List ℕ}
    (h : b.remaining options.topic options.subscription = e :: rest) :
    ∃ m b', b.tryReceive consumer = (some (.ok m), b') := by
  rw [tryReceive_eq hb ha hf]
  cases hnext : (b.subscriptionOrNew options.topic options.subscription).next?
      (b.log options.topic).length with
  | none =>
      have hnil : b.remaining options.topic options.subscription = [] :=
        Subscription.next?_eq_none_iff.mp hnext
      rw [hnil] at h
      cases h
  | some taken =>
      have hentry : taken.1 ∈ b.remaining options.topic options.subscription := by
        rw [remaining, Subscription.remaining_of_next? hnext]
        exact List.mem_cons_self ..
      have hplace := List.getElem?_eq_getElem (hb.lt_of_mem_remaining hentry)
      simp only [hplace]
      exact ⟨_, _, rfl⟩

/-- A consumer that has to wait is attached, no failure is arranged for, and nothing remains. -/
structure Idle (b : Store) (consumer : ℕ) (options : SubscribeOptions) : Prop where
  attached : b.attached? consumer = some options
  willing : b.failReceives = []
  remaining : b.remaining options.topic options.subscription = []

theorem idle_of_tryReceive (hb : b.Sound) (h : (b.tryReceive consumer).1 = none) :
    ∃ options, b.Idle consumer options := by
  cases ha : b.attached? consumer with
  | none => simp [tryReceive, ha] at h
  | some options =>
      cases hf : b.failReceives with
      | cons reason rest => simp [tryReceive, ha, hf] at h
      | nil =>
          refine ⟨options, ha, hf, ?_⟩
          cases hrest : b.remaining options.topic options.subscription with
          | nil => rfl
          | cons e rest =>
              obtain ⟨m, b', hr⟩ := tryReceive_of_remaining_cons hb ha hf hrest
              rw [hr] at h
              cases h

theorem Idle.tryReceive (h : b.Idle consumer options) (hb : b.Sound) :
    b.tryReceive consumer = (none, b) :=
  tryReceive_of_remaining_nil hb h.attached h.willing h.remaining

/-- A subscription has nothing queued and has come to the end of its log. -/
def Exhausted (b : Store) (topic name : String) : Prop :=
  ∃ t s, b.topics.find? topic = some t ∧ t.subscriptions.find? name = some s ∧
    s.redeliver = [] ∧ s.cursor = t.log.length

theorem Sound.exhausted_iff (hb : b.Sound) (ha : b.attached? consumer = some options) :
    b.Exhausted options.topic options.subscription ↔
      b.remaining options.topic options.subscription = [] := by
  obtain ⟨t, ht, hs⟩ := subscription?_eq_some.mp (hb.subscription?_of_attached ha)
  have hlog : b.log options.topic = t.log := by simp [Store.log, Store.topicOrNew, ht]
  have hle := (hb.subscription options.topic options.subscription).cursor_le
  change _ ≤ (b.log options.topic).length at hle
  rw [remaining, Subscription.remaining_eq_nil_iff]
  rw [hlog] at hle ⊢
  constructor
  · rintro ⟨t', s, ht', hs', hqueue, hcursor⟩
    rw [ht] at ht'
    cases ht'
    rw [hs] at hs'
    cases hs'
    exact ⟨hqueue, Nat.le_of_eq hcursor.symm⟩
  · rintro ⟨hqueue, hcursor⟩
    exact ⟨t, _, ht, hs, hqueue, Nat.le_antisymm hle hcursor⟩

/-! ## Receiving again and again -/

/-- What it is for a store to hand out entries of one subscription one after another. -/
structure HandsOutAll (b : Store) (topic name : String) (entries : List ℕ) (b' : Store) :
    Prop where
  sound : b'.Sound
  consumers : b'.consumers = b.consumers
  willing : b'.failReceives = []
  log : ∀ t, b'.log t = b.log t
  remaining : b.remaining topic name = entries ++ b'.remaining topic name
  mem_unacked : ∀ e, e ∈ (b'.subscriptionOrNew topic name).unacked ↔
    e ∈ entries ∨ e ∈ (b.subscriptionOrNew topic name).unacked
  acked : (b'.subscriptionOrNew topic name).acked = (b.subscriptionOrNew topic name).acked

theorem HandsOutAll.nil (hb : b.Sound) (hf : b.failReceives = []) (topic name : String) :
    b.HandsOutAll topic name [] b where
  sound := hb
  consumers := rfl
  willing := hf
  log _ := rfl
  remaining := rfl
  mem_unacked _ := by simp
  acked := rfl

theorem HandsOutFirst.cons {s : Subscription} {entries : List ℕ} {b'' : Store}
    (h : b.HandsOutFirst consumer m b' options s)
    (hrest : b'.HandsOutAll options.topic options.subscription entries b'') :
    b.HandsOutAll options.topic options.subscription (m.id.entry.toNat :: entries) b'' := by
  have hsub := h.handsOut.subscription options.topic options.subscription
  rw [if_pos ⟨rfl, rfl⟩] at hsub
  constructor
  · exact hrest.sound
  · exact hrest.consumers.trans h.handsOut.consumers
  · exact hrest.willing
  · intro t
    rw [hrest.log, h.handsOut.after, log_put]
  · rw [h.remaining, hrest.remaining, List.cons_append]
  · intro e
    rw [hrest.mem_unacked, hsub, h.handsOut.gives.mem_unacked, List.mem_cons]
    tauto
  · rw [hrest.acked, hsub, h.handsOut.gives.acked]

/-- Receives again and again, and keeps what came of each. -/
def receives (consumer : ℕ) (b : Store) :
    ℕ → List (Reply ℕ (Except Failure (Message EntryId))) × Store
  | 0 => ([], b)
  | n + 1 =>
      let (reply, b) := b.receive consumer
      let (replies, b) := receives consumer b n
      (reply :: replies, b)

/-- Whoever receives again and again is handed what remains, in order. -/
theorem receives_spec (hb : b.Sound) (ha : b.attached? consumer = some options)
    (hf : b.failReceives = []) (n : ℕ)
    (hn : n ≤ (b.remaining options.topic options.subscription).length) :
    ∃ (messages : List (Message EntryId)) (b' : Store),
      receives consumer b n = (messages.map (.done <| .ok ·), b') ∧
      messages.map some = ((b.remaining options.topic options.subscription).take n).map
        ((b.log options.topic)[·]?) ∧
      b.HandsOutAll options.topic options.subscription
        ((b.remaining options.topic options.subscription).take n) b' := by
  induction n generalizing b with
  | zero => exact ⟨[], b, rfl, rfl, .nil hb hf _ _⟩
  | succ n ih =>
      cases hrest : b.remaining options.topic options.subscription with
      | nil =>
          rw [hrest] at hn
          cases hn
      | cons e rest =>
          obtain ⟨m, b₁, hr⟩ := tryReceive_of_remaining_cons hb ha hf hrest
          obtain ⟨options', s, hfirst⟩ := handsOutFirst_of_tryReceive hb hr
          obtain rfl : options' = options :=
            Option.some.inj (hfirst.handsOut.attached.symm.trans ha)
          have hreceive : b.receive consumer = (.done (.ok m), b₁) := by
            rw [receive, hr]
          have hleft := hfirst.remaining
          rw [hrest, List.cons.injEq] at hleft
          obtain ⟨rfl, rfl⟩ := hleft
          have hwilling : b₁.failReceives = [] := by
            rw [hfirst.handsOut.after]
            exact hf
          have hlog : b₁.log options'.topic = b.log options'.topic := by
            rw [hfirst.handsOut.after, log_put]
          obtain ⟨messages, b', hreceives, hmessages, hall⟩ :=
            ih (hfirst.handsOut.sound_after hb)
              (by rw [attached?_congr hfirst.handsOut.consumers, ha]) hwilling
              (by
                rw [hrest, List.length_cons] at hn
                omega)
          refine ⟨m :: messages, b', ?_, ?_, ?_⟩
          · rw [receives, hreceive]
            dsimp only
            rw [hreceives, List.map_cons]
          · rw [hlog] at hmessages
            rw [List.take_succ_cons, List.map_cons, List.map_cons, hfirst.place, hmessages]
          · rw [List.take_succ_cons]
            exact hfirst.cons hall

end Store
end TrackedDelivery.Memory
