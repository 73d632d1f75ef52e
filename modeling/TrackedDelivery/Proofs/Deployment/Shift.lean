import TrackedDelivery.Proofs.Deployment.Move
import Mathlib.Data.List.Nodup
/-!
# Shifts

The shift of a subscription is told by the history alone: the consumers that are attached to it,
and what they and their fellows have received since somebody attached when nobody was. The broker
queues the unacknowledged entries anew when a shift begins, and at no other time. Hence an entry
is received at most once in a shift, an entry that was received is not queued any more, and an
unacknowledged entry is either queued or was received in the shift.
-/
namespace TrackedDelivery.Memory

/-- Who is attached to a subscription, and what was received in the shift. -/
structure Shift where
  present : List ℕ := []
  receipts : List Receipt := []

/-- Whoever attaches when nobody is present begins a new shift. Whoever lets go leaves the receipts
to the shift. -/
def Shift.next (topic name : String) (s : Shift) : Deed → Shift
  | .attached c options =>
      if options.topic = topic ∧ options.subscription = name then
        if s.present = [] then { present := [c] } else { s with present := c :: s.present }
      else s
  | .released c => { s with present := s.present.filter (· ≠ c) }
  | .received r =>
      if r.consumer ∈ s.present then { s with receipts := s.receipts ++ [r] } else s
  | .confirmed .. => s
  | .refused .. => s

def shift (topic name : String) (past : List Deed) : Shift :=
  past.foldl (Shift.next topic name) {}

@[simp] theorem shift_append (topic name : String) (past : List Deed) (deed : Deed) :
    shift topic name (past ++ [deed]) = (shift topic name past).next topic name deed := by
  simp [shift]

def Deed.receipt? : Deed → Option Receipt
  | .received r => some r
  | _ => none

theorem mem_receipts {deeds : List Deed} {r : Receipt} :
    r ∈ deeds.filterMap Deed.receipt? ↔ .received r ∈ deeds := by
  rw [List.mem_filterMap]
  constructor
  · rintro ⟨deed, hmem, h⟩
    cases deed <;> cases h
    exact hmem
  · exact fun h => ⟨_, h, rfl⟩

/-- Receipts add to the shift what was received by those who are present. -/
theorem shift_append_receipts {deeds : List Deed} (h : ∀ deed ∈ deeds, ∃ r, deed = .received r)
    (topic name : String) (past : List Deed) :
    shift topic name (past ++ deeds) =
      { shift topic name past with
        receipts := (shift topic name past).receipts ++
          (deeds.filterMap Deed.receipt?).filter
            (·.consumer ∈ (shift topic name past).present) } := by
  induction deeds generalizing past with
  | nil => simp
  | cons deed rest ih =>
      obtain ⟨r, rfl⟩ := h _ (List.mem_cons_self ..)
      have hrest := ih (fun deed hmem => h deed (List.mem_cons_of_mem _ hmem))
        (past ++ [.received r])
      rw [List.append_assoc, List.singleton_append] at hrest
      rw [hrest, shift_append, Shift.next]
      simp only [List.filterMap_cons, Deed.receipt?]
      by_cases hr : r.consumer ∈ (shift topic name past).present
      · simp [hr]
      · simp [hr]

/-- Releases leave the receipts to the shift. -/
theorem shift_append_released {deeds : List Deed} (h : ∀ deed ∈ deeds, ∃ c, deed = .released c)
    (topic name : String) (past : List Deed) :
    shift topic name (past ++ deeds) =
      { shift topic name past with
        present := (shift topic name past).present.filter (.released · ∉ deeds) } := by
  induction deeds generalizing past with
  | nil => simp
  | cons deed rest ih =>
      obtain ⟨c, rfl⟩ := h _ (List.mem_cons_self ..)
      have hrest := ih (fun deed hmem => h deed (List.mem_cons_of_mem _ hmem))
        (past ++ [.released c])
      rw [List.append_assoc, List.singleton_append] at hrest
      rw [hrest, shift_append, Shift.next, List.filter_filter]
      simp [Bool.and_comm]

/-- A consumer is attached to a subscription. -/
def Store.Serves (b : Store) (topic name : String) (consumer : ℕ) : Prop :=
  ∃ options, b.attached? consumer = some options ∧ options.topic = topic ∧
    options.subscription = name

instance (b : Store) (topic name : String) (consumer : ℕ) :
    Decidable (b.Serves topic name consumer) :=
  decidable_of_iff
    (∃ options ∈ b.attached? consumer, options.topic = topic ∧ options.subscription = name) .rfl

/-- What the broker knows of a receipt. -/
def Vouched (b : Store) (r : Receipt) : Prop :=
  ∃ a : Attachment, b.consumers[r.consumer]? = some a ∧
    b.ledger? a.options.topic = some r.id.ledger ∧
    r.entry < (b.subscriptionOrNew a.options.topic a.options.subscription).cursor

theorem Vouched.mono {b b' : Store} {r : Receipt} (h : Vouched b r) (hx : b.Extends b') :
    Vouched b' r := by
  obtain ⟨a, hconsumer, hledger, hentry⟩ := h
  obtain ⟨a', hconsumer', hoptions, -⟩ := hx.consumer _ a hconsumer
  refine ⟨a', hconsumer', ?_, ?_⟩
  · rw [hoptions]
    exact hx.ledger _ _ hledger
  · rw [hoptions]
    exact Nat.lt_of_lt_of_le hentry (hx.cursor ..)

/-- The past of a store, as far as receipts and attachments go. -/
structure Attended (b : Store) (past : List Deed) : Prop where
  present : ∀ topic name c, c ∈ (shift topic name past).present ↔
    ∃ options, b.attached? c = some options ∧ options.topic = topic ∧
      options.subscription = name
  vouched : ∀ r, .received r ∈ past → Vouched b r
  /-- What a present consumer has received was received in the shift. -/
  current : ∀ topic name r, .received r ∈ past → r.consumer ∈ (shift topic name past).present →
    r ∈ (shift topic name past).receipts
  taken : ∀ topic name, ∀ r ∈ (shift topic name past).receipts, .received r ∈ past ∧
    ∃ a : Attachment, b.consumers[r.consumer]? = some a ∧ a.options.topic = topic ∧
      a.options.subscription = name
  distinct : ∀ topic name, ((shift topic name past).receipts.map Receipt.entry).Nodup
  unqueued : ∀ topic name, ∀ r ∈ (shift topic name past).receipts,
    r.entry ∉ (b.subscriptionOrNew topic name).redeliver
  covered : ∀ topic name, (shift topic name past).present ≠ [] →
    ∀ e ∈ (b.subscriptionOrNew topic name).unacked,
      e ∈ (b.subscriptionOrNew topic name).redeliver ∨
        ∃ r ∈ (shift topic name past).receipts, r.entry = e

namespace Attended

variable {b b' : Store} {past past' : List Deed} {topic name : String}

theorem initial : Attended {} [] where
  present topic name c := by
    constructor
    · intro h
      cases h
    · rintro ⟨options, h, -⟩
      cases h
  vouched _ h := by cases h
  current _ _ _ h := by cases h
  taken _ _ _ h := by cases h
  distinct _ _ := .nil
  unqueued _ _ _ h := by cases h
  covered _ _ h := absurd rfl h

theorem entry_lt (h : Attended b past) {r : Receipt}
    (hr : r ∈ (shift topic name past).receipts) :
    r.entry < (b.subscriptionOrNew topic name).cursor := by
  obtain ⟨hpast, a, ha, rfl, rfl⟩ := h.taken _ _ r hr
  obtain ⟨a', ha', -, hentry⟩ := h.vouched r hpast
  rw [ha] at ha'
  cases ha'
  exact hentry

/-- Nobody is present exactly when the broker counts no consumer. -/
theorem present_eq_nil_iff (h : Attended b past) (hb : b.Sound) (topic name : String) :
    (shift topic name past).present = [] ↔
      (b.subscriptionOrNew topic name).activeConsumers = 0 := by
  rw [hb.counted]
  constructor
  · intro hnil
    by_contra hpos
    obtain ⟨c, options, ha, ht, hn⟩ := Store.exists_attached (Nat.pos_of_ne_zero hpos)
    have hmem := (h.present topic name c).mpr ⟨options, ha, ht, hn⟩
    rw [hnil] at hmem
    cases hmem
  · intro hzero
    refine List.eq_nil_iff_forall_not_mem.mpr fun c hc => ?_
    obtain ⟨options, ha, rfl, rfl⟩ := (h.present _ _ c).mp hc
    exact Nat.ne_of_gt (Store.attachments_pos ha) hzero

/-- Nothing new is received, nobody comes or goes, and what leaves the queue is settled. -/
theorem calm (h : Attended b past) (hx : b.Extends b') (hc : b'.consumers = b.consumers)
    (hshift : ∀ topic name, shift topic name past' = shift topic name past)
    (hreceived : ∀ r, .received r ∈ past' ↔ .received r ∈ past)
    (hredeliver : ∀ topic name, (b'.subscriptionOrNew topic name).redeliver ⊆
      (b.subscriptionOrNew topic name).redeliver)
    (hunacked : ∀ topic name, ∀ e ∈ (b'.subscriptionOrNew topic name).unacked,
      e ∈ (b.subscriptionOrNew topic name).unacked ∧
        (e ∈ (b.subscriptionOrNew topic name).redeliver →
          e ∈ (b'.subscriptionOrNew topic name).redeliver)) :
    Attended b' past' where
  present topic name c := by
    rw [hshift, h.present, Store.attached?_congr hc]
  vouched r hr := (h.vouched r ((hreceived r).mp hr)).mono hx
  current topic name r hr hpresent := by
    rw [hshift] at hpresent ⊢
    exact h.current topic name r ((hreceived r).mp hr) hpresent
  taken topic name r hr := by
    rw [hshift] at hr
    rw [hreceived, hc]
    exact h.taken topic name r hr
  distinct topic name := by
    rw [hshift]
    exact h.distinct topic name
  unqueued topic name r hr hmem := by
    rw [hshift] at hr
    exact h.unqueued topic name r hr (hredeliver topic name hmem)
  covered topic name hpresent e he := by
    rw [hshift] at hpresent ⊢
    obtain ⟨hold, hkeeps⟩ := hunacked topic name e he
    exact (h.covered topic name hpresent e hold).imp_left hkeeps

theorem not_present_of_new (h : Attended b past) (topic name : String) :
    b.consumers.length ∉ (shift topic name past).present := by
  intro hmem
  obtain ⟨o, ho, -⟩ := (h.present _ _ _).mp hmem
  rw [Store.attached?, List.getElem?_eq_none (Nat.le_refl _)] at ho
  cases ho

/-- A consumer attaches elsewhere, or it begins a shift, or it joins one. -/
theorem attached_cases (h : Attended b past) (hb : b.Sound) {options : SubscribeOptions}
    (ha : b.Attaches options b') (topic name : String) :
    (¬ (options.topic = topic ∧ options.subscription = name) ∧
      shift topic name (past ++ [.attached b.consumers.length options]) =
        shift topic name past ∧
      b'.subscriptionOrNew topic name = b.subscriptionOrNew topic name) ∨
    ((options.topic = topic ∧ options.subscription = name) ∧
      (shift topic name past).present = [] ∧
      shift topic name (past ++ [.attached b.consumers.length options]) =
        { present := [b.consumers.length] } ∧
      (b'.subscriptionOrNew topic name).redeliver =
        (b'.subscriptionOrNew topic name).unacked) ∨
    ((options.topic = topic ∧ options.subscription = name) ∧
      (shift topic name past).present ≠ [] ∧
      shift topic name (past ++ [.attached b.consumers.length options]) =
        { shift topic name past with
          present := b.consumers.length :: (shift topic name past).present } ∧
      (b'.subscriptionOrNew topic name).redeliver =
        (b.subscriptionOrNew topic name).redeliver ∧
      (b'.subscriptionOrNew topic name).unacked =
        (b.subscriptionOrNew topic name).unacked) := by
  have hsub := ha.subscription topic name
  have hnil := h.present_eq_nil_iff hb topic name
  rw [shift_append, Shift.next]
  by_cases hw : options.topic = topic ∧ options.subscription = name
  · rw [if_pos ⟨hw.1.symm, hw.2.symm⟩] at hsub
    rw [if_pos hw, hsub]
    by_cases hp : (shift topic name past).present = []
    · refine .inr (.inl ⟨hw, hp, if_pos hp, ?_⟩)
      simp [Subscription.attach, hnil.mp hp]
    · refine .inr (.inr ⟨hw, hp, if_neg hp, ?_, rfl⟩)
      simp [Subscription.attach, mt hnil.mpr hp]
  · rw [if_neg fun hw' => hw ⟨hw'.1.symm, hw'.2.symm⟩] at hsub
    exact .inl ⟨hw, if_neg hw, hsub⟩

theorem present_attach (h : Attended b past) (hb : b.Sound) {options : SubscribeOptions}
    (ha : b.Attaches options b') (topic name : String) (c : ℕ) :
    c ∈ (shift topic name (past ++ [.attached b.consumers.length options])).present ↔
      b'.Serves topic name c := by
  have hpresent : c ∈ (shift topic name past).present ↔ b.Serves topic name c :=
    h.present topic name c
  unfold Store.Serves at *
  rw [ha.attached?_after]
  rcases h.attached_cases hb ha topic name with ⟨hw, hs, -⟩ | ⟨hw, hnil, hs, -⟩ | ⟨hw, -, hs, -⟩
  · rw [hs]
    by_cases hc : c = b.consumers.length
    · subst hc
      simp [h.not_present_of_new, hw]
    · rw [if_neg hc, hpresent]
  · rw [hs]
    rw [hnil] at hpresent
    by_cases hc : c = b.consumers.length
    · simp [hc, hw]
    · rw [if_neg hc, ← hpresent]
      simp [hc]
  · rw [hs]
    by_cases hc : c = b.consumers.length
    · simp [hc, hw]
    · rw [if_neg hc, ← hpresent]
      simp [hc]

theorem attach (h : Attended b past) (hb : b.Sound) {options : SubscribeOptions}
    (ha : b.Attaches options b') :
    Attended b' (past ++ [.attached b.consumers.length options]) := by
  have hx := ha.extends
  have hold : ∀ r, .received r ∈ past ++ [.attached b.consumers.length options] ↔
      .received r ∈ past := by simp
  have hcases := h.attached_cases hb ha
  refine ⟨h.present_attach hb ha, fun r hr => (h.vouched r ((hold r).mp hr)).mono hx,
    fun topic name r hr hp => ?_, fun topic name r hr => ?_, fun topic name => ?_,
    fun topic name r hr => ?_, fun topic name hp e he => ?_⟩
  · have hpast := (hold r).mp hr
    obtain ⟨a, hconsumer, -⟩ := h.vouched r hpast
    have hlt := (List.getElem?_eq_some_iff.mp hconsumer).1
    have hne : r.consumer ≠ b.consumers.length := Nat.ne_of_lt hlt
    rcases hcases topic name with ⟨-, hs, -⟩ | ⟨-, -, hs, -⟩ | ⟨-, -, hs, -⟩
    · rw [hs] at hp ⊢
      exact h.current topic name r hpast hp
    · rw [hs] at hp
      exact absurd (List.mem_singleton.mp hp) hne
    · rw [hs] at hp ⊢
      exact h.current topic name r hpast ((List.mem_cons.mp hp).resolve_left hne)
  · have hmem : r ∈ (shift topic name past).receipts := by
      rcases hcases topic name with ⟨-, hs, -⟩ | ⟨-, -, hs, -⟩ | ⟨-, -, hs, -⟩
      · rwa [hs] at hr
      · rw [hs] at hr
        cases hr
      · rwa [hs] at hr
    obtain ⟨hpast, a, hconsumer, ht, hn⟩ := h.taken topic name r hmem
    obtain ⟨a', hconsumer', hoptions, -⟩ := hx.consumer _ a hconsumer
    exact ⟨(hold r).mpr hpast, a', hconsumer', by rw [hoptions, ht], by rw [hoptions, hn]⟩
  · rcases hcases topic name with ⟨-, hs, -⟩ | ⟨-, -, hs, -⟩ | ⟨-, -, hs, -⟩
    · rw [hs]
      exact h.distinct topic name
    · rw [hs]
      exact .nil
    · rw [hs]
      exact h.distinct topic name
  · rcases hcases topic name with ⟨-, hs, hsub⟩ | ⟨-, -, hs, -⟩ | ⟨-, -, hs, hsub, -⟩
    · rw [hs] at hr
      rw [hsub]
      exact h.unqueued topic name r hr
    · rw [hs] at hr
      cases hr
    · rw [hs] at hr
      rw [hsub]
      exact h.unqueued topic name r hr
  · rcases hcases topic name with ⟨-, hs, hsub⟩ | ⟨-, -, hs, hsub⟩ | ⟨-, hnil, hs, hred, hun⟩
    · rw [hs] at hp ⊢
      rw [hsub] at he ⊢
      exact h.covered topic name hp e he
    · rw [hsub]
      exact .inl he
    · rw [hs]
      rw [hun] at he
      rw [hred]
      exact h.covered topic name hnil e he

/-- A consumer that is let go leaves its receipts to the shift. -/
theorem release (h : Attended b past) (hb : b.Sound) (consumer : ℕ) :
    Attended (b.release consumer) (past ++ [.released consumer]) := by
  have hx := Store.extends_release hb consumer
  have hold : ∀ r, .received r ∈ past ++ [.released consumer] ↔ .received r ∈ past := by simp
  have hreceipts : ∀ topic name, (shift topic name (past ++ [.released consumer])).receipts =
      (shift topic name past).receipts := fun topic name => by rw [shift_append, Shift.next]
  have hpresent : ∀ topic name c, c ∈ (shift topic name (past ++ [.released consumer])).present ↔
      c ∈ (shift topic name past).present ∧ c ≠ consumer := fun topic name c => by
    simp [Shift.next]
  refine ⟨fun topic name c => ?_, fun r hr => (h.vouched r ((hold r).mp hr)).mono hx,
    fun topic name r hr hp => ?_, fun topic name r hr => ?_, fun topic name => ?_,
    fun topic name r hr => ?_, fun topic name hp e he => ?_⟩
  · rw [hpresent, h.present, Store.attached?_release]
    by_cases hc : c = consumer
    · simp [hc]
    · simp [hc]
  · rw [hreceipts]
    exact h.current topic name r ((hold r).mp hr) ((hpresent ..).mp hp).1
  · rw [hreceipts] at hr
    obtain ⟨hpast, a, hconsumer, ht, hn⟩ := h.taken topic name r hr
    obtain ⟨a', hconsumer', hoptions, -⟩ := hx.consumer _ a hconsumer
    exact ⟨(hold r).mpr hpast, a', hconsumer', by rw [hoptions, ht], by rw [hoptions, hn]⟩
  · rw [hreceipts]
    exact h.distinct topic name
  · rw [hreceipts] at hr
    rw [Store.subscription_release hb]
    exact h.unqueued topic name r hr
  · rw [hreceipts]
    rw [Store.subscription_release hb] at he ⊢
    have hsomeone : (shift topic name past).present ≠ [] := by
      obtain ⟨c, hc⟩ := List.exists_mem_of_ne_nil _ hp
      exact List.ne_nil_of_mem ((hpresent ..).mp hc).1
    exact h.covered topic name hsomeone e he

section HandOut

variable {consumer : ℕ} {m : Message EntryId} {options : SubscribeOptions} {s : Subscription}

/-- A shift receives what its present consumers do. -/
theorem shift_received (h : Attended b past) (hout : b.HandsOut consumer m b' options s)
    (reader : Option ℕ) (topic name : String) :
    shift topic name (past ++ [.received ⟨consumer, reader, m.id⟩]) =
      if topic = options.topic ∧ name = options.subscription then
        { shift topic name past with
          receipts := (shift topic name past).receipts ++ [⟨consumer, reader, m.id⟩] }
      else shift topic name past := by
  have hmem : consumer ∈ (shift topic name past).present ↔
      topic = options.topic ∧ name = options.subscription := by
    rw [h.present, hout.attached]
    constructor
    · rintro ⟨o, ho, rfl, rfl⟩
      cases ho
      exact ⟨rfl, rfl⟩
    · rintro ⟨rfl, rfl⟩
      exact ⟨options, rfl, rfl, rfl⟩
  rw [shift_append, Shift.next]
  simp only [hmem]

/-- The entry that is handed out was not received in the shift before. -/
theorem fresh (h : Attended b past) (hout : b.HandsOut consumer m b' options s) {r : Receipt}
    (hr : r ∈ (shift options.topic options.subscription past).receipts) :
    r.entry ≠ m.id.entry.toNat := by
  intro he
  rcases hout.gives.new_or_queued with hnew | hqueued
  · have hlt := h.entry_lt hr
    omega
  · exact h.unqueued _ _ r hr (he ▸ hqueued)

theorem distinct_handOut (h : Attended b past) (hout : b.HandsOut consumer m b' options s)
    (reader : Option ℕ) (topic name : String) :
    ((shift topic name (past ++ [.received ⟨consumer, reader, m.id⟩])).receipts.map
      Receipt.entry).Nodup := by
  rw [h.shift_received hout]
  split
  · rename_i hw
    obtain ⟨rfl, rfl⟩ := hw
    rw [List.map_append]
    refine List.nodup_append.mpr ⟨h.distinct _ _, List.nodup_singleton _, ?_⟩
    intro e he e' he'
    obtain ⟨r, hr, rfl⟩ := List.mem_map.mp he
    rw [List.mem_singleton.mp he']
    exact h.fresh hout hr
  · exact h.distinct topic name

theorem unqueued_handOut (h : Attended b past) (hout : b.HandsOut consumer m b' options s)
    {reader : Option ℕ} {topic name : String} {r : Receipt}
    (hr : r ∈ (shift topic name (past ++ [.received ⟨consumer, reader, m.id⟩])).receipts) :
    r.entry ∉ (b'.subscriptionOrNew topic name).redeliver := by
  rw [h.shift_received hout] at hr
  rw [hout.subscription]
  split at hr
  · rename_i hw
    obtain ⟨rfl, rfl⟩ := hw
    rw [if_pos ⟨rfl, rfl⟩, hout.gives.mem_redeliver]
    rcases List.mem_append.mp hr with hr | hr
    · exact fun hmem => h.unqueued _ _ r hr hmem.1
    · rw [List.mem_singleton.mp hr]
      exact fun hmem => hmem.2 rfl
  · rename_i hw
    rw [if_neg hw]
    exact h.unqueued _ _ r hr

theorem covered_handOut (h : Attended b past) (hout : b.HandsOut consumer m b' options s)
    (reader : Option ℕ) {topic name : String} (hp : (shift topic name past).present ≠ []) {e : ℕ}
    (he : e ∈ (b'.subscriptionOrNew topic name).unacked) :
    e ∈ (b'.subscriptionOrNew topic name).redeliver ∨
      ∃ r ∈ (shift topic name (past ++ [.received ⟨consumer, reader, m.id⟩])).receipts,
        r.entry = e := by
  rw [h.shift_received hout]
  rw [hout.subscription] at he ⊢
  split
  · rename_i hw
    obtain ⟨rfl, rfl⟩ := hw
    rw [if_pos ⟨rfl, rfl⟩, hout.gives.mem_unacked] at he
    rw [hout.gives.mem_redeliver]
    by_cases hm : e = m.id.entry.toNat
    · exact .inr ⟨_, List.mem_append_right _ (List.mem_singleton_self _), hm.symm⟩
    · rcases h.covered _ _ hp e (he.resolve_left hm) with hq | ⟨r, hr, hre⟩
      · exact .inl ⟨hq, hm⟩
      · exact .inr ⟨r, List.mem_append_left _ hr, hre⟩
  · rename_i hw
    rw [if_neg hw] at he
    exact h.covered _ _ hp e he

theorem handOut (h : Attended b past) (hout : b.HandsOut consumer m b' options s)
    (reader : Option ℕ) :
    Attended b' (past ++ [.received ⟨consumer, reader, m.id⟩]) := by
  have hx := hout.extends
  have hshift := h.shift_received hout reader
  have hconsumers := hout.consumers
  have hget := Store.attached?_eq_some.mp hout.attached
  have hpresent : ∀ topic name,
      (shift topic name (past ++ [.received ⟨consumer, reader, m.id⟩])).present =
        (shift topic name past).present := by
    intro topic name
    rw [hshift]
    split <;> rfl
  refine ⟨fun topic name c => ?_, fun r hr => ?_, fun topic name r hr hp => ?_,
    fun topic name r hr => ?_, h.distinct_handOut hout reader,
    fun topic name r => h.unqueued_handOut hout, fun topic name hp e => ?_⟩
  · rw [hpresent, h.present, Store.attached?_congr hconsumers]
  · rcases List.mem_append.mp hr with hr | hr
    · exact (h.vouched r hr).mono hx
    · cases List.mem_singleton.mp hr
      refine ⟨_, by rw [hconsumers]; exact hget, hx.ledger _ _ hout.ledger, ?_⟩
      rw [hout.subscription, if_pos ⟨rfl, rfl⟩]
      exact (hout.gives.lt_cursor _).mpr (.inl rfl)
  · rw [hpresent] at hp
    rcases List.mem_append.mp hr with hr | hr
    · have hmem := h.current topic name r hr hp
      rw [hshift]
      split
      · exact List.mem_append_left _ hmem
      · exact hmem
    · cases List.mem_singleton.mp hr
      obtain ⟨o, ho, rfl, rfl⟩ := (h.present _ _ _).mp hp
      rw [hout.attached] at ho
      cases ho
      rw [hshift, if_pos ⟨rfl, rfl⟩]
      exact List.mem_append_right _ (List.mem_singleton_self _)
  · rw [hshift] at hr
    rw [hconsumers]
    split at hr
    · rename_i hw
      obtain ⟨rfl, rfl⟩ := hw
      rcases List.mem_append.mp hr with hr | hr
      · exact (h.taken _ _ r hr).imp_left (List.mem_append_left _)
      · cases List.mem_singleton.mp hr
        exact ⟨List.mem_append_right _ (List.mem_singleton_self _), _, hget, rfl, rfl⟩
    · exact (h.taken _ _ r hr).imp_left (List.mem_append_left _)
  · rw [hpresent] at hp
    exact h.covered_handOut hout reader hp

end HandOut

theorem settle (h : Attended b past) {consumer : ℕ} {id : EntryId} {options : SubscribeOptions}
    (hs : b.Settles consumer id b' options)
    (hshift : ∀ topic name, shift topic name past' = shift topic name past)
    (hreceived : ∀ r, .received r ∈ past' ↔ .received r ∈ past) : Attended b' past' := by
  refine h.calm hs.extends hs.consumers hshift hreceived (fun topic name => ?_)
    fun topic name e he => ?_
  · rw [hs.subscription]
    split
    · exact fun e he => (List.mem_filter.mp he).1
    · exact fun _ h => h
  · rw [hs.subscription] at he ⊢
    split at he
    · rename_i hw
      obtain ⟨hmem, hne⟩ := List.mem_filter.mp he
      rw [if_pos hw]
      exact ⟨hmem, fun hq => List.mem_filter.mpr ⟨hq, hne⟩⟩
    · rename_i hw
      rw [if_neg hw]
      exact ⟨he, fun h => h⟩

/-- Every move keeps the past in order. -/
theorem move {f g : Floor} {deeds : List Deed} (h : Attended f.broker past) (hb : f.broker.Sound)
    (m : Move f deeds g) : Attended g.broker (past ++ deeds) := by
  have hx := m.store_extends hb
  have hnil : ∀ {b : Store}, b.consumers = f.broker.consumers → f.broker.Extends b →
      (∀ topic name, b.subscriptionOrNew topic name = f.broker.subscriptionOrNew topic name) →
      Attended b (past ++ []) := by
    intro b hc hx hsub
    rw [List.append_nil]
    refine h.calm hx hc (fun _ _ => rfl) (fun _ => .rfl) (fun topic name => ?_)
      fun topic name e he => ?_
    · rw [hsub]
      exact fun _ h => h
    · rw [hsub] at he ⊢
      exact ⟨he, fun h => h⟩
  cases m with
  | quiet topics consumers => exact hnil consumers hx (Store.subscriptionOrNew_congr topics)
  | publish appends => exact hnil appends.consumers hx appends.subscription
  | turnAway away => exact hnil away.consumers hx away.subscription
  | attach attaches => exact h.attach hb attaches
  | release consumer => exact h.release hb consumer
  | track => exact hnil rfl hx fun _ _ => rfl
  | receive received | pull _ received =>
      obtain ⟨_, _, hout⟩ := Store.handsOut_of_tryReceive hb received
      exact h.handOut hout _
  | confirm _ _ acknowledged =>
      obtain ⟨_, hsettles⟩ := Store.settles_of_acknowledge hb acknowledged
      exact h.settle hsettles (fun _ _ => by rw [shift_append, Shift.next]) (by simp)
  | refuse _ _ rejected =>
      obtain ⟨topics, consumers⟩ := Store.acknowledge_quiet rejected
      refine h.calm hx consumers (fun _ _ => by rw [shift_append, Shift.next]) (by simp)
        (fun topic name => ?_) fun topic name e he => ?_
      · rw [Store.subscriptionOrNew_congr topics]
        exact fun _ h => h
      · rw [Store.subscriptionOrNew_congr topics] at he ⊢
        exact ⟨he, fun h => h⟩

/-- Present consumers of one subscription never received one entry twice. -/
theorem receipt_eq (h : Attended b past) {r r' : Receipt} {options options' : SubscribeOptions}
    (hr : .received r ∈ past) (hr' : .received r' ∈ past)
    (ha : b.attached? r.consumer = some options) (ha' : b.attached? r'.consumer = some options')
    (ht : options.topic = options'.topic) (hn : options.subscription = options'.subscription)
    (he : r.entry = r'.entry) : r = r' := by
  have hmem := h.current _ _ r hr ((h.present _ _ _).mpr ⟨options, ha, rfl, rfl⟩)
  have hmem' := h.current _ _ r' hr' ((h.present _ _ _).mpr ⟨options', ha', ht.symm, hn.symm⟩)
  exact List.inj_on_of_nodup_map (h.distinct _ _) hmem hmem' he

end Attended
end TrackedDelivery.Memory
