import TrackedDelivery.Proofs.Deployment.Requests
import Mathlib.Data.List.Perm.Basic
/-!
# The account of a tracker

The entries that a subscription has given out are split into those not acknowledged and those
acknowledged once, and the messages that a tracker has pulled are split into those pending, those
whose acknowledgment was confirmed and those whose acknowledgment was refused. Each account is
kept by what the tracker does itself, and others leave it alone while they keep to their own
messages.
-/
namespace TrackedDelivery.Memory

/-! ## Lists told by the past -/

/-- The tracker that a deed is about. -/
def Deed.tracker? : Deed → Option ℕ
  | .received r => r.reader
  | .confirmed n _ => some n
  | .refused n _ => some n
  | .attached .. => none
  | .released _ => none

/-- The identifier in a deed of a tracker's, if the deed is of the kind that is meant. -/
def Deed.pulled? (n : ℕ) : Deed → Option EntryId
  | .received r => if r.reader = some n then some r.id else none
  | _ => none

def Deed.confirmed? (n : ℕ) : Deed → Option EntryId
  | .confirmed k id => if k = n then some id else none
  | _ => none

def Deed.refused? (n : ℕ) : Deed → Option EntryId
  | .refused k id => if k = n then some id else none
  | _ => none

/-- What the reads of a tracker returned. -/
def pulled (n : ℕ) (past : List Deed) : List EntryId := past.filterMap (Deed.pulled? n)

/-- What a tracker had acknowledged. -/
def confirmed (n : ℕ) (past : List Deed) : List EntryId := past.filterMap (Deed.confirmed? n)

/-- What a tracker asked the broker to acknowledge, and the broker refused. -/
def refused (n : ℕ) (past : List Deed) : List EntryId := past.filterMap (Deed.refused? n)

def pendingIds (t : Tracker Store) : List EntryId := t.pending.values.map (·.id)

section

variable {n : ℕ} {past deeds : List Deed} {deed : Deed} {id : EntryId}

theorem mem_pulled : id ∈ pulled n past ↔
    ∃ consumer, .received ⟨consumer, some n, id⟩ ∈ past := by
  simp only [pulled, List.mem_filterMap]
  constructor
  · rintro ⟨d, hd, h⟩
    cases d with
    | received r =>
        obtain ⟨consumer, reader, id'⟩ := r
        simp only [Deed.pulled?, Option.ite_none_right_eq_some, Option.some.injEq] at h
        obtain ⟨rfl, rfl⟩ := h
        exact ⟨consumer, hd⟩
    | _ => cases h
  · rintro ⟨consumer, h⟩
    exact ⟨_, h, by simp [Deed.pulled?]⟩

theorem other_deeds (h : ∀ d ∈ deeds, d.tracker? ≠ some n) :
    pulled n deeds = [] ∧ confirmed n deeds = [] ∧ refused n deeds = [] := by
  refine ⟨?_, ?_, ?_⟩ <;> refine List.filterMap_eq_nil_iff.mpr fun d hd => ?_
  all_goals
    have hne := h d hd
    cases d <;> simp_all [Deed.tracker?, Deed.pulled?, Deed.confirmed?, Deed.refused?]

theorem mem_pendingIds {t : Tracker Store} :
    id ∈ pendingIds t ↔ ∃ key m, t.pending.find? key = some m ∧ m.id = id := by
  simp only [pendingIds, List.mem_map, TextMap.mem_values]
  constructor
  · rintro ⟨m, ⟨key, hm⟩, rfl⟩
    exact ⟨key, m, hm, rfl⟩
  · rintro ⟨key, m, hm, rfl⟩
    exact ⟨m, ⟨key, hm⟩, rfl⟩

end

/-! ## Acknowledged entries -/

/-- The entries that a subscription has given out are split into those not acknowledged and those
acknowledged, each once and under the ledger of the topic. -/
structure Settled (b : Store) (topic name : String) : Prop where
  nodup : (b.subscriptionOrNew topic name).acked.Nodup
  ledger : ∀ id ∈ (b.subscriptionOrNew topic name).acked, b.ledger? topic = some id.ledger
  given : ∀ e, e < (b.subscriptionOrNew topic name).cursor ↔
    e ∈ (b.subscriptionOrNew topic name).unacked ∨
      ∃ id ∈ (b.subscriptionOrNew topic name).acked, id.entry.toNat = e
  disjoint : ∀ id ∈ (b.subscriptionOrNew topic name).acked,
    id.entry.toNat ∉ (b.subscriptionOrNew topic name).unacked

namespace Settled

variable {b b' : Store} {topic name : String}

theorem initial (topic name : String) : Settled {} topic name where
  nodup := .nil
  ledger _ h := by cases h
  given e := by
    change e < 0 ↔ e ∈ ([] : List ℕ) ∨ ∃ id ∈ ([] : List EntryId), id.entry.toNat = e
    simp
  disjoint _ h := by cases h

/-- Settlement is a matter of three parts of a subscription. -/
theorem congr (h : Settled b topic name) (hx : b.Extends b')
    (hcursor : (b'.subscriptionOrNew topic name).cursor = (b.subscriptionOrNew topic name).cursor)
    (hunacked : (b'.subscriptionOrNew topic name).unacked =
      (b.subscriptionOrNew topic name).unacked)
    (hacked : (b'.subscriptionOrNew topic name).acked = (b.subscriptionOrNew topic name).acked) :
    Settled b' topic name where
  nodup := hacked ▸ h.nodup
  ledger id hid := hx.ledger _ _ (h.ledger id (hacked ▸ hid))
  given e := by
    rw [hcursor, hunacked, hacked]
    exact h.given e
  disjoint id hid := by
    rw [hunacked]
    exact h.disjoint id (hacked ▸ hid)

theorem of_eq (h : Settled b topic name) (hx : b.Extends b')
    (hsub : b'.subscriptionOrNew topic name = b.subscriptionOrNew topic name) :
    Settled b' topic name :=
  h.congr hx (by rw [hsub]) (by rw [hsub]) (by rw [hsub])

theorem handOut (h : Settled b topic name) (hb : b.Sound) {consumer : ℕ} {m : Message EntryId}
    {options : SubscribeOptions} {s : Subscription} (hout : b.HandsOut consumer m b' options s) :
    Settled b' topic name := by
  have hsub := hout.subscription topic name
  by_cases hw : topic = options.topic ∧ name = options.subscription
  · rw [if_pos hw] at hsub
    obtain ⟨rfl, rfl⟩ := hw
    have hgives := hout.gives
    refine ⟨?_, fun id hid => ?_, fun e => ?_, fun id hid => ?_⟩
    · rw [hsub, hgives.acked]
      exact h.nodup
    · rw [hsub, hgives.acked] at hid
      exact hout.extends.ledger _ _ (h.ledger id hid)
    · rw [hsub, hgives.lt_cursor, hgives.mem_unacked, hgives.acked, h.given, or_assoc]
    · rw [hsub, hgives.acked] at hid
      rw [hsub, hgives.mem_unacked, not_or]
      refine ⟨fun he => ?_, h.disjoint id hid⟩
      rcases hgives.new_or_queued with hnew | hqueued
      · have hlt := (h.given id.entry.toNat).mpr (.inr ⟨id, hid, rfl⟩)
        omega
      · have hmem := (hb.subscription _ _).redeliver_subset _ hqueued
        exact h.disjoint id hid (he ▸ hmem)
  · rw [if_neg hw] at hsub
    exact h.congr hout.extends (by rw [hsub]) (by rw [hsub]) (by rw [hsub])

/-- To settle an unacknowledged entry under the right ledger is to acknowledge it once. -/
theorem settle (h : Settled b topic name) {consumer : ℕ} {id : EntryId}
    {options : SubscribeOptions} (hs : b.Settles consumer id b' options)
    (hunacked : id.entry.toNat ∈ (b.subscriptionOrNew options.topic options.subscription).unacked)
    (hledger : b.ledger? options.topic = some id.ledger) : Settled b' topic name := by
  have hsub := hs.subscription topic name
  by_cases hw : topic = options.topic ∧ name = options.subscription
  · rw [if_pos hw] at hsub
    obtain ⟨rfl, rfl⟩ := hw
    have hnot : id ∉ (b.subscriptionOrNew options.topic options.subscription).acked :=
      fun hid => h.disjoint id hid hunacked
    refine ⟨?_, fun id' hid => ?_, fun e => ?_, fun id' hid => ?_⟩
    · rw [hsub]
      exact List.nodup_append.mpr ⟨h.nodup, List.nodup_singleton _, fun a ha b hb => by
        rw [List.mem_singleton.mp hb]
        exact fun he => hnot (he ▸ ha)⟩
    · rw [hsub] at hid
      rcases List.mem_append.mp hid with hid | hid
      · exact hs.extends.ledger _ _ (h.ledger id' hid)
      · rw [List.mem_singleton.mp hid]
        exact hs.extends.ledger _ _ hledger
    · rw [hsub]
      change e < (b.subscriptionOrNew _ _).cursor ↔ _
      rw [h.given]
      simp only [Subscription.settle, List.mem_filter, List.mem_append, List.mem_singleton,
        decide_eq_true_eq]
      constructor
      · rintro (he | ⟨id', hid, rfl⟩)
        · by_cases hid : e = id.entry.toNat
          · exact .inr ⟨id, .inr rfl, hid.symm⟩
          · exact .inl ⟨he, hid⟩
        · exact .inr ⟨id', .inl hid, rfl⟩
      · rintro (⟨he, -⟩ | ⟨id', hid | rfl, rfl⟩)
        · exact .inl he
        · exact .inr ⟨id', hid, rfl⟩
        · exact .inl hunacked
    · rw [hsub] at hid ⊢
      intro hmem
      obtain ⟨hmem, hne⟩ := List.mem_filter.mp hmem
      rcases List.mem_append.mp hid with hid | hid
      · exact h.disjoint id' hid hmem
      · rw [List.mem_singleton.mp hid] at hne
        simp at hne
  · rw [if_neg hw] at hsub
    exact h.congr hs.extends (by rw [hsub]) (by rw [hsub]) (by rw [hsub])

end Settled

/-! ## The account of a tracker -/

/-- What a tracker has pulled is split into what is pending, what was confirmed and what was
refused. While its consumer is attached, the first and the last are unacknowledged at the broker
and the second is acknowledged. -/
structure Account (b : Store) (past : List Deed) (n : ℕ) (t : Tracker Store) : Prop where
  keyed : Keyed t
  reader : ∀ r, .received r ∈ past → r.reader = some n → r.consumer = t.consumer
  balance : (pulled n past).Perm (pendingIds t ++ (confirmed n past ++ refused n past))
  nodup : ∀ options, b.attached? t.consumer = some options → (pulled n past).Nodup
  acked : ∀ options, b.attached? t.consumer = some options → ∀ id ∈ confirmed n past,
    id ∈ (b.subscriptionOrNew options.topic options.subscription).acked
  unacked : ∀ options, b.attached? t.consumer = some options →
    ∀ id ∈ pendingIds t ++ refused n past,
      id.entry.toNat ∈ (b.subscriptionOrNew options.topic options.subscription).unacked

namespace Account

variable {b b' : Store} {past deeds : List Deed} {n : ℕ} {t t' : Tracker Store} {id : EntryId}

/-- A tracker that nothing is told of has an empty account. -/
theorem initial (hpast : ∀ d ∈ past, d.tracker? ≠ some n) (ht : t.pending = ∅) :
    Account b past n t := by
  obtain ⟨hpulled, hconfirmed, hrefused⟩ := other_deeds hpast
  have hpending : pendingIds t = [] := by
    rw [pendingIds, ht]
    rfl
  refine ⟨fun key m hm => ?_, fun r hr' hn => absurd hn (hpast _ hr'), ?_, fun o ho => ?_,
    fun o ho id hid => ?_, fun o ho id hid => ?_⟩
  · rw [ht] at hm
    cases hm
  · rw [hpulled, hpending, hconfirmed, hrefused]
    exact .nil
  · rw [hpulled]
    exact .nil
  · rw [hconfirmed] at hid
    cases hid
  · rw [hpending, hrefused] at hid
    cases hid

theorem mem_pulled_of_pending (h : Account b past n t) (hid : id ∈ pendingIds t) :
    id ∈ pulled n past :=
  h.balance.mem_iff.mpr (List.mem_append_left _ hid)

theorem mem_pulled_of_refused (h : Account b past n t) (hid : id ∈ refused n past) :
    id ∈ pulled n past :=
  h.balance.mem_iff.mpr (List.mem_append_right _ (List.mem_append_right _ hid))

theorem lists_append (past : List Deed) (hdeeds : ∀ d ∈ deeds, d.tracker? ≠ some n) :
    pulled n (past ++ deeds) = pulled n past ∧ confirmed n (past ++ deeds) = confirmed n past ∧
      refused n (past ++ deeds) = refused n past := by
  obtain ⟨hp, hc, hr⟩ := other_deeds hdeeds
  unfold pulled confirmed refused at *
  simp only [List.filterMap_append, hp, hc, hr, List.append_nil, and_self]

theorem reader_append (h : Account b past n t) (hdeeds : ∀ d ∈ deeds, d.tracker? ≠ some n)
    (r : Receipt) (hr : .received r ∈ past ++ deeds) (hn : r.reader = some n) :
    r.consumer = t.consumer := by
  rcases List.mem_append.mp hr with hr | hr
  · exact h.reader r hr hn
  · exact absurd hn (hdeeds _ hr)

/-- The account stays while others act, as long as the broker keeps the parts of it apart. -/
theorem others (h : Account b past n t) (hdeeds : ∀ d ∈ deeds, d.tracker? ≠ some n)
    (hb : ∀ options, b'.attached? t.consumer = some options →
      b.attached? t.consumer = some options ∧
      (b.subscriptionOrNew options.topic options.subscription).acked ⊆
        (b'.subscriptionOrNew options.topic options.subscription).acked ∧
      ∀ id ∈ pulled n past,
        id.entry.toNat ∈ (b.subscriptionOrNew options.topic options.subscription).unacked →
        id.entry.toNat ∈ (b'.subscriptionOrNew options.topic options.subscription).unacked) :
    Account b' (past ++ deeds) n t := by
  obtain ⟨hp, hc, hr⟩ := lists_append past hdeeds
  refine ⟨h.keyed, h.reader_append hdeeds, ?_, fun o ho => ?_, fun o ho id hid => ?_,
    fun o ho id hid => ?_⟩
  · rw [hp, hc, hr]
    exact h.balance
  · rw [hp]
    exact h.nodup o (hb o ho).1
  · rw [hc] at hid
    exact (hb o ho).2.1 (h.acked o (hb o ho).1 id hid)
  · rw [hr] at hid
    have hmem : id ∈ pulled n past :=
      (List.mem_append.mp hid).elim h.mem_pulled_of_pending h.mem_pulled_of_refused
    exact (hb o ho).2.2 id hmem (h.unacked o (hb o ho).1 id hid)

/-- A tracker that has read nothing has an empty account whatever happens at the broker. -/
theorem unread (h : Account b past n t) (hdeeds : ∀ d ∈ deeds, d.tracker? ≠ some n)
    (hnone : pulled n past = []) : Account b' (past ++ deeds) n t := by
  obtain ⟨hp, hc, hr⟩ := lists_append past hdeeds
  have hnil := h.balance
  rw [hnone] at hnil
  obtain ⟨hpending, hrest⟩ := List.append_eq_nil_iff.mp hnil.nil_eq.symm
  obtain ⟨hconfirmed, hrefused⟩ := List.append_eq_nil_iff.mp hrest
  refine ⟨h.keyed, h.reader_append hdeeds, ?_, fun o ho => ?_, fun o ho id hid => ?_,
    fun o ho id hid => ?_⟩
  · rw [hp, hc, hr]
    exact h.balance
  · rw [hp, hnone]
    exact .nil
  · rw [hc, hconfirmed] at hid
    cases hid
  · rw [hr, hpending, hrefused] at hid
    cases hid

/-- The account stays while consumers and subscriptions do. -/
theorem unmoved (h : Account b past n t) (hdeeds : ∀ d ∈ deeds, d.tracker? ≠ some n)
    (hc : b'.consumers = b.consumers)
    (hsub : ∀ topic name, b'.subscriptionOrNew topic name = b.subscriptionOrNew topic name) :
    Account b' (past ++ deeds) n t := by
  refine h.others hdeeds fun o ho => ⟨?_, ?_, fun id _ hid => ?_⟩
  · rwa [Store.attached?_congr hc] at ho
  · rw [hsub]
    exact List.Subset.refl _
  · rwa [hsub]

/-- What a broker hands out joins the unacknowledged entries, and no entry leaves. -/
theorem others_handOut (h : Account b past n t) {consumer : ℕ} {reader : Option ℕ}
    {m : Message EntryId} {options : SubscribeOptions} {s : Subscription}
    (hout : b.HandsOut consumer m b' options s) (hreader : reader ≠ some n) :
    Account b' (past ++ [.received ⟨consumer, reader, m.id⟩]) n t := by
  refine h.others (fun d hd => ?_) fun o ho => ?_
  · rw [List.mem_singleton.mp hd]
    exact hreader
  · rw [Store.attached?_congr hout.consumers] at ho
    refine ⟨ho, hout.extends.acked _ _, fun id _ hid => ?_⟩
    rw [hout.subscription]
    split
    · rename_i hw
      rw [hw.1, hw.2] at hid
      exact (hout.gives.mem_unacked _).mpr (.inr hid)
    · exact hid

theorem pendingIds_insert {key : String} {m : Message EntryId}
    (hfree : t.pending.find? key = none) :
    (pendingIds { t with pending := t.pending.insert key m }).Perm (m.id :: pendingIds t) :=
  ((TextMap.perm_entries_insert m hfree).map Prod.snd).map _

theorem pendingIds_erase {key : String} {m : Message EntryId}
    (hm : t.pending.find? key = some m) :
    (pendingIds t).Perm (m.id :: pendingIds { t with pending := t.pending.erase key }) :=
  ((TextMap.perm_entries_erase hm).map Prod.snd).map _

/-- A message that was not pulled before is not pending. -/
theorem find?_eq_none (h : Account b past n t) {m : Message EntryId}
    (hnew : m.id ∉ pulled n past) : t.pending.find? m.id.text = none := by
  by_contra hsome
  obtain ⟨m', hm'⟩ := Option.ne_none_iff_exists'.mp hsome
  have hid : m'.id = m.id := (EntryId.text_inj.mp (h.keyed _ m' hm')).symm
  exact hnew (h.mem_pulled_of_pending (mem_pendingIds.mpr ⟨_, m', hm', hid⟩))

theorem pull (h : Account b past n t) {m : Message EntryId} {options : SubscribeOptions}
    {s : Subscription} (hout : b.HandsOut t.consumer m b' options s)
    (hnew : m.id ∉ pulled n past) :
    Account b' (past ++ [.received ⟨t.consumer, some n, m.id⟩]) n
      { t with pending := (t.pending.insertIfAbsent m.id.text m).2 } := by
  have hfree := h.find?_eq_none hnew
  have hinsert : (t.pending.insertIfAbsent m.id.text m).2 = t.pending.insert m.id.text m := by
    simp [PendingSet.insertIfAbsent, TextMap.contains, hfree]
  have hpending := pendingIds_insert (t := t) (m := m) hfree
  have hp : pulled n (past ++ [.received ⟨t.consumer, some n, m.id⟩]) =
      pulled n past ++ [m.id] := by
    simp [pulled, Deed.pulled?]
  have hc : confirmed n (past ++ [.received ⟨t.consumer, some n, m.id⟩]) = confirmed n past := by
    simp [confirmed, Deed.confirmed?]
  have hr : refused n (past ++ [.received ⟨t.consumer, some n, m.id⟩]) = refused n past := by
    simp [refused, Deed.refused?]
  have hattached : ∀ o, b'.attached? t.consumer = some o → o = options := by
    intro o ho
    rw [Store.attached?_congr hout.consumers, hout.attached] at ho
    exact (Option.some.inj ho).symm
  have hsub := hout.subscription options.topic options.subscription
  rw [if_pos ⟨rfl, rfl⟩] at hsub
  refine ⟨keyed_insertIfAbsent h.keyed m, fun r hmem hn => ?_, ?_, fun o ho => ?_,
    fun o ho id hid => ?_, fun o ho id hid => ?_⟩
  · rcases List.mem_append.mp hmem with hmem | hmem
    · exact h.reader r hmem hn
    · cases List.mem_singleton.mp hmem
      rfl
  · rw [hp, hc, hr, hinsert]
    calc (pulled n past ++ [m.id]).Perm (m.id :: pulled n past) := List.perm_append_singleton _ _
      List.Perm _ (m.id :: (pendingIds t ++ (confirmed n past ++ refused n past))) :=
        h.balance.cons _
      List.Perm _ _ := (hpending.symm.append_right _)
  · rw [hp]
    refine List.nodup_append.mpr ⟨?_, List.nodup_singleton _, fun a ha b hb => ?_⟩
    · exact h.nodup options hout.attached
    · rw [List.mem_singleton.mp hb]
      exact fun he => hnew (he ▸ ha)
  · rw [hc] at hid
    rw [hattached o ho, hsub, hout.gives.acked]
    exact h.acked options hout.attached id hid
  · rw [hr, hinsert] at hid
    rw [hattached o ho, hsub, hout.gives.mem_unacked]
    rcases List.mem_cons.mp ((hpending.append_right _).mem_iff.mp hid) with rfl | hid
    · exact .inl rfl
    · exact .inr (h.unacked options hout.attached id hid)

/-- What the past tells when a pending message leaves: it has moved to another part. -/
theorem balance_erase (h : Account b past n t) {key : String} {m : Message EntryId}
    (hm : t.pending.find? key = some m) :
    (pulled n past).Perm (m.id :: (pendingIds { t with pending := t.pending.erase key } ++
      (confirmed n past ++ refused n past))) :=
  h.balance.trans ((pendingIds_erase hm).append_right _)

theorem confirm (h : Account b past n t) {key : String} {m : Message EntryId}
    {options : SubscribeOptions} (hm : t.pending.find? key = some m)
    (hs : b.Settles t.consumer m.id b' options)
    (hdistinct : ∀ id ∈ pulled n past, id ≠ m.id → id.entry.toNat ≠ m.id.entry.toNat) :
    Account b' (past ++ [.confirmed n m.id]) n { t with pending := t.pending.erase key } := by
  have hbalance := h.balance_erase hm
  have hp : pulled n (past ++ [.confirmed n m.id]) = pulled n past := by
    simp [pulled, Deed.pulled?]
  have hc : confirmed n (past ++ [.confirmed n m.id]) = confirmed n past ++ [m.id] := by
    simp [confirmed, Deed.confirmed?]
  have hr : refused n (past ++ [.confirmed n m.id]) = refused n past := by
    simp [refused, Deed.refused?]
  have hattached : ∀ o, b'.attached? t.consumer = some o → o = options := by
    intro o ho
    rw [Store.attached?_congr hs.consumers, hs.attached] at ho
    exact (Option.some.inj ho).symm
  have hsub := hs.subscription options.topic options.subscription
  rw [if_pos ⟨rfl, rfl⟩] at hsub
  refine ⟨keyed_erase h.keyed key, fun r hmem hn => ?_, ?_, fun o ho => ?_,
    fun o ho id hid => ?_, fun o ho id hid => ?_⟩
  · exact h.reader r (by simpa using hmem) hn
  · rw [hp, hc, hr]
    refine hbalance.trans ?_
    rw [List.append_assoc]
    refine (List.perm_middle.symm).trans (List.Perm.append_left _ ?_)
    exact List.perm_middle.symm
  · rw [hp]
    exact h.nodup options hs.attached
  · rw [hc] at hid
    rw [hattached o ho, hsub]
    rcases List.mem_append.mp hid with hid | hid
    · exact List.mem_append_left _ (h.acked options hs.attached id hid)
    · exact List.mem_append_right _ hid
  · rw [hr] at hid
    have hnodup := hbalance.nodup_iff.mp (h.nodup options hs.attached)
    have hmem : id ∈ pendingIds { t with pending := t.pending.erase key } ++
        (confirmed n past ++ refused n past) :=
      (List.mem_append.mp hid).elim (List.mem_append_left _)
        fun hid => List.mem_append_right _ (List.mem_append_right _ hid)
    have hne : id ≠ m.id := fun he => (List.nodup_cons.mp hnodup).1 (he ▸ hmem)
    have hpulled : id ∈ pulled n past := hbalance.mem_iff.mpr (List.mem_cons_of_mem _ hmem)
    have hold : id ∈ pendingIds t ++ refused n past :=
      ((pendingIds_erase hm).append_right _).mem_iff.mpr (List.mem_cons_of_mem _ hid)
    rw [hattached o ho, hsub]
    exact List.mem_filter.mpr ⟨h.unacked options hs.attached id hold,
      decide_eq_true (hdistinct id hpulled hne)⟩

theorem refuse (h : Account b past n t) {key : String} {m : Message EntryId}
    (hm : t.pending.find? key = some m) (topics : b'.topics = b.topics)
    (consumers : b'.consumers = b.consumers) :
    Account b' (past ++ [.refused n m.id]) n { t with pending := t.pending.erase key } := by
  have hbalance := h.balance_erase hm
  have hp : pulled n (past ++ [.refused n m.id]) = pulled n past := by
    simp [pulled, Deed.pulled?]
  have hc : confirmed n (past ++ [.refused n m.id]) = confirmed n past := by
    simp [confirmed, Deed.confirmed?]
  have hr : refused n (past ++ [.refused n m.id]) = refused n past ++ [m.id] := by
    simp [refused, Deed.refused?]
  refine ⟨keyed_erase h.keyed key, fun r hmem hn => ?_, ?_, fun o ho => ?_,
    fun o ho id hid => ?_, fun o ho id hid => ?_⟩
  · exact h.reader r (by simpa using hmem) hn
  · rw [hp, hc, hr]
    refine hbalance.trans ?_
    rw [← List.append_assoc, ← List.append_assoc, ← List.append_assoc]
    exact (List.perm_append_singleton _ _).symm
  · rw [hp]
    rw [Store.attached?_congr consumers] at ho
    exact h.nodup o ho
  · rw [hc] at hid
    rw [Store.attached?_congr consumers] at ho
    rw [Store.subscriptionOrNew_congr topics]
    exact h.acked o ho id hid
  · rw [hr] at hid
    rw [Store.attached?_congr consumers] at ho
    rw [Store.subscriptionOrNew_congr topics]
    refine h.unacked o ho id (((pendingIds_erase hm).append_right _).mem_iff.mpr ?_)
    rw [← List.append_assoc] at hid
    exact (List.perm_append_singleton _ _).mem_iff.mp hid

end Account

end TrackedDelivery.Memory
