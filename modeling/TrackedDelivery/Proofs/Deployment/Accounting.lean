import TrackedDelivery.Proofs.Deployment.Simulation
import TrackedDelivery.Proofs.Deployment.Shift
import TrackedDelivery.Proofs.Deployment.Account
/-!
# Everything is accounted for

The accounts of subscriptions and trackers support each other. A confirmation settles an
unacknowledged entry because the message was pending, and no other tracker holds it because an
entry is received once in a shift. So every move keeps all of them, and they stand in every state
of a tracker-driven run.
-/
namespace TrackedDelivery.Memory

/-- Broker and trackers agree with their past. -/
structure Accounted (f : Floor) (past : List Deed) : Prop where
  sound : f.broker.Sound
  attended : Attended f.broker past
  settled : ∀ topic name, Settled f.broker topic name
  accounts : ∀ n t, f.trackers[n]? = some t → Account f.broker past n t
  /-- No deed is told of a tracker that is not there yet. -/
  known : ∀ d ∈ past, ∀ n, d.tracker? = some n → n < f.trackers.length

namespace Accounted

variable {f g : Floor} {past deeds : List Deed} {n k : ℕ} {t u : Tracker Store}
  {id id' : EntryId}

theorem initial : Accounted { broker := {}, trackers := [] } [] where
  sound :=
    { topic := fun _ _ h => by cases h
      counted := fun _ _ => rfl }
  attended := .initial
  settled := .initial
  accounts _ _ h := by cases h
  known _ h := by cases h

/-- Two trackers attached to one subscription never pulled one entry, nor did one of them twice. -/
theorem pulled_entry_inj (h : Accounted f past) (ht : f.trackers[n]? = some t)
    (hu : f.trackers[k]? = some u) {options options' : SubscribeOptions}
    (ha : f.broker.attached? t.consumer = some options)
    (ha' : f.broker.attached? u.consumer = some options')
    (htopic : options.topic = options'.topic)
    (hname : options.subscription = options'.subscription) (hid : id ∈ pulled n past)
    (hid' : id' ∈ pulled k past) (he : id.entry.toNat = id'.entry.toNat) : n = k ∧ id = id' := by
  obtain ⟨c, hr⟩ := mem_pulled.mp hid
  obtain ⟨c', hr'⟩ := mem_pulled.mp hid'
  have hc : c = t.consumer := (h.accounts n t ht).reader _ hr rfl
  have hc' : c' = u.consumer := (h.accounts k u hu).reader _ hr' rfl
  have hreceipt := h.attended.receipt_eq hr hr' (hc ▸ ha) (hc' ▸ ha') htopic hname he
  simp only [Receipt.mk.injEq, Option.some.injEq] at hreceipt
  exact hreceipt.2

/-- A message that is handed out to the consumer of a tracker was not pulled by that tracker. -/
theorem not_mem_pulled (h : Accounted f past) (ht : f.trackers[n]? = some t)
    {m : Message EntryId} {b : Store} {options : SubscribeOptions} {s : Subscription}
    (hout : f.broker.HandsOut t.consumer m b options s) : m.id ∉ pulled n past := by
  intro hid
  obtain ⟨c, hr⟩ := mem_pulled.mp hid
  have hc : c = t.consumer := (h.accounts n t ht).reader _ hr rfl
  have hpresent : c ∈ (shift options.topic options.subscription past).present :=
    (h.attended.present ..).mpr ⟨options, hc ▸ hout.attached, rfl, rfl⟩
  exact h.attended.fresh hout (h.attended.current _ _ _ hr hpresent) rfl

/-- An unacknowledged message is on the ledger of its topic. -/
theorem ledger_of_pulled (h : Accounted f past) (ht : f.trackers[n]? = some t)
    {options : SubscribeOptions} (ha : f.broker.attached? t.consumer = some options)
    (hid : id ∈ pulled n past) : f.broker.ledger? options.topic = some id.ledger := by
  obtain ⟨c, hr⟩ := mem_pulled.mp hid
  have hc : c = t.consumer := (h.accounts n t ht).reader _ hr rfl
  obtain ⟨a, hconsumer, hledger, -⟩ := h.attended.vouched _ hr
  have hget := Store.attached?_eq_some.mp ha
  rw [← hc, hconsumer] at hget
  cases hget
  exact hledger

/-- What one tracker confirms is not what another one pulled. -/
theorem others_confirm (h : Accounted f past) (ht : f.trackers[n]? = some t)
    (hu : f.trackers[k]? = some u) (hne : k ≠ n) {b : Store} {options : SubscribeOptions}
    (hid : id ∈ pulled n past) (hs : f.broker.Settles t.consumer id b options) :
    Account b (past ++ [.confirmed n id]) k u := by
  refine (h.accounts k u hu).others (fun d hd => ?_) fun o ho => ?_
  · rw [List.mem_singleton.mp hd]
    exact fun he => hne (Option.some.inj he).symm
  · rw [Store.attached?_congr hs.consumers] at ho
    refine ⟨ho, hs.extends.acked _ _, fun id' hid' hmem => ?_⟩
    rw [hs.subscription]
    split
    · rename_i hw
      refine List.mem_filter.mpr ⟨hmem, decide_eq_true fun he => hne ?_⟩
      exact (h.pulled_entry_inj hu ht ho hs.attached hw.1 hw.2 hid' hid he).1
    · exact hmem

theorem settled_move (h : Accounted f past) (m : Move f deeds g) (topic name : String) :
    Settled g.broker topic name := by
  have hx := m.store_extends h.sound
  have hold := h.settled topic name
  cases m with
  | quiet topics => exact hold.of_eq hx (Store.subscriptionOrNew_congr topics topic name)
  | publish appends => exact hold.of_eq hx (appends.subscription topic name)
  | turnAway away => exact hold.of_eq hx (away.subscription topic name)
  | attach attaches =>
      have hsub := attaches.subscription topic name
      refine hold.congr hx ?_ ?_ ?_ <;> rw [hsub] <;> split <;> rfl
  | release consumer =>
      have hsub := Store.subscription_release h.sound consumer topic name
      refine hold.congr hx ?_ ?_ ?_ <;> rw [hsub]
  | track => exact hold
  | receive received | pull _ received =>
      obtain ⟨_, _, hout⟩ := Store.handsOut_of_tryReceive h.sound received
      exact hold.handOut h.sound hout
  | confirm tracker pending acknowledged =>
      obtain ⟨_, hsettles⟩ := Store.settles_of_acknowledge h.sound acknowledged
      have haccount := h.accounts _ _ tracker
      have hpending := mem_pendingIds.mpr ⟨_, _, pending, rfl⟩
      refine hold.settle hsettles ?_ ?_
      · exact haccount.unacked _ hsettles.attached _ (List.mem_append_left _ hpending)
      · exact h.ledger_of_pulled tracker hsettles.attached
          (haccount.mem_pulled_of_pending hpending)
  | refuse _ _ rejected =>
      obtain ⟨topics, consumers⟩ := Store.acknowledge_quiet rejected
      exact hold.of_eq hx (Store.subscriptionOrNew_congr topics topic name)

/-- A tracker whose consumer is yet to come has read nothing. -/
theorem pulled_eq_nil (h : Accounted f past) (ht : f.trackers[n]? = some t)
    (hc : t.consumer = f.broker.consumers.length) : pulled n past = [] := by
  refine List.eq_nil_iff_forall_not_mem.mpr fun id hid => ?_
  obtain ⟨c, hr⟩ := mem_pulled.mp hid
  obtain ⟨a, hconsumer, -⟩ := h.attended.vouched _ hr
  have hlt := (List.getElem?_eq_some_iff.mp hconsumer).1
  have heq : c = t.consumer := (h.accounts n t ht).reader _ hr rfl
  rw [heq, hc] at hlt
  exact Nat.lt_irrefl _ hlt

theorem getElem?_set_cases {trackers : List (Tracker Store)} {v : Tracker Store}
    (h : (trackers.set n v)[k]? = some u) :
    (k = n ∧ u = v) ∨ (k ≠ n ∧ trackers[k]? = some u) := by
  rw [List.getElem?_set] at h
  split at h
  · rename_i hn
    split at h
    · exact .inl ⟨hn.symm, (Option.some.inj h).symm⟩
    · cases h
  · rename_i hn
    exact .inr ⟨Ne.symm hn, h⟩

theorem accounts_move (h : Accounted f past) (m : Move f deeds g)
    (hu : g.trackers[k]? = some u) : Account g.broker (past ++ deeds) k u := by
  have hx := m.store_extends h.sound
  have hnone : ∀ d ∈ ([] : List Deed), d.tracker? ≠ some k := by simp
  cases m with
  | quiet topics consumers =>
      exact (h.accounts k u hu).unmoved hnone consumers (Store.subscriptionOrNew_congr topics)
  | publish appends =>
      exact (h.accounts k u hu).unmoved hnone appends.consumers appends.subscription
  | turnAway away =>
      exact (h.accounts k u hu).unmoved hnone away.consumers away.subscription
  | attach attaches =>
      have hdeed : ∀ options, ∀ d ∈ [Deed.attached f.broker.consumers.length options],
          d.tracker? ≠ some k := by simp [Deed.tracker?]
      by_cases hc : u.consumer = f.broker.consumers.length
      · exact (h.accounts k u hu).unread (hdeed _) (h.pulled_eq_nil hu hc)
      · refine (h.accounts k u hu).others (hdeed _) fun o ho =>
          ⟨?_, hx.acked _ _, fun id _ hid => ?_⟩
        · rwa [attaches.attached?_after, if_neg hc] at ho
        · rw [attaches.subscription]
          split <;> exact hid
  | release consumer =>
      have hdeed : ∀ d ∈ [Deed.released consumer], d.tracker? ≠ some k := by simp [Deed.tracker?]
      refine (h.accounts k u hu).others hdeed fun o ho => ⟨?_, hx.acked _ _, fun id _ hid => ?_⟩
      · rw [Store.attached?_release] at ho
        split at ho
        · cases ho
        · exact ho
      · rw [Store.subscription_release h.sound]
        exact hid
  | track consumer subscription =>
      rw [List.append_nil]
      rcases Nat.lt_or_ge k f.trackers.length with hlt | hge
      · rw [List.getElem?_append_left hlt] at hu
        exact h.accounts k u hu
      · have hk : ∀ d ∈ past, d.tracker? ≠ some k := fun d hd hn =>
          Nat.lt_irrefl _ (Nat.lt_of_lt_of_le (h.known d hd k hn) hge)
        rw [List.getElem?_append_right hge] at hu
        cases List.mem_singleton.mp (List.mem_of_getElem? hu)
        exact .initial hk rfl
  | receive received =>
      obtain ⟨_, _, hout⟩ := Store.handsOut_of_tryReceive h.sound received
      exact (h.accounts k u hu).others_handOut hout (by simp)
  | pull tracker received =>
      obtain ⟨_, _, hout⟩ := Store.handsOut_of_tryReceive h.sound received
      rcases getElem?_set_cases hu with ⟨rfl, rfl⟩ | ⟨hne, hu⟩
      · exact (h.accounts _ _ tracker).pull hout (h.not_mem_pulled tracker hout)
      · exact (h.accounts k u hu).others_handOut hout (by simpa using Ne.symm hne)
  | confirm tracker pending acknowledged =>
      obtain ⟨_, hsettles⟩ := Store.settles_of_acknowledge h.sound acknowledged
      have haccount := h.accounts _ _ tracker
      have hid := haccount.mem_pulled_of_pending (mem_pendingIds.mpr ⟨_, _, pending, rfl⟩)
      rcases getElem?_set_cases hu with ⟨rfl, rfl⟩ | ⟨hne, hu⟩
      · refine haccount.confirm pending hsettles fun id' hid' hne he => hne ?_
        exact (h.pulled_entry_inj tracker tracker hsettles.attached hsettles.attached rfl rfl
          hid' hid he).2
      · exact h.others_confirm tracker hu hne hid hsettles
  | refuse tracker pending rejected =>
      obtain ⟨topics, consumers⟩ := Store.acknowledge_quiet rejected
      rcases getElem?_set_cases hu with ⟨rfl, rfl⟩ | ⟨hne, hu⟩
      · exact (h.accounts _ _ tracker).refuse pending topics consumers
      · refine (h.accounts k u hu).unmoved (fun d hd => ?_) consumers
          (Store.subscriptionOrNew_congr topics)
        rw [List.mem_singleton.mp hd]
        exact fun he => hne (Option.some.inj he).symm

theorem known_move (h : Accounted f past) (m : Move f deeds g) :
    ∀ d ∈ past ++ deeds, ∀ n, d.tracker? = some n → n < g.trackers.length := by
  have hle : f.trackers.length ≤ g.trackers.length := by
    cases m <;> simp
  intro d hd n hn
  rcases List.mem_append.mp hd with hd | hd
  · exact Nat.lt_of_lt_of_le (h.known d hd n hn) hle
  · refine Nat.lt_of_lt_of_le ?_ hle
    cases m with
    | quiet | publish | turnAway | track => cases hd
    | attach | release | receive =>
        rw [List.mem_singleton.mp hd] at hn
        cases hn
    | pull tracker | confirm tracker | refuse tracker =>
        rw [List.mem_singleton.mp hd] at hn
        cases hn
        exact (List.getElem?_eq_some_iff.mp tracker).1

theorem move (h : Accounted f past) (m : Move f deeds g) : Accounted g (past ++ deeds) where
  sound := m.sound h.sound
  attended := h.attended.move h.sound m
  settled := h.settled_move m
  accounts _ _ := h.accounts_move m
  known := h.known_move m

theorem moves (h : Accounted f past) (m : Moves f deeds g) : Accounted g (past ++ deeds) :=
  Moves.preserve (fun h m => h.move m) h m

theorem allKeyed (h : Accounted f past) : Deployment.AllKeyed f.trackers := by
  intro t ht
  obtain ⟨n, hn⟩ := List.getElem?_of_mem ht
  exact (h.accounts n t hn).keyed

end Accounted

/-- Every tracker-driven run from a fresh broker is accounted for. -/
theorem accounted_run {steps : List (Step Store)} (hs : ∀ s ∈ steps, s.TrackerDriven) :
    Accounted (Deployment.fresh.run steps).2.floor (Deployment.fresh.history steps) :=
  Accounted.initial.moves (Deployment.moves_run (d := .fresh) (fun t ht => by cases ht) hs)

end TrackedDelivery.Memory
