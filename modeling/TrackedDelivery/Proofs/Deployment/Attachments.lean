import TrackedDelivery.Proofs.Deployment.Handles
/-!
# Active consumers

A subscription has as many active consumers as there are consumers that a subscribe returned for it
and that are neither closed nor dropped. So the count never goes below zero, and a subscription is
free as soon as the last of them has gone, and no sooner.
-/
namespace TrackedDelivery.Memory.Store

variable {b b' : Store} {topic name : String} {c : ℕ} {options : SubscribeOptions}

/-! ## Counts in the broker -/

/-- The count of a subscription. One that does not exist has no consumers. -/
def activeConsumers (b : Store) (topic name : String) : ℕ :=
  (b.subscriptionOrNew topic name).activeConsumers

theorem serves_iff : b.Serves topic name c ↔ ∃ a, b.consumers[c]? = some a ∧ a.closed = false ∧
    a.options.topic = topic ∧ a.options.subscription = name := by
  constructor
  · rintro ⟨options, ha, htopic, hname⟩
    exact ⟨_, attached?_eq_some.mp ha, rfl, htopic, hname⟩
  · rintro ⟨⟨options, closed⟩, ha, rfl, htopic, hname⟩
    exact ⟨options, attached?_eq_some.mpr ha, htopic, hname⟩

theorem attachments_eq (b : Store) (topic name : String) : b.attachments topic name =
    ((List.range b.consumers.length).filter fun c => b.Serves topic name c).length := by
  rw [attachments, countP_eq_length_filter_range]
  refine congrArg List.length (List.filter_congr fun c _ => ?_)
  rw [Bool.eq_iff_iff, decide_eq_true_iff, serves_iff, Option.any_eq_true]
  refine exists_congr fun a => and_congr_right fun _ => ?_
  rw [Bool.and_eq_true, Bool.and_eq_true, Bool.not_eq_true', beq_iff_eq, beq_iff_eq,
    @eq_comm _ topic, @eq_comm _ name]

theorem Sound.activeConsumers_pos_iff (hb : b.Sound) :
    0 < b.activeConsumers topic name ↔ ∃ c, b.Serves topic name c := by
  rw [activeConsumers, hb.counted]
  constructor
  · intro hpos
    obtain ⟨c, options, ha⟩ := exists_attached hpos
    exact ⟨c, options, ha⟩
  · rintro ⟨c, options, ha, rfl, rfl⟩
    exact attachments_pos ha

/-- What a call does to the counts of a broker. -/
structure CountsExactly (b : Store) : Prop where
  counted : ∀ topic name, b.activeConsumers topic name =
    ((List.range b.consumers.length).filter fun c => b.Serves topic name c).length
  granted : ∀ client options c, (b.subscribe client options).1 = .ok c →
    c = b.consumers.length ∧
      (b.subscribe client options).2.consumers = b.consumers ++ [{ options := options }] ∧
      ∀ topic name, (b.subscribe client options).2.activeConsumers topic name =
        b.activeConsumers topic name +
          if topic = options.topic ∧ name = options.subscription then 1 else 0
  refused : ∀ client options e, (b.subscribe client options).1 = .error e →
    (b.subscribe client options).2 = { b with subscribes := b.subscribes + 1 }
  /-- The count goes down where it is not zero. -/
  released : ∀ c options, b.attached? c = some options →
    (∃ s, b.subscription? options.topic options.subscription = some s ∧ 0 < s.activeConsumers) ∧
      ∀ topic name, b.activeConsumers topic name = (b.release c).activeConsumers topic name +
        if topic = options.topic ∧ name = options.subscription then 1 else 0
  /-- To close or drop a consumer that has gone changes nothing. -/
  gone : ∀ c, b.attached? c = none → b.release c = b
  vacated : ∀ b' topic name, Operation (fun _ => True) b b' →
    (0 < b.activeConsumers topic name ∧ b'.activeConsumers topic name = 0 ↔
      ∃ c, (∀ k, b.Serves topic name k ↔ k = c) ∧ (b' = b.closeConsumer c ∨ b' = b.release c))

theorem attached?_of_released (h : b' = b.closeConsumer c ∨ b' = b.release c) (k : ℕ) :
    b'.attached? k = if k = c then none else b.attached? k := by
  rcases h with rfl | rfl
  · exact b.attached?_release c k
  · exact b.attached?_release c k

theorem serves_of_released (h : b' = b.closeConsumer c ∨ b' = b.release c) (k : ℕ) :
    b'.Serves topic name k ↔ b.Serves topic name k ∧ k ≠ c := by
  rw [Serves, Serves, attached?_of_released h]
  by_cases hk : k = c
  · simp [hk]
  · simp [hk]

/-- A subscription is vacated as its only consumer goes. -/
theorem Sound.vacated_iff {gone : ℕ → Prop} (hb : b.Sound) (h : Operation gone b b')
    (topic name : String) :
    0 < b.activeConsumers topic name ∧ b'.activeConsumers topic name = 0 ↔
      ∃ c, (∀ k, b.Serves topic name k ↔ k = c) ∧
        (b' = b.closeConsumer c ∨ b' = b.release c) := by
  have hfree : b'.activeConsumers topic name = 0 ↔ ∀ k, ¬b'.Serves topic name k := by
    rw [← not_exists, ← (h.sound hb).activeConsumers_pos_iff, Nat.pos_iff_ne_zero, not_not]
  rw [hb.activeConsumers_pos_iff, hfree]
  constructor
  · rintro ⟨⟨c, hc⟩, hnobody⟩
    obtain ⟨options, ha, hwhere⟩ := hc
    rcases h.count_cases with hsame | ⟨newcomer, hattaches⟩ | ⟨k, _, -, hreleased⟩
    · exact absurd ⟨options, (attached?_congr hsame c).trans ha, hwhere⟩ (hnobody c)
    · have hlt := (List.getElem?_eq_some_iff.mp (attached?_eq_some.mp ha)).1
      have hstays : b'.attached? c = some options := by
        rw [hattaches.attached?_after, if_neg (Nat.ne_of_lt hlt), ha]
      exact absurd ⟨options, hstays, hwhere⟩ (hnobody c)
    · have honly : ∀ j, b.Serves topic name j → j = k := fun j hj =>
        not_not.mp fun hne => hnobody j ((serves_of_released hreleased j).mpr ⟨hj, hne⟩)
      obtain rfl := honly c ⟨options, ha, hwhere⟩
      exact ⟨c, fun j => ⟨honly j, fun hj => hj ▸ ⟨options, ha, hwhere⟩⟩, hreleased⟩
  · rintro ⟨c, honly, hreleased⟩
    refine ⟨⟨c, (honly c).mpr rfl⟩, fun k hk => ?_⟩
    obtain ⟨hserves, hne⟩ := (serves_of_released hreleased k).mp hk
    exact hne ((honly k).mp hserves)

theorem Sound.countsExactly (hb : b.Sound) : b.CountsExactly where
  counted topic name := (hb.counted topic name).trans (b.attachments_eq topic name)
  granted client options c h := by
    obtain ⟨hc, hattaches⟩ := attaches_of_ok h
    refine ⟨hc, hattaches.consumers, fun topic name => ?_⟩
    rw [activeConsumers, activeConsumers, hattaches.subscription]
    split <;> rfl
  refused client options e h := subscribe_of_error h
  released c options ha := by
    have hpos := attachments_pos ha
    rw [← hb.counted] at hpos
    refine ⟨⟨_, hb.subscription?_of_attached ha, hpos⟩, fun topic name => ?_⟩
    rw [activeConsumers, activeConsumers, (detaches_release hb ha).subscription]
    split
    · rename_i hwhere
      rw [hwhere.1, hwhere.2]
      exact (Nat.sub_add_cancel hpos).symm
    · rfl
  gone c ha := release_of_closed ha
  vacated b' topic name h := hb.vacated_iff h topic name

end TrackedDelivery.Memory.Store

namespace TrackedDelivery.Deployment

open Memory Memory.Store

variable {d : Deployment Store} {closed : List ℕ} {c : ℕ} {topic name : String}

/-! ## Consumers that were neither closed nor dropped -/

/-- Whoever is attached has an owner and was not closed, and whoever is in use and was not closed is
attached. -/
structure Handled (d : Deployment Store) (closed : List ℕ) : Prop where
  owned : ∀ c options, d.broker.attached? c = some options → c ∈ d.owned ∧ c ∉ closed
  attached : ∀ c, d.InUse c → c ∉ closed → ∃ options, d.broker.attached? c = some options
  known : ∀ c ∈ closed, c < d.broker.consumers.length

theorem handled_fresh : fresh.Handled [] where
  owned c options h := by cases h
  attached c h _ := by cases h.owned
  known c h := by cases h

theorem mem_append_toList {o : Option ℕ} : c ∈ closed ++ o.toList ↔ c ∈ closed ∨ o = some c := by
  rw [List.mem_append, Option.mem_toList]

theorem Handled.act (hd : d.Handled closed) (h : d.Regular) (s : Step Store) :
    (d.act s).2.Handled (closed ++ (d.closed? s).toList) := by
  -- a step closes only consumers that were there before it, so those it brings are not closed
  have hclosed : ∀ c, d.closed? s = some c → c < d.broker.consumers.length := fun c hc =>
    h.owned.known c (owned_of_closing? (closing?_of_closed? hc))
  constructor
  case owned =>
    intro c options ha
    rw [mem_append_toList, not_or]
    rcases Nat.lt_or_ge c d.broker.consumers.length with hlt | hge
    · rw [(d.acts s).attached? h.sound hlt] at ha
      split at ha
      · cases ha
      · rename_i hspared
        rw [not_or] at hspared
        obtain ⟨howned, hnot⟩ := hd.owned c options ha
        exact ⟨(mem_owned_act h hlt).mpr ⟨howned, hspared.2⟩, hnot, hspared.1⟩
    · have hlt := (List.getElem?_eq_some_iff.mp (Store.attached?_eq_some.mp ha)).1
      refine ⟨((d.acts s).new h.owned hge hlt).2.owned, fun hmem => ?_, fun hc => ?_⟩
      · exact absurd (hd.known c hmem) (Nat.not_lt.mpr hge)
      · exact absurd (hclosed c hc) (Nat.not_lt.mpr hge)
  case attached =>
    intro c huse hnot
    rw [mem_append_toList, not_or] at hnot
    rcases Nat.lt_or_ge c d.broker.consumers.length with hlt | hge
    · rcases inUse_of_act h hlt huse with hbefore | hattached
      · obtain ⟨options, ha⟩ := hd.attached c hbefore hnot.1
        obtain ⟨-, hkept⟩ := (mem_owned_act h hlt).mp huse.owned
        refine ⟨options, ?_⟩
        rw [(d.acts s).attached? h.sound hlt, if_neg (not_or.mpr ⟨hnot.2, hkept⟩), ha]
      · exact hattached
    · exact ((d.acts s).new h.owned hge ((h.act s).owned.known c huse.owned)).1
  case known =>
    intro c hc
    refine Nat.lt_of_lt_of_le ?_ (length_act_le h.sound s)
    exact (mem_append_toList.mp hc).elim (hd.known c) (hclosed c)

theorem inUse_dropUnheld : d.dropUnheld.InUse c ↔ d.InUse c := by
  rw [dropUnheld_eq]
  rfl

theorem Handled.dropUnheld (hd : d.Handled closed) (h : d.Regular) :
    d.dropUnheld.Handled closed where
  owned c options ha := by
    have howned : d.dropUnheld.owned = d.owned := by rw [dropUnheld_eq]; rfl
    rw [howned]
    exact hd.owned c options (attached?_dropUnheld ha)
  attached c huse hnot := by
    have hbefore := inUse_dropUnheld.mp huse
    obtain ⟨options, ha⟩ := hd.attached c hbefore hnot
    exact ⟨options,
      d.asks_dropUnheld.keeps_attached id (h.owned.not_unheld_of_inUse hbefore) ha⟩
  known c hc := by
    rw [consumers_length_dropUnheld]
    exact hd.known c hc

theorem Handled.step (hd : d.Handled closed) (h : d.Regular) (s : Step Store) :
    (d.step s).2.Handled (closed ++ (d.closed? s).toList) := by
  have hcleared : Handled { d with log := [] } closed := ⟨hd.owned, hd.attached, hd.known⟩
  exact (hcleared.act h.cleared s).dropUnheld (h.cleared.act s)

theorem Handled.run (hd : d.Handled closed) (h : d.Regular) (steps : List (Step Store)) :
    (d.run steps).2.Handled (closed ++ d.closedIn steps) := by
  induction steps generalizing d closed with
  | nil =>
      rw [closedIn, List.append_nil]
      exact hd
  | cons s rest ih =>
      rw [closedIn, ← List.append_assoc]
      exact ih (hd.step h s) (h.step s)

/-- After a step, whoever is in use and was not closed is attached, and nobody else. -/
theorem Handled.attached_iff (hd : d.Handled closed) (ht : d.Tidy) :
    (∃ options, d.broker.attached? c = some options) ↔ d.InUse c ∧ c ∉ closed := by
  constructor
  · rintro ⟨options, ha⟩
    obtain ⟨howned, hnot⟩ := hd.owned c options ha
    refine ⟨?_, hnot⟩
    rcases mem_owned.mp howned with hbare | ⟨n, t, hn, rfl⟩
    · exact .inl hbare
    · cases hheld : d.isHeld n with
      | true => exact .inr ⟨n, t, hn, hheld, rfl⟩
      | false => cases (ht n t hn hheld).symm.trans ha
  · rintro ⟨huse, hnot⟩
    exact hd.attached c huse hnot

/-! ## Handles of a subscription -/

/-- The consumers that a subscribe returned for a subscription, that somebody still has, and that
are not among those closed. -/
def handles (d : Deployment Store) (closed : List ℕ) (topic name : String) : List ℕ :=
  (List.range d.broker.consumers.length).filter fun c =>
    (∃ a ∈ d.broker.consumers[c]?, a.options.topic = topic ∧ a.options.subscription = name) ∧
      d.InUse c ∧ c ∉ closed

theorem Handled.serves_iff (hd : d.Handled closed) (ht : d.Tidy) : d.broker.Serves topic name c ↔
    (∃ a ∈ d.broker.consumers[c]?, a.options.topic = topic ∧ a.options.subscription = name) ∧
      d.InUse c ∧ c ∉ closed := by
  rw [← hd.attached_iff ht]
  constructor
  · rintro ⟨options, ha, hwhere⟩
    exact ⟨⟨_, Store.attached?_eq_some.mp ha, hwhere⟩, options, ha⟩
  · rintro ⟨⟨a, hget, hwhere⟩, options, ha⟩
    cases (Store.attached?_eq_some.mp ha).symm.trans hget
    exact ⟨options, ha, hwhere⟩

theorem Handled.mem_handles_iff (hd : d.Handled closed) (ht : d.Tidy) :
    c ∈ d.handles closed topic name ↔ d.broker.Serves topic name c := by
  rw [handles, List.mem_filter, decide_eq_true_iff, ← hd.serves_iff ht, List.mem_range,
    and_iff_right_iff_imp]
  rintro ⟨options, ha, -⟩
  exact (List.getElem?_eq_some_iff.mp (Store.attached?_eq_some.mp ha)).1

theorem Handled.length_handles (hd : d.Handled closed) (ht : d.Tidy) (hb : d.broker.Sound)
    (topic name : String) :
    d.broker.activeConsumers topic name = (d.handles closed topic name).length := by
  rw [hb.countsExactly.counted, handles]
  simp only [hd.serves_iff ht]

/-- All that a step does to the broker is calls on it. -/
theorem operations_step (d : Deployment Store) (s : Step Store) :
    Operations (fun _ => True) d.broker (d.step s).2.broker := by
  have hact : Operations (fun _ => True) d.broker
      (Deployment.act { d with log := [] } s).2.broker :=
    (acts { d with log := [] } s).asks.operations fun _ _ => trivial
  exact hact.trans ((asks_dropUnheld _).operations fun _ _ => trivial)

theorem operations_run (d : Deployment Store) (steps : List (Step Store)) :
    Operations (fun _ => True) d.broker (d.run steps).2.broker :=
  run_preserves (P := fun after => Operations (fun _ => True) d.broker after.broker)
    (fun after s h => h.trans (after.operations_step s)) .refl steps

end TrackedDelivery.Deployment

namespace TrackedDelivery.Memory

open Store

/-- In whatever state a run has come to, every subscription counts the consumers that a subscribe
returned for it, that were closed in no step and that somebody still has. A run is made of calls on
the broker, and in every state that calls lead to the counts are exact: a subscribe that is granted
adds its consumer, one that is refused changes no topic, the first close or drop of a consumer takes
it away, where the count is not zero, and a subscription becomes free as the last one goes. -/
theorem active_consumers_exact (steps : List (Step Store)) :
    let d := (Deployment.fresh.run steps).2
    let closed := Deployment.fresh.closedIn steps
    (∀ topic name, d.broker.activeConsumers topic name = (d.handles closed topic name).length ∧
      ∀ c, c ∈ d.handles closed topic name ↔ d.broker.Serves topic name c) ∧
    Operations (fun _ => True) {} d.broker ∧
    (∀ s, Operations (fun _ => True) d.broker (d.step s).2.broker) ∧
    ∀ b, Operations (fun _ => True) {} b → b.CountsExactly := by
  intro d closed
  have hd : d.Regular := Deployment.Regular.initial.run steps
  have hhandled : d.Handled closed := Deployment.handled_fresh.run .initial steps
  have htidy : d.Tidy := Deployment.tidy_run Deployment.tidy_fresh
  refine ⟨fun topic name => ⟨?_, fun c => ?_⟩, Deployment.fresh.operations_run steps,
    d.operations_step, fun b hb => ?_⟩
  · exact hhandled.length_handles htidy hd.sound topic name
  · exact hhandled.mem_handles_iff htidy
  · have hsound : Store.Sound {} := Deployment.Regular.initial.sound
    exact (hb.guides hsound).sound.countsExactly

/-- Consumers come and go: one is shared with a source, one is turned away, one takes the name of
another, one is closed twice and dropped after that, and one is refused by a closed client. The
source is dropped, but its tracker is kept. -/
def contestedRun : List (Step Store) :=
  [.connect "k" { url := "url" }, .create "a" (some sampleConfig), .openSource "a" none "",
    .subscribe "k" "c" ⟨"t", "s", .shared⟩, .subscribe "k" "e" ⟨"t", "s", .exclusive⟩,
    .subscribe "k" "c" ⟨"t", "s", .shared⟩, .hold "a" "h", .drop .source "a",
    .subscribe "k" "o" ⟨"o", "s", .failover⟩, .closeConsumer "c", .closeConsumer "c",
    .drop .consumer "c", .closeClient "k", .subscribe "k" "f" ⟨"t", "s", .shared⟩]

set_option maxRecDepth 10000 in
theorem active_of_contestedRun :
    let d := (Deployment.fresh.run contestedRun).2
    d.handles (Deployment.fresh.closedIn contestedRun) "t" "s" = [0] ∧
      d.broker.activeConsumers "t" "s" = 1 ∧ d.broker.activeConsumers "o" "s" = 1 ∧
      Deployment.fresh.closedIn contestedRun = [2, 2] ∧ d.broker.CountsExactly := by
  have hshared : (Deployment.fresh.run contestedRun).2.handles
      (Deployment.fresh.closedIn contestedRun) "t" "s" = [0] := by decide +kernel
  have hother : (Deployment.fresh.run contestedRun).2.handles
      (Deployment.fresh.closedIn contestedRun) "o" "s" = [3] := by decide +kernel
  have hclosed : Deployment.fresh.closedIn contestedRun = [2, 2] := by decide +kernel
  obtain ⟨hcounts, hreached, -, hexact⟩ := active_consumers_exact contestedRun
  refine ⟨hshared, ?_, ?_, hclosed, hexact _ hreached⟩
  · rw [(hcounts "t" "s").1, hshared]
    rfl
  · rw [(hcounts "o" "s").1, hother]
    rfl

end TrackedDelivery.Memory
