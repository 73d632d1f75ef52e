import TrackedDelivery.Proofs.Deployment.Calls
import TrackedDelivery.Proofs.Deployment.Turn
import TrackedDelivery.Proofs.TextMap
import Mathlib.Data.List.Perm.Subperm
/-!
# Owners of consumers

A consumer belongs to one tracker or to one name of a bare consumer, and to nobody else. So whoever
gives up a bare consumer takes none from a tracker, and a tracker that nothing refers to any more
takes none from the others.
-/
namespace TrackedDelivery

/-- Steps that leave every consumer to its owner, and bring none. -/
def Step.KeepsOwners : Step Memory.Store → Prop
  | .openSource .. | .subscribe .. | .track .. | .drop .. => False
  | _ => True

theorem Memory.Store.Extends.length_le {b b' : Memory.Store} (h : b.Extends b') :
    b.consumers.length ≤ b'.consumers.length := by
  apply Nat.le_of_not_lt
  intro hlt
  obtain ⟨a, ha, -⟩ := h.consumer b'.consumers.length b.consumers[b'.consumers.length]
    (List.getElem?_eq_getElem hlt)
  rw [List.getElem?_eq_none (Nat.le_refl _)] at ha
  cases ha

end TrackedDelivery

namespace TrackedDelivery.TextMap

universe u
variable {α : Type u}

theorem values_erase_sublist (m : TextMap α) (key : String) :
    (m.erase key).values.Sublist m.values :=
  List.Sublist.map _ List.filter_sublist

theorem perm_values_erase {m : TextMap α} {key : String} {value : α}
    (h : m.find? key = some value) : m.values.Perm (value :: (m.erase key).values) :=
  (perm_entries_erase h).map Prod.snd

theorem perm_values_insert {m : TextMap α} {key : String} (value : α) (h : m.find? key = none) :
    (m.insert key value).values.Perm (value :: m.values) :=
  (perm_entries_insert value h).map Prod.snd

end TrackedDelivery.TextMap

namespace TrackedDelivery.Deployment

open Memory

variable {d after : Deployment Store} {s : Step Store} {answer : Answer Store} {n k : ℕ}
  {t u : Tracker Store}

/-- The consumers of the trackers, and the bare ones. -/
def owned (d : Deployment Store) : List ℕ :=
  d.trackers.map (·.consumer) ++ d.consumers.values

/-- No consumer is owned twice, and all of them are known to the broker. -/
structure Owned (d : Deployment Store) : Prop where
  nodup : d.owned.Nodup
  known : ∀ c ∈ d.owned, c < d.broker.consumers.length

namespace Owned

/-- The consumer of a tracker is not bare. -/
theorem not_bare (h : d.Owned) (ht : d.trackers[n]? = some t) : ¬ d.Bare t.consumer := by
  rintro ⟨name, hname⟩
  obtain ⟨-, -, hdisjoint⟩ := List.nodup_append.mp h.nodup
  have hmem : t.consumer ∈ d.trackers.map (·.consumer) :=
    List.mem_map_of_mem (List.mem_of_getElem? ht)
  exact hdisjoint _ hmem _ (TextMap.mem_values.mpr ⟨name, hname⟩) rfl

/-- Two trackers have different consumers. -/
theorem tracker_inj (h : d.Owned) (ht : d.trackers[n]? = some t) (hu : d.trackers[k]? = some u)
    (hc : t.consumer = u.consumer) : n = k := by
  have hnodup := (List.nodup_append.mp h.nodup).1
  have hlt : n < (d.trackers.map (·.consumer)).length := by
    rw [List.length_map]
    exact (List.getElem?_eq_some_iff.mp ht).1
  apply (List.getElem?_inj hlt hnodup).mp
  rw [List.getElem?_map, List.getElem?_map, ht, hu, Option.map_some, Option.map_some, hc]

/-- The consumer of a tracker that is held is not dropped after a step. -/
theorem not_unheld (h : d.Owned) (ht : d.trackers[n]? = some t) (hheld : d.isHeld n = true) :
    ¬ d.Unheld t.consumer := by
  rintro ⟨k, u, hu, hk, hc⟩
  obtain rfl := h.tracker_inj ht hu hc.symm
  rw [hheld] at hk
  cases hk

theorem initial : Owned fresh where
  nodup := .nil
  known c h := by cases h

/-- Consumers are handed on, and perhaps given up. -/
theorem of_subperm (h : d.Owned) (ho : after.owned.Subperm d.owned)
    (hle : d.broker.consumers.length ≤ after.broker.consumers.length) : after.Owned where
  nodup := by
    obtain ⟨l, hperm, hsub⟩ := ho
    exact hperm.nodup_iff.mp (h.nodup.sublist hsub)
  known c hc := Nat.lt_of_lt_of_le (h.known c (ho.subset hc)) hle

/-- A consumer that the broker has just attached gets an owner. -/
theorem of_new (h : d.Owned) (ho : after.owned.Subperm (d.broker.consumers.length :: d.owned))
    (hlt : d.broker.consumers.length < after.broker.consumers.length) : after.Owned where
  nodup := by
    obtain ⟨l, hperm, hsub⟩ := ho
    have hnew : (d.broker.consumers.length :: d.owned).Nodup := by
      apply List.nodup_cons.mpr ⟨?_, h.nodup⟩
      intro hmem
      exact Nat.lt_irrefl _ (h.known _ hmem)
    exact hperm.nodup_iff.mp (hnew.sublist hsub)
  known c hc := by
    rcases List.mem_cons.mp (ho.subset hc) with rfl | hold
    · exact hlt
    · exact Nat.lt_trans (h.known c hold) hlt

end Owned

/-! ## Steps hand consumers on -/

/-- As long as no tracker is added, the trackers keep their consumers. -/
theorem consumers_of_turns {deeds : List Deed} (h : Turns d.floor deeds after.floor)
    (hlength : after.trackers.length = d.trackers.length) :
    after.trackers.map (·.consumer) = d.trackers.map (·.consumer) := by
  apply List.ext_getElem?
  intro i
  rw [List.getElem?_map, List.getElem?_map]
  cases ht : d.trackers[i]? with
  | none =>
      rw [List.getElem?_eq_none_iff] at ht
      rw [List.getElem?_eq_none (by omega)]
  | some t =>
      obtain ⟨t', ht', hconsumer, -⟩ := h.tracker ht
      have hafter : after.trackers[i]? = some t' := ht'
      rw [hafter, Option.map_some, Option.map_some, hconsumer]

theorem length_act_le (hb : d.broker.Sound) (s : Step Store) :
    d.broker.consumers.length ≤ (d.act s).2.broker.consumers.length :=
  ((d.calls_act s).guides hb).extends_.length_le

/-! ## Sessions -/

/-- What it is for a deployment to go on with at most one more tracker, which owns a consumer that
was just attached. -/
structure Gains (d after : Deployment Store) : Prop where
  consumers : after.consumers = d.consumers
  trackers : after.trackers.map (·.consumer) = d.trackers.map (·.consumer) ∨
    after.trackers.map (·.consumer) =
        d.trackers.map (·.consumer) ++ [d.broker.consumers.length] ∧
      d.broker.consumers.length < after.broker.consumers.length

theorem Owned.of_gains (h : d.Owned) (hg : d.Gains after)
    (hle : d.broker.consumers.length ≤ after.broker.consumers.length) : after.Owned := by
  rcases hg.trackers with hsame | ⟨hnew, hlt⟩
  · apply h.of_subperm _ hle
    rw [owned, owned, hsame, hg.consumers]
  · apply h.of_new _ hlt
    rw [owned, owned, hnew, hg.consumers, List.append_assoc, List.singleton_append]
    exact List.perm_middle.subperm

theorem connectSource_gains (d : Deployment Store) (name : String) (config : Config)
    (subscription : String) : d.Gains (d.connectSource name config subscription).2 := by
  have hconsumers : (d.connected config).consumers = d.broker.consumers :=
    (Store.connect_quiet d.broker config.client).2
  rcases d.connectSource_outcomes name config subscription with
    ⟨cause, -, heq⟩ | ⟨-, ⟨cause, b, -, -, heq⟩ | ⟨b, hattach, -, heq⟩⟩
  · rw [heq]
    exact ⟨rfl, .inl rfl⟩
  · rw [heq]
    exact ⟨rfl, .inl rfl⟩
  · rw [heq]
    refine ⟨rfl, .inr ⟨by simp, ?_⟩⟩
    change d.broker.consumers.length < b.consumers.length
    rw [hattach.consumers, hconsumers, List.length_append]
    exact Nat.lt_succ_self _

theorem openSource_gains {name : String} {source : Source Store}
    (h : d.sources.find? name = some source) (position : Option Bytes) (fresh : String) :
    d.Gains (d.openSource name source position fresh).2 where
  consumers := by
    obtain ⟨_, _, _, _, _, hframe⟩ := frame_openSource h position fresh
    rw [hframe]
  trackers := by
    rcases openSource_cases h position fresh with
      ⟨e, -, he⟩ | ⟨config, subscription, isFresh, -, -, hopen⟩
    · rw [he]
      exact .inl rfl
    · have hdown := (teardown_spec (d := d.assigned subscription isFresh) h).2
      have hgains := connectSource_gains ((d.assigned subscription isFresh).teardown name source).2
        name config subscription
      have htrackers := hgains.trackers
      rw [hdown.trackers, hdown.consumers_length] at htrackers
      rw [hopen]
      exact htrackers

/-! ## Bare consumers -/

theorem dropConsumer_owned (d : Deployment Store) (name : String) :
    (d.drop name .consumer).2.trackers = d.trackers ∧
      (d.drop name .consumer).2.consumers.values.Sublist d.consumers.values ∧
      (d.drop name .consumer).2.consumers.find? name = none := by
  unfold drop
  cases hc : d.consumers.find? name with
  | none => exact ⟨rfl, .refl _, hc⟩
  | some c =>
      refine ⟨rfl, d.consumers.values_erase_sublist name, ?_⟩
      rw [TextMap.find?_erase, if_pos rfl]

theorem Owned.subscribe (h : d.Owned) (hb : d.broker.Sound) (name : String) (client : ℕ)
    (options : SubscribeOptions) : (d.subscribe name client options).2.Owned := by
  have hle := ((d.calls_subscribe client name options).guides hb).extends_.length_le
  rw [subscribe_eq] at hle ⊢
  rcases d.broker.subscribe_cases client options with ⟨e, he, haway⟩ | ⟨hconsumer, hattach⟩
  · rw [he] at hle ⊢
    exact h.of_subperm (.refl _) hle
  · rw [hconsumer]
    obtain ⟨htrackers, hvalues, hfree⟩ :=
      dropConsumer_owned { d with broker := (d.broker.subscribe client options).2 } name
    have hgrown := length_act_le (d := { d with broker := (d.broker.subscribe client options).2 })
      (hattach.sound_after hb) (.drop .consumer name)
    apply h.of_new
    · dsimp only [owned]
      rw [htrackers]
      have hnamed := TextMap.perm_values_insert d.broker.consumers.length hfree
      apply (hnamed.append_left _).subperm.trans
      apply List.perm_middle.subperm.trans
      exact ((hvalues.append_left _).cons_cons _).subperm
    · apply Nat.lt_of_lt_of_le _ hgrown
      dsimp only
      rw [hattach.consumers, List.length_append]
      exact Nat.lt_succ_self _

/-- A consumer that is given to a tracker is not bare any more. -/
theorem Owned.track (h : d.Owned) {name : String} {c : ℕ} (hc : d.consumers.find? name = some c)
    (subscription : String) (held : TextMap ℕ) :
    Owned { d with
      consumers := d.consumers.erase name
      trackers := d.trackers ++ [{ consumer := c, subscription }]
      held } := by
  apply h.of_subperm
  · apply List.Perm.subperm
    dsimp only [owned]
    rw [List.map_append, List.append_assoc]
    exact (TextMap.perm_values_erase hc).symm.append_left _
  · exact Nat.le_refl _

/-! ## Every step -/

/-- A step that leaves every consumer to its owner adds no tracker, and takes no bare consumer. -/
theorem Acts.keepsOwners (h : d.Acts s answer after) (hs : s.KeepsOwners) :
    after.trackers.length = d.trackers.length ∧ after.consumers = d.consumers := by
  cases h with
  | openSource | subscribe | track | dropSource | dropTracker | dropClient | dropTask
  | dropConsumer => cases hs
  | ask | start | poll => exact ⟨List.length_set, rfl⟩
  | _ => exact ⟨rfl, rfl⟩

theorem owned_act (hb : d.broker.Sound) (hk : AllKeyed d.trackers) (hs : s.KeepsOwners) :
    (d.act s).2.owned = d.owned := by
  obtain ⟨hlength, hconsumers⟩ := (d.acts s).keepsOwners hs
  rw [owned, owned, consumers_of_turns (turns_act hb hk s) hlength, hconsumers]

/-- Every other step gives consumers up, or hands one on, or gives a new one to a new owner. -/
theorem Acts.owned (ha : d.Acts s answer after) (h : d.Owned) (hb : d.broker.Sound)
    (hs : ¬ s.KeepsOwners) (hle : d.broker.consumers.length ≤ after.broker.consumers.length) :
    after.Owned := by
  cases ha with
  | vain => exact h
  | openSource name position fresh found after =>
      rw [← after] at hle ⊢
      exact h.of_gains (openSource_gains found position fresh) hle
  | subscribe clientName name options found after =>
      rw [← after]
      exact h.subscribe hb name _ options
  | track name tracker subscription found => exact h.track found subscription _
  | dropConsumer name found =>
      exact h.of_subperm ((d.consumers.values_erase_sublist name).append_left _).subperm hle
  | dropSource | dropTracker | dropClient | dropTask => exact ⟨h.nodup, h.known⟩
  | _ => exact absurd trivial hs

theorem Owned.act (h : d.Owned) (hb : d.broker.Sound) (hk : AllKeyed d.trackers)
    (s : Step Store) : (d.act s).2.Owned := by
  have hle := length_act_le hb s
  by_cases hs : s.KeepsOwners
  · apply h.of_subperm _ hle
    rw [owned_act hb hk hs]
  · exact (d.acts s).owned h hb hs hle

theorem Owned.dropUnheld (h : d.Owned) (hb : d.broker.Sound) : d.dropUnheld.Owned := by
  apply h.of_subperm
  · rw [dropUnheld_eq]
    exact .refl _
  · exact (d.calls_dropUnheld.guides hb).extends_.length_le

end TrackedDelivery.Deployment
