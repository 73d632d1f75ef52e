import TrackedDelivery.Proofs.Deployment.Reading
import TrackedDelivery.Proofs.Deployment.Shift
/-!
# Opening a source

A source that is opened lets go of the consumer that it had and gets a new one, in this order. If
nobody but the source was attached to the subscription, the shift ends with the old consumer and
the new one begins another.
-/
namespace TrackedDelivery.Deployment

open Memory

variable {d : Deployment Store} {name : String}

theorem released_of_dropDeeds {deed : Deed} (h : deed ∈ d.dropDeeds) : ∃ c, deed = .released c := by
  obtain ⟨n, -, hn⟩ := List.mem_filterMap.mp h
  unfold letGo? at hn
  split at hn
  · cases hn
  · split at hn
    · cases hn
    · exact ⟨_, (Option.some.inj hn).symm⟩

/-- What it is for a source to be connected: a new consumer is attached for it. -/
structure Arrives (d : Deployment Store) (name : String) (after : Deployment Store) : Prop where
  consumerOf : after.consumerOf? (.source name) = some d.broker.consumers.length
  came : ∃ options, after.broker.attached? d.broker.consumers.length = some options ∧
    d.came after = [.attached d.broker.consumers.length options]

theorem connectSource_arrives {config : Config} {subscription : String}
    (h : (d.connectSource name config subscription).1 = some (.ok ())) :
    d.Arrives name (d.connectSource name config subscription).2 := by
  rcases d.connectSource_cases name config subscription with
    ⟨e, he, -⟩ | ⟨client, b, hattach, heq⟩
  · rw [he] at h
    cases h
  · obtain ⟨hnew, -⟩ := attached_of_connected hattach
    rw [heq]
    refine ⟨?_, _, Store.attached?_eq_some.mpr hnew, came_of_attach hnew⟩
    simp [consumerOf?, tracker?, trackerNumber?, session?, TextMap.find?_insert]

/-- A source that is opened has let go of the consumer that it had. -/
theorem openSource_arrives {source : Source Store} {position : Option Bytes} {fresh : String}
    (hs : d.sources.find? name = some source)
    (h : (d.openSource name source position fresh).1 = some (.ok ())) :
    d.Arrives name (d.openSource name source position fresh).2 ∧
      ∀ k, d.consumerOf? (.source name) = some k → k < d.broker.consumers.length →
        (d.openSource name source position fresh).2.broker.attached? k = none := by
  rcases openSource_cases hs position fresh with
    ⟨e, -, he⟩ | ⟨config, subscription, isFresh, -, -, hopen⟩
  · rw [he] at h
    cases h
  · have htears := (teardown_spec (d := d.assigned subscription isFresh) hs).2
    have hlength := htears.consumers_length
    rw [hopen] at h ⊢
    obtain ⟨hof, options, hattached, hcame⟩ := connectSource_arrives h
    rw [hlength] at hof hattached hcame
    refine ⟨⟨hof, options, hattached, ?_⟩, fun k hk hlt => ?_⟩
    · rwa [came, hlength] at hcame
    · have hbroker := htears.broker
      have hk' : (d.assigned subscription isFresh).consumerOf? (.source name) = some k := hk
      rw [hk'] at hbroker
      rw [(connectSource_spec _ name config subscription).attached? k (hlength ▸ hlt),
        Store.attached?_congr hbroker.2, Store.attached?_release, if_pos rfl]

theorem consumerOf?_dropUnheld (d : Deployment Store) (target : Target) :
    d.dropUnheld.consumerOf? target = d.consumerOf? target := by
  rw [dropUnheld_eq]
  rfl

/-- Whoever is attached after trackers were dropped was attached before. -/
theorem attached?_dropUnheld {c : ℕ} {options : SubscribeOptions}
    (h : d.dropUnheld.broker.attached? c = some options) : d.broker.attached? c = some options := by
  have hkept := dropUnheld_preserves (d := d)
    (P := fun b => b.attached? c = some options → d.broker.attached? c = some options)
    (fun b _ t _ _ hb ha => ?_) id
  · exact hkept h
  · rw [Store.attached?_release] at ha
    split at ha
    · cases ha
    · exact hb ha

theorem openSource_of_done {position : Option Bytes} {fresh : String}
    (h : (d.act (.openSource name position fresh)).1 = .done) :
    ∃ source, d.sources.find? name = some source ∧
      (d.openSource name source position fresh).1 = some (.ok ()) ∧
      (d.act (.openSource name position fresh)).2 =
        (d.openSource name source position fresh).2 := by
  simp only [act] at h ⊢
  cases hs : d.sources.find? name with
  | none =>
      rw [hs] at h
      cases h
  | some source =>
      rw [hs] at h
      refine ⟨source, rfl, ?_, rfl⟩
      dsimp only [Prod.map] at h
      cases hr : (d.openSource name source position fresh).1 with
      | none =>
          rw [hr] at h
          cases h
      | some result =>
          rw [hr] at h
          cases result with
          | error e => cases h
          | ok u => rfl

theorem released_of_went {after : Deployment Store} {consumer? : Option ℕ} {deed : Deed}
    (h : deed ∈ after.went consumer?) : ∃ c, deed = .released c := by
  unfold went at h
  split at h
  · split at h
    · exact ⟨_, List.mem_singleton.mp h⟩
    · cases h
  · cases h

theorem actDeeds_openSource (d : Deployment Store) (name : String) (position : Option Bytes)
    (fresh : String) : d.actDeeds (.openSource name position fresh) =
      (d.act (.openSource name position fresh)).2.went (d.consumerOf? (.source name)) ++
        d.came (d.act (.openSource name position fresh)).2 :=
  rfl

/-- A source that opens where nobody but itself was attached begins a shift. -/
theorem receipts_openSource {past : List Deed} (h : Attended d.broker past) {topic sub : String}
    {position : Option Bytes} {fresh : String} {c : ℕ}
    (hdone : (d.step (.openSource name position fresh)).1 = .done)
    (hc : (d.step (.openSource name position fresh)).2.consumerOf? (.source name) = some c)
    (hserves : (d.step (.openSource name position fresh)).2.broker.Serves topic sub c)
    (hown : ∀ k, d.broker.Serves topic sub k → d.consumerOf? (.source name) = some k) :
    (shift topic sub (past ++ d.deeds (.openSource name position fresh))).receipts = [] := by
  obtain ⟨source, hs, hopen, hact⟩ := openSource_of_done (d := { d with log := [] }) hdone
  obtain ⟨⟨hof, options, hattached, hcame⟩, hgone⟩ := openSource_arrives hs hopen
  rw [← hact] at hof hattached hcame hgone
  have hnew := Option.some.inj (hof.symm.trans ((consumerOf?_dropUnheld _ _).symm.trans hc))
  rw [hnew] at hattached hcame
  obtain ⟨options', hoptions, hwhere⟩ := hserves
  cases hattached.symm.trans (attached?_dropUnheld hoptions)
  have hdeserted : (shift topic sub (past ++
      (act { d with log := [] } (.openSource name position fresh)).2.went
        (d.consumerOf? (.source name)))).present = [] := by
    rw [shift_append_released fun _ => released_of_went, List.filter_eq_nil_iff]
    intro k hk
    obtain ⟨o, ho, hold⟩ := (h.present topic sub k).mp hk
    have hmine := hown k ⟨o, ho, hold⟩
    have hlt := (List.getElem?_eq_some_iff.mp (Store.attached?_eq_some.mp ho)).1
    simp [went, hmine, hgone k hmine hlt]
  rw [deeds, ← List.append_assoc, shift_append_released fun _ => released_of_dropDeeds,
    actDeeds_openSource, hcame, ← List.append_assoc, shift_append, Shift.next, if_pos hwhere,
    if_pos]
  exact hdeserted

end TrackedDelivery.Deployment
