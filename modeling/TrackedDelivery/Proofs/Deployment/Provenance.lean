import TrackedDelivery.Proofs.Memory.Ledgers
import TrackedDelivery.Proofs.Deployment.Opening
import TrackedDelivery.Proofs.Deployment.Isolation
/-!
# Where records come from

Nothing but a publish brings a message about, so the log of a topic is what was published on it, in
order, and the identifier that a publish reports tells the publish. A record is made of the message
that the broker has handed out at the same time, whoever asked for it and how often the message was
handed out before.
-/
namespace TrackedDelivery.Memory

open Store

/-! ## Publications -/

/-- The message that a step has published, as its answer tells. -/
def published? : Step Store → Answer Store → Option (Message EntryId)
  | .stimulate (.publish topic key payload eventTime now), .reported (some id) =>
      some { id, topic, eventTime, publishTime := now, key, payload }
  | _, _ => none

theorem published?_eq_none {s : Step Store} (h : ¬ s.Publishes) (answer : Answer Store) :
    published? s answer = none := by
  unfold published?
  split
  · exact absurd trivial h
  · rfl

end TrackedDelivery.Memory

namespace TrackedDelivery.Deployment

open Memory Memory.Store

variable {d : Deployment Store} {s : Step Store} {topic : String} {n : ℕ}

/-- The messages that steps made one after another publish, in this order. -/
def publications (d : Deployment Store) : List (Step Store) → List (Message EntryId)
  | [] => []
  | s :: rest => (published? s (d.step s).1).toList ++ (d.step s).2.publications rest

theorem publications_append (d : Deployment Store) (steps rest : List (Step Store)) :
    d.publications (steps ++ rest) =
      d.publications steps ++ (d.run steps).2.publications rest := by
  induction steps generalizing d with
  | nil => rfl
  | cons s steps ih =>
      rw [List.cons_append, publications, publications, ih, List.append_assoc]
      rfl

/-- A step adds to the log of a topic what it publishes on it. -/
theorem Tidy.log_step (h : d.Tidy) (s : Step Store) (topic : String) :
    (d.step s).2.broker.log topic = d.broker.log topic ++
      (published? s (d.step s).1).toList.filter (·.topic = topic) := by
  by_cases hs : s.Publishes
  · cases s with
    | stimulate stimulus =>
        cases stimulus with
        | publish t key payload eventTime now =>
            rcases h.step_publish_spec t key payload eventTime now with
              ⟨hanswer, -, hsame⟩ | ⟨id, hanswer, hpublishes⟩
            · rw [hanswer, hsame]
              exact (List.append_nil _).symm
            · rw [hanswer, hpublishes.log]
              by_cases ht : topic = t
              · simp [published?, ht]
              · simp [published?, ht, Ne.symm ht]
        | _ => cases hs
    | _ => cases hs
  · rw [(confined_step hs).log, published?_eq_none hs]
    exact (List.append_nil _).symm

/-- The log of a topic goes on with what is published on it. -/
theorem Tidy.log_run (h : d.Tidy) (steps : List (Step Store)) (topic : String) :
    (d.run steps).2.broker.log topic = d.broker.log topic ++
      (d.publications steps).filter (·.topic = topic) := by
  induction steps generalizing d with
  | nil => exact (List.append_nil _).symm
  | cons s rest ih =>
      have hrest := ih (d := (d.step s).2) (tidy_dropUnheld _)
      rw [h.log_step] at hrest
      rw [publications, List.filter_append, ← List.append_assoc]
      exact hrest

theorem log_fresh_run (steps : List (Step Store)) (topic : String) :
    (fresh.run steps).2.broker.log topic =
      (fresh.publications steps).filter (·.topic = topic) :=
  tidy_fresh.log_run steps topic

/-! ## Identifiers -/

theorem numbered_run (steps : List (Step Store)) : (fresh.run steps).2.broker.Numbered :=
  Regular.initial.preserve (fun h _ hb => h.keepsLedgers.numbered hb) numbered_empty steps

/-- Every publication is in the log of its topic. -/
theorem mem_log_of_publications {steps : List (Step Store)} {m : Message EntryId}
    (hm : m ∈ fresh.publications steps) : m ∈ (fresh.run steps).2.broker.log m.topic := by
  rw [log_fresh_run]
  exact List.mem_filter.mpr ⟨hm, decide_eq_true rfl⟩

/-- No two publishes report the same identifier. -/
theorem nodup_publications {steps : List (Step Store)}
    (hsize : (fresh.run steps).2.broker.topics.size ≤ UInt64.size) :
    ((fresh.publications steps).map (·.id)).Nodup := by
  have hsound := (Regular.initial.run steps).sound
  refine List.nodup_iff_count_le_one.mpr fun id => ?_
  rw [List.count_eq_countP, List.countP_map]
  by_cases hmem : ∃ m ∈ fresh.publications steps, m.id = id
  · -- Whoever has the identifier is in the log of one topic, where there is no other.
    obtain ⟨m, hm, rfl⟩ := hmem
    have hlog := List.nodup_iff_count_le_one.mp (hsound.nodup_ids m.topic) m.id
    rw [log_fresh_run, List.count_eq_countP, List.countP_map, List.countP_filter] at hlog
    refine Nat.le_trans (List.countP_mono_left fun m' hm' hid => ?_) hlog
    have hid' : m'.id = m.id := beq_iff_eq.mp hid
    have htopic := hsound.topic_of_id (numbered_run steps) hsize (mem_log_of_publications hm')
      (mem_log_of_publications hm) hid'
    rw [Bool.and_eq_true, decide_eq_true_iff]
    exact ⟨hid, htopic⟩
  · refine Nat.le_trans (Nat.le_of_eq (List.countP_eq_zero.mpr fun m hm hid => ?_)) (Nat.zero_le 1)
    exact hmem ⟨m, hm, beq_iff_eq.mp hid⟩

end TrackedDelivery.Deployment

/-! ## Records -/

namespace TrackedDelivery.Memory

open Store

/-- What it is for a record to name a message: the position is that of the message in a
subscription, and the rest is what was published. -/
structure Names (r : Record) (subscription : String) (m : Message EntryId) : Prop where
  position : ∃ p, Position.decode r.position = .ok p ∧ p.subscription = subscription ∧
    p.readMessageId EntryId = .ok m.id
  key : r.key = m.key
  payload : r.payload = m.payload
  topic : r.metadata.find? Metadata.topicKey = some m.topic

variable {b b' : Store} {t : Tracker Store} {m : Message EntryId} {r : Record}

theorem Yields.names (h : Yields b t m r) : Names r t.subscription m := by
  rw [h.record]
  refine ⟨⟨Position.forMessage t.subscription m.id, ?_, rfl, ?_⟩, rfl, rfl, ?_⟩
  · exact Position.decode_encode _
  · exact Position.readMessageId_forMessage ..
  · have hne : Metadata.topicKey ≠ Metadata.createdAtKey := by decide
    rw [Record.ofMessage, Metadata.setCreatedAt, TextMap.find?_insert, if_neg hne,
      TextMap.find?_insert, if_pos rfl]

end TrackedDelivery.Memory

namespace TrackedDelivery.Deployment

open Memory Memory.Store

variable {d : Deployment Store} {s : Step Store} {r : Record} {n : ℕ} {options : SubscribeOptions}

/-! ## Sessions -/

/-- A tracker has a consumer that was attached with some options, and goes by the name of the
subscription that they ask for. -/
def Consumes (d : Deployment Store) (n : ℕ) (options : SubscribeOptions) : Prop :=
  ∃ t a, d.trackers[n]? = some t ∧ d.broker.consumers[t.consumerNumber]? = some a ∧
    a.options = options ∧ t.subscription = options.subscription

theorem Regular.consumes_step (h : d.Regular) (hn : d.Consumes n options) (s : Step Store) :
    (d.step s).2.Consumes n options := by
  obtain ⟨t, a, ht, ha, hoptions, hname⟩ := hn
  obtain ⟨t', ht', hconsumer, hsubscription⟩ := h.tracker_step s ht
  obtain ⟨a', ha', hsame, -⟩ := (h.extends_step s).consumer _ _ ha
  exact ⟨t', a', ht', by rwa [Tracker.consumerNumber, hconsumer], hsame.trans hoptions,
    hsubscription.trans hname⟩

theorem Regular.consumes_run (h : d.Regular) (hn : d.Consumes n options)
    (steps : List (Step Store)) : (d.run steps).2.Consumes n options :=
  h.run_preserves (fun _ s hregular hd => hregular.consumes_step hd s) hn steps

theorem consumes_of_connectSource {name subscription : String} {config : Config}
    (h : (d.connectSource name config subscription).1 = some (.ok ())) :
    (d.connectSource name config subscription).2.Consumes d.trackers.length
      (config.subscribeOptions subscription) := by
  rcases d.connectSource_cases name config subscription with
    ⟨e, he, -⟩ | ⟨client, b, hattach, heq⟩
  · rw [he] at h
    cases h
  · rw [heq]
    exact ⟨_, _, List.getElem?_concat_length, (attached_of_connected hattach).1, rfl, rfl⟩

/-- A source that is opened gets a new tracker, for what the source asked for. -/
theorem Regular.consumes_of_open (h : d.Regular) {name : String} {position : Option Bytes}
    {unused : String} (hdone : (d.step (.openSource name position unused)).1 = .done) :
    ∃ options, d.sought? (.openSource name position unused) = some options ∧
      (d.step (.openSource name position unused)).2.Consumes d.trackers.length options := by
  have hsound := (h.cleared.act (.openSource name position unused)).sound
  obtain ⟨source, hs, hopen, hact⟩ := openSource_of_done (d := { d with log := [] }) hdone
  rcases openSource_cases hs position unused with
    ⟨e, -, he⟩ | ⟨config, subscription, isFresh, hconfig, hsettle, heq⟩
  · rw [he] at hopen
    cases hopen
  · have hdown := (teardown_spec
      (d := assigned { d with log := [] } subscription isFresh) hs).2
    rw [heq] at hopen hact
    have hconsumes := consumes_of_connectSource hopen
    rw [hdown.trackers, ← hact] at hconsumes
    have hsought : d.sought? (.openSource name position unused) =
        some (config.subscribeOptions subscription) := by
      have hfound : d.sources.find? name = some source := hs
      simp only [sought?, wanted?, hfound, hconfig, hsettle, Option.bind_some]
    refine ⟨_, hsought, ?_⟩
    obtain ⟨t, a, ht, ha, hoptions, hname⟩ := hconsumes
    obtain ⟨a', ha', hsame, -⟩ := ((calls_dropUnheld _).guides hsound).extends_.consumer _ _ ha
    exact ⟨t, a', ht, ha', hsame.trans hoptions, hname⟩

/-- A tracker came with a session of a source, and this is what the source asked for when it was
opened. -/
def OpenedWith (steps : List (Step Store)) (n : ℕ) (options : SubscribeOptions) : Prop :=
  ∃ before name position unused rest, steps = before ++ .openSource name position unused :: rest ∧
    let d := (fresh.run before).2
    (d.step (.openSource name position unused)).1 = .done ∧ d.trackers.length = n ∧
      d.sought? (.openSource name position unused) = some options

theorem OpenedWith.append {steps : List (Step Store)} (h : OpenedWith steps n options)
    (rest : List (Step Store)) : OpenedWith (steps ++ rest) n options := by
  obtain ⟨before, name, position, unused, after, rfl, hopen⟩ := h
  exact ⟨before, name, position, unused, after ++ rest, by simp, hopen⟩

theorem consumes_of_openedWith {steps : List (Step Store)} (h : OpenedWith steps n options) :
    (fresh.run steps).2.Consumes n options := by
  obtain ⟨before, name, position, unused, rest, rfl, hdone, rfl, hsought⟩ := h
  have hd := Regular.initial.run before
  obtain ⟨sought, hsought', hconsumes⟩ := hd.consumes_of_open hdone
  cases hsought.symm.trans hsought'
  rw [run_append]
  exact (hd.step _).consumes_run hconsumes rest

/-- The tracker of a session came with it. -/
theorem openedWith_of_session (steps : List (Step Store)) {name : String}
    {session : Session Store} (h : (fresh.run steps).2.session? name = some session) :
    ∃ options, OpenedWith steps session.tracker options := by
  induction steps using List.reverseRecOn with
  | nil => cases h
  | append_singleton before s ih =>
      have hrun : (fresh.run (before ++ [s])).2 = ((fresh.run before).2.step s).2 :=
        run_append _ before [s]
      rw [hrun] at h
      rcases session_of_step h with hold | ⟨⟨position, unused, rfl⟩, hdone, harises⟩
      · obtain ⟨options, hopened⟩ := ih hold
        exact ⟨options, hopened.append [s]⟩
      · obtain ⟨options, hsought, -⟩ := (Regular.initial.run before).consumes_of_open hdone
        exact ⟨options, before, name, position, unused, [], rfl, hdone, harises.tracker.symm,
          hsought⟩

end TrackedDelivery.Deployment

namespace TrackedDelivery.Memory

open Store Deployment

/-- As long as there are words for all topics, no two topics have the same ledger, a message of a
log has the ledger and the name of its topic and its own place, the log holds what was published on
the topic, and no two publishes report the same identifier. Whenever a read hands out a record, at
the tracker of a session or at any other, for the first time or again, the record names the one
message that was published under its identifier, on the topic that the tracker's consumer is
attached to. The tracker of a session goes by the name of the subscription that its source asked for
when it was opened, and its consumer is attached to this subscription. -/
theorem record_of_publication {steps : List (Step Store)}
    (hsize : (Deployment.fresh.run steps).2.broker.topics.size ≤ UInt64.size) :
    let b := (Deployment.fresh.run steps).2.broker
    let published := Deployment.fresh.publications steps
    (∀ t u ledger, b.ledger? t = some ledger → b.ledger? u = some ledger → t = u) ∧
    (∀ (t : String) (i : ℕ) (m : Message EntryId), (b.log t)[i]? = some m →
      b.ledger? t = some m.id.ledger ∧ m.id.entry.toNat = i ∧ m.topic = t) ∧
    (∀ t, b.log t = published.filter (·.topic = t)) ∧
    (published.map (·.id)).Nodup ∧
    (∀ before s rest r, steps = before ++ s :: rest →
      let d := (Deployment.fresh.run before).2
      (d.step s).1 = .outcome (.read (.record r)) →
      ∃ n t options m, d.asked? s = some (n, .read) ∧ d.trackers[n]? = some t ∧
        d.broker.attached? t.consumer = some options ∧
        (∀ opened, OpenedWith before n opened →
          options = opened ∧ t.subscription = opened.subscription) ∧
        Names r t.subscription m ∧ m.topic = options.topic ∧
        m ∈ Deployment.fresh.publications before ∧ ∀ m' ∈ published, m'.id = m.id → m' = m) ∧
    ∀ name session, (Deployment.fresh.run steps).2.session? name = some session →
      ∃ options, OpenedWith steps session.tracker options := by
  intro b published
  have hregular := Regular.initial.run steps
  have hnodup := nodup_publications hsize
  refine ⟨fun t u ledger => (numbered_run steps).ledger_inj hsize, fun t i m hm => ?_,
    log_fresh_run steps, hnodup, ?_, fun name session => openedWith_of_session steps⟩
  · have htopic := hregular.sound.topicOrNew t
    have hledger := ledger?_of_mem_log (List.mem_of_getElem? hm)
    obtain ⟨hid, hname⟩ := htopic.message i m hm
    exact ⟨by rw [hledger, hid], htopic.toNat_entry hm, hname⟩
  · rintro before s rest r rfl d hrecord
    obtain ⟨n, t, m, hasked, ht, hyields⟩ := (acts { d with log := [] } s).yields hrecord
    have hsound := (Regular.initial.run before).sound
    obtain ⟨b', hreceived⟩ := hyields.received
    obtain ⟨options, _, hfirst⟩ := handsOutFirst_of_tryReceive hsound hreceived
    have hattached := hfirst.handsOut.attached
    have hm : m ∈ d.broker.log options.topic := List.mem_of_getElem? hfirst.place
    have hpublished : m ∈ Deployment.fresh.publications before := by
      rw [log_fresh_run] at hm
      exact (List.mem_filter.mp hm).1
    refine ⟨n, t, options, m, hasked, ht, hattached, fun opened hopened => ?_, hyields.names,
      ?_, hpublished, fun m' hm' hid => ?_⟩
    · obtain ⟨u, a, hu, ha, rfl, hname⟩ := consumes_of_openedWith hopened
      cases ht.symm.trans hu
      rw [attached?_eq_some.mp hattached] at ha
      cases ha
      exact ⟨rfl, hname⟩
    · exact ((hsound.topicOrNew options.topic).message _ m hfirst.place).2
    · refine List.inj_on_of_nodup_map hnodup hm' ?_ hid
      rw [publications_append]
      exact List.mem_append_left _ hpublished

/-- A topic comes into being by a subscribe and another one by a publish. A message of the first is
read and not acknowledged, and the source is opened again. -/
def reopenedRun : List (Step Store) :=
  [.create "a" (some sampleConfig), .openSource "a" none "",
    .stimulate (Stimulus.publish "u" [7] [2] none 0),
    .stimulate (Stimulus.publish "t" [7] [1] none 0),
    .ask (.source "a") .read false, .openSource "a" none ""]

set_option maxRecDepth 10000 in
/-- What the source reads now is the message that it read before. -/
theorem record_of_reopenedRun :
    let d := (Deployment.fresh.run reopenedRun).2
    let steps := reopenedRun ++ [.ask (.source "a") .read false]
    (Deployment.fresh.run steps).2.broker.topics.size ≤ UInt64.size ∧
    ∃ r, (d.step (.ask (.source "a") .read false)).1 = .outcome (.read (.record r)) ∧
      Names r "s" { id := ⟨0, 0⟩, topic := "t", publishTime := 0, key := [7], payload := [1] } := by
  intro d steps
  have hsize : (Deployment.fresh.run steps).2.broker.topics.size ≤ UInt64.size := by
    decide +kernel
  have hread : (position? (d.step (.ask (.source "a") .read false)).1).isSome := by
    decide +kernel
  have hasked : d.asked? (.ask (.source "a") .read false) = some (1, .read) := by
    decide +kernel
  have htracker : (d.trackers[1]?).map (fun t =>
      (t.subscription, (d.broker.attached? t.consumer).map (·.topic))) =
        some ("s", some "t") := by
    decide +kernel
  have hpublished : Deployment.fresh.publications reopenedRun =
      [{ id := ⟨1, 0⟩, topic := "u", publishTime := 0, key := [7], payload := [2] },
        { id := ⟨0, 0⟩, topic := "t", publishTime := 0, key := [7], payload := [1] }] := by
    decide +kernel
  refine ⟨hsize, ?_⟩
  generalize hanswer : (d.step (.ask (.source "a") .read false)).1 = answer at hread
  obtain ⟨r, rfl⟩ : ∃ r, answer = .outcome (.read (.record r)) := by
    unfold position? at hread
    split at hread
    · exact ⟨_, rfl⟩
    · cases hread
  obtain ⟨-, -, -, -, hrecords, -⟩ := record_of_publication hsize
  obtain ⟨n, t, options, m, hn, ht, hattached, -, hnames, htopic, hm, -⟩ :=
    hrecords reopenedRun _ [] r rfl hanswer
  cases hasked.symm.trans hn
  simp only [show d.trackers[1]? = some t from ht, Option.map_some, Option.some.injEq,
    Prod.mk.injEq, show d.broker.attached? t.consumer = some options from hattached] at htracker
  refine ⟨r, rfl, ?_⟩
  rw [hpublished] at hm
  rw [htracker.1] at hnames
  rcases List.mem_cons.mp hm with rfl | hm
  · exact absurd (htopic.trans htracker.2) (by decide)
  · cases List.mem_singleton.mp hm
    exact hnames

end TrackedDelivery.Memory
