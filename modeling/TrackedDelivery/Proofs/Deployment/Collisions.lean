import TrackedDelivery.Proofs.Deployment.Guarantees
import TrackedDelivery.Proofs.Deployment.Turn
/-!
# Identifiers that share an entry

A subscription keeps the entries of its unacknowledged messages without the ledger, and whoever
has a handle to a consumer may acknowledge any identifier. An identifier of another topic settles
the message that has the same entry in this one. Trackers never ask for that, since what is pending
in a tracker was received from its own topic.
-/
namespace TrackedDelivery.Memory

namespace Store

/-! ## Entries as identifiers -/

/-- The messages that are to be received again from a subscription, in their order. -/
def queued (b : Store) (topic name : String) : List EntryId :=
  (b.subscriptionOrNew topic name).redeliver.map (b.idAt topic)

variable {b b' : Store} {consumer : ℕ} {options : SubscribeOptions} {id : EntryId}
  {topic name : String}

/-- Every unacknowledged entry fits the word that numbers it. -/
theorem Sound.lt_of_unacked (h : b.Sound) {entry : ℕ}
    (hentry : entry ∈ (b.subscriptionOrNew topic name).unacked) : entry < UInt64.size := by
  have hsub := h.subscription topic name
  have hlt := hsub.unacked_below entry hentry
  have hcursor := hsub.cursor_le
  have hlength := (h.topicOrNew topic).length_le
  have hcapacity : logCapacity = UInt64.size := rfl
  omega

/-- To leave out an entry is to leave out every identifier with it. -/
theorem map_idAt_filter (b : Store) (topic : String) (id : EntryId) {entries : List ℕ}
    (h : ∀ e ∈ entries, e < UInt64.size) :
    (entries.filter (· ≠ id.entry.toNat)).map (b.idAt topic) =
      (entries.map (b.idAt topic)).filter (·.entry ≠ id.entry) := by
  rw [List.filter_map]
  refine congrArg (List.map (b.idAt topic)) (List.filter_congr fun e he => ?_)
  have hword : (UInt64.ofNat e).toNat = e := UInt64.toNat_ofNat_of_lt' (h e he)
  have hsame : e = id.entry.toNat ↔ UInt64.ofNat e = id.entry := by
    rw [← UInt64.toNat_inj, hword]
  exact decide_eq_decide.mpr (not_congr hsame)

/-- A subscription that is replaced leaves all ledgers as they are. -/
theorem idAt_put {s : Subscription} (h : b.subscription? topic name = some s) (s' : Subscription)
    (t : String) : (b.put topic name s').idAt t = b.idAt t := by
  obtain ⟨old, hold, -⟩ := subscription?_eq_some.mp h
  have hledger : ((b.put topic name s').topicOrNew t).ledger = (b.topicOrNew t).ledger := by
    simp only [put, setTopic, topicOrNew, TextMap.find?_insert, TextMap.size_insert hold]
    split
    · rename_i ht
      rw [ht, hold]
      rfl
    · rfl
  funext entry
  rw [idAt, idAt, hledger]

/-! ## The effect of one acknowledgment -/

theorem Settles.idAt (h : b.Settles consumer id b' options) (hb : b.Sound) (topic : String) :
    b'.idAt topic = b.idAt topic := by
  rw [h.after]
  exact idAt_put (hb.subscription?_of_attached h.attached) _ topic

theorem Settles.unacknowledged (h : b.Settles consumer id b' options) (hb : b.Sound) :
    b'.unacknowledged options.topic options.subscription =
      (b.unacknowledged options.topic options.subscription).filter (·.entry ≠ id.entry) := by
  rw [unacknowledged_eq, unacknowledged_eq, h.idAt hb, h.subscription, if_pos ⟨rfl, rfl⟩]
  exact b.map_idAt_filter _ id fun e he => hb.lt_of_unacked he

theorem Settles.queued (h : b.Settles consumer id b' options) (hb : b.Sound) :
    b'.queued options.topic options.subscription =
      (b.queued options.topic options.subscription).filter (·.entry ≠ id.entry) := by
  rw [Store.queued, Store.queued, h.idAt hb, h.subscription, if_pos ⟨rfl, rfl⟩]
  exact b.map_idAt_filter _ id fun e he =>
    hb.lt_of_unacked ((hb.subscription _ _).redeliver_subset e he)

theorem Settles.elsewhere (h : b.Settles consumer id b' options) (hb : b.Sound)
    (hother : ¬ (topic = options.topic ∧ name = options.subscription)) :
    b'.unacknowledged topic name = b.unacknowledged topic name ∧
      b'.queued topic name = b.queued topic name := by
  rw [unacknowledged_eq, unacknowledged_eq, Store.queued, Store.queued, h.idAt hb, h.subscription,
    if_neg hother]
  exact ⟨rfl, rfl⟩

/-- The identifiers of the unacknowledged messages of a topic differ in their entries. -/
theorem ledger_of_unacknowledged (h : id ∈ b.unacknowledged topic name) :
    b.ledger? topic = some id.ledger := by
  unfold Store.unacknowledged at h
  split at h
  · rename_i t s ht hs
    obtain ⟨e, -, rfl⟩ := List.mem_map.mp h
    rw [ledger?, ht, Option.map_some]
  · cases h

/-- All unacknowledged messages but that of the identifier are still unacknowledged, and still
queued if they were. -/
def KeepsOthers (b b' : Store) (topic name : String) (id : EntryId) : Prop :=
  ∀ other ∈ b.unacknowledged topic name, other ≠ id →
    other ∈ b'.unacknowledged topic name ∧
      (other ∈ b.queued topic name → other ∈ b'.queued topic name)

theorem keepsOthers_of_topics (h : b'.topics = b.topics) (topic name : String) (id : EntryId) :
    b.KeepsOthers b' topic name id := by
  have hunacknowledged : b'.unacknowledged topic name = b.unacknowledged topic name := by
    simp only [unacknowledged, subscription?, h]
  have hqueued : b'.queued topic name = b.queued topic name := by
    unfold queued idAt topicOrNew
    rw [subscriptionOrNew_congr h, h]
  intro other hother _
  rw [hunacknowledged, hqueued]
  exact ⟨hother, fun hq => hq⟩

theorem Settles.keepsOthers_iff (h : b.Settles consumer id b' options) (hb : b.Sound) :
    b.KeepsOthers b' options.topic options.subscription id ↔
      b.ledger? options.topic = some id.ledger ∨
        ∀ other ∈ b.unacknowledged options.topic options.subscription, other.entry ≠ id.entry := by
  constructor
  · intro hkeeps
    by_cases hledger : b.ledger? options.topic = some id.ledger
    · exact .inl hledger
    · refine .inr fun other hother hentry => ?_
      have hne : other ≠ id := by
        rintro rfl
        exact hledger (ledger_of_unacknowledged hother)
      have hstill := (hkeeps other hother hne).1
      rw [h.unacknowledged hb] at hstill
      exact of_decide_eq_true (List.mem_filter.mp hstill).2 hentry
  · intro hapart other hother hne
    have hentry : other.entry ≠ id.entry := by
      rcases hapart with hledger | hapart
      · have hsame := Option.some.inj ((ledger_of_unacknowledged hother).symm.trans hledger)
        intro he
        obtain ⟨ledger, entry⟩ := other
        obtain rfl : ledger = id.ledger := hsame
        obtain rfl : entry = id.entry := he
        exact hne rfl
      · exact hapart other hother
    rw [h.unacknowledged hb, h.queued hb]
    exact ⟨List.mem_filter.mpr ⟨hother, decide_eq_true hentry⟩,
      fun hq => List.mem_filter.mpr ⟨hq, decide_eq_true hentry⟩⟩

end Store

/-- In every state of a run, let a consumer be attached and acknowledge an identifier. If a failure
is arranged for, no topic changes. Otherwise the identifier is noted as acknowledged, and of the
messages of this one subscription those go that have its entry, whatever their ledger is. So all
other unacknowledged messages are spared exactly if the broker refuses, or the identifier is of the
topic's ledger, or no unacknowledged message has its entry. -/
theorem spared_unless_same_entry (steps : List (Step Store)) {consumer : ℕ}
    {options : SubscribeOptions}
    (ha : (Deployment.fresh.run steps).2.broker.attached? consumer = some options) (id : EntryId) :
    let b := (Deployment.fresh.run steps).2.broker
    let b' := (b.acknowledge consumer id).2
    let topic := options.topic
    let name := options.subscription
    (b.failAcknowledges ≠ [] → b'.topics = b.topics) ∧
    (b.failAcknowledges = [] →
      b'.acknowledged topic name = b.acknowledged topic name ++ [id] ∧
      b'.unacknowledged topic name = (b.unacknowledged topic name).filter (·.entry ≠ id.entry) ∧
      b'.queued topic name = (b.queued topic name).filter (·.entry ≠ id.entry) ∧
      ∀ t n, ¬ (t = topic ∧ n = name) → b'.unacknowledged t n = b.unacknowledged t n ∧
        b'.queued t n = b.queued t n) ∧
    (b.KeepsOthers b' topic name id ↔
      b.failAcknowledges ≠ [] ∨ b.ledger? topic = some id.ledger ∨
        ∀ other ∈ b.unacknowledged topic name, other.entry ≠ id.entry) := by
  intro b b' topic name
  have hb : b.Sound := (Deployment.recorded_run steps).sound
  rcases hr : b.acknowledge consumer id with ⟨result, last⟩
  have hb' : b' = last := congrArg Prod.snd hr
  rw [hb']
  by_cases hwilling : b.failAcknowledges = []
  · have hok : b.acknowledge consumer id =
        (.ok (), b.modifySubscription topic name (·.settle id)) := by
      rw [Store.acknowledge, ha, hwilling]
    cases hr.symm.trans hok
    obtain ⟨options', hsettles⟩ := Store.settles_of_acknowledge hb hok
    obtain rfl : options' = options := Option.some.inj (hsettles.attached.symm.trans ha)
    refine ⟨fun hf => absurd hwilling hf, fun _ => ⟨?_, hsettles.unacknowledged hb,
      hsettles.queued hb, fun t n => hsettles.elsewhere hb⟩, ?_⟩
    · rw [acknowledged_eq, acknowledged_eq, hsettles.subscription, if_pos ⟨rfl, rfl⟩]
      rfl
    · rw [hsettles.keepsOthers_iff hb]
      exact ⟨.inr, fun hor => hor.resolve_left fun hf => hf hwilling⟩
  · obtain ⟨reason, rest, hreasons⟩ := List.exists_cons_of_ne_nil hwilling
    have htopics : last.topics = b.topics := by
      rw [Store.acknowledge, ha, hreasons] at hr
      cases hr
      rfl
    exact ⟨fun _ => htopics, fun hf => absurd hf hwilling,
      fun _ => .inl hwilling, fun _ => Store.keepsOthers_of_topics htopics _ _ _⟩

/-- Two topics have one message each. That of the first topic is received and queued again. -/
def collidingRun : List (Step Store) :=
  [.connect "k" { url := "url" }, .subscribe "k" "c" ⟨"t", "s", .shared⟩,
    .stimulate (Stimulus.publish "t" [] [1] none 0),
    .stimulate (Stimulus.publish "u" [] [2] none 0),
    .receive "c", .closeConsumer "c", .subscribe "k" "d" ⟨"t", "s", .shared⟩]

set_option maxRecDepth 10000 in
/-- Not every acknowledgment spares the messages that it does not name. -/
theorem lost_of_collidingRun :
    let b := (Deployment.fresh.run collidingRun).2.broker
    ¬ ∀ consumer options (id : EntryId), b.attached? consumer = some options →
      b.KeepsOthers (b.acknowledge consumer id).2 options.topic options.subscription id := by
  have ha : (Deployment.fresh.run collidingRun).2.broker.attached? 1 =
      some ⟨"t", "s", .shared⟩ := by decide +kernel
  have hbefore : (Deployment.fresh.run collidingRun).2.broker.unacknowledged "t" "s" =
      [⟨0, 0⟩] := by decide +kernel
  have hafter : ((Deployment.fresh.run collidingRun).2.broker.acknowledge 1
      ⟨1, 0⟩).2.unacknowledged "t" "s" = [] := by decide +kernel
  intro b hkeeps
  have hother : (⟨0, 0⟩ : EntryId) ∈ b.unacknowledged "t" "s" := by
    rw [hbefore]
    exact List.mem_singleton_self _
  have hstill := (hkeeps 1 _ ⟨1, 0⟩ ha ⟨0, 0⟩ hother (by decide)).1
  rw [hafter] at hstill
  cases hstill

set_option maxRecDepth 10000 in
theorem settled_of_collidingRun :
    let b := (Deployment.fresh.run collidingRun).2.broker
    let b' := (b.acknowledge 1 ⟨1, 0⟩).2
    b.queued "t" "s" = [⟨0, 0⟩] ∧ b'.unacknowledged "t" "s" = [] ∧ b'.queued "t" "s" = [] ∧
    b'.acknowledged "t" "s" = [⟨1, 0⟩] := by
  intro b b'
  have ha : b.attached? 1 = some ⟨"t", "s", .shared⟩ := by decide +kernel
  have hwilling : b.failAcknowledges = [] := by decide +kernel
  have hunacknowledged : b.unacknowledged "t" "s" = [⟨0, 0⟩] := by decide +kernel
  have hqueued : b.queued "t" "s" = [⟨0, 0⟩] := by decide +kernel
  have hacknowledged : b.acknowledged "t" "s" = [] := by decide +kernel
  obtain ⟨-, heffect, -⟩ := spared_unless_same_entry collidingRun ha ⟨1, 0⟩
  obtain ⟨hnoted, hleft, hleftQueued, -⟩ := heffect hwilling
  refine ⟨hqueued, ?_, ?_, ?_⟩
  · exact hleft.trans (congrArg (List.filter (·.entry ≠ 0)) hunacknowledged)
  · exact hleftQueued.trans (congrArg (List.filter (·.entry ≠ 0)) hqueued)
  · exact hnoted.trans (congrArg (· ++ [⟨1, 0⟩]) hacknowledged)

end TrackedDelivery.Memory
