import TrackedDelivery.Proofs.Deployment.Turn
import TrackedDelivery.Proofs.Memory.Waking
import Mathlib.Data.List.Sort
/-!
# Resuming a subscription

Whoever attaches to a subscription that nobody is attached to, and receives again and again, is
handed every unacknowledged entry in ascending order and then the rest of the log, whatever was
left in the queue by those who were attached before. After that there is nothing left to hand out.
-/
namespace TrackedDelivery.Memory

variable {b b' : Store} {options : SubscribeOptions}

/-- A subscription to which nobody is attached counts no consumer. -/
theorem Store.Sound.activeConsumers_eq_zero (hb : b.Sound) {topic name : String}
    (h : ∀ c, ¬ b.Serves topic name c) :
    (b.subscriptionOrNew topic name).activeConsumers = 0 := by
  rw [hb.counted]
  apply Nat.eq_zero_of_not_pos
  intro hpos
  obtain ⟨c, o, ha, ht, hn⟩ := Store.exists_attached hpos
  exact h c ⟨o, ha, ht, hn⟩

/-- The first consumer to attach has everything unacknowledged before it, and the rest of the
log. -/
theorem Store.Attaches.remaining (h : b.Attaches options b')
    (hzero : (b.subscriptionOrNew options.topic options.subscription).activeConsumers = 0) :
    b'.remaining options.topic options.subscription =
      (b.subscriptionOrNew options.topic options.subscription).unacked ++
        List.range' (b.subscriptionOrNew options.topic options.subscription).cursor
          ((b.log options.topic).length -
            (b.subscriptionOrNew options.topic options.subscription).cursor) := by
  have hlog : b'.log options.topic = b.log options.topic := by
    rw [Store.log_congr h.topics, Store.log_put]
  rw [Store.remaining, h.subscription, if_pos ⟨rfl, rfl⟩, hlog]
  exact Subscription.remaining_attach hzero

theorem Store.subscribe_ok {client consumer : ℕ}
    (h : b.subscribe client options = (.ok consumer, b')) :
    b.Attaches options b' ∧ b'.attached? consumer = some options := by
  rcases b.subscribe_cases client options with ⟨e, he, -⟩ | ⟨hconsumer, hattach⟩
  · rw [h] at he
    cases he
  · rw [h] at hconsumer hattach
    cases hconsumer
    refine ⟨hattach, ?_⟩
    rw [hattach.attached?_after, if_pos rfl]

/-- What a subscription is when nothing remains. All that was handed out since the first consumer
attached is unacknowledged. -/
theorem Store.HandsOutAll.subscription {topic name : String} {entries : List ℕ} (hb : b.Sound)
    (h : b.HandsOutAll topic name entries b')
    (hnil : b'.remaining topic name = [])
    (hunacked : (b.subscriptionOrNew topic name).unacked ⊆ entries) :
    b'.subscriptionOrNew topic name =
      { cursor := (b.log topic).length, unacked := entries, redeliver := [],
        acked := (b.subscriptionOrNew topic name).acked,
        activeConsumers := (b.subscriptionOrNew topic name).activeConsumers } := by
  have hsound := h.sound.subscription topic name
  obtain ⟨hqueue, hle⟩ := Subscription.remaining_eq_nil_iff.mp hnil
  have hle' := hsound.cursor_le
  have hcursor : (b'.subscriptionOrNew topic name).cursor = (b.log topic).length := by
    rw [← h.log]
    exact Nat.le_antisymm hle' hle
  have hentries : (b'.subscriptionOrNew topic name).unacked = entries := by
    -- Both lists are ascending, so it is enough that they have the same members.
    apply hsound.unacked_ascending.eq_of_mem_iff
    · have hascending := hb.remaining_ascending topic name
      rw [h.remaining, hnil, List.append_nil] at hascending
      exact hascending
    · intro e
      rw [h.mem_unacked]
      exact ⟨fun he => he.elim id fun he => hunacked he, .inl⟩
  have hcount : (b'.subscriptionOrNew topic name).activeConsumers =
      (b.subscriptionOrNew topic name).activeConsumers := by
    rw [h.sound.counted, hb.counted, Store.attachments_congr h.consumers]
  rw [← hcursor, ← hentries, ← h.acked, ← hcount, ← hqueue]

/-- In whatever state a run has come to, let nobody be attached to a subscription and no failure
of a receive be arranged for. A consumer that attaches and receives again and again is handed the
unacknowledged entries in ascending order, and then the entries of the log from the cursor on. All
of these stand in the log. The next receive waits, the subscription has then reached the end of the
log with nothing queued and all that was handed out unacknowledged, and nothing was acknowledged. -/
theorem resumes_in_order {steps : List (Step Store)} {client consumer : ℕ}
    (hwilling : (Deployment.fresh.run steps).2.broker.failReceives = [])
    (hdeserted : ∀ c, ¬ (Deployment.fresh.run steps).2.broker.Serves options.topic
      options.subscription c)
    (hsubscribe : (Deployment.fresh.run steps).2.broker.subscribe client options =
      (.ok consumer, b)) :
    let s := (Deployment.fresh.run steps).2.broker.subscriptionOrNew options.topic
      options.subscription
    let log := (Deployment.fresh.run steps).2.broker.log options.topic
    let entries := s.unacked ++ List.range' s.cursor (log.length - s.cursor)
    entries.Pairwise (· < ·) ∧ (∀ e ∈ entries, e < log.length) ∧
    ∃ (messages : List (Message EntryId)) (after : Store),
      Store.receives consumer b entries.length = (messages.map (.done <| .ok ·), after) ∧
      messages.map some = entries.map (log[·]?) ∧
      after.receive consumer = (.waiting after.wakeUps, after) ∧
      after.subscription? options.topic options.subscription =
        some { cursor := log.length, unacked := entries, redeliver := [], acked := s.acked,
               activeConsumers := 1 } := by
  intro s log entries
  have hold : (Deployment.fresh.run steps).2.broker.Sound :=
    (Deployment.recorded_run steps).sound
  obtain ⟨hattach, ha⟩ := Store.subscribe_ok hsubscribe
  have hb : b.Sound := hattach.sound_after hold
  have hzero := hold.activeConsumers_eq_zero hdeserted
  have hremaining : b.remaining options.topic options.subscription = entries :=
    hattach.remaining hzero
  have hlog : b.log options.topic = log := by
    rw [Store.log_congr hattach.topics, Store.log_put]
  have hquiet : b.failReceives = [] := by
    have hsilent := Store.silent_subscribe (Deployment.fresh.run steps).2.broker client options
    rw [hsubscribe] at hsilent
    exact hsilent.failReceives.trans hwilling
  have hsub := hattach.subscription options.topic options.subscription
  rw [if_pos ⟨rfl, rfl⟩] at hsub
  obtain ⟨messages, after, hreceives, hmessages, hall⟩ :=
    Store.receives_spec hb ha hquiet entries.length (by rw [hremaining])
  rw [hremaining, List.take_length] at hmessages hall
  rw [hlog] at hmessages
  have hnil : after.remaining options.topic options.subscription = [] := by
    have hsplit := hall.remaining
    rw [hremaining] at hsplit
    exact List.self_eq_append_right.mp hsplit
  have hafter : after.attached? consumer = some options := by
    rw [Store.attached?_congr hall.consumers, ha]
  have hlast := hall.subscription hb hnil (by
    rw [hsub]
    exact List.subset_append_left _ _)
  refine ⟨?_, ?_, messages, after, hreceives, hmessages, ?_, ?_⟩
  · rw [← hremaining]
    exact hb.remaining_ascending _ _
  · intro e he
    rw [← hlog]
    rw [← hremaining] at he
    exact hb.lt_of_mem_remaining he
  · have hidle : after.Idle consumer options := ⟨hafter, hall.willing, hnil⟩
    rw [Store.receive, hidle.tryReceive hall.sound]
  · rw [hall.sound.subscription?_of_attached hafter, hlast, hsub, hlog]
    simp [Subscription.attach, hzero, s]

/-- A consumer receives three of four messages and is dropped. Another one receives the first of
them again, acknowledges the second, which it has not received, and is dropped as well. The third
message is still queued. -/
def partlyReadRun : List (Step Store) :=
  [.connect "k" { url := "url" },
    .stimulate (Stimulus.publish "t" [] [1] none 0),
    .stimulate (Stimulus.publish "t" [] [2] none 0),
    .stimulate (Stimulus.publish "t" [] [3] none 0),
    .stimulate (Stimulus.publish "t" [] [4] none 0),
    .subscribe "k" "c" ⟨"t", "s", .exclusive⟩, .receive "c", .receive "c", .receive "c",
    .drop .consumer "c",
    .subscribe "k" "c" ⟨"t", "s", .exclusive⟩, .receive "c",
    .acknowledge "c" (⟨0, 1⟩ : EntryId), .drop .consumer "c"]

set_option maxRecDepth 10000 in
theorem resumed_of_partlyReadRun :
    ((Deployment.fresh.run partlyReadRun).2.broker.subscriptionOrNew "t" "s").redeliver = [2] ∧
    ∃ (b after : Store) (messages : List (Message EntryId)),
      (Deployment.fresh.run partlyReadRun).2.broker.subscribe 0 ⟨"t", "s", .failover⟩ =
        (.ok 2, b) ∧
      Store.receives 2 b 3 = (messages.map (.done <| .ok ·), after) ∧
      after.subscription? "t" "s" =
        some { cursor := 4, unacked := [0, 2, 3], redeliver := [], acked := [⟨0, 1⟩],
               activeConsumers := 1 } := by
  have hwilling : (Deployment.fresh.run partlyReadRun).2.broker.failReceives = [] := by
    decide +kernel
  have hclosed : ∀ a ∈ (Deployment.fresh.run partlyReadRun).2.broker.consumers, a.closed := by
    decide +kernel
  have hok : ((Deployment.fresh.run partlyReadRun).2.broker.subscribe 0
      ⟨"t", "s", .failover⟩).1 = .ok 2 := by
    decide +kernel
  have hsubscribe : (Deployment.fresh.run partlyReadRun).2.broker.subscribe 0
      ⟨"t", "s", .failover⟩ = (.ok 2, _) :=
    Prod.ext hok rfl
  have hs : (Deployment.fresh.run partlyReadRun).2.broker.subscriptionOrNew "t" "s" =
      { cursor := 3, unacked := [0, 2], redeliver := [2], acked := [⟨0, 1⟩] } := by
    decide +kernel
  have hlength : ((Deployment.fresh.run partlyReadRun).2.broker.log "t").length = 4 := by
    decide +kernel
  have hdeserted : ∀ c, ¬ (Deployment.fresh.run partlyReadRun).2.broker.Serves "t" "s" c := by
    rintro c ⟨options, hc, -⟩
    have hgone := hclosed _ (List.mem_of_getElem? (Store.attached?_eq_some.mp hc))
    cases hgone
  obtain ⟨-, -, messages, after, hreceives, -, -, hafter⟩ :=
    resumes_in_order hwilling hdeserted hsubscribe
  rw [hs, hlength] at hreceives hafter
  exact ⟨by rw [hs], _, after, messages, hsubscribe, hreceives, hafter⟩

end TrackedDelivery.Memory
