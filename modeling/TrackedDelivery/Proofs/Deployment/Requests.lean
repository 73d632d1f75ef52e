import TrackedDelivery.Proofs.Deployment.History
import TrackedDelivery.Proofs.TextMap
/-!
# Requests as moves

A request to a tracker, as soon as it is answered, has made the moves whose deeds its answer
tells. An acknowledgment at the in-memory broker never waits, so only a read can be left open.
-/
namespace TrackedDelivery

/-! ## Reports of failures -/

section Reports

variable {ε : Type}

theorem le_of_mem_failuresFrom {results : List (Except (AckError ε) Unit)} {index : ℕ}
    {p : ℕ × AckError ε} (h : p ∈ failuresFrom index results) : index ≤ p.1 := by
  induction results generalizing index with
  | nil => cases h
  | cons r rest ih =>
      match r with
      | .ok () => exact Nat.le_of_succ_le (ih h)
      | .error e =>
          rcases List.mem_cons.mp h with rfl | h
          · exact Nat.le_refl _
          · exact Nat.le_of_succ_le (ih h)

/-- The failures of one request tell the result of every acknowledgment in it. -/
theorem map_resultAt_failuresFrom (results : List (Except (AckError ε) Unit)) (index : ℕ) :
    (List.range' index results.length).map (Memory.resultAt (failuresFrom index results))
      = results := by
  induction results generalizing index with
  | nil => rfl
  | cons r rest ih =>
      have hnone : (failuresFrom (index + 1) rest).lookup index = none := by
        refine List.lookup_eq_none_iff.mpr fun p hp => ?_
        have := le_of_mem_failuresFrom hp
        simp only [bne_iff_ne, ne_eq]
        omega
      rw [List.length_cons, List.range'_succ, List.map_cons]
      match r with
      | .ok () =>
          rw [failuresFrom, Memory.resultAt, hnone, ih]
      | .error e =>
          rw [failuresFrom, Memory.resultAt, List.lookup_cons_self]
          refine congrArg _ (Eq.trans (List.map_congr_left fun i hi => ?_) (ih (index + 1)))
          have hne : (i == index) = false := by
            have := (List.mem_range'_1.mp hi).1
            simp only [beq_eq_false_iff_ne, ne_eq]
            omega
          rw [Memory.resultAt, List.lookup_cons, hne, Memory.resultAt]

theorem eq_replicate_of_failuresFrom {results : List (Except (AckError ε) Unit)} {index : ℕ}
    (h : failuresFrom index results = []) : results = List.replicate results.length (.ok ()) := by
  induction results generalizing index with
  | nil => rfl
  | cons r rest ih =>
      match r with
      | .ok () =>
          rw [List.length_cons, List.replicate_succ, ← ih h]
      | .error e => cases h

end Reports

/-! ## Positions -/

section Positions

open Memory

variable {t : Tracker Store} {position : Bytes}

/-- What a tracker makes of a position: the message that it names, or the failure that the
acknowledgment ends with. -/
def Tracker.meaning (t : Tracker Store) (position : Bytes) :
    Except (AckError Memory.Failure) EntryId :=
  match Position.decode position with
  | .error cause => .error (.malformedPosition cause)
  | .ok p =>
      if p.subscription = t.subscription then
        (p.readMessageId EntryId).mapError .malformedPosition
      else .error (.notFound (p.messageId.getD ""))

/-- A position alone is no reason for the broker to refuse anything. -/
theorem Tracker.meaning_ne_rejected (t : Tracker Store) (position : Bytes) (key : String)
    (cause : Memory.Failure) : t.meaning position ≠ .error (.rejected key cause) := by
  unfold meaning
  cases Position.decode position with
  | error cause => simp
  | ok p =>
      dsimp only
      split
      · cases p.readMessageId EntryId <;> simp [Except.mapError]
      · simp

/-- A message is named by its identifier together with the tracker's subscription. -/
theorem Tracker.meaning_eq_ok {id : EntryId} : t.meaning position = .ok id ↔
    ∃ p, Position.decode position = .ok p ∧ p.subscription = t.subscription ∧
      p.readMessageId EntryId = .ok id := by
  unfold meaning
  cases Position.decode position with
  | error cause => simp
  | ok p =>
      dsimp only
      split
      · rename_i hown
        cases hid : p.readMessageId EntryId <;> simp [Except.mapError, hown, hid]
      · rename_i hother
        simp [hother]

theorem Tracker.meaning_encode (t : Tracker Store) (id : EntryId) :
    t.meaning (Position.forMessage t.subscription id).encode = .ok id :=
  meaning_eq_ok.mpr ⟨_, Position.decode_encode _, rfl, Position.readMessageId_forMessage ..⟩

theorem Tracker.messageAt?_of_meaning {id : EntryId} (h : t.meaning position = .ok id) :
    messageAt? position = some id := by
  obtain ⟨p, hp, -, hid⟩ := meaning_eq_ok.mp h
  rw [messageAt?, hp]
  dsimp only
  rw [hid]
  rfl

end Positions

namespace Memory

theorem resultsOf_collectFailures (results : List (Except (AckError Failure) Unit))
    (outcome : Outcome) :
    resultsOf results.length ((collectFailures results).map fun _ => outcome) = results := by
  unfold collectFailures
  split
  · rename_i h
    exact (eq_replicate_of_failuresFrom h).symm
  · simp only [Except.map, resultsOf]
    rw [List.range_eq_range']
    exact map_resultAt_failuresFrom results 0

/-! ## A tracker at work -/

/-- A delivery goes on at a place of a floor. -/
structure Floor.At (f : Floor) (n : ℕ) (d : Delivery Store) : Prop where
  broker : f.broker = d.broker
  tracker : f.trackers[n]? = some d.tracker

/-- The floor when a delivery has gone on. -/
def Floor.after (f : Floor) (n : ℕ) (d : Delivery Store) : Floor :=
  { broker := d.broker, trackers := f.trackers.set n d.tracker }

/-- Every pending message stands under the text of its identifier. -/
def Keyed (t : Tracker Store) : Prop :=
  ∀ key m, t.pending.find? key = some m → key = m.id.text

section

variable {f : Floor} {n : ℕ} {d d' d'' : Delivery Store}

theorem Floor.At.after (h : f.At n d) (d' : Delivery Store) : (f.after n d').At n d' where
  broker := rfl
  tracker := by
    rw [Floor.after, List.getElem?_set_self (List.getElem?_eq_some_iff.mp h.tracker).1]

@[simp] theorem Floor.after_after : (f.after n d').after n d'' = f.after n d'' := by
  simp [Floor.after]

theorem Floor.At.after_self (h : f.At n d) : f.after n d = f := by
  obtain ⟨broker, trackers⟩ := f
  obtain ⟨hlt, hget⟩ := List.getElem?_eq_some_iff.mp h.tracker
  have hset : trackers.set n d.tracker = trackers := by
    rw [← hget]
    exact List.set_getElem_self hlt
  rw [Floor.after, hset, ← h.broker]

/-- Hardly anything moves while the tracker, the topics and the consumers stay as they are. -/
theorem Floor.At.quiet (h : f.At n d) (ht : d'.tracker = d.tracker)
    (htopics : d'.broker.topics = d.broker.topics)
    (hconsumers : d'.broker.consumers = d.broker.consumers) : Moves f [] (f.after n d') := by
  have hself := h.after_self
  rw [Floor.after, Floor.mk.injEq] at hself
  have hafter : f.after n d' = { f with broker := d'.broker } := by
    rw [Floor.after, ht, hself.2]
  rw [hafter]
  exact .single (.quiet (h.broker ▸ htopics) (h.broker ▸ hconsumers))

theorem keyed_erase {t : Tracker Store} (h : Keyed t) (key : String) :
    Keyed { t with pending := t.pending.erase key } := by
  intro k m hm
  rw [TextMap.find?_erase] at hm
  split at hm
  · cases hm
  · exact h k m hm

theorem keyed_insertIfAbsent {t : Tracker Store} (h : Keyed t) (m : Message EntryId) :
    Keyed { t with pending := (t.pending.insertIfAbsent m.id.text m).2 } := by
  intro k m' hm
  unfold PendingSet.insertIfAbsent at hm
  split at hm
  · exact h k m' hm
  · rw [TextMap.find?_insert] at hm
    split at hm
    · cases hm
      assumption
    · exact h k m' hm

/-! ## Reading -/

/-- How a receive ends: it hands out a message, or it leaves topics and consumers alone. -/
def Ends (b : Store) (consumer : ℕ) (reply : Reply ℕ (Except Failure (Message EntryId)))
    (b' : Store) : Prop :=
  (∃ m, b.tryReceive consumer = (some (.ok m), b') ∧ reply = .done (.ok m)) ∨
    ((∀ m, reply ≠ .done (.ok m)) ∧ b'.topics = b.topics ∧ b'.consumers = b.consumers)

theorem ends_receive (b : Store) (consumer : ℕ) :
    Ends b consumer (b.receive consumer).1 (b.receive consumer).2 := by
  unfold Ends Store.receive
  rcases hr : b.tryReceive consumer with ⟨result, b'⟩
  have hquiet : (∀ m, (b.tryReceive consumer).1 ≠ some (.ok m)) →
      (b.tryReceive consumer).2.topics = b.topics ∧
        (b.tryReceive consumer).2.consumers = b.consumers := Store.tryReceive_quiet
  rw [hr] at hquiet
  match result with
  | some (.ok m) => exact .inl ⟨m, rfl, rfl⟩
  | some (.error e) =>
      refine .inr ⟨fun m => ?_, hquiet fun m => ?_⟩
      · simp
      · simp
  | none =>
      refine .inr ⟨fun m => ?_, hquiet fun m => ?_⟩
      · simp
      · simp

theorem ends_resumeReceive (b : Store) (consumer since : ℕ) :
    Ends b consumer (b.resumeReceive consumer since).1 (b.resumeReceive consumer since).2 := by
  unfold Store.resumeReceive
  split
  · exact ends_receive b consumer
  · refine .inr ⟨fun m => ?_, rfl, rfl⟩
    simp

theorem pull_eq (w : Delivery Store) (cancelled : Bool) : w.pull cancelled =
    Delivery.settleRead cancelled
      { w.report (.reading w.tracker.subscription) with
        broker := (w.broker.receive w.tracker.consumer).2 }
      (w.broker.receive w.tracker.consumer).1 := rfl

theorem resumePull_eq (w : Delivery Store) (cancelled : Bool) (since : ℕ) :
    w.resumePull cancelled since =
      Delivery.settleRead cancelled
        { w with broker := (w.broker.resumeReceive w.tracker.consumer since).2 }
        (w.broker.resumeReceive w.tracker.consumer since).1 := rfl

theorem start_read_eq (w : Delivery Store) (cancelled : Bool) : Call.start cancelled w .read =
    (Call.ofRead (w.pull cancelled).1, (w.pull cancelled).2) := rfl

theorem poll_read_eq (w : Delivery Store) (cancelled : Bool) (since : ℕ) :
    Call.poll cancelled w (.read since) =
      (Call.ofRead (w.resumePull cancelled since).1, (w.resumePull cancelled since).2) := rfl

/-- The answer to a read that hands out no record tells no deed. -/
theorem requestDeeds_read {t : Tracker Store} {answer : Answer Store}
    (h : ∀ r, answer ≠ .outcome (.read (.record r))) : requestDeeds n t .read answer = [] := by
  unfold requestDeeds
  split
  · exact absurd rfl (h _)
  · rfl
  · rfl
  · rfl

/-- A read whose receive hands out nothing leaves tracker and broker as they are. -/
theorem settleRead_quiet (cancelled : Bool) (d : Delivery Store)
    {reply : Reply ℕ (Except Failure (Message EntryId))} (h : ∀ m, reply ≠ .done (.ok m)) :
    ((Delivery.settleRead cancelled d reply).2.tracker = d.tracker ∧
      (Delivery.settleRead cancelled d reply).2.broker = d.broker) ∧
    ∀ r, Answer.ofCall (Call.ofRead (Delivery.settleRead cancelled d reply).1) ≠
      .outcome (.read (.record r)) := by
  match reply with
  | .done (.ok m) => exact absurd rfl (h m)
  | .done (.error e) =>
      refine ⟨⟨rfl, rfl⟩, fun r => ?_⟩
      simp [Delivery.settleRead, Call.ofRead, Answer.ofCall]
  | .waiting w =>
      simp only [Delivery.settleRead]
      split
      · refine ⟨⟨rfl, rfl⟩, fun r => ?_⟩
        simp [Call.ofRead, Answer.ofCall]
      · refine ⟨⟨rfl, rfl⟩, fun r => ?_⟩
        simp [Call.ofRead, Answer.ofCall]

/-- A read ends as its receive does. -/
theorem Floor.At.moves_settleRead (h : f.At n d) (cancelled : Bool)
    {reply : Reply ℕ (Except Failure (Message EntryId))} {b : Store}
    (hr : Ends d.broker d.tracker.consumer reply b)
    (ht : d'.tracker = d.tracker) (hb : d'.broker = b) :
    Moves f
      (requestDeeds n d.tracker .read
        (.ofCall (Call.ofRead (Delivery.settleRead cancelled d' reply).1)))
      (f.after n (Delivery.settleRead cancelled d' reply).2) := by
  rcases hr with ⟨m, hm, rfl⟩ | ⟨hnot, htopics, hconsumers⟩
  · have hmove := Move.pull h.tracker (h.broker ▸ hm)
    have hdeeds : requestDeeds n d.tracker .read
        (.ofCall (Call.ofRead (Delivery.settleRead cancelled d' (.done (.ok m))).1)) =
          [.received ⟨d.tracker.consumer, some n, m.id⟩] := by
      simp only [Delivery.settleRead, Delivery.handOut, Call.ofRead, Answer.ofCall, requestDeeds,
        Record.ofMessage]
      rw [messageAt?_encode]
      rfl
    have hafter : f.after n (Delivery.settleRead cancelled d' (.done (.ok m))).2 =
        { broker := b
          trackers := f.trackers.set n { d.tracker with
            pending := (d.tracker.pending.insertIfAbsent m.id.text m).2 } } := by
      simp only [Delivery.settleRead, Delivery.handOut, Delivery.report, Floor.after, ht, hb]
      split <;> rfl
    rw [hdeeds, hafter]
    exact .single hmove
  · obtain ⟨hsame, hanswer⟩ := settleRead_quiet cancelled d' hnot
    rw [requestDeeds_read hanswer]
    refine h.quiet ?_ ?_ ?_
    · rw [hsame.1, ht]
    · rw [hsame.2, hb, htopics]
    · rw [hsame.2, hb, hconsumers]

/-! ## Acknowledging -/

theorem confirm_eq (d : Delivery Store) (key : String) (m : Message EntryId) :
    d.confirm key m =
      (AckCall.ofReply key (.done (d.broker.acknowledge d.tracker.consumer m.id).1),
        { d with broker := (d.broker.acknowledge d.tracker.consumer m.id).2 }) := rfl

theorem confirm_of_ok {key : String} {m : Message EntryId} {b : Store}
    (h : d.broker.acknowledge d.tracker.consumer m.id = (.ok (), b)) :
    d.confirm key m = (.settled (.ok ()), { d with broker := b }) := by
  rw [confirm_eq, h]
  rfl

theorem confirm_of_error {key : String} {m : Message EntryId} {b : Store} {cause : Failure}
    (h : d.broker.acknowledge d.tracker.consumer m.id = (.error cause, b)) :
    d.confirm key m = (.settled (.error (.rejected key cause)), { d with broker := b }) := by
  rw [confirm_eq, h]
  rfl

/-- A delivery that has taken a message out of its tracker and not yet asked the broker. -/
def takeOut (d : Delivery Store) (id : EntryId) : Delivery Store where
  tracker := { d.tracker with pending := d.tracker.pending.erase id.text }
  broker := d.broker
  log := d.log ++ [.acknowledging id.text]

theorem acknowledgeId_eq (d : Delivery Store) (id : EntryId) : d.acknowledgeId id =
    match d.tracker.pending.find? id.text with
    | none => (.settled (.error (.notFound id.text)), d.report (.acknowledging id.text))
    | some m => (takeOut d id).confirm id.text m := by
  have htext : d.tracker.pending.find? id.text = d.tracker.pending.find? (MessageId.text id) := rfl
  rw [htext]
  unfold Delivery.acknowledgeId PendingSet.remove
  dsimp only [Delivery.report]
  cases d.tracker.pending.find? (MessageId.text id) <;> rfl

theorem acknowledge_eq (w : Delivery Store) (position : Bytes) : w.acknowledge position =
    match w.tracker.meaning position with
    | .error e => (.settled (.error e), w)
    | .ok id => w.acknowledgeId id := by
  unfold Delivery.acknowledge Tracker.meaning
  cases Position.decode position with
  | error cause => rfl
  | ok p =>
      dsimp only
      by_cases hown : p.subscription = w.tracker.subscription
      · rw [if_pos hown, if_neg (not_not.mpr hown)]
        cases p.readMessageId EntryId <;> rfl
      · rw [if_neg hown, if_pos hown]

/-- The acknowledgment of a pending message at the broker is one move. -/
theorem moves_confirm {t : Tracker Store} {key : String} {m : Message EntryId}
    (ht : f.trackers[n]? = some t) (hm : t.pending.find? key = some m)
    (hb : f.broker = d.broker) (hc : d.tracker.consumer = t.consumer) :
    ∃ result, (d.confirm key m).1 = .settled result ∧ (d.confirm key m).2.tracker = d.tracker ∧
      Moves f (Deed.ofResult n (some m.id) result).toList
        { broker := (d.confirm key m).2.broker
          trackers := f.trackers.set n { t with pending := t.pending.erase key } } := by
  rcases ha : d.broker.acknowledge d.tracker.consumer m.id with ⟨result, b⟩
  match result with
  | .ok () =>
      rw [confirm_of_ok ha]
      rw [← hb, hc] at ha
      exact ⟨.ok (), rfl, rfl, .single (.confirm ht hm ha)⟩
  | .error e =>
      rw [confirm_of_error ha]
      rw [← hb, hc] at ha
      exact ⟨.error (.rejected key e), rfl, rfl, .single (.refuse ht hm ha)⟩

theorem Floor.At.moves_acknowledgeId (h : f.At n d) (hk : Keyed d.tracker) (id : EntryId) :
    ∃ result, (d.acknowledgeId id).1 = .settled result ∧ Keyed (d.acknowledgeId id).2.tracker ∧
      Moves f (Deed.ofResult n (some id) result).toList (f.after n (d.acknowledgeId id).2) := by
  rw [acknowledgeId_eq]
  cases hm : d.tracker.pending.find? id.text with
  | none => exact ⟨_, rfl, hk, h.quiet rfl rfl rfl⟩
  | some m =>
      have hid : m.id = id := (EntryId.text_inj.mp (hk _ m hm)).symm
      obtain ⟨result, hresult, htracker, hmoves⟩ :=
        moves_confirm (d := takeOut d id) h.tracker hm h.broker rfl
      refine ⟨result, hresult, ?_, ?_⟩
      · rw [htracker]
        exact keyed_erase hk _
      · rw [Floor.after, htracker, ← hid]
        rw [← hid] at hmoves
        exact hmoves

theorem Floor.At.moves_acknowledge (h : f.At n d) (hk : Keyed d.tracker) (position : Bytes) :
    ∃ result, (d.acknowledge position).1 = .settled result ∧
      Keyed (d.acknowledge position).2.tracker ∧
      Moves f (Deed.ofResult n (messageAt? position) result).toList
        (f.after n (d.acknowledge position).2) := by
  rw [acknowledge_eq]
  cases hmeaning : d.tracker.meaning position with
  | error e =>
      refine ⟨.error e, rfl, hk, ?_⟩
      have hnone : Deed.ofResult n (messageAt? position) (.error e) = none := by
        match e, messageAt? position with
        | .rejected key cause, _ =>
            exact absurd hmeaning (d.tracker.meaning_ne_rejected position key cause)
        | .malformedPosition _, some _ | .malformedPosition _, none => rfl
        | .notFound _, some _ | .notFound _, none => rfl
      rw [hnone]
      exact h.quiet rfl rfl rfl
  | ok id =>
      rw [Tracker.messageAt?_of_meaning hmeaning]
      exact h.moves_acknowledgeId hk id

theorem ofResults_cons (n : ℕ) (id : Option EntryId) (ids : List (Option EntryId))
    (result : Except (AckError Failure) Unit) (results : List (Except (AckError Failure) Unit)) :
    Deed.ofResults n (id :: ids) (result :: results) =
      (Deed.ofResult n id result).toList ++ Deed.ofResults n ids results := by
  unfold Deed.ofResults
  rw [List.zip_cons_cons, List.filterMap_cons]
  dsimp only
  cases Deed.ofResult n id result <;> rfl

theorem Floor.At.moves_acknowledgeBatch (h : f.At n d) (hk : Keyed d.tracker)
    (positions : List Bytes) :
    ∃ results, (d.acknowledgeBatch positions).1 = results.map .settled ∧
      results.length = positions.length ∧
      Moves f (Deed.ofResults n (positions.map messageAt?) results)
        (f.after n (d.acknowledgeBatch positions).2) := by
  induction positions generalizing f d with
  | nil =>
      refine ⟨[], rfl, rfl, ?_⟩
      exact h.quiet rfl rfl rfl
  | cons position rest ih =>
      obtain ⟨result, hresult, hkeyed, hmoves⟩ := h.moves_acknowledge hk position
      obtain ⟨results, hresults, hlen, hrest⟩ := ih (h.after (d.acknowledge position).2) hkeyed
      refine ⟨result :: results, ?_, ?_, ?_⟩
      · rw [List.map_cons, ← hresult, ← hresults]
        rfl
      · rw [List.length_cons, List.length_cons, hlen]
      · rw [List.map_cons, ofResults_cons]
        rw [Floor.after_after] at hrest
        exact hmoves.trans hrest

/-- The pending messages of a tracker are acknowledged one by one, in the order of their keys.
The delivery has emptied its tracker before; the moves take them out one at a time. -/
theorem moves_confirmEach (entries : List (String × Message EntryId)) {t : Tracker Store}
    (ht : f.trackers[n]? = some t) (he : t.pending.entries = entries)
    (hb : f.broker = d.broker) (hc : d.tracker.consumer = t.consumer) :
    ∃ results,
      (Delivery.each (fun d e => d.confirm e.1 e.2) d entries).1 = results.map .settled ∧
      results.length = entries.length ∧
      (Delivery.each (fun d e => d.confirm e.1 e.2) d entries).2.tracker = d.tracker ∧
      Moves f (Deed.ofResults n (entries.map fun e => some e.2.id) results)
        { broker := (Delivery.each (fun d e => d.confirm e.1 e.2) d entries).2.broker
          trackers := f.trackers.set n { t with pending := ∅ } } := by
  induction entries generalizing f d t with
  | nil =>
      refine ⟨[], rfl, rfl, rfl, ?_⟩
      have hempty : t.pending = ∅ := TextMap.ext he
      have hat : f.At n { tracker := t, broker := d.broker } := ⟨hb, ht⟩
      have hset : Moves f [] (f.after n
          { tracker := { t with pending := ∅ }, broker := d.broker }) :=
        hat.quiet (by rw [← hempty]) rfl rfl
      exact hset
  | cons e rest ih =>
      obtain ⟨key, m⟩ := e
      have hm : t.pending.find? key = some m := by
        rw [TextMap.find?_eq_some_iff, he]
        exact List.mem_cons_self ..
      obtain ⟨result, hresult, htracker, hmoves⟩ := moves_confirm ht hm hb hc
      have hlt := (List.getElem?_eq_some_iff.mp ht).1
      obtain ⟨results, hresults, hlen, htracker', hrest⟩ := ih
        (f := { broker := (d.confirm key m).2.broker
                trackers := f.trackers.set n { t with pending := t.pending.erase key } })
        (d := (d.confirm key m).2) (List.getElem?_set_self hlt)
        (TextMap.entries_erase_head he) rfl (by rw [htracker, hc])
      refine ⟨result :: results, ?_, ?_, ?_, ?_⟩
      · rw [List.map_cons, ← hresult, ← hresults]
        rfl
      · rw [List.length_cons, List.length_cons, hlen]
      · exact htracker'.trans htracker
      · rw [List.map_cons, ofResults_cons]
        rw [List.set_set] at hrest
        exact hmoves.trans hrest

/-- A delivery that has emptied its tracker and not yet asked the broker. -/
def takeAll (d : Delivery Store) : Delivery Store where
  tracker := { d.tracker with pending := ∅ }
  broker := d.broker
  log := d.log ++ [.acknowledgingAll d.tracker.pending.entries.length]

theorem Floor.At.moves_acknowledgeAll (h : f.At n d) :
    ∃ results, d.acknowledgeAll.1 = results.map .settled ∧
      results.length = (targets d.tracker .acknowledgeAll).length ∧
      Moves f (Deed.ofResults n (targets d.tracker .acknowledgeAll) results)
        (f.after n d.acknowledgeAll.2) := by
  obtain ⟨results, hresults, hlen, htracker, hmoves⟩ := moves_confirmEach (d := takeAll d)
    d.tracker.pending.entries h.tracker rfl h.broker rfl
  have htargets : targets d.tracker .acknowledgeAll =
      d.tracker.pending.entries.map fun e => some e.2.id := by
    rw [targets, TextMap.values, List.map_map]
    rfl
  refine ⟨results, hresults, ?_, ?_⟩
  · rw [hlen, htargets, List.length_map]
  · have hafter : f.after n d.acknowledgeAll.2 =
        { broker := d.acknowledgeAll.2.broker
          trackers := f.trackers.set n (takeAll d).tracker } := by
      rw [Floor.after]
      exact congrArg (fun t => Floor.mk _ (f.trackers.set n t)) htracker
    rw [htargets, hafter]
    exact hmoves

/-! ## Answers -/

theorem settledResults_map_settled (results : List (Except (AckError Failure) Unit)) :
    settledResults (results.map (AckCall.settled (β := Store))) = some results := by
  induction results with
  | nil => rfl
  | cons r rest ih => rw [List.map_cons, settledResults, ih, Option.map_some]

/-- The answer to a request for several acknowledgments tells what became of each. -/
theorem requestDeeds_collectFailures {t : Tracker Store} {request : Request}
    {results : List (Except (AckError Failure) Unit)} {outcome : Outcome}
    (hlen : results.length = (targets t request).length) (ho : ∀ r, outcome ≠ .read r) :
    requestDeeds n t request
        (.ofCall (.done ((collectFailures results).map fun _ => outcome))) =
      Deed.ofResults n (targets t request) results := by
  have hresults := resultsOf_collectFailures results outcome
  rw [hlen] at hresults
  cases hc : (collectFailures results).map fun _ => outcome with
  | error e =>
      rw [hc] at hresults
      rw [Answer.ofCall, requestDeeds, hresults]
  | ok o =>
      have ho' : o = outcome := by
        cases hf : collectFailures results <;> simp_all [Except.map]
      rw [hc] at hresults
      rw [Answer.ofCall, requestDeeds, hresults]
      intro r hr
      exact ho (.record r) (by rw [← ho', hr])

theorem requestDeeds_acknowledge {t : Tracker Store} {position : Bytes}
    (result : Except (AckError Failure) Unit) :
    requestDeeds n t (.acknowledge position) (.ofCall (Call.ofAck (.settled result))) =
      (Deed.ofResult n (messageAt? position) result).toList := by
  have hone := ofResults_cons n (messageAt? position) [] result []
  rw [show Deed.ofResults n [] [] = [] from rfl, List.append_nil] at hone
  match result with
  | .ok () => exact hone
  | .error e => exact hone

/-- No acknowledgment waits. -/
theorem settled_of_ack (call : AckCall Store) : ∃ result, call = .settled result := by
  cases call with
  | settled result => exact ⟨result, rfl⟩
  | waiting messageId wait => exact nomatch wait

theorem settledResults_eq_some (calls : List (AckCall Store)) :
    ∃ results, settledResults calls = some results := by
  induction calls with
  | nil => exact ⟨[], rfl⟩
  | cons call rest ih =>
      obtain ⟨result, rfl⟩ := settled_of_ack call
      obtain ⟨results, hresults⟩ := ih
      exact ⟨result :: results, by rw [settledResults, hresults, Option.map_some]⟩

/-- What it is for a request to be answered at once, and with no record. -/
structure Concludes (reply : Reply (Call Store) (Call.Result Store)) : Prop where
  ne_waiting : ∀ call, reply ≠ .waiting call
  ne_record : ∀ r, Answer.ofCall reply ≠ .outcome (.read (.record r))

theorem concludes_error (e : SourceError Failure) : Concludes (.done (.error e)) :=
  ⟨nofun, nofun⟩

theorem concludes_ofAck (call : AckCall Store) : Concludes (Call.ofAck call) := by
  obtain ⟨result, rfl⟩ := settled_of_ack call
  cases result with
  | ok => exact ⟨nofun, nofun⟩
  | error e => exact concludes_error (.acknowledge e)

/-- Several acknowledgments conclude with one outcome or with all their failures. -/
theorem concludes_collectFailures (results : List (Except (AckError Failure) Unit))
    {outcome : Outcome} (h : ∀ r, outcome ≠ .read r) :
    Concludes (.done ((collectFailures results).map fun _ => outcome)) := by
  cases collectFailures results with
  | error e => exact concludes_error e
  | ok =>
      refine ⟨nofun, fun r hr => ?_⟩
      cases hr
      exact h (.record r) rfl

theorem concludes_ofBatch (calls : List (AckCall Store)) : Concludes (Call.ofBatch calls) := by
  obtain ⟨results, hresults⟩ := settledResults_eq_some calls
  rw [Call.ofBatch, hresults]
  exact concludes_collectFailures results nofun

theorem concludes_ofAll (calls : List (AckCall Store)) : Concludes (Call.ofAll calls) := by
  obtain ⟨results, hresults⟩ := settledResults_eq_some calls
  rw [Call.ofAll, hresults]
  exact concludes_collectFailures results nofun

/-- All requests but a read conclude. -/
theorem concludes_start {request : Request} (h : request ≠ .read) (w : Delivery Store)
    (cancelled : Bool) : Concludes (Call.start cancelled w request).1 := by
  cases request with
  | read => exact absurd rfl h
  | acknowledge position => exact concludes_ofAck _
  | acknowledgeBatch positions => exact concludes_ofBatch _
  | acknowledgeAll => exact concludes_ofAll _

/-- Whatever is asked of a tracker moves as the answer tells. -/
theorem Floor.At.moves_start (h : f.At n d) (hk : Keyed d.tracker) (cancelled : Bool)
    (request : Request) :
    Moves f (requestDeeds n d.tracker request (.ofCall (Call.start cancelled d request).1))
      (f.after n (Call.start cancelled d request).2) := by
  match request with
  | .read =>
      exact h.moves_settleRead cancelled (ends_receive d.broker d.tracker.consumer) rfl rfl
  | .acknowledge position =>
      obtain ⟨result, hresult, -, hmoves⟩ := h.moves_acknowledge hk position
      have hstart : Call.start cancelled d (.acknowledge position) =
          (Call.ofAck (d.acknowledge position).1, (d.acknowledge position).2) := rfl
      rw [hstart, hresult, requestDeeds_acknowledge]
      exact hmoves
  | .acknowledgeBatch positions =>
      obtain ⟨results, hresults, hlen, hmoves⟩ := h.moves_acknowledgeBatch hk positions
      have hstart : Call.start cancelled d (.acknowledgeBatch positions) =
          (Call.ofBatch (d.acknowledgeBatch positions).1, (d.acknowledgeBatch positions).2) := rfl
      have hcall : Call.ofBatch (d.acknowledgeBatch positions).1 =
          .done ((collectFailures results).map fun _ => .acknowledged) := by
        rw [hresults, Call.ofBatch, settledResults_map_settled]
      rw [hstart, hcall, requestDeeds_collectFailures]
      · exact hmoves
      · rw [hlen, targets, List.length_map]
      · intro r hr
        cases hr
  | .acknowledgeAll =>
      obtain ⟨results, hresults, hlen, hmoves⟩ := h.moves_acknowledgeAll
      have hstart : Call.start cancelled d .acknowledgeAll =
          (Call.ofAll d.acknowledgeAll.1, d.acknowledgeAll.2) := rfl
      have hcall : Call.ofAll d.acknowledgeAll.1 =
          .done ((collectFailures results).map fun _ =>
            .acknowledgedAll d.acknowledgeAll.1.length) := by
        rw [hresults, Call.ofAll, settledResults_map_settled]
      rw [hstart, hcall, requestDeeds_collectFailures hlen]
      · exact hmoves
      · intro r hr
        cases hr

/-- What each of several acts on a delivery keeps, all of them keep. -/
theorem each_preserves {α : Type} {act : Delivery Store → α → AckCall Store × Delivery Store}
    {P : Delivery Store → Prop} (hact : ∀ w a, P w → P (act w a).2) {w : Delivery Store} (h : P w)
    (l : List α) : P (Delivery.each act w l).2 := by
  induction l generalizing w with
  | nil => exact h
  | cons a rest ih => exact ih (hact w a h)

theorem pollAck_unchanged (d : Delivery Store) (call : AckCall Store) : (d.pollAck call).2 = d := by
  match call with
  | .settled _ => rfl
  | .waiting _ wait => exact nomatch wait

theorem pollGroup_unchanged (d : Delivery Store) (calls : List (AckCall Store)) :
    (d.pollGroup calls).2 = d := by
  refine each_preserves (P := fun w => w = d) (fun w call hw => ?_) rfl calls
  split
  · rw [pollAck_unchanged, hw]
  · exact hw

/-- What waits is a read, or an acknowledgment that concludes when it is looked at and changes
nothing. -/
theorem read_or_concludes (call : Call Store) : (∃ since : ℕ, call = .read since) ∨
    ∀ (w : Delivery Store) (cancelled : Bool), Concludes (Call.poll cancelled w call).1 ∧
      (Call.poll cancelled w call).2 = w := by
  cases call with
  | read since => exact .inl ⟨since, rfl⟩
  | acknowledge ack => exact .inr fun w _ => ⟨concludes_ofAck _, pollAck_unchanged w ack⟩
  | acknowledgeBatch calls =>
      exact .inr fun w _ => ⟨concludes_ofBatch _, pollGroup_unchanged w calls⟩
  | acknowledgeAll calls =>
      exact .inr fun w _ => ⟨concludes_ofAll _, pollGroup_unchanged w calls⟩

/-- A waiting request is a read, and it moves as a read does. -/
theorem Floor.At.moves_poll (h : f.At n d) (cancelled : Bool) (call : Call Store) :
    Moves f (requestDeeds n d.tracker .read (.ofCall (Call.poll cancelled d call).1))
      (f.after n (Call.poll cancelled d call).2) := by
  rcases read_or_concludes call with ⟨since, rfl⟩ | hconcludes
  · exact h.moves_settleRead cancelled (ends_resumeReceive d.broker d.tracker.consumer since)
      rfl rfl
  · obtain ⟨hanswer, hsame⟩ := hconcludes d cancelled
    rw [hsame, requestDeeds_read hanswer.ne_record]
    exact h.quiet rfl rfl rfl

end

/-! ## Records -/

/-- What it is for a tracker to hand out a record: the broker has a message for the consumer of the
tracker, and the record is made of it. -/
structure Yields (b : Store) (t : Tracker Store) (m : Message EntryId) (r : Record) : Prop where
  received : ∃ b', b.tryReceive t.consumer = (some (.ok m), b')
  record : r = Record.ofMessage m (Position.forMessage t.subscription m.id).encode

section

variable {w : Delivery Store} {cancelled : Bool} {r : Record}

theorem yields_of_settleRead {b b' : Store} {t : Tracker Store}
    {reply : Reply ℕ (Except Failure (Message EntryId))} (hends : Ends b t.consumer reply b')
    (hname : w.tracker.subscription = t.subscription)
    (h : Answer.ofCall (Call.ofRead (Delivery.settleRead cancelled w reply).1) =
      .outcome (.read (.record r))) : ∃ m, Yields b t m r := by
  match reply with
  | .done (.ok m) =>
      simp only [Delivery.settleRead, Delivery.handOut, Call.ofRead, Answer.ofCall,
        Answer.outcome.injEq, Outcome.read.injEq, Read.record.injEq, hname] at h
      rcases hends with ⟨m', hreceived, hreply⟩ | ⟨hnone, -⟩
      · cases hreply
        exact ⟨m, ⟨b', hreceived⟩, h.symm⟩
      · exact absurd rfl (hnone m)
  | .done (.error e) => cases h
  | .waiting wait =>
      simp only [Delivery.settleRead] at h
      split at h <;> cases h

/-- A request that is answered with a record is a read. -/
theorem yields_of_start {request : Request}
    (h : Answer.ofCall (Call.start cancelled w request).1 = .outcome (.read (.record r))) :
    request = .read ∧ ∃ m, Yields w.broker w.tracker m r := by
  by_cases hread : request = .read
  · subst hread
    rw [start_read_eq, pull_eq] at h
    refine ⟨rfl, yields_of_settleRead (ends_receive _ _) ?_ h⟩
    rfl
  · exact absurd h ((concludes_start hread w cancelled).ne_record r)

theorem yields_of_poll {call : Call Store}
    (h : Answer.ofCall (Call.poll cancelled w call).1 = .outcome (.read (.record r))) :
    ∃ m, Yields w.broker w.tracker m r := by
  rcases read_or_concludes call with ⟨since, rfl⟩ | hconcludes
  · rw [poll_read_eq, resumePull_eq] at h
    refine yields_of_settleRead (ends_resumeReceive _ _ _) ?_ h
    rfl
  · exact absurd h ((hconcludes w cancelled).1.ne_record r)

end

end Memory
end TrackedDelivery
