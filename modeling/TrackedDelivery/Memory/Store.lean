import TrackedDelivery.Memory.Id
import TrackedDelivery.Broker
import TrackedDelivery.Text.Quoted
/-!
# The store of the in-memory broker

Topics are logs of messages, and a subscription of a topic keeps a cursor into the log. Entries
below the cursor have been received. Those not acknowledged since are `unacked`, and the ones
among them that are to be received again stand in `redeliver`, which is filled at one point only:
when a consumer attaches and no other is attached. A consumer is known by its place in the list
of all consumers, and it is closed for good.

Failures can be arranged for: for every later connect or subscribe, and for the next receive or
acknowledgment. A waiting receive looks again only after a wake-up, so wake-ups are counted.

Every operation is one atomic change of the store. Whether a consumer is closed is looked at in the
same instant in which its message is handed out or settled, so no close can come in between.
-/
namespace TrackedDelivery.Memory

inductive Failure
  | connectionRefused (reason : String)
  | subscribeRejected (reason : String)
  | consumerBusy (subscription : String)
  | receiveFailed (reason : String)
  | acknowledgeRejected (reason : String)
  | closed
  deriving DecidableEq, Repr

def Failure.message : Failure → String
  | connectionRefused reason => s!"connection refused: {reason}"
  | subscribeRejected reason => s!"subscribe rejected: {reason}"
  | consumerBusy subscription =>
      s!"exclusive subscription {Text.quoted subscription} already has an active consumer"
  | receiveFailed reason => s!"receive failed: {reason}"
  | acknowledgeRejected reason => s!"acknowledgment rejected: {reason}"
  | closed => "consumer is closed"

structure Subscription where
  cursor : Nat := 0
  /-- Ascending. -/
  unacked : List Nat := []
  redeliver : List Nat := []
  /-- In the order of the acknowledgments. -/
  acked : List EntryId := []
  activeConsumers : Nat := 0
  deriving DecidableEq, Repr

structure Topic where
  ledger : UInt64
  log : List (Message EntryId) := []
  subscriptions : TextMap Subscription := ∅
  deriving DecidableEq

/-- A consumer that was attached by a subscribe, and whether it has been closed or dropped. -/
structure Attachment where
  options : SubscribeOptions
  closed : Bool := false
  deriving DecidableEq, Repr

structure Store where
  topics : TextMap Topic := ∅
  /-- For every client ever connected, whether it has been closed. -/
  clients : List Bool := []
  consumers : List Attachment := []
  connects : Nat := 0
  subscribes : Nat := 0
  closedClients : Nat := 0
  lastClientOptions : Option ClientOptions := none
  failConnect : Option String := none
  failSubscribe : Option String := none
  failReceives : List String := []
  failAcknowledges : List String := []
  wakeUps : Nat := 0
  deriving DecidableEq

namespace Subscription

/-- Adds an entry to an ascending list. -/
def insertEntry (entry : Nat) : List Nat → List Nat
  | [] => [entry]
  | e :: rest =>
      if entry < e then entry :: e :: rest
      else if entry = e then e :: rest
      else e :: insertEntry entry rest

@[simp] theorem mem_insertEntry {e entry : Nat} {entries : List Nat} :
    e ∈ insertEntry entry entries ↔ e = entry ∨ e ∈ entries := by
  induction entries with
  | nil => simp [insertEntry]
  | cons k rest ih =>
    rw [insertEntry]
    split
    · simp
    · split
      · rename_i h; subst h; simp
      · simp [ih, or_left_comm]

theorem ascending_insertEntry {entry : Nat} {entries : List Nat}
    (h : entries.Pairwise (· < ·)) : (insertEntry entry entries).Pairwise (· < ·) := by
  induction entries with
  | nil => simp [insertEntry]
  | cons k rest ih =>
    obtain ⟨hk, hrest⟩ := List.pairwise_cons.mp h
    rw [insertEntry]
    split
    · rename_i hlt
      refine .cons (fun e he => ?_) h
      rcases List.mem_cons.mp he with rfl | he
      · exact hlt
      · exact Nat.lt_trans hlt (hk e he)
    · split
      · exact h
      · refine .cons (fun e he => ?_) (ih hrest)
        rcases mem_insertEntry.mp he with rfl | he
        · omega
        · exact hk e he

/-- The next entry to receive from a log of the given length. -/
def next? (s : Subscription) (length : Nat) : Option (Nat × Subscription) :=
  match s.redeliver with
  | entry :: redeliver =>
      some (entry, { s with redeliver, unacked := insertEntry entry s.unacked })
  | [] =>
      if s.cursor < length then
        some (s.cursor,
          { s with cursor := s.cursor + 1, unacked := insertEntry s.cursor s.unacked })
      else none

/-- Settles the entry that an identifier names; its ledger is not looked at. -/
def settle (s : Subscription) (id : EntryId) : Subscription :=
  { s with
    unacked := s.unacked.filter (· ≠ id.entry.toNat)
    redeliver := s.redeliver.filter (· ≠ id.entry.toNat)
    acked := s.acked ++ [id] }

/-- The first consumer to attach gets everything that is not acknowledged once more. -/
def attach (s : Subscription) : Subscription :=
  { s with
    redeliver := if s.activeConsumers = 0 then s.unacked else s.redeliver
    activeConsumers := s.activeConsumers + 1 }

def detach (s : Subscription) : Subscription :=
  { s with activeConsumers := s.activeConsumers - 1 }

end Subscription

namespace Store

def topicOrNew (b : Store) (name : String) : Topic :=
  (b.topics.find? name).getD { ledger := UInt64.ofNat b.topics.size }

def subscription? (b : Store) (topic name : String) : Option Subscription :=
  (b.topics.find? topic).bind (·.subscriptions.find? name)

def setTopic (b : Store) (name : String) (topic : Topic) : Store :=
  { b with topics := b.topics.insert name topic }

/-- Replaces a subscription, if it exists. -/
def modifySubscription (b : Store) (topic name : String) (f : Subscription → Subscription) :
    Store :=
  match b.topics.find? topic with
  | none => b
  | some t =>
      match t.subscriptions.find? name with
      | none => b
      | some s =>
          b.setTopic topic { t with subscriptions := t.subscriptions.insert name (f s) }

theorem subscription?_setTopic (b : Store) (topic other name : String) (t : Topic) :
    (b.setTopic topic t).subscription? other name
      = if other = topic then t.subscriptions.find? name else b.subscription? other name := by
  simp only [subscription?, setTopic, TextMap.find?_insert]
  split <;> simp

/-- Only the subscription that is meant changes. -/
theorem subscription?_modifySubscription (b : Store) (topic name t n : String)
    (f : Subscription → Subscription) :
    (b.modifySubscription topic name f).subscription? t n
      = if t = topic ∧ n = name then (b.subscription? t n).map f else b.subscription? t n := by
  unfold modifySubscription
  split
  · rename_i h
    split
    · rename_i hw; obtain ⟨rfl, rfl⟩ := hw; simp [subscription?, h]
    · rfl
  · rename_i old h
    split
    · rename_i hn
      split
      · rename_i hw; obtain ⟨rfl, rfl⟩ := hw; simp [subscription?, h, hn]
      · rfl
    · rename_i s hn
      rw [subscription?_setTopic, TextMap.find?_insert]
      by_cases ht : t = topic
      · subst ht
        by_cases hm : n = name
        · subst hm; simp [subscription?, h, hn]
        · simp [subscription?, h, hm]
      · simp [ht]

def wake (b : Store) : Store := { b with wakeUps := b.wakeUps + 1 }

/-- Entries are numbered by words of 64 bits. -/
def logCapacity : Nat := UInt64.size

/-- Appends a message to a topic, which is created if need be, and wakes all receives. That a log
of `logCapacity` messages takes no more is an assumption and not a check that a broker makes: the
numbers of the entries would start over, and no log in memory gets that long. -/
def publish (b : Store) (topic : String) (key payload : Bytes) (eventTime : Option Time)
    (now : Time) : Option EntryId × Store :=
  let t := b.topicOrNew topic
  if t.log.length < logCapacity then
    let id : EntryId := ⟨t.ledger, UInt64.ofNat t.log.length⟩
    let message : Message EntryId := { id, topic, eventTime, publishTime := now, key, payload }
    (some id, (b.setTopic topic { t with log := t.log ++ [message] }).wake)
  else (none, b)

def connect (b : Store) (options : ClientOptions) : Except Failure Nat × Store :=
  let b := { b with connects := b.connects + 1, lastClientOptions := some options }
  match b.failConnect with
  | some reason => (.error (.connectionRefused reason), b)
  | none => (.ok b.clients.length, { b with clients := b.clients ++ [false] })

/-- Attaches a consumer. The topic and the subscription are created even if an exclusive consumer
is then turned away. -/
def subscribe (b : Store) (client : Nat) (options : SubscribeOptions) :
    Except Failure Nat × Store :=
  let b := { b with subscribes := b.subscribes + 1 }
  match b.failSubscribe with
  | some reason => (.error (.subscribeRejected reason), b)
  | none =>
      if b.clients.getD client true then (.error .closed, b)
      else
        let t := b.topicOrNew options.topic
        let s := (t.subscriptions.find? options.subscription).getD {}
        let put (s : Subscription) : Store :=
          b.setTopic options.topic
            { t with subscriptions := t.subscriptions.insert options.subscription s }
        if options.type = .exclusive && 0 < s.activeConsumers then
          (.error (.consumerBusy options.subscription), put s)
        else
          (.ok b.consumers.length, { put s.attach with consumers := b.consumers ++ [{ options }] })

def closeClient (b : Store) (client : Nat) : Store :=
  if b.clients.getD client true then b
  else { b with clients := b.clients.set client true, closedClients := b.closedClients + 1 }

/-- What a consumer was attached with, while it is neither closed nor dropped. -/
def attached? (b : Store) (consumer : Nat) : Option SubscribeOptions :=
  match b.consumers[consumer]? with
  | some ⟨options, false⟩ => some options
  | _ => none

/-- What a consumer receives at once, if anything. The look at whether the consumer is closed and
the hand-out are one atomic step. -/
def tryReceive (b : Store) (consumer : Nat) :
    Option (Except Failure (Message EntryId)) × Store :=
  match b.attached? consumer with
  | none => (some (.error .closed), b)
  | some options =>
      match b.failReceives with
      | reason :: failReceives =>
          (some (.error (.receiveFailed reason)), { b with failReceives })
      | [] =>
          match b.topics.find? options.topic with
          | none => (none, b)
          | some t =>
              match t.subscriptions.find? options.subscription with
              | none => (none, b)
              | some s =>
                  match s.next? t.log.length with
                  | none => (none, b)
                  | some (entry, s) =>
                      match t.log[entry]? with
                      | none => (none, b)
                      | some message =>
                          (some (.ok message), b.setTopic options.topic
                            { t with
                              subscriptions := t.subscriptions.insert options.subscription s })

/-- A receive that finds nothing waits for the next wake-up. -/
def receive (b : Store) (consumer : Nat) :
    Reply Nat (Except Failure (Message EntryId)) × Store :=
  match b.tryReceive consumer with
  | (some result, b) => (.done result, b)
  | (none, b) => (.waiting b.wakeUps, b)

/-- Looks again at a receive that waits since a wake-up. -/
def resumeReceive (b : Store) (consumer : Nat) (since : Nat) :
    Reply Nat (Except Failure (Message EntryId)) × Store :=
  if since < b.wakeUps then b.receive consumer else (.waiting since, b)

/-- Settles an entry for the subscription of a consumer. The look at whether the consumer is closed
and the settlement are one atomic step. -/
def acknowledge (b : Store) (consumer : Nat) (id : EntryId) : Except Failure Unit × Store :=
  match b.attached? consumer with
  | none => (.error .closed, b)
  | some options =>
      match b.failAcknowledges with
      | reason :: failAcknowledges =>
          (.error (.acknowledgeRejected reason), { b with failAcknowledges })
      | [] => (.ok (), b.modifySubscription options.topic options.subscription (·.settle id))

/-- Detaches a consumer, once. -/
def release (b : Store) (consumer : Nat) : Store :=
  match b.attached? consumer with
  | none => b
  | some options =>
      { b.modifySubscription options.topic options.subscription Subscription.detach with
        consumers := b.consumers.set consumer { options, closed := true } }

/-- An explicit close wakes all receives, and a drop does not. -/
def closeConsumer (b : Store) (consumer : Nat) : Store := (b.release consumer).wake

def failNextReceive (b : Store) (reason : String) : Store :=
  { b with failReceives := b.failReceives ++ [reason] }.wake

def failNextAcknowledge (b : Store) (reason : String) : Store :=
  { b with failAcknowledges := b.failAcknowledges ++ [reason] }

/-! ## What can be asked of the store -/

def topicLength (b : Store) (topic : String) : Nat :=
  ((b.topics.find? topic).map (·.log.length)).getD 0

/-- The names of the subscriptions of a topic, in ascending order. -/
def subscriptionNames (b : Store) (topic : String) : List String :=
  ((b.topics.find? topic).map (·.subscriptions.keys)).getD []

def acknowledged (b : Store) (topic subscription : String) : List EntryId :=
  ((b.subscription? topic subscription).map (·.acked)).getD []

def unacknowledged (b : Store) (topic subscription : String) : List EntryId :=
  match b.topics.find? topic, b.subscription? topic subscription with
  | some t, some s => s.unacked.map fun entry => ⟨t.ledger, UInt64.ofNat entry⟩
  | _, _ => []

end Store
end TrackedDelivery.Memory
