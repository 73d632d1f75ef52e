import TrackedDelivery.Broker
/-!
# A broker that follows a script

Every call takes the next answer of its kind, or succeeds if none is left. An answer may stand
behind a gate, and the call then waits until the gate has been opened. The answer is taken when
the call is made and is not put back if the call is given up. Opening a gate wakes nobody: who
waits behind it has to look again. All calls are recorded.
-/
namespace TrackedDelivery.Scripted

/-- A message is identified by a text. -/
structure TextId where
  text : String
  deriving DecidableEq, Repr

instance : MessageId TextId where
  text := TextId.text
  toBytes id := Bytes.ofText id.text
  ofBytes bytes :=
    match Bytes.toText? bytes with
    | some text => .ok ⟨text⟩
    | none => .error "not utf-8"

inductive CallKind
  | connect
  | subscribe
  | receive
  | acknowledge
  | closeConsumer
  | closeClient
  deriving DecidableEq, Repr

structure ScriptAnswer where
  gate : Option String := none
  error : Option String := none
  message : Option (Message TextId) := none
  deriving DecidableEq

/-- A call as it was made. -/
inductive RecordedCall
  | connect (options : ClientOptions)
  | subscribe (options : SubscribeOptions)
  | receive
  | acknowledge (id : String)
  | closeConsumer
  | closeClient
  deriving DecidableEq

structure Script where
  connect : List ScriptAnswer := []
  subscribe : List ScriptAnswer := []
  receive : List ScriptAnswer := []
  acknowledge : List ScriptAnswer := []
  closeConsumer : List ScriptAnswer := []
  closeClient : List ScriptAnswer := []
  openGates : List String := []
  calls : List RecordedCall := []
  deriving DecidableEq

/-- A call behind a gate, with the result that it will have. -/
structure Gated (α : Type) where
  gate : String
  result : Except String α

namespace Script

def record (b : Script) (call : RecordedCall) : Script := { b with calls := b.calls ++ [call] }

/-- The next answer of a list, or the one that succeeds. -/
def next (answers : List ScriptAnswer) : ScriptAnswer × List ScriptAnswer :=
  (answers.head?.getD {}, answers.tail)

/-- A call behind a gate ends when the gate is open. -/
def pass {α : Type} (b : Script) (gated : Gated α) : Reply (Gated α) (Except String α) :=
  if b.openGates.contains gated.gate then .done gated.result else .waiting gated

def enter {α : Type} (b : Script) (gate : Option String) (result : Except String α) :
    Reply (Gated α) (Except String α) :=
  match gate with
  | none => .done result
  | some gate => b.pass { gate, result }

/-- The result of a call that returns nothing of interest. -/
def plainResult (answer : ScriptAnswer) : Except String Unit :=
  match answer.error with
  | some error => .error error
  | none => .ok ()

def messageResult (answer : ScriptAnswer) : Except String (Message TextId) :=
  match answer.error, answer.message with
  | some error, _ => .error error
  | none, some message => .ok message
  | none, none => .error "script exhausted"

def push (b : Script) (kind : CallKind) (answer : ScriptAnswer) : Script :=
  match kind with
  | .connect => { b with connect := b.connect ++ [answer] }
  | .subscribe => { b with subscribe := b.subscribe ++ [answer] }
  | .receive => { b with receive := b.receive ++ [answer] }
  | .acknowledge => { b with acknowledge := b.acknowledge ++ [answer] }
  | .closeConsumer => { b with closeConsumer := b.closeConsumer ++ [answer] }
  | .closeClient => { b with closeClient := b.closeClient ++ [answer] }

end Script

inductive Stimulus
  | openGate (gate : String)
  | push (kind : CallKind) (answer : ScriptAnswer)
  deriving DecidableEq

open Script in
instance : Broker Script where
  Id := TextId
  Client := Unit
  Consumer := Unit
  Failure := String
  Stimulus := Stimulus
  Stall := Gated Unit
  ReceiveWait := Gated (Message TextId)
  AcknowledgeWait := Gated Unit
  describe := id
  connect options b :=
    let (answer, connect) := next b.connect
    (b.enter answer.gate (plainResult answer), { b with connect }.record (.connect options))
  subscribe _ options b :=
    let (answer, subscribe) := next b.subscribe
    (b.enter answer.gate (plainResult answer), { b with subscribe }.record (.subscribe options))
  receive _ b :=
    let (answer, receive) := next b.receive
    (b.enter answer.gate (messageResult answer), { b with receive }.record .receive)
  resumeReceive _ wait b := (b.pass wait, b)
  acknowledge _ id b :=
    let (answer, acknowledge) := next b.acknowledge
    (b.enter answer.gate (plainResult answer), { b with acknowledge }.record (.acknowledge id.text))
  resumeAcknowledge wait b := (b.pass wait, b)
  hasWoken _ _ := false
  closeConsumer _ b :=
    let (answer, closeConsumer) := next b.closeConsumer
    (b.enter answer.gate (plainResult answer), { b with closeConsumer }.record .closeConsumer)
  closeClient _ b :=
    let (answer, closeClient) := next b.closeClient
    ((b.enter answer.gate (.ok ())).map fun _ => (), { b with closeClient }.record .closeClient)
  dropConsumer _ b := b
  stimulate stimulus b :=
    match stimulus with
    | .openGate gate => (none, { b with openGates := gate :: b.openGates })
    | .push kind answer => (none, b.push kind answer)

end TrackedDelivery.Scripted
