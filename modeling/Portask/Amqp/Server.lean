import Portask.Lib.Buffer
import Portask.Kafka.ProcessorBridge
import Mathlib.Data.List.AList
import Mathlib.Tactic.Simps.Basic

/-! # The AMQP server

The server keeps its queues, exchanges and channel states behind one mutex. A handler holds
it for a while, releases it to write to the connection, and may take it again: `Consume` does
so several times. Each handler is given here by what it does under its first lock, and by
what is left to do after that. One goroutine for each connection handles its frames in turn,
so what is left to do may be mixed with the handlers of other connections.

Channel states are found by the channel number alone, whoever uses it. Neither they nor the
queues are ever removed.
-/

namespace Portask.Amqp

open Function Lib Portask.Types Kafka

inductive ConnectionState where
  | start
  | startOkReceived
  | tuneSent
  | tuneOkReceived
  | openReceived
  | connected
  deriving DecidableEq

/-- The constant of the source. -/
def ConnectionState.number : ConnectionState → Nat
  | start => 0
  | startOkReceived => 1
  | tuneSent => 2
  | tuneOkReceived => 3
  | openReceived => 4
  | connected => 5

/-- What a frame that cannot be read was taken for. -/
inductive FrameKind where
  | method
  | header
  | exchangeDeclare
  | queueDeclare
  | basicPublish
  | basicQos
  | basicConsume
  | basicAck
  | basicNack
  deriving DecidableEq

def FrameKind.text : FrameKind → String
  | method => "method"
  | header => "header"
  | exchangeDeclare => "ExchangeDeclare"
  | queueDeclare => "QueueDeclare"
  | basicPublish => "BasicPublish"
  | basicQos => "BasicQos"
  | basicConsume => "BasicConsume"
  | basicAck => "BasicAck"
  | basicNack => "BasicNack"

/-- Where a frame ends too early. -/
inductive FramePart where
  | exchange
  | typeLength
  | type
  | name
  | routingKeyLength
  | routingKey
  | queue
  | consumerTagLength
  | consumerTag
  deriving DecidableEq

def FramePart.text : FramePart → String
  | exchange => "exchange"
  | typeLength => "type length"
  | type => "type"
  | name => "name"
  | routingKeyLength => "routing key length"
  | routingKey => "routing key"
  | queue => "queue"
  | consumerTagLength => "consumer tag length"
  | consumerTag => "consumer tag"

inductive FrameError where
  | invalid (kind : FrameKind) (part : Option FramePart)
  | unknownFrameType (frameType : UInt8)
  | channelOperations (state : ConnectionState)
  | notReady (state : ConnectionState)
  | noTargetQueue
  | queueNotFound (name : GoString)
  | channelNotFound (channelID : UInt16)
  deriving DecidableEq

def FrameError.message : FrameError → GoString
  | invalid kind none => ascii ("invalid " ++ kind.text ++ " frame")
  | invalid kind (some part) => ascii ("invalid " ++ kind.text ++ " frame (" ++ part.text ++ ")")
  | unknownFrameType frameType => ascii "unknown frame type: " ++ GoString.decimal frameType.toNat
  | channelOperations state =>
    ascii "channel operations not allowed (state: " ++ GoString.decimal state.number ++ ascii ")"
  | notReady state =>
    ascii "connection not ready (state: " ++ GoString.decimal state.number ++ ascii ")"
  | noTargetQueue => ascii "no target queue"
  | queueNotFound name => ascii "queue not found: " ++ name
  | channelNotFound channelID =>
    ascii "channel " ++ GoString.decimal channelID.toNat ++ ascii " not found"

/-- The body of an accepted message. The number says which one it is; it stands for the memory
    that the source hands on from place to place. -/
structure Body where
  number : Nat
  bytes : List UInt8
  deriving DecidableEq

structure UnackedMsg where
  deliveryTag : UInt64
  queueName : GoString
  body : Body
  redelivered : Bool
  deriving DecidableEq

structure PendingPublish where
  exchange : GoString
  routingKey : GoString
  bodySize : UInt64 := 0
  body : List UInt8 := []
  deriving DecidableEq

structure Exchange where
  name : GoString
  type : GoString
  deriving DecidableEq

structure Queue where
  name : GoString
  messages : Buffer Body

/-- `C` is the type of connections. A map that is nil is `none`. -/
structure ChannelState (C : Type) where
  pendingPublish : Option PendingPublish := none
  boundQueue : GoString := []
  unackedMessages : Option (AList fun _ : UInt64 => UnackedMsg) := none
  qosPrefetchCount : Nat := 0
  qosPrefetchSize : Nat := 0
  currentlyUnacked : Int := 0
  nextDeliveryTag : UInt64 := 0
  consumerTag : GoString := []
  conn : Option C := none

/-- What the server writes to a connection in one go. -/
inductive Reply where
  | connectionStart
  | connectionTune
  | connectionOpenOk
  | connectionCloseOk
  | channelOpenOk
  | channelCloseOk
  | exchangeDeclareOk
  | queueDeclareOk (name : GoString) (messageCount : UInt32)
  | basicQosOk
  | basicConsumeOk (consumerTag : GoString)
  | basicDeliver (consumerTag : GoString) (deliveryTag : UInt64) (redelivered : Bool)
    (queueName : GoString)
      (body : List UInt8)
  deriving DecidableEq

/-- A call of `handleBasicPublish`. -/
structure Publish where
  channelID : UInt16
  exchange : GoString
  routingKey : GoString
  body : List UInt8
  deriving DecidableEq

/-- The last five fields are not part of the program. They record which messages were accepted
    for which queue, the calls that publish, what was written to whom, which delivery tags
    were assigned on which channel, and which messages were settled. -/
structure Server (C : Type) where
  connectionStates : GoString → Option ConnectionState
  exchanges : GoString → Option Exchange
  queues : GoString → Option Queue
  channelStates : UInt16 → Option (ChannelState C)
  accepted : List (GoString × List UInt8)
  published : List Publish
  written : List (C × UInt16 × Reply)
  assigned : List (UInt16 × UInt64)
  settled : List (GoString × Body)

def newEnhancedAMQPServer (C : Type) : Server C where
  connectionStates _ := none
  exchanges _ := none
  queues _ := none
  channelStates _ := none
  accepted := []
  published := []
  written := []
  assigned := []
  settled := []

/-- What a goroutine still has to do for the frame it is handling. -/
inductive Act (C : Type) where
  | send (conn : C) (channelID : UInt16) (reply : Reply)
  | setState (connID : GoString) (state : ConnectionState)
  | publish (call : Publish)
  | register (conn : C) (channelID : UInt16) (queueName consumerTag : GoString)
  | take (conn : C) (channelID : UInt16) (queueName consumerTag : GoString)
  | deliver (conn : C) (channelID : UInt16) (queueName consumerTag : GoString)
    (messages : List Body)

/-- What happens while the mutex is held once. An error ends the handler. -/
structure Step (C : Type) where
  server : Server C
  todo : List (Act C) := []
  error : Option FrameError := none

variable {C : Type}

namespace ChannelState

variable (c : ChannelState C)

/-- The entry of a delivery tag; reading a nil map finds nothing. -/
def unacked (deliveryTag : UInt64) : Option UnackedMsg :=
  c.unackedMessages.bind (·.lookup deliveryTag)

@[simps] def setPending (pending : Option PendingPublish) : ChannelState C :=
  { c with pendingPublish := pending }

@[simps] def bindQueue (name : GoString) : ChannelState C := { c with boundQueue := name }

@[simps] def setQoS (prefetchCount prefetchSize : Nat) : ChannelState C :=
  { c with qosPrefetchCount := prefetchCount, qosPrefetchSize := prefetchSize }

@[simps] def setConsumer (consumerTag : GoString) (conn : C) : ChannelState C :=
  { c with consumerTag := consumerTag, conn := some conn }

/-- What a consume does to the state of its channel before it delivers. -/
def prepare : ChannelState C :=
  { c with
    unackedMessages := some (c.unackedMessages.getD ∅)
    nextDeliveryTag := if c.nextDeliveryTag = 0 then 1 else c.nextDeliveryTag }

/-- Takes the next delivery tag for a message. Writing into a nil map panics. -/
def track (queueName : GoString) (body : Body) (redelivered : Bool) : Option (ChannelState C) :=
  c.unackedMessages.map fun unacked =>
    { c with
      nextDeliveryTag := c.nextDeliveryTag + 1
      unackedMessages :=
        some (unacked.insert c.nextDeliveryTag ⟨c.nextDeliveryTag, queueName, body, redelivered⟩)
      currentlyUnacked := c.currentlyUnacked + 1 }

def forget (deliveryTag : UInt64) : ChannelState C :=
  { c with
    unackedMessages := c.unackedMessages.map (·.erase deliveryTag)
    currentlyUnacked := c.currentlyUnacked - 1 }

end ChannelState

namespace Server

section

variable (s : Server C)

/-- A connection without an entry reads as one that has just started. -/
def stateOf (connID : GoString) : ConnectionState := (s.connectionStates connID).getD .start

@[simps] def setState (connID : GoString) (state : ConnectionState) : Server C :=
  { s with connectionStates := update s.connectionStates connID (some state) }

/-- What `handleConnection` does with the entry of a connection when it closes. -/
@[simps] def deleteState (connID : GoString) : Server C :=
  { s with connectionStates := update s.connectionStates connID none }

@[simps] def setChannel (channelID : UInt16) (c : ChannelState C) : Server C :=
  { s with channelStates := update s.channelStates channelID (some c) }

@[simps] def setQueue (name : GoString) (queue : Queue) : Server C :=
  { s with queues := update s.queues name (some queue) }

@[simps] def setExchange (name : GoString) (exchange : Exchange) : Server C :=
  { s with exchanges := update s.exchanges name (some exchange) }

@[simps] def send (conn : C) (channelID : UInt16) (reply : Reply) : Server C :=
  { s with written := s.written ++ [(conn, channelID, reply)] }

@[simps] def noteAccepted (queueName : GoString) (body : List UInt8) : Server C :=
  { s with accepted := s.accepted ++ [(queueName, body)] }

@[simps] def notePublished (call : Publish) : Server C :=
  { s with published := s.published ++ [call] }

@[simps] def noteAssigned (channelID : UInt16) (deliveryTag : UInt64) : Server C :=
  { s with assigned := s.assigned ++ [(channelID, deliveryTag)] }

@[simps] def noteSettled (queueName : GoString) (body : Body) : Server C :=
  { s with settled := s.settled ++ [(queueName, body)] }

/-- A queue that exists is kept; the answer has the number of its messages. -/
def declareQueue (name : GoString) : Server C × Nat :=
  match s.queues name with
  | some queue => (s, queue.messages.len)
  | none => (s.setQueue name ⟨name, .make 0⟩, 0)

/-- `now` is the time for the name of a queue that is declared without one. Whether it is
    durable or deleted automatically is only logged. -/
def handleQueueDeclare (conn : C) (channelID : UInt16) (name : GoString) (now : Nat) : Server C :=
  let name := if name = [] then ascii "amq.gen-" ++ GoString.decimal now else name
  let (s, messageCount) := s.declareQueue name
  let s := s.send conn channelID (.queueDeclareOk name (UInt32.ofNat messageCount))
  s.setChannel channelID (((s.channelStates channelID).getD {}).bindQueue name)

def handleExchangeDeclare (conn : C) (channelID : UInt16) (name exchangeType : GoString) :
    Server C :=
  let s := match s.exchanges name with
    | some _ => s
    | none => s.setExchange name ⟨name, exchangeType⟩
  s.send conn channelID .exchangeDeclareOk

/-- The queue that a publish goes to. -/
def targetQueue (channelID : UInt16) (routingKey : GoString) : Option GoString :=
  if routingKey ≠ [] then some routingKey
  else
    match s.channelStates channelID with
    | some c => if c.boundQueue ≠ [] then some c.boundQueue else none
    | none => none

def handleBasicPublish (call : Publish) : Server C × Option FrameError :=
  let s := s.notePublished call
  match s.targetQueue call.channelID call.routingKey with
  | none => (s, some .noTargetQueue)
  | some target =>
    match s.queues target with
    | none => (s, some (.queueNotFound target))
    | some queue =>
      let body : Body := ⟨s.accepted.length, call.body⟩
      ((s.setQueue target { queue with messages := queue.messages.append body }).noteAccepted
        target call.body, none)

/-- Gives a message the next delivery tag of the channel. A missing channel state panics. -/
def assign (channelID : UInt16) (queueName : GoString) (body : Body) (redelivered : Bool) :
    Option (Server C × UInt64) :=
  (s.channelStates channelID).bind fun c =>
    (c.track queueName body redelivered).map fun c' =>
      ((s.setChannel channelID c').noteAssigned channelID c.nextDeliveryTag, c.nextDeliveryTag)

def handleBasicConsume (conn : C) (channelID : UInt16) (queueName consumerTag : GoString) :
    Step C :=
  match s.queues queueName with
  | none => { server := s, error := some (.queueNotFound queueName) }
  | some _ =>
    { server := s
      todo := [.send conn channelID (.basicConsumeOk consumerTag),
        .register conn channelID queueName consumerTag] }

/-- The second lock of `handleBasicConsume`. -/
def register (conn : C) (channelID : UInt16) (consumerTag : GoString) : Server C :=
  s.setChannel channelID
    (((s.channelStates channelID).getD { unackedMessages := some ∅ }).setConsumer consumerTag conn)

/-- The third one. The messages are copied before the queue's memory is used again. The queue is
    the one that the first lock found, since no queue is ever removed or replaced. -/
def take (channelID : UInt16) (queueName : GoString) : Option (Server C × List Body) :=
  (s.channelStates channelID).bind fun c =>
    (s.queues queueName).map fun queue =>
      let messages := queue.messages.contents
      let s := s.setQueue queueName { queue with messages := queue.messages.clear }
      (s.setChannel channelID c.prepare, messages)

def handleBasicAck (channelID : UInt16) (deliveryTag : UInt64) : Server C × Option FrameError :=
  match s.channelStates channelID with
  | none => (s, some (.channelNotFound channelID))
  | some c =>
    match c.unacked deliveryTag with
    | none => (s, none)
    | some unacked =>
      ((s.setChannel channelID (c.forget deliveryTag)).noteSettled unacked.queueName unacked.body, none)

end

/-- The delivery that follows a nack, if the channel has a consumer. -/
def redelivery (c : ChannelState C) (channelID : UInt16) (newDeliveryTag : UInt64)
    (unacked : UnackedMsg) : List (Act C) :=
  match c.conn with
  | some conn =>
    if c.consumerTag ≠ [] then
      [.send conn channelID
        (.basicDeliver c.consumerTag newDeliveryTag true unacked.queueName unacked.body.bytes)]
    else []
  | none => []

def handleBasicNack (s : Server C) (channelID : UInt16) (deliveryTag : UInt64) : Option (Step C) :=
  match s.channelStates channelID with
  | none => some { server := s, error := some (.channelNotFound channelID) }
  | some c =>
    match c.unacked deliveryTag with
    | none => some { server := s }
    | some unacked =>
      let s := s.setChannel channelID (c.forget deliveryTag)
      match s.queues unacked.queueName with
      | none => some { server := s, error := some (.queueNotFound unacked.queueName) }
      | some queue =>
        let s := s.setQueue unacked.queueName { queue with messages := queue.messages.append unacked.body }
        (s.assign channelID unacked.queueName unacked.body true).map fun (s, newDeliveryTag) =>
          { server := s, todo := redelivery c channelID newDeliveryTag unacked }

def basicPublish (s : Server C) (channelID : UInt16) (exchange routingKey : GoString) : Server C :=
  s.setChannel channelID
    (((s.channelStates channelID).getD {}).setPending
      (some { exchange := exchange, routingKey := routingKey }))

def basicQos (s : Server C) (conn : C) (channelID : UInt16) (prefetchSize : UInt32)
    (prefetchCount : UInt16) : Step C where
  server := s.setChannel channelID
    (((s.channelStates channelID).getD { unackedMessages := some ∅ }).setQoS prefetchCount.toNat
      prefetchSize.toNat)
  todo := [.send conn channelID .basicQosOk]

/-- The largest number of bytes for which `make` does not panic. That there is enough memory
    for them is taken for granted. -/
def maxAlloc : Nat := 2 ^ 48

/-- A content header that announces `bodySize` bytes. -/
def contentHeader (s : Server C) (channelID : UInt16) (bodySize : UInt64) : Option (Server C) :=
  match s.channelStates channelID with
  | none => some s
  | some c =>
    match c.pendingPublish with
    | none => some s
    | some pending =>
      if bodySize.toNat ≤ maxAlloc then
        some (s.setChannel channelID (c.setPending (some { pending with bodySize := bodySize, body := [] })))
      else none

def contentBody (s : Server C) (channelID : UInt16) (payload : List UInt8) : Step C :=
  match s.channelStates channelID with
  | none => { server := s }
  | some c =>
    match c.pendingPublish with
    | none => { server := s }
    | some pending =>
      let body := pending.body ++ payload
      if pending.bodySize.toNat ≤ body.length then
        { server := s.setChannel channelID (c.setPending none)
          todo := [.publish ⟨channelID, pending.exchange, pending.routingKey, body⟩] }
      else
        { server := s.setChannel channelID (c.setPending (some { pending with body := body })) }

end Server

namespace Act

/-- The next lock of a handler, or a write between two of them. Delivering to a connection
    never fails. -/
def exec (s : Server C) : Act C → Option (Step C)
  | send conn channelID reply => some { server := s.send conn channelID reply }
  | setState connID state => some { server := s.setState connID state }
  | publish call =>
    some { server := (s.handleBasicPublish call).1, error := (s.handleBasicPublish call).2 }
  | register conn channelID queueName consumerTag =>
    some { server := s.register conn channelID consumerTag, todo := [.take conn channelID queueName consumerTag] }
  | take conn channelID queueName consumerTag =>
    (s.take channelID queueName).map fun (s, messages) =>
      { server := s, todo := [.deliver conn channelID queueName consumerTag messages] }
  | deliver _ _ _ _ [] => some { server := s }
  | deliver conn channelID queueName consumerTag (body :: messages) =>
    (s.assign channelID queueName body false).map fun (s, deliveryTag) =>
      { server := s
        todo := [.send conn channelID (.basicDeliver consumerTag deliveryTag false queueName body.bytes),
          .deliver conn channelID queueName consumerTag messages] }

end Act

namespace Server

/-- All deliveries of a consume, without a break. -/
def deliverAll (s : Server C) (conn : C) (channelID : UInt16) (queueName consumerTag : GoString) :
    List Body → Option (Server C)
  | [] => some s
  | body :: messages =>
    (s.assign channelID queueName body false).bind fun (s, deliveryTag) =>
      (s.send conn channelID (.basicDeliver consumerTag deliveryTag false queueName body.bytes)).deliverAll
        conn channelID queueName consumerTag messages

end Server

/-- What is left to do, done in one go. -/
def Act.finish (s : Server C) : Act C → Option (Server C × Option FrameError)
  | .send conn channelID reply => some (s.send conn channelID reply, none)
  | .setState connID state => some (s.setState connID state, none)
  | .publish call => some (s.handleBasicPublish call)
  | .register conn channelID queueName consumerTag =>
    ((s.register conn channelID consumerTag).take channelID queueName).bind fun (s, messages) =>
      (s.deliverAll conn channelID queueName consumerTag messages).map (·, none)
  | .take conn channelID queueName consumerTag =>
    (s.take channelID queueName).bind fun (s, messages) =>
      (s.deliverAll conn channelID queueName consumerTag messages).map (·, none)
  | .deliver conn channelID queueName consumerTag messages =>
    (s.deliverAll conn channelID queueName consumerTag messages).map (·, none)

def finishAll (s : Server C) : List (Act C) → Option (Server C × Option FrameError)
  | [] => some (s, none)
  | act :: rest =>
    (act.finish s).bind fun (s, error) =>
      match error with
      | some err => some (s, some err)
      | none => finishAll s rest

/-- A handler as one step: what it returns, with nothing else in between. -/
def Step.complete (step : Step C) : Option (Server C × Option FrameError) :=
  match step.error with
  | some err => some (step.server, some err)
  | none => finishAll step.server step.todo

end Portask.Amqp
