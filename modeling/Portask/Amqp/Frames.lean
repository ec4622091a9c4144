import Portask.Amqp.Server
import Portask.Lib.Wire

/-! # AMQP frames

How the server reads a frame that has arrived whole, what it does with it in each state of
the connection, and the frames that it writes.
-/

namespace Portask.Amqp

open Lib Kafka

structure Frame where
  frameType : UInt8
  channelID : UInt16
  payload : List UInt8
  deriving DecidableEq

def frameMethod : UInt8 := 1

def frameHeader : UInt8 := 2

def frameBody : UInt8 := 3

def frameHeartbeat : UInt8 := 8

def frameEnd : UInt8 := 0xCE

section

variable (payload : List UInt8)

def byteAt (pos : Nat) : Nat := (payload.getD pos 0).toNat

/-- A number with the most significant byte first. -/
def numberAt (pos width : Nat) : Nat := ofBigEndian ((payload.drop pos).take width)

def textAt (pos length : Nat) : GoString := (payload.drop pos).take length

def classID : Nat := numberAt payload 0 2

def methodID : Nat := numberAt payload 2 2

/-- The two short strings that three of the methods have from `pos` on, with the names of
    their parts and the least length of the whole. -/
def shortStrings (kind : FrameKind) (first secondLength second : FramePart) (least pos : Nat) :
    Except FrameError (GoString × GoString) :=
  if payload.length < least then .error (.invalid kind none)
  else
    let n := byteAt payload pos
    let next := pos + 1 + n
    if payload.length < next then .error (.invalid kind (some first))
    else if payload.length < next + 1 then .error (.invalid kind (some secondLength))
    else
      let m := byteAt payload next
      if payload.length < next + 1 + m then .error (.invalid kind (some second))
      else .ok (textAt payload (pos + 1) n, textAt payload (next + 1) m)

end

/-- Every method that has no handler is `other`. -/
inductive Method where
  | exchangeDeclare (name exchangeType : GoString)
  | queueDeclare (name : GoString)
  | basicPublish (exchange routingKey : GoString)
  | basicQos (prefetchSize : UInt32) (prefetchCount : UInt16)
  | basicConsume (queueName consumerTag : GoString)
  | basicAck (deliveryTag : UInt64)
  | basicNack (deliveryTag : UInt64) (requeue : Bool)
  | other
  deriving DecidableEq

section

variable (payload : List UInt8)

def exchangeDeclare : Except FrameError Method :=
  (shortStrings payload .exchangeDeclare .exchange .typeLength .type 7 6).map
    fun (name, exchangeType) =>
    .exchangeDeclare name exchangeType

/-- Unlike the other methods the name is looked for right behind the method's number, where the
    ticket is. -/
def queueDeclare : Except FrameError Method :=
  if payload.length < 8 then .error (.invalid .queueDeclare none)
  else
    let nameLen := byteAt payload 4
    if payload.length < 5 + nameLen + 4 then .error (.invalid .queueDeclare (some .name))
    else .ok (.queueDeclare (textAt payload 5 nameLen))

def basicPublish : Except FrameError Method :=
  (shortStrings payload .basicPublish .exchange .routingKeyLength .routingKey 6 4).map
    fun (exchange, routingKey) =>
    .basicPublish exchange routingKey

def basicQos : Except FrameError Method :=
  if payload.length < 11 then .error (.invalid .basicQos none)
  else .ok (.basicQos (UInt32.ofNat (numberAt payload 4 4)) (UInt16.ofNat (numberAt payload 8 2)))

def basicConsume : Except FrameError Method :=
  (shortStrings payload .basicConsume .queue .consumerTagLength .consumerTag 7 6).map
    fun (queueName, consumerTag) =>
    .basicConsume queueName consumerTag

def basicAck : Except FrameError Method :=
  if payload.length < 12 then .error (.invalid .basicAck none)
  else .ok (.basicAck (UInt64.ofNat (numberAt payload 4 8)))

def basicNack : Except FrameError Method :=
  if payload.length < 13 then .error (.invalid .basicNack none)
  else .ok (.basicNack (UInt64.ofNat (numberAt payload 4 8)) (payload.getD 12 0 &&& 0x02 ≠ 0))

def readMethod : Except FrameError Method :=
  if payload.length < 4 then .error (.invalid .method none)
  else if classID payload = 40 ∧ methodID payload = 10 then exchangeDeclare payload
  else if classID payload = 50 ∧ methodID payload = 10 then queueDeclare payload
  else if classID payload = 60 ∧ methodID payload = 40 then basicPublish payload
  else if classID payload = 60 ∧ methodID payload = 10 then basicQos payload
  else if classID payload = 60 ∧ methodID payload = 20 then basicConsume payload
  else if classID payload = 60 ∧ methodID payload = 80 then basicAck payload
  else if classID payload = 60 ∧ methodID payload = 120 then basicNack payload
  else .ok .other

end

variable {C : Type}

namespace Server

/-- `now` is the time if it is asked for. -/
def handleMethod (s : Server C) (conn : C) (channelID : UInt16) (now : Nat) : Method →
    Option (Step C)
  | .exchangeDeclare name exchangeType =>
    some { server := s.handleExchangeDeclare conn channelID name exchangeType }
  | .queueDeclare name => some { server := s.handleQueueDeclare conn channelID name now }
  | .basicPublish exchange routingKey =>
    some { server := s.basicPublish channelID exchange routingKey }
  | .basicQos prefetchSize prefetchCount =>
    some (s.basicQos conn channelID prefetchSize prefetchCount)
  | .basicConsume queueName consumerTag =>
    some (s.handleBasicConsume conn channelID queueName consumerTag)
  | .basicAck deliveryTag | .basicNack deliveryTag false =>
    some { server := (s.handleBasicAck channelID deliveryTag).1, error := (s.handleBasicAck channelID deliveryTag).2 }
  | .basicNack deliveryTag true => s.handleBasicNack channelID deliveryTag
  | .other => some { server := s }

def handleMethodFrameWithChannel (s : Server C) (conn : C) (channelID : UInt16) (now : Nat)
    (payload : List UInt8) : Option (Step C) :=
  match readMethod payload with
  | .error err => some { server := s, error := some err }
  | .ok method => s.handleMethod conn channelID now method

def handleAMQPFrameWithChannel (s : Server C) (conn : C) (now : Nat) (frame : Frame) :
    Option (Step C) :=
  if frame.frameType = frameMethod then
    s.handleMethodFrameWithChannel conn frame.channelID now frame.payload
  else if frame.frameType = frameHeader then
    if frame.payload.length < 12 then some { server := s, error := some (.invalid .header none) }
    else
      (s.contentHeader frame.channelID (UInt64.ofNat (numberAt frame.payload 4 8))).map fun s =>
        { server := s }
  else if frame.frameType = frameBody then some (s.contentBody frame.channelID frame.payload)
  else if frame.frameType = frameHeartbeat then some { server := s }
  else some { server := s, error := some (.unknownFrameType frame.frameType) }

/-- A frame that is no method is handled in every state of the connection, and the methods that
    open a connection are, too. -/
def handleFrameWithState (s : Server C) (conn : C) (connID : GoString) (now : Nat) (frame : Frame) :
    Option (Step C) :=
  let state := s.stateOf connID
  let class_ := classID frame.payload
  let method := methodID frame.payload
  if frame.frameType ≠ frameMethod then s.handleAMQPFrameWithChannel conn now frame
  else if frame.payload.length < 4 then some { server := s, error := some (.invalid .method none) }
  else if class_ = 10 ∧ method = 11 then
    some { server := s.setState connID .startOkReceived
           todo := [.send conn 0 .connectionTune, .setState connID .tuneSent] }
  else if class_ = 10 ∧ method = 31 then some { server := s.setState connID .tuneOkReceived }
  else if class_ = 10 ∧ method = 40 then
    some { server := s.setState connID .openReceived
           todo := [.send conn 0 .connectionOpenOk, .setState connID .connected] }
  else if class_ = 10 ∧ method = 50 then
    some { server := s, todo := [.send conn 0 .connectionCloseOk] }
  else if class_ = 20 ∧ state ≠ .connected then
    some { server := s, error := some (.channelOperations state) }
  else if class_ = 20 ∧ method = 10 then
    some { server := s, todo := [.send conn frame.channelID .channelOpenOk] }
  else if class_ = 20 ∧ method = 40 then
    some { server := s, todo := [.send conn frame.channelID .channelCloseOk] }
  else if state ≠ .connected then some { server := s, error := some (.notReady state) }
  else s.handleMethodFrameWithChannel conn frame.channelID now frame.payload

/-- What the methods that open and close connections and channels do, and what becomes of a
    method that is refused. None of it looks at queues, exchanges or channel states. -/
inductive Connecting (s : Server C) (conn : C) (connID : GoString) (payload : List UInt8) :
    Step C → Prop where
  | refused (err : FrameError) : Connecting s conn connID payload { server := s, error := some err }
  | startOk (long : 4 ≤ payload.length) (startOk : classID payload = 10 ∧ methodID payload = 11) :
      Connecting s conn connID payload
      { server := s.setState connID .startOkReceived
        todo := [.send conn 0 .connectionTune, .setState connID .tuneSent] }
  | tuneOk (long : 4 ≤ payload.length) (tuneOk : classID payload = 10 ∧ methodID payload = 31) :
      Connecting s conn connID payload { server := s.setState connID .tuneOkReceived }
  | opened (long : 4 ≤ payload.length) (opened : classID payload = 10 ∧ methodID payload = 40) :
      Connecting s conn connID payload
      { server := s.setState connID .openReceived
        todo := [.send conn 0 .connectionOpenOk, .setState connID .connected] }
  | answered (channelID : UInt16) (reply : Reply) :
      Connecting s conn connID payload { server := s, todo := [.send conn channelID reply] }

/-- Everything else needs an open connection or is no method. -/
theorem handleFrameWithState_cases {step : Step C}
    (handled : s.handleFrameWithState conn connID now frame = some step) :
    (s.handleAMQPFrameWithChannel conn now frame = some step ∧
      (frame.frameType = frameMethod → s.stateOf connID = .connected)) ∨
    (frame.frameType = frameMethod ∧ Connecting s conn connID frame.payload step) := by
  revert handled
  fun_cases handleFrameWithState with
  | case1 other => exact fun handled => .inl ⟨handled, fun method => absurd method other⟩
  | case2 method | case7 _ _ _ method | case10 _ _ _ method =>
    rintro ⟨⟩
    exact .inr ⟨not_not.mp method, .refused _⟩
  | case3 _ _ method long startOk =>
    rintro ⟨⟩
    exact .inr ⟨not_not.mp method, .startOk (Nat.not_lt.mp long) startOk⟩
  | case4 _ _ method long _ tuneOk =>
    rintro ⟨⟩
    exact .inr ⟨not_not.mp method, .tuneOk (Nat.not_lt.mp long) tuneOk⟩
  | case5 _ _ method long _ _ opened =>
    rintro ⟨⟩
    exact .inr ⟨not_not.mp method, .opened (Nat.not_lt.mp long) opened⟩
  | case6 _ _ method | case8 _ _ _ method | case9 _ _ _ method =>
    rintro ⟨⟩
    exact .inr ⟨not_not.mp method, .answered _ _⟩
  | case11 _ _ _ method _ _ _ _ _ _ _ _ connected =>
    intro handled
    refine .inl ⟨?_, fun _ => not_not.mp connected⟩
    rw [handleAMQPFrameWithChannel, if_pos (not_not.mp method), handled]

theorem handleFrameWithState_method {s : Server C} (connected : s.stateOf connID = .connected)
    (method : frame.frameType = frameMethod) (long : 4 ≤ frame.payload.length)
    (connection : classID frame.payload ≠ 10) (channel : classID frame.payload ≠ 20)
    (conn : C) (now : Nat) : s.handleFrameWithState conn connID now frame =
      s.handleMethodFrameWithChannel conn frame.channelID now frame.payload := by
  simp only [handleFrameWithState, method, connected, connection, channel, ne_eq, not_true_eq_false,
    false_and, if_false, Nat.not_lt.mpr long]

end Server

/-- The fields of a channel state that delivery tags are about are the same. -/
structure SameTags (c c' : ChannelState C) : Prop where
  unacked : c'.unackedMessages = c.unackedMessages
  count : c'.currentlyUnacked = c.currentlyUnacked
  next : c'.nextDeliveryTag = c.nextDeliveryTag

structure Blank (c : ChannelState C) : Prop where
  unacked : c.unackedMessages.getD ∅ = ∅
  count : c.currentlyUnacked = 0
  next : c.nextDeliveryTag = 0

namespace Server

/-- What is done with a frame under the first lock of its handler. The guards are those that say whose channel state is
    used. -/
inductive Effect (s : Server C) (conn : C) (frame : Frame) : Step C → Prop where
  | plain (exchanges : GoString → Option Exchange) (written : List (C × UInt16 × Reply))
    (error : Option FrameError) :
      Effect s conn frame
        { server := { s with exchanges := exchanges, written := written }, error := error }
  | consume {queueName consumerTag} (method : frame.frameType = frameMethod)
      (read : readMethod frame.payload = .ok (.basicConsume queueName consumerTag)) :
      Effect s conn frame
      { server := s
        todo := [.send conn frame.channelID (.basicConsumeOk consumerTag),
          .register conn frame.channelID queueName consumerTag] }
  | touch {fresh c} (blank : Blank fresh)
    (same : SameTags ((s.channelStates frame.channelID).getD fresh) c)
      (queues : GoString → Option Queue) (written : List (C × UInt16 × Reply)) (reply : Option Reply) :
      Effect s conn frame
      { server := { s with
          channelStates := Function.update s.channelStates frame.channelID (some c), queues := queues, written := written }
        todo := reply.toList.map (.send conn frame.channelID) }
  | publish {fresh c call} (content : frame.frameType = frameBody) (blank : Blank fresh)
      (same : SameTags ((s.channelStates frame.channelID).getD fresh) c)
      (here : call.channelID = frame.channelID) :
      Effect s conn frame { server := s.setChannel frame.channelID c, todo := [.publish call] }
  | forget {c deliveryTag entry} (found : s.channelStates frame.channelID = some c)
      (held : c.unacked deliveryTag = some entry) (settled : List (GoString × Body))
      (error : Option FrameError) :
      Effect s conn frame
      { server := { s with
          channelStates := Function.update s.channelStates frame.channelID (some (c.forget deliveryTag)), settled := settled }
        error := error }
  | requeue {c deliveryTag entry queue t newDeliveryTag}
    (found : s.channelStates frame.channelID = some c)
      (held : c.unacked deliveryTag = some entry)
      (assigned : ((s.setChannel frame.channelID (c.forget deliveryTag)).setQueue entry.queueName queue).assign
        frame.channelID entry.queueName entry.body true = some (t, newDeliveryTag)) :
      Effect s conn frame { server := t, todo := redelivery c frame.channelID newDeliveryTag entry }

variable {s : Server C} {conn : C} {frame : Frame} {step : Step C}

theorem blank_default : Blank ({} : ChannelState C) := ⟨rfl, rfl, rfl⟩

theorem blank_made : Blank ({ unackedMessages := some ∅ } : ChannelState C) := ⟨rfl, rfl, rfl⟩

theorem Effect.quiet (error : Option FrameError) :
    Effect s conn frame { server := s, error := error } :=
  .plain s.exchanges s.written error

theorem mem_redelivery {act : Act C}
    (inside : act ∈ redelivery c channelID newDeliveryTag unacked) :
    ∃ conn reply, act = .send conn channelID reply := by
  revert inside
  fun_cases redelivery with
  | case1 => exact fun inside => ⟨_, _, List.mem_singleton.mp inside⟩
  | _ => simp

theorem handleBasicAck_effect (deliveryTag : UInt64) :
    Effect s conn frame { server := (s.handleBasicAck frame.channelID deliveryTag).1
                          error := (s.handleBasicAck frame.channelID deliveryTag).2 } := by
  fun_cases handleBasicAck s frame.channelID deliveryTag with
  | case1 | case2 => exact .quiet _
  | case3 c found entry held => exact .forget found held _ none

theorem handleBasicNack_effect
    (handled : s.handleBasicNack frame.channelID deliveryTag = some step) :
    Effect s conn frame step := by
  revert handled
  fun_cases handleBasicNack s frame.channelID deliveryTag with
  | case1 | case2 =>
    rintro ⟨⟩
    exact .quiet _
  | case3 c found entry held =>
    rintro ⟨⟩
    exact .forget found held s.settled _
  | case4 c found entry held =>
    intro handled
    obtain ⟨⟨t, newDeliveryTag⟩, assigned, rfl⟩ := Option.map_eq_some_iff.mp handled
    exact .requeue found held assigned

theorem handleMethod_effect (isMethod : frame.frameType = frameMethod)
    (read : readMethod frame.payload = .ok method)
    (handled : s.handleMethod conn frame.channelID now method = some step) :
    Effect s conn frame step := by
  cases method with
  | exchangeDeclare name exchangeType =>
    obtain rfl := Option.some.inj handled
    rw [handleExchangeDeclare]
    split <;> exact .plain _ _ none
  | queueDeclare name =>
    obtain rfl := Option.some.inj handled
    dsimp only [handleQueueDeclare, declareQueue]
    split <;> exact .touch blank_default (by exact ⟨rfl, rfl, rfl⟩) _ _ none
  | basicPublish exchange routingKey =>
    obtain rfl := Option.some.inj handled
    exact .touch blank_default (by exact ⟨rfl, rfl, rfl⟩) s.queues s.written none
  | basicQos prefetchSize prefetchCount =>
    obtain rfl := Option.some.inj handled
    exact .touch blank_made (by exact ⟨rfl, rfl, rfl⟩) s.queues s.written (some .basicQosOk)
  | basicConsume queueName consumerTag =>
    obtain rfl := Option.some.inj handled
    rw [handleBasicConsume]
    split
    · exact .quiet _
    · exact .consume isMethod read
  | basicAck deliveryTag =>
    obtain rfl := Option.some.inj handled
    exact handleBasicAck_effect deliveryTag
  | basicNack deliveryTag requeue =>
    cases requeue with
    | false =>
      obtain rfl := Option.some.inj handled
      exact handleBasicAck_effect deliveryTag
    | true => exact handleBasicNack_effect handled
  | other =>
    obtain rfl := Option.some.inj handled
    exact .quiet none

/-- A channel state that is there is touched. -/
theorem Effect.touched (found : s.channelStates frame.channelID = some c) (same : SameTags c c') :
    Effect s conn frame { server := s.setChannel frame.channelID c' } :=
  .touch blank_default (by rwa [found]) s.queues s.written none

theorem handleAMQPFrame_effect (handled : s.handleAMQPFrameWithChannel conn now frame = some step) :
    Effect s conn frame step := by
  revert handled
  fun_cases handleAMQPFrameWithChannel s conn now frame with
  | case1 isMethod =>
    fun_cases handleMethodFrameWithChannel s conn frame.channelID now frame.payload with
    | case1 =>
      rintro ⟨⟩
      exact .quiet _
    | case2 method read => exact handleMethod_effect isMethod read
  | case3 =>
    fun_cases contentHeader s frame.channelID _ with
    | case1 | case2 =>
      rintro ⟨⟩
      exact .quiet none
    | case3 c found =>
      rintro ⟨⟩
      exact .touched found (by exact ⟨rfl, rfl, rfl⟩)
    | case4 => simp
  | case4 _ _ content =>
    rintro ⟨⟩
    fun_cases contentBody s frame.channelID frame.payload with
    | case1 | case2 => exact .quiet none
    | case3 c found =>
      exact .publish content blank_default (by rw [found]; exact ⟨rfl, rfl, rfl⟩) rfl
    | case4 c found => exact .touched found (by exact ⟨rfl, rfl, rfl⟩)
  | _ =>
    rintro ⟨⟩
    exact .quiet _

end Server

def sendAMQPFrame (frame : Frame) : List UInt8 :=
  [frame.frameType] ++ bigEndian 2 frame.channelID.toNat ++ bigEndian 4 frame.payload.length ++
    frame.payload ++
    [frameEnd]

/-- A string behind its length in one byte. -/
def shortString (s : GoString) : List UInt8 := UInt8.ofNat s.length :: s

def longString (s : GoString) : List UInt8 := bigEndian 4 s.length ++ s

def methodBytes (class_ method : Nat) (arguments : List UInt8) : List UInt8 :=
  bigEndian 2 class_ ++ bigEndian 2 method ++ arguments

theorem classID_methodBytes (class_ method : Nat) (arguments : List UInt8) :
    classID (methodBytes class_ method arguments) = class_ % 256 ^ 2 := by
  rw [classID, numberAt, List.drop_zero, methodBytes, List.append_assoc,
    List.take_left' (length_bigEndian 2 _), ofBigEndian_bigEndian]

theorem methodID_methodBytes (class_ method : Nat) (arguments : List UInt8) :
    methodID (methodBytes class_ method arguments) = method % 256 ^ 2 := by
  rw [methodID, numberAt, methodBytes, List.append_assoc, List.drop_left' (length_bigEndian 2 _),
    List.take_left' (length_bigEndian 2 _), ofBigEndian_bigEndian]

theorem length_methodBytes (class_ method : Nat) (arguments : List UInt8) :
    (methodBytes class_ method arguments).length = 4 + arguments.length := by
  simp [methodBytes]
  omega

theorem drop_methodBytes (class_ method : Nat) (arguments : List UInt8) :
    (methodBytes class_ method arguments).drop 4 = arguments := List.drop_left' (by simp)

def methodFrame (channelID : UInt16) (class_ method : Nat) (arguments : List UInt8) : Frame :=
  ⟨frameMethod, channelID, methodBytes class_ method arguments⟩

end Portask.Amqp
