import Portask.Amqp.Frames
import Portask.Lib.Machine

/-! # The server as a broker

With each handler as one step, all that matters of the server for its messages is where they
are: waiting in queues, held under delivery tags, or settled. A broker has only that. Every
step of the server accepts a message, consumes a queue, settles a tag, puts a message back,
or does nothing.
-/

namespace Portask.Amqp

open Function Lib Kafka ChannelState

/-- `held` has the message that is held under a tag of a channel, with its queue. `accepted`,
    `delivered` and `settled` are lists of all that were, in order. -/
structure Broker where
  waiting : GoString → List Body
  held : UInt16 → UInt64 → Option (GoString × Body)
  accepted : List (GoString × List UInt8)
  delivered : List (GoString × List UInt8)
  settled : List (GoString × Body)

/-- `first` and `new` are the tags that the server assigns. -/
inductive BrokerOp where
  | nothing
  | accept (queueName : GoString) (bytes : List UInt8)
  | consume (channelID : UInt16) (queueName : GoString) (first : UInt64)
  | settle (channelID : UInt16) (deliveryTag : UInt64)
  | requeue (channelID : UInt16) (deliveryTag new : UInt64) (redelivers : Bool)
  deriving DecidableEq

namespace Broker

def setHeld (held : UInt16 → UInt64 → Option (GoString × Body)) (channelID : UInt16)
    (deliveryTag : UInt64)
    (item : Option (GoString × Body)) : UInt16 → UInt64 → Option (GoString × Body) :=
  update held channelID (update (held channelID) deliveryTag item)

/-- Messages held under consecutive tags. -/
def hold (held : UInt16 → UInt64 → Option (GoString × Body)) (channelID : UInt16)
    (queueName : GoString) : UInt64 → List Body → UInt16 → UInt64 → Option (GoString × Body)
  | _, [] => held
  | deliveryTag, body :: messages =>
    hold (setHeld held channelID deliveryTag (some (queueName, body))) channelID queueName
      (deliveryTag + 1) messages

variable (b : Broker)

@[simps] def setWaiting (queueName : GoString) (messages : List Body) : Broker :=
  { b with waiting := update b.waiting queueName messages }

@[simps] def withHeld (held : UInt16 → UInt64 → Option (GoString × Body)) : Broker :=
  { b with held := held }

@[simps] def addAccepted (queueName : GoString) (bytes : List UInt8) : Broker :=
  { b with accepted := b.accepted ++ [(queueName, bytes)] }

@[simps] def addDelivered (items : List (GoString × List UInt8)) : Broker :=
  { b with delivered := b.delivered ++ items }

@[simps] def addSettled (item : GoString × Body) : Broker :=
  { b with settled := b.settled ++ [item] }

def apply : BrokerOp → Broker
  | .nothing => b
  | .accept queueName bytes =>
    (b.setWaiting queueName (b.waiting queueName ++ [⟨b.accepted.length, bytes⟩])).addAccepted
      queueName bytes
  | .consume channelID queueName first =>
    ((b.setWaiting queueName []).withHeld
      (hold b.held channelID queueName first (b.waiting queueName))).addDelivered
      ((b.waiting queueName).map fun body => (queueName, body.bytes))
  | .settle channelID deliveryTag =>
    match b.held channelID deliveryTag with
    | none => b
    | some item => (b.withHeld (setHeld b.held channelID deliveryTag none)).addSettled item
  | .requeue channelID deliveryTag new redelivers =>
    match b.held channelID deliveryTag with
    | none => b
    | some item =>
      ((b.setWaiting item.1 (b.waiting item.1 ++ [item.2])).withHeld
        (setHeld (setHeld b.held channelID deliveryTag none) channelID new (some item))).addDelivered
          (if redelivers then [(item.1, item.2.bytes)] else [])

end Broker

variable {C : Type}

namespace Server

def waiting (s : Server C) (queueName : GoString) : List Body :=
  match s.queues queueName with
  | some queue => queue.messages.contents
  | none => []

def held (s : Server C) (channelID : UInt16) (deliveryTag : UInt64) : Option (GoString × Body) :=
  ((s.channelStates channelID).bind (·.unacked deliveryTag)).map fun unacked =>
    (unacked.queueName, unacked.body)

def delivery : C × UInt16 × Reply → Option (GoString × List UInt8)
  | (_, _, .basicDeliver _ _ _ queueName body) => some (queueName, body)
  | _ => none

def broker (s : Server C) : Broker where
  waiting := s.waiting
  held := s.held
  accepted := s.accepted
  delivered := s.written.filterMap delivery
  settled := s.settled

end Server

/-- What a client makes the server do: a method, a content header or body, or the call that
    publishes a message. -/
inductive Input (C : Type) where
  | method (conn : C) (channelID : UInt16) (now : Nat) (request : Method)
  | header (channelID : UInt16) (bodySize : UInt64)
  | body (channelID : UInt16) (payload : List UInt8)
  | publish (call : Publish)

def Input.handle (s : Server C) : Input C → Option (Step C)
  | .method conn channelID now request => s.handleMethod conn channelID now request
  | .header channelID bodySize => (s.contentHeader channelID bodySize).map fun s => { server := s }
  | .body channelID payload => some (s.contentBody channelID payload)
  | .publish call =>
    some { server := (s.handleBasicPublish call).1, error := (s.handleBasicPublish call).2 }

def oneStep : Machine (Server C) (Input C) where
  next s input := ((input.handle s).bind Step.complete).map Prod.fst

namespace Server

def firstTag (s : Server C) (channelID : UInt16) : UInt64 :=
  match s.channelStates channelID with
  | some c => c.prepare.nextDeliveryTag
  | none => 1

/-- What a call that publishes amounts to. -/
def publishOp (s : Server C) (call : Publish) : BrokerOp :=
  match s.targetQueue call.channelID call.routingKey with
  | none => .nothing
  | some target => if (s.queues target).isSome then .accept target call.body else .nothing

def nackOp (s : Server C) (channelID : UInt16) (deliveryTag : UInt64) : BrokerOp :=
  match s.channelStates channelID with
  | none => .nothing
  | some c => .requeue channelID deliveryTag c.nextDeliveryTag (c.conn.isSome && c.consumerTag ≠ [])

def op (s : Server C) : Input C → BrokerOp
  | .method _ channelID _ (.basicConsume queueName _) =>
    if (s.queues queueName).isSome then .consume channelID queueName (s.firstTag channelID)
    else .nothing
  | .method _ channelID _ (.basicAck deliveryTag) => .settle channelID deliveryTag
  | .method _ channelID _ (.basicNack deliveryTag false) => .settle channelID deliveryTag
  | .method _ channelID _ (.basicNack deliveryTag true) => s.nackOp channelID deliveryTag
  | .method _ _ _ _ => .nothing
  | .header _ _ => .nothing
  | .body channelID payload =>
    match (s.contentBody channelID payload).todo with
    | [.publish call] => s.publishOp call
    | _ => .nothing
  | .publish call => s.publishOp call

variable (s : Server C)

theorem held_setChannel (channelID : UInt16) (c : ChannelState C) :
    (s.setChannel channelID c).held =
      update s.held channelID fun tag =>
        (c.unacked tag).map fun unacked => (unacked.queueName, unacked.body) := by
  funext other tag
  by_cases here : other = channelID
  · subst here
    simp [held]
  · simp [held, here]

theorem waiting_setQueue (queueName : GoString) (queue : Queue) :
    (s.setQueue queueName queue).waiting = update s.waiting queueName queue.messages.contents := by
  funext other
  by_cases here : other = queueName
  · subst here
    simp [waiting]
  · simp [waiting, here]

theorem broker_setQueue (queueName : GoString) (queue : Queue) :
    (s.setQueue queueName queue).broker =
      s.broker.setWaiting queueName queue.messages.contents := by
  rw [broker, waiting_setQueue]
  rfl

variable {channelID : UInt16} {c : ChannelState C}

/-- A channel state that holds the same messages. -/
theorem broker_setChannel
    (same : ∀ tag, c.unacked tag = (s.channelStates channelID).bind (·.unacked tag)) :
    (s.setChannel channelID c).broker = s.broker := by
  have held : (s.setChannel channelID c).held = s.held := by
    rw [held_setChannel]
    refine Function.update_eq_self_iff.mpr (funext fun tag => ?_)
    rw [same, Server.held]
  rw [broker, held]
  rfl

theorem broker_send
    (quiet : ∀ conn channelID, delivery ((conn, channelID, reply) : C × UInt16 × Reply) = none)
    (conn : C) (channelID : UInt16) : (s.send conn channelID reply).broker = s.broker := by
  have delivered : (s.send conn channelID reply).written.filterMap delivery =
      s.written.filterMap delivery := by
    rw [send_written, List.filterMap_append, List.filterMap_cons, quiet, List.filterMap_nil,
      List.append_nil]
  rw [broker, delivered]
  rfl

theorem broker_send_deliver (conn : C) (channelID : UInt16) (consumerTag : GoString)
    (deliveryTag : UInt64) (redelivered : Bool) (queueName : GoString) (body : List UInt8) :
    (s.send conn channelID
      (.basicDeliver consumerTag deliveryTag redelivered queueName body)).broker =
      s.broker.addDelivered [(queueName, body)] := by
  rw [broker, send_written, List.filterMap_append]
  rfl

theorem broker_forget (found : s.channelStates channelID = some c) (deliveryTag : UInt64) :
    (s.setChannel channelID (c.forget deliveryTag)).broker =
      s.broker.withHeld (Broker.setHeld s.held channelID deliveryTag none) := by
  have held : (s.setChannel channelID (c.forget deliveryTag)).held =
      Broker.setHeld s.held channelID deliveryTag none := by
    rw [held_setChannel, Broker.setHeld]
    congr 1
    funext tag
    by_cases here : tag = deliveryTag
    · subst here
      cases made : c.unackedMessages <;> simp [unacked, forget, made]
    · cases made : c.unackedMessages <;>
        simp [unacked, forget, made, here, AList.lookup_erase_ne here, Server.held, found]
  rw [broker, held]
  rfl

theorem unacked_getD (o : Option (ChannelState C)) (blank : fresh.unackedMessages.getD ∅ = ∅)
    (tag : UInt64) : (o.getD fresh).unacked tag = o.bind (·.unacked tag) := by
  cases o with
  | some c => rfl
  | none =>
    rw [Option.getD_none, unacked, Option.bind_none]
    cases made : fresh.unackedMessages with
    | none => rfl
    | some m =>
      rw [made, Option.getD_some] at blank
      rw [blank]
      rfl

variable {s}

theorem assign_broker (found : s.channelStates channelID = some c)
    (assigned : s.assign channelID queueName body redelivered = some (s', deliveryTag)) :
    deliveryTag = c.nextDeliveryTag ∧ s'.queues = s.queues ∧
      s'.broker =
        s.broker.withHeld (Broker.setHeld s.held channelID c.nextDeliveryTag (some (queueName, body))) ∧
      ∃ c', s'.channelStates channelID = some c' ∧ c'.nextDeliveryTag = c.nextDeliveryTag + 1 := by
  rw [assign, found, Option.bind_some] at assigned
  obtain ⟨c', tracked, same⟩ := Option.map_eq_some_iff.mp assigned
  obtain ⟨rfl, rfl⟩ := Prod.mk.inj same
  obtain ⟨m, made, rfl⟩ := Option.map_eq_some_iff.mp tracked
  have held : (s.setChannel channelID
      { c with
        nextDeliveryTag := c.nextDeliveryTag + 1
        unackedMessages := some (m.insert c.nextDeliveryTag ⟨c.nextDeliveryTag, queueName, body, redelivered⟩)
        currentlyUnacked := c.currentlyUnacked + 1 }).held =
      Broker.setHeld s.held channelID c.nextDeliveryTag (some (queueName, body)) := by
    rw [held_setChannel, Broker.setHeld]
    congr 1
    funext tag
    by_cases here : tag = c.nextDeliveryTag
    · subst here
      simp [unacked]
    · simp [unacked, here, AList.lookup_insert_ne here, Server.held, found, made]
  refine ⟨rfl, rfl, ?_, _, update_self .., rfl⟩
  rw [← held]
  rfl

variable {queueName consumerTag : GoString} {conn : C} {queue : Queue}

theorem broker_waiting (found : s.queues queueName = some queue) :
    s.broker.waiting queueName = queue.messages.contents := by
  simp [broker, waiting, found]

theorem deliverAll_broker (found : s.channelStates channelID = some c)
    (delivered : s.deliverAll conn channelID queueName consumerTag messages = some s') :
    s'.queues = s.queues ∧
      s'.broker = (s.broker.withHeld (Broker.hold s.held channelID queueName c.nextDeliveryTag messages)).addDelivered
        (messages.map fun body => (queueName, body.bytes)) := by
  induction messages generalizing s c with
  | nil =>
    obtain rfl := Option.some.inj delivered
    exact ⟨rfl, by rw [List.map_nil, Broker.addDelivered, List.append_nil]; rfl⟩
  | cons body messages ih =>
    obtain ⟨⟨mid, deliveryTag⟩, assigned, later⟩ := Option.bind_eq_some_iff.mp delivered
    obtain ⟨rfl, queues, changed, c', found', next⟩ := assign_broker found assigned
    obtain ⟨queues', rest⟩ := ih (s := mid.send conn channelID _) found' later
    have held : (mid.send conn channelID
          (.basicDeliver consumerTag c.nextDeliveryTag false queueName body.bytes)).held =
        Broker.setHeld s.held channelID c.nextDeliveryTag (some (queueName, body)) := congrArg Broker.held changed
    refine ⟨queues'.trans queues, ?_⟩
    rw [rest, held, broker_send_deliver, changed, next, List.map_cons, Broker.hold]
    simp only [Broker.addDelivered, Broker.withHeld, List.append_assoc, List.singleton_append]

def Grows (s t : Server C) : Prop :=
  ∀ queueName, (s.queues queueName).isSome → (t.queues queueName).isSome

theorem Grows.of_eq {s t : Server C} (same : t.queues = s.queues) : Grows s t :=
  fun _ there => same ▸ there

theorem Grows.set {s t : Server C}
    (same : t.queues = update s.queues queueName (some queue)) : Grows s t := by
  intro other there
  rw [same]
  by_cases here : other = queueName
  · subst here
    rw [update_self]
    rfl
  · rwa [update_of_ne here]

section

variable (s : Server C)

theorem declareQueue_broker (name : GoString) :
    (s.declareQueue name).1.broker = s.broker ∧ Grows s (s.declareQueue name).1 := by
  rw [declareQueue]
  cases found : s.queues name with
  | some queue => exact ⟨rfl, .of_eq rfl⟩
  | none =>
    have empty : s.broker.waiting name = [] := by
      show s.waiting name = []
      rw [waiting, found]
    refine ⟨?_, .set rfl⟩
    rw [broker_setQueue, Buffer.contents_make, Broker.setWaiting, ← empty, update_eq_self]

theorem handleQueueDeclare_broker (conn : C) (channelID : UInt16) (name : GoString) (now : Nat) :
    (s.handleQueueDeclare conn channelID name now).broker = s.broker ∧
      Grows s (s.handleQueueDeclare conn channelID name now) := by
  rw [handleQueueDeclare]
  generalize (if name = [] then ascii "amq.gen-" ++ GoString.decimal now else name) = declared
  obtain ⟨same, grows⟩ := s.declareQueue_broker declared
  generalize s.declareQueue declared = result at same grows
  obtain ⟨s', messageCount⟩ := result
  refine ⟨?_, grows⟩
  calc ((s'.send conn channelID (.queueDeclareOk declared (UInt32.ofNat messageCount))).setChannel
    channelID (((s'.channelStates channelID).getD {}).bindQueue declared)).broker
      = (s'.send conn channelID (.queueDeclareOk declared (UInt32.ofNat messageCount))).broker :=
        broker_setChannel _ fun tag => unacked_getD _ rfl tag
    _ = s'.broker := broker_send _ (fun _ _ => rfl) conn channelID
    _ = s.broker := same

theorem handleExchangeDeclare_broker (conn : C) (channelID : UInt16)
    (name exchangeType : GoString) :
    (s.handleExchangeDeclare conn channelID name exchangeType).broker = s.broker ∧
      Grows s (s.handleExchangeDeclare conn channelID name exchangeType) := by
  rw [handleExchangeDeclare]
  cases s.exchanges name with
  | some _ | none => exact ⟨broker_send _ (fun _ _ => rfl) _ _, .of_eq rfl⟩

theorem handleBasicPublish_broker (call : Publish) :
    (s.handleBasicPublish call).1.broker = s.broker.apply (s.publishOp call) ∧
    Grows s (s.handleBasicPublish call).1 := by
  have target : (s.notePublished call).targetQueue = s.targetQueue := rfl
  rw [handleBasicPublish, publishOp]
  simp only [target]
  cases s.targetQueue call.channelID call.routingKey with
  | none => exact ⟨rfl, .of_eq rfl⟩
  | some target =>
    cases found : s.queues target with
    | none => simp only [notePublished_queues, found]; exact ⟨rfl, .of_eq rfl⟩
    | some queue =>
      simp only [notePublished_queues, found, Option.isSome_some, if_true]
      refine ⟨?_, .set rfl⟩
      calc (((s.notePublished call).setQueue target
            { queue with messages := queue.messages.append ⟨s.accepted.length, call.body⟩ }).noteAccepted target
              call.body).broker
          = ((s.notePublished call).setQueue target
              { queue with messages := queue.messages.append ⟨s.accepted.length, call.body⟩ }).broker.addAccepted target
                call.body := rfl
        _ = s.broker.apply (.accept target call.body) := by
          rw [broker_setQueue, Buffer.contents_append, ← broker_waiting found]
          rfl

theorem broker_held (found : s.channelStates channelID = some c) (deliveryTag : UInt64) :
    s.broker.held channelID deliveryTag =
      (c.unacked deliveryTag).map fun unacked => (unacked.queueName, unacked.body) := by
        simp [broker, held, found]

theorem handleBasicAck_broker (channelID : UInt16) (deliveryTag : UInt64) :
    (s.handleBasicAck channelID deliveryTag).1.broker = s.broker.apply (.settle channelID deliveryTag) ∧
      Grows s (s.handleBasicAck channelID deliveryTag).1 := by
  rw [handleBasicAck, Broker.apply]
  cases found : s.channelStates channelID with
  | none =>
    have none : s.broker.held channelID deliveryTag = none := by simp [broker, held, found]
    rw [none]
    exact ⟨rfl, .of_eq rfl⟩
  | some c =>
    have there := broker_held s found deliveryTag
    rw [there]
    dsimp only
    cases entry : c.unacked deliveryTag with
    | none => exact ⟨rfl, .of_eq rfl⟩
    | some unacked =>
      refine ⟨?_, .of_eq rfl⟩
      rw [Option.map_some]
      calc ((s.setChannel channelID (c.forget deliveryTag)).noteSettled unacked.queueName
        unacked.body).broker
          = (s.setChannel channelID (c.forget deliveryTag)).broker.addSettled (unacked.queueName, unacked.body) := rfl
        _ = _ := by rw [broker_forget s found]; rfl

/-- Whatever is held belongs to a queue that exists. -/
def Homed : Prop :=
  ∀ channelID tag item, s.held channelID tag = some item → (s.queues item.1).isSome

theorem complete_alone (error : Option FrameError) :
    ({ server := s, error := error } : Step C).complete = some (s, error) := by
  cases error with
  | none => rfl
  | some err => rfl

theorem finishAll_single (act : Act C) : finishAll s [act] = act.finish s := by
  rw [finishAll]
  cases act.finish s with
  | none => rfl
  | some result =>
    obtain ⟨t, error⟩ := result
    cases error <;> rfl

theorem redelivery_broker (c : ChannelState C) (channelID : UInt16) (newDeliveryTag : UInt64)
    (unacked : UnackedMsg) :
    ∃ t, finishAll s (redelivery c channelID newDeliveryTag unacked) = some (t, none) ∧
      t.queues = s.queues ∧ t.broker = s.broker.addDelivered
        (if c.conn.isSome && c.consumerTag ≠ [] then [(unacked.queueName, unacked.body.bytes)] else []) := by
  have quiet : s.broker = s.broker.addDelivered [] := by rw [Broker.addDelivered, List.append_nil]
  rw [redelivery]
  cases c.conn with
  | none => exact ⟨s, rfl, rfl, quiet⟩
  | some conn =>
    by_cases silent : c.consumerTag = []
    · simp only [silent, ne_eq, not_true_eq_false, if_false, decide_false, Bool.and_false]
      exact ⟨s, rfl, rfl, quiet⟩
    · simp only [silent, ne_eq, not_false_eq_true, if_true, decide_true, Bool.and_true,
        Option.isSome_some]
      exact ⟨_, rfl, rfl, broker_send_deliver ..⟩

end

variable {t : Server C} {error : Option FrameError}

theorem handleBasicNack_broker (homed : s.Homed) {deliveryTag : UInt64}
    (handled : (s.handleBasicNack channelID deliveryTag).bind Step.complete = some (t, error)) :
    t.broker = s.broker.apply (s.nackOp channelID deliveryTag) ∧ Grows s t := by
  obtain ⟨step, handled, completed⟩ := Option.bind_eq_some_iff.mp handled
  have there {c} (found : s.channelStates channelID = some c) := broker_held s found deliveryTag
  rw [nackOp]
  revert handled
  fun_cases handleBasicNack s channelID deliveryTag with
  | case1 missing =>
    rintro ⟨⟩
    obtain ⟨rfl, -⟩ := Prod.mk.inj (Option.some.inj completed)
    rw [missing]
    exact ⟨rfl, .of_eq rfl⟩
  | case2 c found entry =>
    rintro ⟨⟩
    obtain ⟨rfl, -⟩ := Prod.mk.inj (Option.some.inj completed)
    rw [found]
    dsimp only
    rw [Broker.apply, there found, entry]
    exact ⟨rfl, .of_eq rfl⟩
  | case3 c found unacked entry _ missing =>
    specialize there found
    rw [entry] at there
    have exists_ := homed channelID deliveryTag _ there
    rw [show s.queues unacked.queueName = none from missing] at exists_
    cases exists_
  | case4 c found unacked entry forgotten queue exists_ put =>
    intro handled
    rw [found]
    dsimp only
    rw [Broker.apply, there found, entry]
    obtain ⟨⟨mid, newDeliveryTag⟩, assigned, rfl⟩ := Option.map_eq_some_iff.mp handled
    have tracked : put.channelStates channelID = some (c.forget deliveryTag) := by
      simp [put, forgotten]
    obtain ⟨rfl, queues, changed, -⟩ := assign_broker tracked assigned
    have forgets : put.broker =
        (s.broker.withHeld (Broker.setHeld s.held channelID deliveryTag none)).setWaiting unacked.queueName
          (s.broker.waiting unacked.queueName ++ [unacked.body]) := by
      rw [broker_setQueue, broker_forget s found, Buffer.contents_append,
        broker_waiting (show s.queues unacked.queueName = some queue from exists_)]
    have held : put.held = Broker.setHeld s.held channelID deliveryTag none :=
      congrArg Broker.held forgets
    rw [forgets, held] at changed
    obtain ⟨t', finished, queues', delivered⟩ :=
      redelivery_broker mid c channelID (c.forget deliveryTag).nextDeliveryTag unacked
    obtain ⟨rfl, -⟩ := Prod.mk.inj (Option.some.inj (finished.symm.trans completed))
    refine ⟨?_, .set (queues'.trans queues)⟩
    rw [delivered, changed]
    rfl

theorem unacked_prepare (c : ChannelState C) (tag : UInt64) :
    c.prepare.unacked tag = c.unacked tag := by
  cases made : c.unackedMessages <;> simp [unacked, prepare, made]

theorem register_broker (s : Server C) (conn : C) (channelID : UInt16) (consumerTag : GoString) :
    (s.register conn channelID consumerTag).broker = s.broker :=
  broker_setChannel s fun tag => unacked_getD _ rfl tag

theorem finish_take_broker (found : s.channelStates channelID = some c)
    (exists_ : s.queues queueName = some queue)
    (finished : (Act.take conn channelID queueName consumerTag).finish s = some (t, error)) :
    t.broker = s.broker.apply (.consume channelID queueName c.prepare.nextDeliveryTag) ∧
      Grows s t := by
  obtain ⟨⟨mid, messages⟩, taken, later⟩ := Option.bind_eq_some_iff.mp finished
  obtain ⟨_, delivered, same⟩ := Option.map_eq_some_iff.mp later
  obtain ⟨rfl, -⟩ := Prod.mk.inj same
  rw [take, found, Option.bind_some, exists_, Option.map_some] at taken
  obtain ⟨rfl, rfl⟩ := Prod.mk.inj (Option.some.inj taken)
  obtain ⟨queues, changed⟩ := deliverAll_broker (c := c.prepare) (by simp) delivered
  have taken :
    ((s.setQueue queueName { queue with messages := queue.messages.clear }).setChannel channelID
      c.prepare).broker = s.broker.setWaiting queueName [] := by
    rw [broker_setChannel, broker_setQueue, Buffer.contents_clear]
    intro tag
    rw [unacked_prepare, setQueue_channelStates, found, Option.bind_some]
  have held :
    ((s.setQueue queueName { queue with messages := queue.messages.clear }).setChannel channelID
      c.prepare).held = s.held := congrArg Broker.held taken
  refine ⟨?_, .set queues⟩
  rw [changed, taken, held, Broker.apply, broker_waiting exists_]
  rfl

theorem handleBasicConsume_broker (exists_ : s.queues queueName = some queue)
    (completed : (s.handleBasicConsume conn channelID queueName consumerTag).complete =
      some (t, error)) :
    t.broker = s.broker.apply (.consume channelID queueName (s.firstTag channelID)) ∧
      Grows s t := by
  rw [handleBasicConsume, exists_] at completed
  have finished : (Act.take conn channelID queueName consumerTag).finish
      ((s.send conn channelID (.basicConsumeOk consumerTag)).register conn channelID consumerTag) =
        some (t, error) :=
    (finishAll_single _ _).symm.trans completed
  have registered : ((s.send conn channelID (.basicConsumeOk consumerTag)).register conn channelID
      consumerTag).channelStates channelID =
        some (((s.channelStates channelID).getD { unackedMessages := some ∅ }).setConsumer consumerTag conn) := by
    simp [register]
  have first :
    (((s.channelStates channelID).getD { unackedMessages := some ∅ }).setConsumer consumerTag
      conn).prepare.nextDeliveryTag = s.firstTag channelID := by
    rw [firstTag]
    cases s.channelStates channelID <;> rfl
  obtain ⟨changed, grows⟩ := finish_take_broker registered exists_ finished
  rw [first, register_broker, broker_send _ fun _ _ => rfl] at changed
  exact ⟨changed, grows⟩

theorem contentHeader_broker {bodySize : UInt64}
    (handled : s.contentHeader channelID bodySize = some t) : t.broker = s.broker ∧ Grows s t := by
  revert handled
  fun_cases contentHeader s channelID bodySize with
  | case1 | case2 =>
    rintro ⟨⟩
    exact ⟨rfl, .of_eq rfl⟩
  | case3 c found =>
    rintro ⟨⟩
    exact ⟨broker_setChannel s fun tag => by rw [found]; rfl, .of_eq rfl⟩
  | case4 => simp

/-- Clearing the pending publish does not change where a message goes. -/
theorem publishOp_setPending (found : s.channelStates channelID = some c)
    (pending : Option PendingPublish)
    (call : Publish) :
    (s.setChannel channelID (c.setPending pending)).publishOp call = s.publishOp call := by
  have target :
    (s.setChannel channelID (c.setPending pending)).targetQueue call.channelID call.routingKey =
      s.targetQueue call.channelID call.routingKey := by
    rw [targetQueue, targetQueue]
    by_cases here : call.channelID = channelID
    · rw [here, found, setChannel_channelStates, update_self]
      rfl
    · rw [setChannel_channelStates, update_of_ne here]
  rw [publishOp, target]
  rfl

theorem contentBody_broker {payload : List UInt8}
    (completed : (s.contentBody channelID payload).complete = some (t, error)) :
    t.broker = s.broker.apply (s.op (.body channelID payload)) ∧ Grows s t := by
  have unchanged {c} (found : s.channelStates channelID = some c)
    (pending : Option PendingPublish) :
      (s.setChannel channelID (c.setPending pending)).broker = s.broker :=
    broker_setChannel s fun tag => by rw [found]; rfl
  rw [op]
  revert completed
  fun_cases contentBody s channelID payload with
  | case1 | case2 =>
    rintro ⟨⟩
    exact ⟨rfl, .of_eq rfl⟩
  | case3 c found pending _ body =>
    intro completed
    have published := (finishAll_single _ _).symm.trans completed
    obtain ⟨rfl, -⟩ := Prod.ext_iff.mp (Option.some.inj published)
    obtain ⟨changed, grows⟩ :=
      handleBasicPublish_broker (s.setChannel channelID (c.setPending none))
      ⟨channelID, pending.exchange, pending.routingKey, body⟩
    rw [unchanged found, publishOp_setPending found] at changed
    exact ⟨changed, grows⟩
  | case4 c found =>
    rintro ⟨⟩
    exact ⟨unchanged found _, .of_eq rfl⟩

theorem handleMethod_broker (homed : s.Homed)
    (handled : (s.handleMethod conn channelID now request).bind Step.complete = some (t, error)) :
    t.broker = s.broker.apply (s.op (.method conn channelID now request)) ∧ Grows s t := by
  obtain ⟨step, first, completed⟩ := Option.bind_eq_some_iff.mp handled
  have alone {s' : Server C} {err : Option FrameError}
      (only : step = { server := s', error := err }) : t = s' := by
    rw [only, complete_alone] at completed
    exact (Prod.mk.inj (Option.some.inj completed)).1.symm
  cases request with
  | exchangeDeclare name exchangeType =>
    rw [alone (Option.some.inj first).symm]
    exact s.handleExchangeDeclare_broker conn channelID name exchangeType
  | queueDeclare name =>
    rw [alone (Option.some.inj first).symm]
    exact s.handleQueueDeclare_broker conn channelID name now
  | basicPublish exchange routingKey =>
    rw [alone (Option.some.inj first).symm]
    exact ⟨broker_setChannel s fun tag => unacked_getD _ rfl tag, .of_eq rfl⟩
  | basicQos prefetchSize prefetchCount =>
    obtain rfl := Option.some.inj first
    obtain ⟨rfl, -⟩ := Prod.mk.inj (Option.some.inj completed)
    refine ⟨?_, .of_eq rfl⟩
    rw [broker_send _ fun _ _ => rfl]
    exact broker_setChannel s fun tag => unacked_getD _ rfl tag
  | basicConsume queueName consumerTag =>
    obtain rfl := Option.some.inj first
    rw [op]
    cases exists_ : s.queues queueName with
    | none =>
      rw [alone (by rw [handleBasicConsume, exists_])]
      exact ⟨rfl, .of_eq rfl⟩
    | some queue => exact handleBasicConsume_broker exists_ completed
  | basicAck deliveryTag =>
    rw [alone (Option.some.inj first).symm]
    exact s.handleBasicAck_broker channelID deliveryTag
  | basicNack deliveryTag requeue =>
    cases requeue with
    | false =>
      rw [alone (Option.some.inj first).symm]
      exact s.handleBasicAck_broker channelID deliveryTag
    | true => exact handleBasicNack_broker homed handled
  | other =>
    rw [alone (Option.some.inj first).symm]
    exact ⟨rfl, .of_eq rfl⟩

end Server

namespace Broker

variable {item : GoString × Body} {held : UInt16 → UInt64 → Option (GoString × Body)}

theorem of_setHeld (there : setHeld held channelID deliveryTag new other tag = some item) :
    held other tag = some item ∨ new = some item := by
  rw [setHeld] at there
  by_cases here : other = channelID
  · subst here
    rw [update_self] at there
    by_cases same : tag = deliveryTag
    · subst same
      exact .inr (by rwa [update_self] at there)
    · exact .inl (by rwa [update_of_ne same] at there)
  · exact .inl (by rwa [update_of_ne here] at there)

theorem of_hold {channelID queueName first messages other tag}
    (there : hold held channelID queueName first messages other tag = some item) :
    held other tag = some item ∨ item.1 = queueName := by
  induction messages generalizing held first with
  | nil => exact .inl there
  | cons body messages ih =>
    obtain before | new := ih there
    · obtain before | same := of_setHeld before
      · exact .inl before
      · exact .inr (Option.some.inj same ▸ rfl)
    · exact .inr new

/-- What is held after a step was held before or comes from the queue that was consumed. -/
theorem held_of_apply {b : Broker} {op channelID tag}
    (there : (b.apply op).held channelID tag = some item) :
    (∃ channelID tag, b.held channelID tag = some item) ∨
      ∃ channelID first, op = .consume channelID item.1 first := by
  cases op with
  | nothing => exact .inl ⟨_, _, there⟩
  | accept => exact .inl ⟨_, _, there⟩
  | consume ch queueName first =>
    obtain before | rfl := of_hold there
    · exact .inl ⟨_, _, before⟩
    · exact .inr ⟨ch, first, rfl⟩
  | settle ch deliveryTag =>
    rw [apply] at there
    split at there
    · exact .inl ⟨_, _, there⟩
    · obtain before | new := of_setHeld there
      · exact .inl ⟨_, _, before⟩
      · cases new
  | requeue ch deliveryTag new redelivers =>
    rw [apply] at there
    split at there
    · exact .inl ⟨_, _, there⟩
    · next held =>
        obtain before | same := of_setHeld there
        · obtain before | new := of_setHeld before
          · exact .inl ⟨_, _, before⟩
          · cases new
        · exact .inl ⟨_, _, held.trans same⟩

end Broker

namespace Server

variable {s t : Server C}

/-- A call that publishes is accepted for a queue, or nothing happens. -/
theorem publishOp_cases (s : Server C) (call : Publish) :
    s.publishOp call = .nothing ∨ ∃ target, s.publishOp call = .accept target call.body := by
  rw [publishOp]
  split
  · exact .inl rfl
  · split
    · exact .inr ⟨_, rfl⟩
    · exact .inl rfl

theorem op_consume {input channelID queueName first}
    (consumes : s.op input = .consume channelID queueName first) : (s.queues queueName).isSome := by
  have published (call : Publish) : s.publishOp call ≠ .consume channelID queueName first := by
    obtain same | ⟨target, same⟩ := s.publishOp_cases call <;> simp [same]
  unfold op at consumes
  split at consumes
  · split at consumes
    · next there =>
        obtain ⟨-, rfl, -⟩ := BrokerOp.consume.inj consumes
        exact there
    · cases consumes
  · cases consumes
  · cases consumes
  · rw [nackOp] at consumes
    split at consumes <;> cases consumes
  · cases consumes
  · cases consumes
  · split at consumes
    · exact absurd consumes (published _)
    · cases consumes
  · exact absurd consumes (published _)

/-- Each step of the server is a step of the broker. -/
theorem oneStep_broker (homed : s.Homed) {input : Input C}
    (stepped : oneStep.next s input = some t) :
    t.broker = s.broker.apply (s.op input) ∧ t.Homed := by
  obtain ⟨⟨t, error⟩, handled, rfl⟩ := Option.map_eq_some_iff.mp stepped
  have moved : t.broker = s.broker.apply (s.op input) ∧ Grows s t := by
    cases input with
    | method conn channelID now request => exact handleMethod_broker homed handled
    | header channelID bodySize =>
      obtain ⟨step, first, completed⟩ := Option.bind_eq_some_iff.mp handled
      obtain ⟨s', stored, rfl⟩ := Option.map_eq_some_iff.mp first
      obtain ⟨rfl, -⟩ := Prod.mk.inj (Option.some.inj completed)
      exact contentHeader_broker stored
    | body channelID payload => exact contentBody_broker handled
    | publish call =>
      have completed :
        ({ server := (s.handleBasicPublish call).1, error := (s.handleBasicPublish call).2 } :
        Step C).complete = some (t, error) := handled
      rw [complete_alone] at completed
      obtain ⟨rfl, -⟩ := Prod.mk.inj (Option.some.inj completed)
      exact s.handleBasicPublish_broker call
  obtain ⟨changed, grows⟩ := moved
  refine ⟨changed, fun channelID tag item there => ?_⟩
  have held : (s.broker.apply (s.op input)).held channelID tag = some item := by rwa [← changed]
  obtain ⟨channelID, tag, before⟩ | ⟨channelID, first, consumes⟩ := Broker.held_of_apply held
  · exact grows _ (homed channelID tag item before)
  · exact grows _ (op_consume consumes)

end Server

end Portask.Amqp
