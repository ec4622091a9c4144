import Portask.Amqp.Threads

/-! # Channels of different connections

Channel states are found by the channel number alone. The server is compared here with one
that runs the same code but keeps the channel states of each connection apart. The two do the
same as long as no two connections use the state of the same channel number; what a handler
does with its own channel does not depend on the others.
-/

namespace Portask.Amqp

open Function Lib Kafka

variable {C : Type}

/-! ## A connection's own channel states -/

/-- Queues, exchanges and connection states are shared; the channel states of `server` do not
    matter. -/
structure Separate (C : Type) where
  server : Server C
  channels : C → UInt16 → Option (ChannelState C)
  todo : C → List (Act C)

def Label.conn : Label C → C
  | .accept conn _ | .frame conn _ _ _ | .step conn | .close conn _ => conn

@[simps] def Server.withChannels (s : Server C) (channels : UInt16 → Option (ChannelState C)) :
    Server C :=
  { s with channelStates := channels }

namespace Separate

def start (C : Type) : Separate C := ⟨newEnhancedAMQPServer C, fun _ _ => none, fun _ => []⟩

/-- The system as one connection sees it. -/
def view (sep : Separate C) (conn : C) : System C :=
  ⟨sep.server.withChannels (sep.channels conn), sep.todo⟩

variable [DecidableEq C]

def next (sep : Separate C) (label : Label C) : Option (Separate C) :=
  ((sep.view label.conn).next label).map fun sys =>
    ⟨sys.server, update sep.channels label.conn sys.server.channelStates, sys.todo⟩

def machine : Machine (Separate C) (Label C) := ⟨next⟩

/-- All channel states in one place, where each channel number belongs to one connection. -/
def join (owner : UInt16 → C) (sep : Separate C) : System C :=
  ⟨sep.server.withChannels fun channelID => sep.channels (owner channelID) channelID, sep.todo⟩

end Separate

/-! ## Frames that use the state of a channel -/

def Method.usesChannel : Method → Bool
  | .exchangeDeclare _ _ | .other => false
  | .queueDeclare _ | .basicPublish _ _ | .basicQos _ _ | .basicConsume _ _ | .basicAck _ | .basicNack _ _ => true

def Frame.usesChannel (frame : Frame) : Bool :=
  if frame.frameType = frameMethod then
    match readMethod frame.payload with
    | .ok method => method.usesChannel
    | .error _ => false
  else frame.frameType = frameHeader || frame.frameType = frameBody

/-- Only the owner of a channel number uses its state. -/
def Label.Respects (owner : UInt16 → C) : Label C → Prop
  | .frame conn _ _ sent => sent.usesChannel = true → owner sent.channelID = conn
  | _ => True

instance [DecidableEq C] (owner : UInt16 → C) : (label : Label C) → Decidable (label.Respects owner)
  | .frame conn _ _ sent =>
    inferInstanceAs (Decidable (sent.usesChannel = true → owner sent.channelID = conn))
  | .accept _ _ | .step _ | .close _ _ => .isTrue trivial

/-! ## What handlers do to their own channels only -/

section

variable (own : UInt16 → Prop)

/-- The server with other states for the channels outside of `own`. -/
def Server.graft [DecidablePred own] (others : UInt16 → Option (ChannelState C)) (s : Server C) :
    Server C :=
  s.withChannels fun channelID =>
    if own channelID then s.channelStates channelID else others channelID

def Step.graft [DecidablePred own] (others : UInt16 → Option (ChannelState C)) (step : Step C) :
    Step C :=
  { step with server := step.server.graft own others }

/-- A part of a handler that neither looks at channels outside of `own` nor changes them. -/
def Keeps [DecidablePred own] (handler : Server C → Option (Step C)) : Prop :=
  ∀ others s, handler (s.graft own others) = (handler s).map (Step.graft own others)

end

section

variable {own : UInt16 → Prop} [DecidablePred own] {others : UInt16 → Option (ChannelState C)}

namespace Server

theorem graft_channelStates (mine : own channelID) (s : Server C) :
    (s.graft own others).channelStates channelID = s.channelStates channelID := if_pos mine

theorem graft_queues (s : Server C) : (s.graft own others).queues = s.queues := rfl

theorem graft_setChannel (mine : own channelID) (s : Server C) (c : ChannelState C) :
    (s.graft own others).setChannel channelID c = (s.setChannel channelID c).graft own others := by
  have states : update (s.graft own others).channelStates channelID (some c) =
      ((s.setChannel channelID c).graft own others).channelStates := by
    funext other
    by_cases here : other = channelID
    · subst here
      rw [update_self, graft_channelStates mine, setChannel_channelStates, update_self]
    · rw [update_of_ne here]
      show (if _ then _ else _) = if _ then (update s.channelStates channelID (some c)) other else _
      rw [update_of_ne here]
  rw [setChannel, states]
  rfl

end Server

namespace Keeps

/-- A step that only uses what is shared. -/
theorem shared {change : Server C → Step C}
    (blind : ∀ others s, change (s.graft own others) = (change s).graft own others) :
    Keeps own fun s => some (change s) := fun others s => congrArg some (blind others s)

theorem ite {p : Server C → Prop} [∀ s, Decidable (p s)]
    (blind : ∀ others s, p (s.graft own others) ↔ p s) (first : Keeps own yes)
    (second : Keeps own no) : Keeps own fun s => if p s then yes s else no s := by
  intro others s
  by_cases holds : p s
  · simp only [holds, (blind others s).mpr holds, if_true]
    exact first others s
  · simp only [holds, mt (blind others s).mp holds, if_false]
    exact second others s

theorem outside (keeps : Keeps own handler) {step : Step C} (handled : handler s = some step)
    (foreign : ¬ own channelID) :
    step.server.channelStates channelID = s.channelStates channelID := by
  have same : s.graft own s.channelStates = s := by simp [Server.graft, Server.withChannels]
  have again := keeps s.channelStates s
  rw [same, handled, Option.map_some] at again
  rw [Option.some.inj again]
  exact if_neg foreign

end Keeps

/-! ## Each handler -/

namespace Server

variable {channelID : UInt16} (mine : own channelID)

include mine

theorem contentHeader_keeps (bodySize : UInt64) :
    Keeps own fun s : Server C =>
      (s.contentHeader channelID bodySize).map fun s => { server := s } := by
  intro others s
  simp only [contentHeader, graft_channelStates mine]
  cases s.channelStates channelID with
  | none => rfl
  | some c =>
    dsimp only
    cases c.pendingPublish with
    | none => rfl
    | some pending =>
      dsimp only
      split
      · rw [graft_setChannel mine]
        rfl
      · rfl

theorem contentBody_keeps (payload : List UInt8) :
    Keeps own fun s : Server C => some (s.contentBody channelID payload) := by
  refine .shared fun others s => ?_
  simp only [contentBody, graft_channelStates mine]
  cases s.channelStates channelID with
  | none => rfl
  | some c =>
    dsimp only
    cases c.pendingPublish with
    | none => rfl
    | some pending =>
      dsimp only
      split <;>
      · rw [graft_setChannel mine]
        rfl

theorem handleQueueDeclare_keeps (conn : C) (name : GoString) (now : Nat) :
    Keeps own fun s : Server C =>
      some { server := s.handleQueueDeclare conn channelID name now } := by
  refine .shared fun others s => ?_
  simp only [handleQueueDeclare]
  generalize (if name = [] then ascii "amq.gen-" ++ GoString.decimal now else name) = name
  have declared : (s.graft own others).declareQueue name =
      ((s.declareQueue name).1.graft own others, (s.declareQueue name).2) := by
    rw [declareQueue, declareQueue, graft_queues]
    cases s.queues name <;> rfl
  rw [declared]
  generalize s.declareQueue name = result
  obtain ⟨t, messageCount⟩ := result
  have states : ((t.graft own others).send conn channelID (.queueDeclareOk name (UInt32.ofNat messageCount))).channelStates
      channelID = t.channelStates channelID := graft_channelStates mine t
  dsimp only
  rw [states]
  exact congrArg (fun s : Server C => ({ server := s } : Step C))
    (graft_setChannel mine (t.send conn channelID _) _)

theorem basicPublish_keeps (exchange routingKey : GoString) :
    Keeps own fun s : Server C =>
      some { server := s.basicPublish channelID exchange routingKey } := by
  refine .shared fun others s => ?_
  simp only [Server.basicPublish, graft_channelStates mine, graft_setChannel mine]
  rfl

theorem basicQos_keeps (conn : C) (prefetchSize : UInt32) (prefetchCount : UInt16) :
    Keeps own fun s : Server C => some (s.basicQos conn channelID prefetchSize prefetchCount) := by
  refine .shared fun others s => ?_
  simp only [Server.basicQos, graft_channelStates mine, graft_setChannel mine]
  rfl

theorem handleBasicAck_keeps (deliveryTag : UInt64) :
    Keeps own fun s : Server C => some
      { server := (s.handleBasicAck channelID deliveryTag).1, error := (s.handleBasicAck channelID deliveryTag).2 } := by
  refine .shared fun others s => ?_
  simp only [handleBasicAck, graft_channelStates mine]
  cases s.channelStates channelID with
  | none => rfl
  | some c =>
    dsimp only
    cases c.unacked deliveryTag with
    | none => rfl
    | some unacked =>
      dsimp only
      rw [graft_setChannel mine]
      rfl

theorem assign_graft (others : UInt16 → Option (ChannelState C)) (s : Server C)
    (queueName : GoString) (body : Body) (redelivered : Bool) :
    (s.graft own others).assign channelID queueName body redelivered =
      (s.assign channelID queueName body redelivered).map fun (t, deliveryTag) =>
        (t.graft own others, deliveryTag) := by
  rw [assign, assign, graft_channelStates mine]
  cases s.channelStates channelID with
  | none => rfl
  | some c =>
    rw [Option.bind_some, Option.bind_some, Option.map_map]
    refine congrArg (fun change => (c.track queueName body redelivered).map change)
      (funext fun c' => ?_)
    rw [graft_setChannel mine]
    rfl

theorem handleBasicNack_keeps (deliveryTag : UInt64) :
    Keeps own fun s : Server C => s.handleBasicNack channelID deliveryTag := by
  intro others s
  simp only [handleBasicNack, graft_channelStates mine]
  cases s.channelStates channelID with
  | none => rfl
  | some c =>
    dsimp only
    cases c.unacked deliveryTag with
    | none => rfl
    | some unacked =>
      dsimp only
      rw [graft_setChannel mine, graft_queues]
      cases (s.setChannel channelID (c.forget deliveryTag)).queues unacked.queueName with
      | none => rfl
      | some queue =>
        dsimp only
        have tracked := assign_graft mine others
          ((s.setChannel channelID (c.forget deliveryTag)).setQueue unacked.queueName
            { queue with messages := queue.messages.append unacked.body }) unacked.queueName unacked.body true
        refine (congrArg (Option.map _) tracked).trans ?_
        rw [Option.map_map, Option.map_map]
        rfl

theorem handleBasicPublish_keeps (exchange routingKey : GoString) (body : List UInt8) :
    Keeps own fun s : Server C => (Act.publish ⟨channelID, exchange, routingKey, body⟩).exec s := by
  refine .shared fun others s => ?_
  have target : ((s.graft own others).notePublished ⟨channelID, exchange, routingKey, body⟩).targetQueue channelID
      routingKey =
      (s.notePublished ⟨channelID, exchange, routingKey, body⟩).targetQueue channelID routingKey := by
    have states : ((s.graft own others).notePublished ⟨channelID, exchange, routingKey, body⟩).channelStates channelID =
        (s.notePublished ⟨channelID, exchange, routingKey, body⟩).channelStates channelID := graft_channelStates mine s
    rw [targetQueue, targetQueue, states]
  have same : ((s.graft own others).notePublished ⟨channelID, exchange, routingKey, body⟩).queues =
      (s.notePublished ⟨channelID, exchange, routingKey, body⟩).queues := rfl
  simp only [handleBasicPublish, target, same]
  cases (s.notePublished ⟨channelID, exchange, routingKey, body⟩).targetQueue channelID
    routingKey with
  | none => rfl
  | some name =>
    dsimp only
    cases (s.notePublished ⟨channelID, exchange, routingKey, body⟩).queues name <;> rfl

theorem take_graft (s : Server C) (queueName : GoString) :
    (s.graft own others).take channelID queueName =
      (s.take channelID queueName).map fun (t, messages) => (t.graft own others, messages) := by
  rw [take, take, graft_channelStates mine, graft_queues]
  cases s.channelStates channelID with
  | none => rfl
  | some c =>
    cases s.queues queueName with
    | none => rfl
    | some queue =>
      exact congrArg (fun t : Server C => some (t, queue.messages.contents))
        (graft_setChannel mine (s.setQueue queueName { queue with messages := queue.messages.clear }) c.prepare)

omit mine

theorem handleMethod_keeps {request : Method} (uses : request.usesChannel = true → own channelID)
    (conn : C) (now : Nat) :
    Keeps own fun s : Server C => s.handleMethod conn channelID now request := by
  cases request with
  | exchangeDeclare name exchangeType =>
    refine .shared fun others s => ?_
    have same : (s.graft own others).exchanges name = s.exchanges name := rfl
    rw [handleExchangeDeclare, handleExchangeDeclare, same]
    cases s.exchanges name <;> rfl
  | queueDeclare name => exact handleQueueDeclare_keeps (uses rfl) conn name now
  | basicPublish exchange routingKey => exact basicPublish_keeps (uses rfl) exchange routingKey
  | basicQos prefetchSize prefetchCount =>
    exact basicQos_keeps (uses rfl) conn prefetchSize prefetchCount
  | basicConsume queueName consumerTag =>
    refine .shared fun others s => ?_
    rw [handleBasicConsume, handleBasicConsume, graft_queues]
    cases s.queues queueName <;> rfl
  | basicAck deliveryTag => exact handleBasicAck_keeps (uses rfl) deliveryTag
  | basicNack deliveryTag requeue =>
    cases requeue with
    | false => exact handleBasicAck_keeps (uses rfl) deliveryTag
    | true => exact handleBasicNack_keeps (uses rfl) deliveryTag
  | other => exact .shared fun _ _ => rfl

theorem handleMethodFrame_keeps {payload : List UInt8}
    (uses : ∀ request, readMethod payload = .ok request → request.usesChannel = true →
      own channelID) (conn : C)
    (now : Nat) :
    Keeps own fun s : Server C => s.handleMethodFrameWithChannel conn channelID now payload := by
  simp only [handleMethodFrameWithChannel]
  cases read : readMethod payload with
  | error err => exact .shared fun _ _ => rfl
  | ok request => exact handleMethod_keeps (uses request read) conn now

theorem handleAMQPFrame_keeps {sent : Frame} (uses : sent.usesChannel = true → own sent.channelID)
    (conn : C) (now : Nat) :
    Keeps own fun s : Server C => s.handleAMQPFrameWithChannel conn now sent := by
  by_cases method : sent.frameType = frameMethod
  · simp only [handleAMQPFrameWithChannel, method, if_true]
    refine handleMethodFrame_keeps (fun request read used => uses ?_) conn now
    rw [Frame.usesChannel, if_pos method, read]
    exact used
  have used : (sent.frameType = frameHeader ∨ sent.frameType = frameBody) →
      sent.usesChannel = true := by
    intro content
    rw [Frame.usesChannel, if_neg method]
    simpa using content
  simp only [handleAMQPFrameWithChannel, method, if_false]
  by_cases header : sent.frameType = frameHeader
  · simp only [header, if_true]
    exact .ite (fun _ _ => Iff.rfl) (.shared fun _ _ => rfl)
      (contentHeader_keeps (uses (used (.inl header))) _)
  simp only [header, if_false]
  by_cases body : sent.frameType = frameBody
  · simp only [body, if_true]
    exact contentBody_keeps (uses (used (.inr body))) _
  simp only [body, if_false]
  exact .ite (fun _ _ => Iff.rfl) (.shared fun _ _ => rfl) (.shared fun _ _ => rfl)

theorem handleFrame_keeps {sent : Frame} (uses : sent.usesChannel = true → own sent.channelID)
    (conn : C)
    (connID : GoString) (now : Nat) :
    Keeps own fun s : Server C => s.handleFrameWithState conn connID now sent := by
  have handled := handleAMQPFrame_keeps uses conn now
  have refused (err : Server C →
    FrameError) (blind : ∀ others s, err (s.graft own others) = err s) :
      Keeps own fun s : Server C => some { server := s, error := some (err s) } :=
    .shared fun others s => by rw [blind others s]; rfl
  by_cases method : sent.frameType = frameMethod
  · simp only [handleAMQPFrameWithChannel, method, if_true] at handled
    simp only [handleFrameWithState, method, ne_eq, not_true_eq_false, if_false]
    refine .ite (fun _ _ => Iff.rfl) (refused _ fun _ _ => rfl) ?_
    refine .ite (fun _ _ => Iff.rfl) (.shared fun _ _ => rfl) ?_
    refine .ite (fun _ _ => Iff.rfl) (.shared fun _ _ => rfl) ?_
    refine .ite (fun _ _ => Iff.rfl) (.shared fun _ _ => rfl) ?_
    refine .ite (fun _ _ => Iff.rfl) (.shared fun _ _ => rfl) ?_
    refine .ite (fun _ _ => Iff.rfl) (refused _ fun _ _ => rfl) ?_
    refine .ite (fun _ _ => Iff.rfl) (.shared fun _ _ => rfl) ?_
    refine .ite (fun _ _ => Iff.rfl) (.shared fun _ _ => rfl) ?_
    exact .ite (fun _ _ => Iff.rfl) (refused _ fun _ _ => rfl) handled
  · simp only [handleFrameWithState, method, ne_eq, not_false_eq_true, if_true]
    exact handled

end Server

/-! ## What is left to do -/

namespace Act

/-- What is left to do uses only the states of channels in `own`. -/
def Within (own : UInt16 → Prop) : Act C → Prop
  | .send _ _ _ | .setState _ _ => True
  | .publish call => own call.channelID
  | .register _ channelID _ _ | .take _ channelID _ _ | .deliver _ channelID _ _ _ => own channelID

/-- It does not touch the states of connections either. -/
def OnChannels (own : UInt16 → Prop) (act : Act C) : Prop :=
  act.Within own ∧ ∀ connID state, act ≠ .setState connID state

theorem exec_keeps {act : Act C} (within : act.Within own) : Keeps own fun s => act.exec s := by
  cases act with
  | send | setState => exact .shared fun _ _ => rfl
  | publish call =>
    exact Server.handleBasicPublish_keeps within call.exchange call.routingKey call.body
  | register conn channelID queueName consumerTag =>
    refine .shared fun others s => ?_
    rw [Server.register, Server.graft_channelStates within, Server.graft_setChannel within]
    rfl
  | take conn channelID queueName consumerTag =>
    intro others s
    simp only [exec]
    rw [Server.take_graft within, Option.map_map, Option.map_map]
    rfl
  | deliver conn channelID queueName consumerTag messages =>
    cases messages with
    | nil => exact .shared fun _ _ => rfl
    | cons body messages =>
      intro others s
      simp only [exec]
      rw [Server.assign_graft within others, Option.map_map, Option.map_map]
      rfl

omit [DecidablePred own]

theorem exec_onChannels {act : Act C} (within : act.Within own)
    (performed : act.exec s = some step) : ∀ later ∈ step.todo, later.OnChannels own := by
  revert performed
  fun_cases exec s act with
  | case1 | case2 | case3 | case6 =>
    rintro ⟨⟩
    simp
  | case4 =>
    rintro ⟨⟩
    exact List.forall_mem_singleton.mpr ⟨within, by simp⟩
  | case5 =>
    intro performed
    obtain ⟨⟨_, messages⟩, -, rfl⟩ := Option.map_eq_some_iff.mp performed
    exact List.forall_mem_singleton.mpr ⟨within, by simp⟩
  | case7 =>
    intro performed
    obtain ⟨⟨_, deliveryTag⟩, -, rfl⟩ := Option.map_eq_some_iff.mp performed
    exact List.forall_mem_cons.mpr ⟨⟨trivial, by simp⟩,
      List.forall_mem_singleton.mpr ⟨within, by simp⟩⟩

end Act

namespace Server

omit [DecidablePred own]

variable {s : Server C} {channelID : UInt16} {step : Step C} {now : Nat} {conn : C}

theorem handleAMQPFrame_onChannels (uses : sent.usesChannel = true → own sent.channelID)
    (handled : s.handleAMQPFrameWithChannel conn now sent = some step) :
    ∀ act ∈ step.todo, act.OnChannels own := by
  cases handleAMQPFrame_effect handled with
  | plain | forget => simp
  | touch => simp [Act.OnChannels, Act.Within]
  | consume method read =>
    have mine := uses (by simp [Frame.usesChannel, method, read, Method.usesChannel])
    simp [Act.OnChannels, Act.Within, mine]
  | publish content _ _ here =>
    have mine := uses (by simp [Frame.usesChannel, content, frameBody, frameMethod])
    simp [Act.OnChannels, Act.Within, here, mine]
  | requeue =>
    intro act left
    obtain ⟨_, _, rfl⟩ := mem_redelivery left
    exact ⟨trivial, by simp⟩

theorem handleFrame_within (uses : sent.usesChannel = true → own sent.channelID)
    (handled : s.handleFrameWithState conn connID now sent = some step) :
    ∀ act ∈ step.todo, act.Within own := by
  obtain ⟨handled, -⟩ | ⟨-, connecting⟩ := handleFrameWithState_cases handled
  · exact fun act left => (handleAMQPFrame_onChannels uses handled act left).1
  · cases connecting with
    | refused | tuneOk => simp
    | startOk | opened =>
      exact List.forall_mem_cons.mpr ⟨trivial, List.forall_mem_singleton.mpr trivial⟩
    | answered => exact List.forall_mem_singleton.mpr trivial

end Server

end

/-! ## The two systems -/

abbrev Mine (owner : UInt16 → C) (conn : C) (channelID : UInt16) : Prop := owner channelID = conn

namespace System

/-- Everybody has only things to do on channels of their own. -/
def Owned (owner : UInt16 → C) (sys : System C) : Prop :=
  ∀ conn, ∀ act ∈ sys.todo conn, act.Within fun channelID => owner channelID = conn

variable [DecidableEq C] {owner : UInt16 → C}

variable {label : Label C}

theorem Owned.next {sys later : System C} (owned : sys.Owned owner)
    (respects : label.Respects owner)
    (stepped : sys.next label = some later) : later.Owned owner := by
  obtain ⟨conn, rest, step, rfl, cases_⟩ := next_cases stepped
  have within : ∀ act ∈ step.todo ++ rest, act.Within (Mine owner conn) := by
    obtain ⟨-, rfl, ⟨connID, rfl⟩ | ⟨connID, now, sent, rfl, handled⟩ | ⟨connID, rfl⟩⟩ | ⟨act, left,
      performed⟩ := cases_
    · exact List.forall_mem_singleton.mpr trivial
    · have uses : sent.usesChannel = true → owner sent.channelID = conn := respects
      rw [List.append_nil]
      exact Server.handleFrame_within uses handled
    · simp
    · have mine := owned conn
      rw [left, List.forall_mem_cons] at mine
      exact List.forall_mem_append.mpr ⟨fun act left =>
        (Act.exec_onChannels mine.1 performed act left).1, mine.2⟩
  intro other act inside
  obtain ⟨rfl, mine⟩ | old := mem_perform inside
  · exact within act mine
  · exact owned other act old

/-- A step of a connection, with other states for the channels of the others. -/
theorem next_graft (todo : C → List (Act C)) (s : Server C) {conn : C} (moves : label.conn = conn)
    (respects : label.Respects owner) (owned : (⟨s, todo⟩ : System C).Owned owner)
    (others : UInt16 → Option (ChannelState C)) :
    (⟨s.graft (Mine owner conn) others, todo⟩ : System C).next label =
      ((⟨s, todo⟩ : System C).next label).map fun sys =>
        ⟨sys.server.graft (Mine owner conn) others, sys.todo⟩ := by
  have idle {handler : Server C → Option (Step C)} (keeps : Keeps (Mine owner conn) handler) :
      (⟨s.graft (Mine owner conn) others, todo⟩ : System C).idle conn
          (handler (s.graft (Mine owner conn) others)) =
        ((⟨s, todo⟩ : System C).idle conn (handler s)).map fun sys =>
          ⟨sys.server.graft (Mine owner conn) others, sys.todo⟩ := by
    rw [System.idle, System.idle, keeps others s]
    dsimp only
    split
    · rw [Option.map_map, Option.map_map]
      rfl
    · rfl
  cases label with
  | accept mover connID =>
    obtain rfl : mover = conn := moves
    have keeps : Keeps (Mine owner mover) fun s : Server C =>
        some { server := s.setState connID .start, todo := [.send mover 0 .connectionStart] } := .shared fun _ _ => rfl
    exact idle keeps
  | frame mover connID now sent =>
    obtain rfl : mover = conn := moves
    have uses : sent.usesChannel = true → Mine owner mover sent.channelID := respects
    exact idle (Server.handleFrame_keeps uses mover connID now)
  | close mover connID =>
    obtain rfl : mover = conn := moves
    have keeps : Keeps (Mine owner mover) fun s : Server C =>
        some { server := s.deleteState connID } := .shared fun _ _ => rfl
    exact idle keeps
  | step mover =>
    obtain rfl : mover = conn := moves
    have mine : ∀ act ∈ todo mover, act.Within (Mine owner mover) := owned mover
    simp only [next]
    cases left : todo mover with
    | nil => rfl
    | cons act rest =>
      rw [left, List.forall_mem_cons] at mine
      have performed : act.exec (s.graft (Mine owner mover) others) =
          (act.exec s).map (Step.graft (Mine owner mover) others) :=
        Act.exec_keeps mine.1 others s
      dsimp only
      rw [performed, Option.map_map, Option.map_map]
      rfl

theorem next_outside {sys later : System C} (respects : label.Respects owner)
    (owned : sys.Owned owner)
    (stepped : sys.next label = some later) (foreign : owner channelID ≠ label.conn) :
    later.server.channelStates channelID = sys.server.channelStates channelID := by
  have again := next_graft sys.todo sys.server rfl respects owned sys.server.channelStates
  have same : sys.server.graft (Mine owner label.conn) sys.server.channelStates = sys.server := by
    simp [Server.graft, Server.withChannels]
  rw [same, stepped, Option.map_some] at again
  rw [Option.some.inj again]
  exact if_neg foreign

end System

namespace Separate

variable [DecidableEq C] {owner : UInt16 → C}

theorem next_join (sep : Separate C) {label : Label C} (respects : label.Respects owner)
    (owned : (sep.join owner).Owned owner) :
    (sep.join owner).next label = (sep.next label).map (join owner) := by
  have seen : sep.view label.conn =
      ⟨(sep.join owner).server.graft (Mine owner label.conn) (sep.channels label.conn),
        sep.todo⟩ := by
    have states : sep.channels label.conn = fun channelID =>
        if owner channelID = label.conn then sep.channels (owner channelID) channelID
        else sep.channels label.conn channelID := by
      funext channelID
      split
      · next mine => rw [mine]
      · rfl
    conv_lhs => rw [view, states]
    rfl
  rw [next, seen, System.next_graft sep.todo (sep.join owner).server rfl respects owned,
    Option.map_map, Option.map_map]
  show (sep.join owner).next label = ((sep.join owner).next label).map _
  cases stepped : (sep.join owner).next label with
  | none => rfl
  | some later =>
    have states : (fun channelID => update sep.channels label.conn
        (later.server.graft (Mine owner label.conn) (sep.channels label.conn)).channelStates
          (owner channelID) channelID) = later.server.channelStates := by
      funext channelID
      by_cases mine : owner channelID = label.conn
      · rw [mine, update_self]
        exact Server.graft_channelStates mine later.server
      · rw [update_of_ne mine, System.next_outside respects owned stepped mine]
        rfl
    rw [Option.map_some]
    refine congrArg some ?_
    show later = ⟨later.server.withChannels (fun channelID => update sep.channels label.conn
        (later.server.graft (Mine owner label.conn) (sep.channels label.conn)).channelStates
          (owner channelID) channelID), later.todo⟩
    rw [states]
    rfl

theorem next_owned {sep later : Separate C} (respects : label.Respects owner)
    (owned : (sep.join owner).Owned owner) (stepped : sep.next label = some later) :
    (later.join owner).Owned owner := by
  obtain ⟨sys, seen, rfl⟩ := Option.map_eq_some_iff.mp stepped
  have before : (sep.view label.conn).Owned owner := owned
  have after : sys.Owned owner := before.next respects seen
  exact after

end Separate

namespace System

variable [DecidableEq C]

/-- If only one connection uses the state of each channel number, all frames have the effects that
    they have when every connection has channel states of its own. -/
theorem channels_isolated (owner : UInt16 → C) {labels : List (Label C)}
    (respects : ∀ label ∈ labels, label.Respects owner) :
    machine.run (start C) labels =
      (Separate.machine.run (Separate.start C) labels).map (Separate.join owner) := by
  have same (sep : Separate C) (label : Label C) (respects : label.Respects owner)
    (owned : (sep.join owner).Owned owner) :
      machine.next (sep.join owner) label = (Separate.machine.next sep label).map (Separate.join owner) :=
    sep.next_join respects owned
  have keeps (sep : Separate C) (label : Label C) (later : Separate C)
    (respects : label.Respects owner)
      (owned : (sep.join owner).Owned owner) (stepped : Separate.machine.next sep label = some later) :
      (later.join owner).Owned owner := Separate.next_owned respects owned stepped
  have begins : ((Separate.start C).join owner).Owned owner := by
    intro conn act inside
    cases inside
  exact Machine.run_view (Separate.join owner) same keeps begins respects

/-- Two clients open their connections, and the first declares two queues. -/
def twoClients : List (Label Bool) :=
  [.frame false (ascii "0") 0 (methodFrame 0 10 40 []), .step false, .step false,
    .frame true (ascii "1") 0 (methodFrame 0 10 40 []), .step true, .step true,
    .frame false (ascii "0") 0 (methodFrame 3 50 10 (shortString (ascii "a") ++ [0, 0, 0, 0])),
    .frame false (ascii "0") 0 (methodFrame 3 50 10 (shortString (ascii "b") ++ [0, 0, 0, 0]))]

/-- Both publish, on the channels given, and the first sends its body. -/
def twoPublishes (first second : UInt16) : List (Label Bool) :=
  twoClients ++
    [.frame false (ascii "0") 0
      (methodFrame first 60 40 (shortString [] ++ shortString (ascii "a") ++ [0])),
      .frame true (ascii "1") 0
        (methodFrame second 60 40 (shortString [] ++ shortString (ascii "b") ++ [0])),
      .frame false (ascii "0") 0 ⟨frameHeader, first, methodBytes 60 0 (bigEndian 8 1)⟩,
      .frame false (ascii "0") 0 ⟨frameBody, first, [7]⟩, .step false]

theorem channels_isolated_two :
    (machine.run (start Bool) (twoPublishes 1 2)).map (fun sys => sys.server.published) =
      some [⟨1, [], ascii "a", [7]⟩] ∧
    machine.run (start Bool) (twoPublishes 1 2) =
      (Separate.machine.run (Separate.start Bool) (twoPublishes 1 2)).map
        (Separate.join fun channelID => channelID == 2) :=
  ⟨by decide +kernel, channels_isolated (fun channelID => channelID == 2) (by decide +kernel)⟩

/-- On the same channel, the body of the first is published with the second's routing key. -/
theorem same_channel_mixes_publishes :
    (machine.run (start Bool) (twoPublishes 1 1)).map (fun sys => sys.server.published) =
      some [⟨1, [], ascii "b", [7]⟩] ∧
    (Separate.machine.run (Separate.start Bool) (twoPublishes 1 1)).map (fun sep => sep.server.published) =
      some [⟨1, [], ascii "a", [7]⟩] :=
  ⟨by decide +kernel, by decide +kernel⟩

end System

end Portask.Amqp
