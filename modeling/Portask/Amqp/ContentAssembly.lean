import Portask.Amqp.ChannelIsolation
import Portask.Amqp.QueueOrder

/-! # Putting a message together

A message comes as a `Basic.Publish`, a content header with the size of its body, and body
frames, all on one channel and mixed with the frames of other channels. The server counts the
bytes when a body frame arrives and only then, so that a message without a body is not
published when its header arrives. A header with a size that is too large for `make` ends the
program.
-/

namespace Portask.Amqp

open Function Lib Kafka

structure Arrival (C : Type) where
  conn : C
  now : Nat
  frame : Frame

variable {C : Type}

def arrivals : Machine (Server C) (Arrival C) where
  next s arrival := ((s.handleAMQPFrameWithChannel arrival.conn arrival.now arrival.frame).bind Step.complete).map Prod.fst

def onChannel (channelID : UInt16) (sent : List (Arrival C)) : List (Arrival C) :=
  sent.filter fun arrival => arrival.frame.channelID = channelID

def announced (payload : List UInt8) : UInt64 := UInt64.ofNat (numberAt payload 4 8)

/-- The payloads of the frames of a message. -/
structure Publication where
  exchange : GoString
  routingKey : GoString
  method : List UInt8
  header : List UInt8
  bodies : List (List UInt8)
  reads : readMethod method = .ok (.basicPublish exchange routingKey)
  long : 12 ≤ header.length
  whole : bodies.flatten.length = (announced header).toNat

namespace Publication

variable (p : Publication) (channelID : UInt16)

def size : Nat := (announced p.header).toNat

def frames : List Frame :=
  [⟨frameMethod, channelID, p.method⟩, ⟨frameHeader, channelID, p.header⟩] ++
    p.bodies.map fun payload => ⟨frameBody, channelID, payload⟩

def call : Publish := ⟨channelID, p.exchange, p.routingKey, p.bodies.flatten⟩

/-- The bytes of the body in the first `n` frames. -/
def received (n : Nat) : List UInt8 := (p.bodies.take (n - 2)).flatten

/-- After `n` frames the last byte that the header announces has arrived. -/
def Complete (n : Nat) : Prop := 2 ≤ n ∧ p.size ≤ (p.received n).length

instance (n : Nat) : Decidable (p.Complete n) := inferInstanceAs (Decidable (_ ∧ _))

end Publication

def Server.publishedOn (s : Server C) (channelID : UInt16) : List Publish :=
  s.published.filter fun call => call.channelID = channelID

open Server

/-- At every moment the server has not panicked, and it has published the message exactly if all
    of it has arrived. -/
def Server.Assembles (s : Server C) (channelID : UInt16) (p : Publication)
    (sent : List (Arrival C)) : Prop :=
  ∀ first, first <+: sent → ∃ t, arrivals.run s first = some t ∧
    t.publishedOn channelID = s.publishedOn channelID ++
      if p.Complete (onChannel channelID first).length then [p.call channelID] else []

/-- A frame that does not announce more than `make` can make. -/
def Frame.Modest (frame : Frame) : Prop :=
  frame.frameType = frameHeader → (announced frame.payload).toNat ≤ maxAlloc

instance (frame : Frame) : Decidable frame.Modest := inferInstanceAs (Decidable (_ → _))

/-- Nothing was published, and no connection has changed its state. -/
def Leaves (s t : Server C) : Prop :=
  t.published = s.published ∧ t.connectionStates = s.connectionStates

/-- Nothing has happened to a channel. -/
def Apart (channelID : UInt16) (s t : Server C) : Prop :=
  t.channelStates channelID = s.channelStates channelID ∧
    t.publishedOn channelID = s.publishedOn channelID

namespace Server

variable {s t : Server C} {channelID : UInt16} {step : Step C}

theorem handleBasicPublish_records (s : Server C) (call : Publish) :
    (s.handleBasicPublish call).1.published = s.published ++ [call] ∧
      (s.handleBasicPublish call).1.channelStates = s.channelStates ∧
      (s.handleBasicPublish call).1.connectionStates = s.connectionStates := by
  rw [handleBasicPublish]
  dsimp only
  split
  · exact ⟨rfl, rfl, rfl⟩
  · split <;> exact ⟨rfl, rfl, rfl⟩

theorem assign_leaves
    (assigned : s.assign channelID queueName body redelivered = some (t, deliveryTag)) :
    Leaves s t := by
  obtain ⟨c, -, tracked⟩ := Option.bind_eq_some_iff.mp assigned
  obtain ⟨_, -, same⟩ := Option.map_eq_some_iff.mp tracked
  obtain ⟨rfl, -⟩ := Prod.mk.inj same
  exact ⟨rfl, rfl⟩

theorem handleAMQPFrame_leaves
    (handled : s.handleAMQPFrameWithChannel conn now frame = some step) : Leaves s step.server := by
  cases handleAMQPFrame_effect handled with
  | requeue _ _ assigned =>
    have kept := assign_leaves assigned
    exact kept
  | _ => exact ⟨rfl, rfl⟩

theorem publishedOn_of_eq (same : t.published = s.published) :
    t.publishedOn channelID = s.publishedOn channelID := by
  rw [publishedOn, publishedOn, same]

end Server

namespace Act

def calls : Act C → List Publish
  | .publish call => [call]
  | .send _ _ _ | .setState _ _ | .register _ _ _ _ | .take _ _ _ _ | .deliver _ _ _ _ _ => []

/-- Only a publish publishes, and only `setState` changes the state of a connection. -/
theorem exec_records {act : Act C} (performed : act.exec s = some step) :
    step.server.published = s.published ++ act.calls ∧
      ((∀ connID state, act ≠ .setState connID state) →
        step.server.connectionStates = s.connectionStates) := by
  have of_leaves (leaves : Leaves s step.server) (silent : act.calls = []) :
      step.server.published = s.published ++ act.calls ∧
        ((∀ connID state, act ≠ .setState connID state) → step.server.connectionStates = s.connectionStates) :=
    ⟨by rw [silent, List.append_nil, leaves.1], fun _ => leaves.2⟩
  revert performed
  fun_cases exec s act with
  | case1 | case4 | case6 =>
    rintro ⟨⟩
    exact of_leaves ⟨rfl, rfl⟩ rfl
  | case2 connID state =>
    rintro ⟨⟩
    exact ⟨(List.append_nil _).symm, fun other => absurd rfl (other connID state)⟩
  | case3 call =>
    rintro ⟨⟩
    obtain ⟨published, -, states⟩ := s.handleBasicPublish_records call
    exact ⟨published, fun _ => states⟩
  | case5 =>
    intro performed
    obtain ⟨⟨_, messages⟩, taken, rfl⟩ := Option.map_eq_some_iff.mp performed
    obtain ⟨c, -, found⟩ := Option.bind_eq_some_iff.mp taken
    obtain ⟨queue, -, same⟩ := Option.map_eq_some_iff.mp found
    obtain ⟨rfl, -⟩ := Prod.mk.inj same
    exact of_leaves ⟨rfl, rfl⟩ rfl
  | case7 =>
    intro performed
    obtain ⟨⟨_, deliveryTag⟩, assigned, rfl⟩ := Option.map_eq_some_iff.mp performed
    exact of_leaves (assign_leaves assigned) rfl

end Act

namespace Apart

variable {s t u : Server C} {channelID : UInt16}

theorem trans (first : Apart channelID s t) (later : Apart channelID t u) : Apart channelID s u :=
  ⟨later.1.trans first.1, later.2.trans first.2⟩

theorem exec {act : Act C} (within : act.Within (· ≠ channelID))
    (performed : act.exec s = some step) : Apart channelID s step.server := by
  refine ⟨(Act.exec_keeps within).outside performed (not_not.mpr rfl), ?_⟩
  have elsewhere : act.calls.filter (fun call => call.channelID = channelID) = [] := by
    cases act with
    | publish call =>
      have other : call.channelID ≠ channelID := within
      simp [Act.calls, other]
    | _ => rfl
  rw [publishedOn, (Act.exec_records performed).1, List.filter_append, elsewhere,
    List.append_nil, publishedOn]

end Apart

namespace Server

variable {s t : Server C} {channelID : UInt16}

variable (s : Server C)

theorem handleBasicNack_isSome (channelID : UInt16) (deliveryTag : UInt64) :
    ∃ result, (s.handleBasicNack channelID deliveryTag).bind Step.complete = some result := by
  fun_cases handleBasicNack s channelID deliveryTag with
  | case4 c _ unacked entry forgotten queue _ put =>
    -- the map with the entry is there, so that the new tag can be written
    obtain ⟨entries, made, -⟩ := Option.bind_eq_some_iff.mp entry
    obtain ⟨assigned, tracked⟩ :
        ∃ assigned, put.assign channelID unacked.queueName unacked.body true = some assigned := by
      simp [put, forgotten, assign, ChannelState.track, ChannelState.forget, made]
    rw [tracked, Option.map_some, Option.bind_some]
    obtain ⟨t, finished, -⟩ := redelivery_broker assigned.1 c channelID assigned.2 unacked
    exact ⟨_, finished⟩
  | _ => exact ⟨_, rfl⟩

theorem handleMethod_isSome (conn : C) (channelID : UInt16) (now : Nat) (request : Method) :
    ∃ result, (s.handleMethod conn channelID now request).bind Step.complete = some result := by
  cases request with
  | exchangeDeclare | queueDeclare | basicPublish | basicQos | other => exact ⟨_, rfl⟩
  | basicConsume queueName consumerTag =>
    show ∃ result, (s.handleBasicConsume conn channelID queueName consumerTag).complete =
      some result
    cases exists_ : s.queues queueName with
    | none =>
      rw [handleBasicConsume, exists_]
      exact ⟨_, rfl⟩
    | some queue =>
      obtain ⟨t, completed⟩ := s.handleBasicConsume_isSome conn channelID consumerTag exists_
      exact ⟨_, completed⟩
  | basicAck deliveryTag => exact ⟨_, complete_alone _ _⟩
  | basicNack deliveryTag requeue =>
    cases requeue with
    | false => exact ⟨_, complete_alone _ _⟩
    | true => exact s.handleBasicNack_isSome channelID deliveryTag

theorem contentHeader_isSome (channelID : UInt16) (modest : bodySize.toNat ≤ maxAlloc) :
    ∃ t, s.contentHeader channelID bodySize = some t := by
  fun_cases contentHeader s channelID bodySize with
  | case4 _ _ _ _ large => exact absurd modest large
  | _ => exact ⟨_, rfl⟩

theorem contentBody_isSome (channelID : UInt16) (payload : List UInt8) :
    ∃ result, (s.contentBody channelID payload).complete = some result := by
  fun_cases contentBody s channelID payload with
  | case3 => exact ⟨_, finishAll_single _ _⟩
  | _ => exact ⟨_, rfl⟩

theorem handleAMQPFrame_isSome (conn : C) (now : Nat) (modest : frame.Modest) :
    ∃ result, (s.handleAMQPFrameWithChannel conn now frame).bind Step.complete = some result := by
  fun_cases handleAMQPFrameWithChannel s conn now frame with
  | case1 =>
    rw [handleMethodFrameWithChannel]
    split
    · exact ⟨_, rfl⟩
    · exact s.handleMethod_isSome conn frame.channelID now _
  | case3 _ header =>
    obtain ⟨t, stored⟩ := s.contentHeader_isSome frame.channelID (modest header)
    rw [← announced, stored]
    exact ⟨_, rfl⟩
  | case4 => exact s.contentBody_isSome frame.channelID frame.payload
  | _ => exact ⟨_, rfl⟩

theorem arrival_apart {arrival : Arrival C} (other : arrival.frame.channelID ≠ channelID)
    (modest : arrival.frame.Modest) :
    ∃ t, arrivals.next s arrival = some t ∧ Apart channelID s t := by
  classical
  obtain ⟨⟨t, error⟩, handled⟩ := s.handleAMQPFrame_isSome arrival.conn arrival.now modest
  refine ⟨t, Option.map_eq_some_iff.mpr ⟨_, handled, rfl⟩, ?_⟩
  obtain ⟨step, first, completed⟩ := Option.bind_eq_some_iff.mp handled
  have own : Keeps (· ≠ channelID) fun s : Server C =>
      s.handleAMQPFrameWithChannel arrival.conn arrival.now arrival.frame :=
    handleAMQPFrame_keeps (fun _ => other) arrival.conn arrival.now
  have begins : Apart channelID s step.server :=
    ⟨own.outside first (not_not.mpr rfl), publishedOn_of_eq (handleAMQPFrame_leaves first).1⟩
  have keeps (mid : Server C) (act : Act C) (step : Step C) (apart : Apart channelID s mid)
      (onChannels : act.OnChannels (· ≠ channelID)) (performed : act.exec mid = some step) :
      Apart channelID s step.server ∧ ∀ later ∈ step.todo, later.OnChannels (· ≠ channelID) :=
    ⟨apart.trans (Apart.exec onChannels.1 performed), Act.exec_onChannels onChannels.1 performed⟩
  exact System.complete_invariant arrival.conn keeps begins
    (handleAMQPFrame_onChannels (fun _ => other) first) completed

end Server

namespace Publication

variable {p : Publication} {channelID : UInt16}

variable {n : Nat}

theorem received_succ (next : p.bodies[n]? = some payload) :
    p.received (n + 3) = p.received (n + 2) ++ payload := by
  have one : n + 3 - 2 = n + 1 := by omega
  rw [received, received, one, Nat.add_sub_cancel, List.take_add_one, next, List.flatten_append]
  simp

/-- What has arrived when it is enough is the whole body. -/
theorem received_of_complete (complete : p.Complete n) : p.received n = p.bodies.flatten := by
  have parts : p.received n ++ (p.bodies.drop (n - 2)).flatten = p.bodies.flatten := by
    rw [received, ← List.flatten_append, List.take_append_drop]
  have nothing : (p.bodies.drop (n - 2)).flatten = [] := by
    have lengths := congrArg List.length parts
    rw [List.length_append, p.whole] at lengths
    have enough : (announced p.header).toNat ≤ (p.received n).length := complete.2
    exact List.length_eq_zero_iff.mp (by omega)
  rw [← parts, nothing, List.append_nil]

theorem complete_succ (complete : p.Complete n) : p.Complete (n + 1) := by
  obtain ⟨started, enough⟩ := complete
  refine ⟨by omega, Nat.le_trans enough ?_⟩
  have less : p.bodies.take (n - 2) <+: p.bodies.take (n + 1 - 2) :=
    List.take_prefix_take_left (by omega)
  obtain ⟨more, taken⟩ := less
  rw [received, received, ← taken, List.flatten_append, List.length_append]
  exact Nat.le_add_right _ _

theorem not_complete_two (filled : 0 < p.size) : ¬ p.Complete 2 := by
  rintro ⟨-, enough⟩
  rw [received, Nat.sub_self, List.take_zero, List.flatten_nil, List.length_nil] at enough
  omega

/-- What waits in the channel state after `n` frames. -/
def pending (p : Publication) (n : Nat) : Option PendingPublish :=
  if n = 1 then some { exchange := p.exchange, routingKey := p.routingKey }
  else if p.Complete n then none
  else some { exchange := p.exchange, routingKey := p.routingKey, bodySize := announced p.header, body := p.received n }

/-- After `n` frames of the message, where `before` was published. -/
def After (p : Publication) (channelID : UInt16) (before : List Publish) (n : Nat)
    (s : Server C) : Prop :=
  s.publishedOn channelID = before ++ (if p.Complete n then [p.call channelID] else []) ∧
    (n ≠ 0 → ∃ c, s.channelStates channelID = some c ∧ c.pendingPublish = p.pending n)

variable {s : Server C} {before : List Publish}

theorem after_method (after : p.After channelID before 0 s) (conn : C) (now : Nat) :
    ∃ t, arrivals.next s ⟨conn, now, ⟨frameMethod, channelID, p.method⟩⟩ = some t ∧
      p.After channelID before 1 t := by
  have handled : s.handleAMQPFrameWithChannel conn now ⟨frameMethod, channelID, p.method⟩ =
      some { server := s.basicPublish channelID p.exchange p.routingKey } := by
    rw [handleAMQPFrameWithChannel, if_pos rfl, handleMethodFrameWithChannel, p.reads]
    rfl
  have early (n : Nat) (few : n < 2) : ¬ p.Complete n :=
    fun complete => absurd complete.1 (by omega)
  refine ⟨s.basicPublish channelID p.exchange p.routingKey, ?_, ?_, fun _ =>
    ⟨_, update_self .., rfl⟩⟩
  · show ((s.handleAMQPFrameWithChannel conn now _).bind Step.complete).map Prod.fst = _
    rw [handled]
    rfl
  · have same := after.1
    rw [if_neg (early 0 (by omega))] at same
    rw [if_neg (early 1 (by omega))]
    exact same

/-- The header, if it finds its publish. -/
theorem header_next (found : s.channelStates channelID = some c)
    (waiting : c.pendingPublish = some waits) (conn : C) (now : Nat) :
    arrivals.next s ⟨conn, now, ⟨frameHeader, channelID, p.header⟩⟩ =
      if p.size ≤ maxAlloc then
        some (s.setChannel channelID (c.setPending (some { waits with bodySize := announced p.header, body := [] })))
      else none := by
  have other : frameHeader ≠ frameMethod := by decide
  have stored : s.contentHeader channelID (announced p.header) =
      if p.size ≤ maxAlloc then
        some (s.setChannel channelID (c.setPending (some { waits with bodySize := announced p.header, body := [] })))
      else none := by
    rw [contentHeader, found]
    dsimp only
    rw [waiting]
    rfl
  have handled : s.handleAMQPFrameWithChannel conn now ⟨frameHeader, channelID, p.header⟩ =
      (s.contentHeader channelID (announced p.header)).map fun s => { server := s } := by
    rw [handleAMQPFrameWithChannel, if_neg other, if_pos rfl, if_neg (Nat.not_lt.mpr p.long)]
    rfl
  show ((s.handleAMQPFrameWithChannel conn now _).bind Step.complete).map Prod.fst = _
  rw [handled, stored]
  split <;> rfl

theorem after_header (filled : 0 < p.size) (modest : p.size ≤ maxAlloc)
    (after : p.After channelID before 1 s) (conn : C) (now : Nat) :
    ∃ t, arrivals.next s ⟨conn, now, ⟨frameHeader, channelID, p.header⟩⟩ = some t ∧
      p.After channelID before 2 t := by
  obtain ⟨c, found, waits⟩ := after.2 (by omega)
  refine ⟨_, (header_next found waits conn now).trans (if_pos modest), ?_, fun _ =>
    ⟨_, update_self .., ?_⟩⟩
  · have same := after.1
    rw [if_neg fun complete : p.Complete 1 => absurd complete.1 (by omega)] at same
    rw [if_neg (not_complete_two filled)]
    exact same
  · rw [pending, if_neg (by omega), if_neg (not_complete_two filled)]
    rfl

theorem body_next (s : Server C) (conn : C) (now : Nat) (channelID : UInt16)
    (payload : List UInt8) : arrivals.next s ⟨conn, now, ⟨frameBody, channelID, payload⟩⟩ =
      (s.contentBody channelID payload).complete.map Prod.fst := by
  have method : frameBody ≠ frameMethod := by decide
  have header : frameBody ≠ frameHeader := by decide
  have handled : s.handleAMQPFrameWithChannel conn now ⟨frameBody, channelID, payload⟩ =
      some (s.contentBody channelID payload) := by
    rw [handleAMQPFrameWithChannel, if_neg method, if_neg header, if_pos rfl]
  show ((s.handleAMQPFrameWithChannel conn now _).bind Step.complete).map Prod.fst = _
  rw [handled, Option.bind_some]

theorem after_body (next : p.bodies[n]? = some payload) (after : p.After channelID before (n + 2) s)
    (conn : C) (now : Nat) :
    ∃ t, arrivals.next s ⟨conn, now, ⟨frameBody, channelID, payload⟩⟩ = some t ∧
      p.After channelID before (n + 3) t := by
  obtain ⟨c, found, waits⟩ := after.2 (by omega)
  have published := after.1
  rw [pending, if_neg (by omega)] at waits
  rw [body_next, contentBody, found]
  dsimp only
  by_cases done : p.Complete (n + 2)
  · -- more frames, all of them empty
    have later : p.Complete (n + 3) := complete_succ done
    rw [if_pos done] at waits published
    rw [waits]
    refine ⟨s, rfl, ?_, fun _ => ⟨c, found, ?_⟩⟩
    · rw [published, if_pos later]
    · rw [waits, pending, if_neg (by omega), if_pos later]
  rw [if_neg done] at waits published
  rw [waits]
  dsimp only
  rw [← received_succ next]
  by_cases enough : p.size ≤ (p.received (n + 3)).length
  · have complete : p.Complete (n + 3) := ⟨by omega, enough⟩
    rw [if_pos (show (announced p.header).toNat ≤ _ from enough), received_of_complete complete]
    obtain ⟨adds, keeps, -⟩ :=
      (s.setChannel channelID (c.setPending none)).handleBasicPublish_records (p.call channelID)
    refine ⟨((s.setChannel channelID (c.setPending none)).handleBasicPublish
      (p.call channelID)).1, ?_, ?_, fun _ => ⟨c.setPending none, ?_, ?_⟩⟩
    · exact congrArg (Option.map Prod.fst) (finishAll_single _ _)
    · have before_ : (s.setChannel channelID (c.setPending none)).publishedOn channelID = before := by
        rw [List.append_nil] at published
        exact published
      rw [publishedOn] at before_
      rw [publishedOn, adds, List.filter_append, before_, if_pos complete]
      simp [call]
    · rw [keeps]
      exact update_self ..
    · rw [pending, if_neg (by omega), if_pos complete]
      rfl
  · have missing : ¬ p.Complete (n + 3) := fun complete => enough complete.2
    rw [if_neg (show ¬ (announced p.header).toNat ≤ _ from enough)]
    refine ⟨_, rfl, ?_, fun _ => ⟨_, update_self .., ?_⟩⟩
    · rw [if_neg missing]
      exact published
    · rw [pending, if_neg (by omega), if_neg missing]
      rfl

theorem After.of_apart (after : p.After channelID before n s) (apart : Apart channelID s t) :
    p.After channelID before n t := by
  rw [After, apart.1, apart.2]
  exact after

/-- The frames of the channel that have arrived are the first frames of the message. -/
theorem after_own (filled : 0 < p.size) (modest : p.size ≤ maxAlloc)
    (own : (p.frames channelID)[n]? = some arrival.frame) (after : p.After channelID before n s) :
    ∃ t, arrivals.next s arrival = some t ∧ p.After channelID before (n + 1) t := by
  obtain ⟨conn, now, frame⟩ := arrival
  match n, own, after with
  | 0, own, after =>
    obtain rfl : (⟨frameMethod, channelID, p.method⟩ : Frame) = frame := Option.some.inj own
    exact after_method after conn now
  | 1, own, after =>
    obtain rfl : (⟨frameHeader, channelID, p.header⟩ : Frame) = frame := Option.some.inj own
    exact after_header filled modest after conn now
  | n + 2, own, after =>
    have inside : (p.bodies.map fun payload => (⟨frameBody, channelID, payload⟩ : Frame))[n]? =
      some frame := own
    rw [List.getElem?_map] at inside
    obtain ⟨payload, next, rfl⟩ := Option.map_eq_some_iff.mp inside
    exact after_body next after conn now

theorem after_start (p : Publication) (channelID : UInt16) (s : Server C) :
    p.After channelID (s.publishedOn channelID) 0 s := by
  refine ⟨?_, fun none => absurd rfl none⟩
  rw [if_neg fun complete : p.Complete 0 => absurd complete.1 (by omega), List.append_nil]

end Publication

namespace Server

variable {s : Server C} {channelID : UInt16} {p : Publication} {sent : List (Arrival C)}

theorem run_after (steps : ∀ n arrival t, (onChannel channelID sent)[n]? = some arrival →
      p.After channelID (s.publishedOn channelID) n t →
      ∃ later, arrivals.next t arrival = some later ∧
        p.After channelID (s.publishedOn channelID) (n + 1) later)
    (others : ∀ arrival ∈ sent, arrival.frame.channelID ≠ channelID → arrival.frame.Modest) :
    ∃ t, arrivals.run s sent = some t ∧
      p.After channelID (s.publishedOn channelID) (onChannel channelID sent).length t := by
  have away (n : Nat) (arrival : Arrival C) (t : Server C)
    (other : ¬ arrival.frame.channelID = channelID)
      (modest : arrival.frame.Modest) (after : p.After channelID (s.publishedOn channelID) n t) :
      ∃ later, arrivals.next t arrival = some later ∧
        p.After channelID (s.publishedOn channelID) n later := by
    obtain ⟨later, stepped, apart⟩ := t.arrival_apart other modest
    exact ⟨later, stepped, after.of_apart apart⟩
  have all : sent.filter (fun arrival => arrival.frame.channelID = channelID) =
    (onChannel channelID sent).drop 0 := rfl
  obtain ⟨t, ran, after⟩ :=
    arrivals.run_interleaved steps away others all (p.after_start channelID s)
  rw [Nat.zero_add] at after
  exact ⟨t, ran, after⟩

theorem before_header (own : (onChannel channelID sent).map (·.frame) = p.frames channelID)
    (others : ∀ arrival ∈ sent, arrival.frame.channelID ≠ channelID → arrival.frame.Modest) :
    ∃ first conn now later t, sent = first ++
      ⟨conn, now, ⟨frameHeader, channelID, p.header⟩⟩ :: later ∧
      (onChannel channelID first).length = 1 ∧
      arrivals.run s first = some t ∧ p.After channelID (s.publishedOn channelID) 1 t := by
  obtain ⟨method, behind, arrived, first, own⟩ := List.map_eq_cons_iff.mp own
  obtain ⟨⟨conn, now, _⟩, rest, rfl, rfl, -⟩ := List.map_eq_cons_iff.mp own
  obtain ⟨outer, inner, rfl, away, here, filtered⟩ := List.filter_eq_cons_iff.mp arrived
  obtain ⟨between, later, rfl, away', -, -⟩ := List.filter_eq_cons_iff.mp filtered
  have alone : onChannel channelID (outer ++ method :: between) = [method] := by
    have none : List.filter _ between = [] := List.filter_eq_nil_iff.mpr away'
    rw [onChannel, List.filter_append, List.filter_eq_nil_iff.mpr away, List.filter_cons,
      if_pos here, none, List.nil_append]
  have publishes (n : Nat) (arrival : Arrival C) (t : Server C)
      (place : (onChannel channelID (outer ++ method :: between))[n]? = some arrival)
      (after : p.After channelID (s.publishedOn channelID) n t) :
      ∃ later, arrivals.next t arrival = some later ∧
        p.After channelID (s.publishedOn channelID) (n + 1) later := by
    rw [alone, List.getElem?_singleton] at place
    split at place
    · next zero =>
        subst zero
        obtain rfl := Option.some.inj place
        obtain ⟨conn, now, frame⟩ := method
        obtain rfl : frame = ⟨frameMethod, channelID, p.method⟩ := first
        exact Publication.after_method after conn now
    · cases place
  have modest : ∀ arrival ∈ outer ++ method :: between, arrival.frame.channelID ≠ channelID →
      arrival.frame.Modest := by
    intro arrival inside
    refine others arrival ?_
    rw [← List.cons_append, ← List.append_assoc]
    exact List.mem_append_left _ inside
  obtain ⟨t, ran, after⟩ := run_after publishes modest
  rw [alone, List.length_singleton] at after
  refine ⟨outer ++ method :: between, conn, now, later, t, ?_, ?_, ran, after⟩
  · rw [List.append_assoc, List.cons_append]
  · rw [alone, List.length_singleton]

/-- A message among frames of other channels is put together as it should be exactly if it has a
    body, of a size that can be made. -/
theorem content_assembled_iff (s : Server C) (channelID : UInt16) (p : Publication)
    {sent : List (Arrival C)} (own : (onChannel channelID sent).map (·.frame) = p.frames channelID)
    (others : ∀ arrival ∈ sent, arrival.frame.channelID ≠ channelID → arrival.frame.Modest) :
    s.Assembles channelID p sent ↔ 0 < p.size ∧ p.size ≤ maxAlloc := by
  constructor
  · intro assembles
    obtain ⟨first, conn, now, later, t, rfl, one, ran, after⟩ := before_header (s := s) own others
    obtain ⟨c, found, waits⟩ := after.2 (by omega)
    let header : Arrival C := ⟨conn, now, ⟨frameHeader, channelID, p.header⟩⟩
    have two : (onChannel channelID (first ++ [header])).length = 2 := by
      rw [onChannel] at one ⊢
      rw [List.filter_append, List.length_append, one]
      simp [header]
    obtain ⟨t', ran', published⟩ := assembles (first ++ [header]) ⟨later, by simp [header]⟩
    rw [Machine.run_append, ran, Option.bind_some, Machine.run,
      Publication.header_next found waits] at ran'
    rw [two] at published
    by_cases modest : p.size ≤ maxAlloc
    · refine ⟨Nat.pos_of_ne_zero fun empty => ?_, modest⟩
      rw [if_pos modest] at ran'
      obtain rfl := Option.some.inj ran'
      have before := after.1
      rw [if_neg fun complete : p.Complete 1 => absurd complete.1 (by omega), List.append_nil] at before
      rw [if_pos ⟨le_refl 2, empty ▸ Nat.zero_le _⟩] at published
      have same := before.symm.trans published
      simp at same
    · rw [if_neg modest] at ran'
      cases ran'
  · rintro ⟨filled, modest⟩ first ⟨later, rfl⟩
    have steps (n : Nat) (arrival : Arrival C) (t : Server C)
      (here : (onChannel channelID first)[n]? = some arrival)
        (after : p.After channelID (s.publishedOn channelID) n t) :
        ∃ later, arrivals.next t arrival = some later ∧ p.After channelID (s.publishedOn channelID) (n + 1) later := by
      refine Publication.after_own filled modest ?_ after
      obtain ⟨below, -⟩ := List.getElem?_eq_some_iff.mp here
      have parts : onChannel channelID (first ++ later) = onChannel channelID first ++ onChannel channelID later :=
        List.filter_append ..
      rw [← own, parts, List.map_append, List.getElem?_append_left (by simpa using below),
        List.getElem?_map, here, Option.map_some]
    obtain ⟨t, ran, after⟩ := run_after steps fun arrival inside =>
      others arrival (List.mem_append_left _ inside)
    exact ⟨t, ran, after.1⟩

/-- A message of two bytes for the queue `q`, in two body frames. -/
def twoBytes : Publication where
  exchange := []
  routingKey := ascii "q"
  method := methodBytes 60 40 (shortString [] ++ shortString (ascii "q") ++ [0])
  header := methodBytes 60 0 (bigEndian 8 2)
  bodies := [[1], [2]]
  reads := by decide +kernel
  long := by decide +kernel
  whole := by decide +kernel

/-- With a heartbeat on another channel in between. -/
def twoBytesSent : List (Arrival Unit) :=
  [⟨(), 0, ⟨frameMethod, 1, twoBytes.method⟩⟩, ⟨(), 0, ⟨frameHeader, 1, twoBytes.header⟩⟩,
    ⟨(), 0, ⟨frameBody, 1, [1]⟩⟩, ⟨(), 0, ⟨frameHeartbeat, 0, []⟩⟩, ⟨(), 0, ⟨frameBody, 1, [2]⟩⟩]

theorem content_assembled_two_bytes :
    (newEnhancedAMQPServer Unit).Assembles 1 twoBytes twoBytesSent :=
  (content_assembled_iff (newEnhancedAMQPServer Unit) 1 twoBytes (by decide +kernel)
    (by decide +kernel)).mpr
    (by decide +kernel)

/-- A publish with a header that announces `bodySize` bytes. -/
def announcing (bodySize : Nat) : List (Arrival Unit) :=
  [⟨(), 0, ⟨frameMethod, 1, twoBytes.method⟩⟩,
    ⟨(), 0, ⟨frameHeader, 1, methodBytes 60 0 (bigEndian 8 bodySize)⟩⟩]

/-- A message without a body is not published, and the largest size ends the program. -/
theorem empty_body_lost_and_large_size_panics :
    (arrivals.run (newEnhancedAMQPServer Unit) (announcing 0)).map (fun t => t.published) =
      some [] ∧
    (arrivals.run (newEnhancedAMQPServer Unit) (announcing (2 ^ 64 - 1))).map
      (fun t => t.published) = none :=
  ⟨by decide +kernel, by decide +kernel⟩

end Server

end Portask.Amqp
