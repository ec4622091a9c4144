import Portask.Amqp.ContentAssembly

/-! # The layout of methods

In AMQP 0-9-1 the arguments of `Queue.Declare`, `Basic.Publish` and `Basic.Consume` begin with
a ticket of two bytes that is reserved. The server skips it in `Basic.Consume`, but in the
other two it takes the first byte of the ticket for the length of a name. A client that sends
the ticket is understood only where the ticket happens to spell the names: with the ticket
zero every declaration is read as one without a name, and every publish as one without an
exchange and a routing key.
-/

namespace Portask.Amqp

open Function Lib Kafka

/-- Reserved in every method. -/
structure Ticket where
  high : UInt8
  low : UInt8
  deriving DecidableEq

namespace Ticket

def bytes (ticket : Ticket) : List UInt8 := [ticket.high, ticket.low]

end Ticket

/-! ## Short strings in a payload -/

section

variable {payload : List UInt8} {pos : Nat}

theorem shortString_at {text rest : List UInt8} (here : payload.drop pos = shortString text ++ rest)
    (short : text.length ≤ 255) :
    byteAt payload pos = text.length ∧ textAt payload (pos + 1) text.length = text ∧
      payload.drop (pos + 1 + text.length) = rest ∧
        pos + 1 + text.length + rest.length = payload.length := by
  rw [shortString, List.cons_append] at here
  have inside : pos < payload.length := by
    by_contra outside
    rw [List.drop_of_length_le (by omega)] at here
    cases here
  have behind : payload.drop (pos + 1) = text ++ rest := by
    rw [← List.tail_drop, here, List.tail_cons]
  refine ⟨?_, ?_, ?_, ?_⟩
  · have first : payload[pos]? = some (UInt8.ofNat text.length) := by
      rw [← List.head?_drop, here, List.head?_cons]
    have small : (UInt8.ofNat text.length).toNat = text.length :=
      UInt8.toNat_ofNat_of_lt' (Nat.lt_succ_of_le short)
    rw [byteAt, List.getD_eq_getElem?_getD, first, Option.getD_some, small]
  · rw [textAt, behind, List.take_left' rfl]
  · rw [← List.drop_drop, behind, List.drop_left' rfl]
  · have lengths := congrArg List.length here
    rw [List.length_drop, List.length_cons, List.length_append] at lengths
    omega

/-- What stands behind a byte that is taken for a length, if there is enough of it. -/
theorem drop_eq_shortString (payload : List UInt8) (pos : Nat)
    (enough : pos + 1 + byteAt payload pos ≤ payload.length) : payload.drop pos =
      shortString (textAt payload (pos + 1) (byteAt payload pos)) ++
        payload.drop (pos + 1 + byteAt payload pos) := by
  have inside : pos < payload.length := by omega
  have count : (textAt payload (pos + 1) (byteAt payload pos)).length = byteAt payload pos := by
    rw [textAt, List.length_take, List.length_drop]
    omega
  have first : payload.getD pos 0 = payload[pos] := by
    rw [List.getD_eq_getElem?_getD, List.getElem?_eq_getElem inside, Option.getD_some]
  rw [shortString, count, byteAt, UInt8.ofNat_toNat, List.cons_append, ← List.drop_drop, textAt,
    List.take_append_drop, first]
  exact List.drop_eq_getElem_cons inside

theorem length_textAt (enough : pos + length ≤ payload.length) :
    (textAt payload pos length).length = length := by
  rw [textAt, List.length_take, List.length_drop]
  omega

theorem byteAt_lt (payload : List UInt8) (pos : Nat) : byteAt payload pos ≤ 255 :=
  Nat.le_of_lt_succ (payload.getD pos 0).toNat_lt

theorem shortStrings_eq_ok {kind first secondLength second least x y} :
    shortStrings payload kind first secondLength second least pos = .ok (x, y) ↔
      least ≤ payload.length ∧ x.length ≤ 255 ∧ y.length ≤ 255 ∧
        ∃ rest, payload.drop pos = shortString x ++ (shortString y ++ rest) := by
  constructor
  · fun_cases shortStrings payload kind first secondLength second least pos with
    | case5 _ n next _ _ m whole =>
      rintro ⟨⟩
      have bound := byteAt_lt payload pos
      have bound' := byteAt_lt payload (pos + 1 + byteAt payload pos)
      have front := drop_eq_shortString payload pos (by omega)
      rw [drop_eq_shortString payload (pos + 1 + byteAt payload pos) (Nat.le_of_not_lt whole)] at front
      refine ⟨by omega, ?_, ?_, _, front⟩
      · rw [length_textAt (by omega)]
        exact bound
      · rw [length_textAt (by omega)]
        exact bound'
    | _ => simp
  · rintro ⟨long, short, short', rest, here⟩
    obtain ⟨count, text, behind, total⟩ := shortString_at here short
    obtain ⟨count', text', -, total'⟩ := shortString_at behind short'
    rw [shortStrings, if_neg (by omega)]
    dsimp only
    rw [count, if_neg (by omega), if_neg (by omega), count', if_neg (by omega), text, text']

theorem queueDeclare_eq_ok :
    queueDeclare payload = .ok (.queueDeclare name) ↔
      name.length ≤ 255 ∧ ∃ rest, payload.drop 4 = shortString name ++ rest ∧ 4 ≤ rest.length := by
  constructor
  · fun_cases queueDeclare payload with
    | case3 =>
      rintro ⟨⟩
      have bound := byteAt_lt payload 4
      refine ⟨?_, _, drop_eq_shortString payload 4 (by omega), ?_⟩
      · rw [length_textAt (by omega)]
        exact bound
      · rw [List.length_drop]
        omega
    | _ => simp
  · rintro ⟨short, rest, here, more⟩
    obtain ⟨count, text, -, total⟩ := shortString_at here short
    rw [queueDeclare, if_neg (by omega)]
    dsimp only
    rw [count, if_neg (by omega), text]

end

/-! ## A ticket that spells a name -/

/-- Two bytes in turn. -/
def echo : Nat → UInt8 → UInt8 → GoString
  | 0, _, _ => []
  | n + 1, x, y => x :: echo n y x

@[simp] theorem length_echo (n : Nat) (x y : UInt8) : (echo n x y).length = n := by
  induction n generalizing x y with
  | zero => rfl
  | succ n ih => rw [echo, List.length_cons, ih]

theorem echo_add_two (n : Nat) (x y : UInt8) :
    echo (n + 2) x y = echo n x y ++ if n % 2 = 0 then [x, y] else [y, x] := by
  induction n generalizing x y with
  | zero => rfl
  | succ n ih =>
    have turn : (n + 1) % 2 = 0 ↔ ¬ n % 2 = 0 := by omega
    have last : (if (n + 1) % 2 = 0 then [x, y] else [y, x]) = if n % 2 = 0 then [y, x] else [x, y] := by
      by_cases even : n % 2 = 0 <;> simp [turn, even]
    rw [echo, ih y x, last]
    rfl

/-- A string that comes again two places further on. -/
theorem eq_echo_of_shifted : ∀ {text more rest : List UInt8},
    x :: y :: (text ++ more) = text ++ rest → text = echo text.length x y
  | [], _, _, _ => rfl
  | [_], _, _, same => by
      obtain ⟨rfl, -⟩ := List.cons.inj same
      rfl
  | _ :: _ :: text, more, rest, same => by
      obtain ⟨rfl, same⟩ := List.cons.inj same
      obtain ⟨rfl, same⟩ := List.cons.inj same
      exact congrArg (x :: y :: ·) (eq_echo_of_shifted same)

/-- What is left of the bytes behind the ticket's first one if they are read as a string of that
    length. -/
def Ticket.left (ticket : Ticket) : Ticket :=
  if ticket.high.toNat % 2 = 0 then ⟨ticket.low, ticket.high⟩ else ⟨ticket.high, ticket.low⟩

/-- The name that a ticket is taken for when it stands before that name. -/
def Ticket.spelled (ticket : Ticket) : GoString := echo ticket.high.toNat ticket.low ticket.high

variable {name : GoString}

/-- A short string behind a ticket is read in the ticket's place exactly if the ticket spells it. -/
theorem ticket_shortString {ticket : Ticket} (short : name.length ≤ 255) :
    ticket.bytes ++ (shortString name ++ more) = shortString name ++ rest ↔
      name = ticket.spelled ∧ rest = ticket.left.bytes ++ more := by
  have small : (UInt8.ofNat name.length).toNat = name.length :=
    UInt8.toNat_ofNat_of_lt' (Nat.lt_succ_of_le short)
  constructor
  · intro same
    obtain ⟨high, same⟩ := List.cons.inj same
    have shifted : ticket.low :: ticket.high :: (name ++ more) = name ++ rest := by
      rw [high]
      exact same
    have spelled : name = ticket.spelled := by
      rw [Ticket.spelled, high, small]
      exact high ▸ eq_echo_of_shifted shifted
    refine ⟨spelled, ?_⟩
    have behind : echo (ticket.high.toNat + 2) ticket.low ticket.high ++ more = name ++ rest := by
      rw [echo, echo]
      exact spelled ▸ shifted
    rw [echo_add_two, ← Ticket.spelled, ← spelled, List.append_assoc] at behind
    rw [← List.append_cancel_left behind, Ticket.left]
    split <;> rfl
  · rintro ⟨rfl, rfl⟩
    have high : UInt8.ofNat ticket.spelled.length = ticket.high := by
      rw [Ticket.spelled, length_echo, UInt8.ofNat_toNat]
    have twice : ticket.low :: ticket.high :: ticket.spelled = ticket.spelled ++ ticket.left.bytes := by
      have added := echo_add_two ticket.high.toNat ticket.low ticket.high
      rw [echo, echo] at added
      rw [Ticket.spelled, added, Ticket.left]
      split <;> rfl
    show ticket.high :: ticket.low ::
      (UInt8.ofNat ticket.spelled.length :: (ticket.spelled ++ more)) =
      UInt8.ofNat ticket.spelled.length :: (ticket.spelled ++ (ticket.left.bytes ++ more))
    rw [high, ← List.append_assoc, ← twice]
    rfl

/-! ## A client -/

/-- The methods, with the arguments in the order of the specification. -/
def queueDeclareBytes (ticket : Ticket) (name : GoString) (bits : UInt8) (table : List UInt8) :
    List UInt8 :=
  methodBytes 50 10 (ticket.bytes ++ (shortString name ++ ([bits] ++ longString table)))

def basicPublishBytes (ticket : Ticket) (exchange routingKey : GoString) (bits : UInt8) :
    List UInt8 :=
  methodBytes 60 40 (ticket.bytes ++ (shortString exchange ++ (shortString routingKey ++ [bits])))

def basicConsumeBytes (ticket : Ticket) (queueName consumerTag : GoString) (bits : UInt8)
    (table : List UInt8) : List UInt8 :=
  methodBytes 60 20 (ticket.bytes ++
    (shortString queueName ++ (shortString consumerTag ++ ([bits] ++ longString table))))

/-- The method that is read is the one that the numbers name. -/
theorem readMethod_methodBytes (arguments : List UInt8) :
    readMethod (methodBytes 50 10 arguments) = queueDeclare (methodBytes 50 10 arguments) ∧
    readMethod (methodBytes 60 40 arguments) = Amqp.basicPublish (methodBytes 60 40 arguments) ∧
    readMethod (methodBytes 60 20 arguments) = basicConsume (methodBytes 60 20 arguments) := by
  have long : ¬ 4 + arguments.length < 4 := by omega
  simp [readMethod, length_methodBytes, classID_methodBytes, methodID_methodBytes, long]

variable {ticket : Ticket} {bits : UInt8} {table : List UInt8}

theorem readMethod_queueDeclare (short : name.length ≤ 255) :
    readMethod (queueDeclareBytes ticket name bits table) = .ok (.queueDeclare name) ↔
      name = ticket.spelled := by
  rw [queueDeclareBytes, (readMethod_methodBytes _).1, queueDeclare_eq_ok, drop_methodBytes]
  simp only [ticket_shortString short]
  constructor
  · rintro ⟨-, rest, ⟨spelled, -⟩, -⟩
    exact spelled
  · intro spelled
    refine ⟨short, _, ⟨spelled, rfl⟩, ?_⟩
    simp [longString]
    omega

variable {exchange routingKey : GoString}

theorem basicPublish_eq_ok : basicPublish payload = .ok (.basicPublish exchange routingKey) ↔
      shortStrings payload .basicPublish .exchange .routingKeyLength .routingKey 6 4 =
        .ok (exchange, routingKey) := by
  rw [basicPublish]
  cases shortStrings payload .basicPublish .exchange .routingKeyLength .routingKey 6 4 with
  | error err => simp [Except.map]
  | ok names => simp [Except.map, Prod.ext_iff]

theorem readMethod_basicPublish (short : exchange.length ≤ 255) (short' : routingKey.length ≤ 255) :
    readMethod (basicPublishBytes ticket exchange routingKey bits) =
      .ok (.basicPublish exchange routingKey) ↔
      exchange = ticket.spelled ∧ routingKey = ticket.left.spelled := by
  rw [basicPublishBytes, (readMethod_methodBytes _).2.1, basicPublish_eq_ok, shortStrings_eq_ok,
    drop_methodBytes]
  simp only [ticket_shortString short]
  constructor
  · rintro ⟨-, -, -, rest, spelled, behind⟩
    exact ⟨spelled, ((ticket_shortString short').mp behind.symm).1⟩
  · rintro ⟨spelled, spelled'⟩
    refine ⟨?_, short, short', _, spelled, ((ticket_shortString short').mpr ⟨spelled', rfl⟩).symm⟩
    rw [length_methodBytes]
    simp [Ticket.bytes]
    omega

theorem readMethod_basicConsume {queueName consumerTag} (short : queueName.length ≤ 255)
    (short' : consumerTag.length ≤ 255) :
    readMethod (basicConsumeBytes ticket queueName consumerTag bits table) =
      .ok (.basicConsume queueName consumerTag) := by
  rw [basicConsumeBytes, (readMethod_methodBytes _).2.2]
  have behind : (methodBytes 60 20 (ticket.bytes ++
      (shortString queueName ++ (shortString consumerTag ++ ([bits] ++ longString table))))).drop 6 =
      shortString queueName ++ (shortString consumerTag ++ ([bits] ++ longString table)) := by
    rw [show 6 = 4 + 2 from rfl, ← List.drop_drop, drop_methodBytes]
    rfl
  rw [basicConsume, shortStrings_eq_ok.mpr ⟨?_, short, short', _, behind⟩]
  · rfl
  · rw [length_methodBytes]
    simp [Ticket.bytes, shortString]
    omega

/-- A client that declares a queue, publishes a message and consumes the queue. `bodies` are the
    parts of the message's body, each in a frame of its own. -/
structure Session where
  queue : GoString
  exchange : GoString
  routingKey : GoString
  consumerTag : GoString
  bodies : List (List UInt8)
  declareTicket : Ticket
  publishTicket : Ticket
  consumeTicket : Ticket
  declareChannel : UInt16
  publishChannel : UInt16
  consumeChannel : UInt16
  declareBits : UInt8
  publishBits : UInt8
  consumeBits : UInt8
  declareTable : List UInt8
  consumeTable : List UInt8
  properties : List UInt8
  queueShort : queue.length ≤ 255
  exchangeShort : exchange.length ≤ 255
  routingKeyShort : routingKey.length ≤ 255
  consumerTagShort : consumerTag.length ≤ 255
  bodyFits : bodies.flatten.length < 2 ^ 64

namespace Session

variable (x : Session)

def declare : Frame :=
  ⟨frameMethod, x.declareChannel,
    queueDeclareBytes x.declareTicket x.queue x.declareBits x.declareTable⟩

def publish : Frame :=
  ⟨frameMethod, x.publishChannel,
    basicPublishBytes x.publishTicket x.exchange x.routingKey x.publishBits⟩

def header : Frame :=
  ⟨frameHeader, x.publishChannel,
    methodBytes 60 0 (bigEndian 8 x.bodies.flatten.length ++ x.properties)⟩

def body : List Frame := x.bodies.map fun payload => ⟨frameBody, x.publishChannel, payload⟩

def consume : Frame :=
  ⟨frameMethod, x.consumeChannel,
    basicConsumeBytes x.consumeTicket x.queue x.consumerTag x.consumeBits x.consumeTable⟩

end Session

variable {C : Type}

/-- What the server makes of a frame on an open connection. -/
def Server.handle (s : Server C) (conn : C) (now : Nat) (frame : Frame) :
    Option (Server C × Option FrameError) :=
  (s.handleAMQPFrameWithChannel conn now frame).bind Step.complete

theorem arrivals_next (s : Server C) (arrival : Arrival C) :
    arrivals.next s arrival = (s.handle arrival.conn arrival.now arrival.frame).map Prod.fst := rfl

namespace Session

/-- The queue is declared under its name, the publish is recorded with its exchange and routing
    key, and if it goes to the queue a consume delivers it behind the messages that waited. -/
def Honoured (s : Server C) (conn : C) (now : Nat) (x : Session) : Prop :=
  ∃ declared recorded,
    (s.handle conn now x.declare = some (declared, none) ∧ (declared.queues x.queue).isSome ∧
      ∃ count, declared.written = s.written ++
        [(conn, x.declareChannel, .queueDeclareOk x.queue count)]) ∧
    (declared.handle conn now x.publish = some (recorded, none) ∧
      (recorded.channelStates x.publishChannel).bind (·.pendingPublish) =
        some { exchange := x.exchange, routingKey := x.routingKey }) ∧
    (x.routingKey = x.queue →
      ∃ consumed, arrivals.run recorded ((x.header :: x.body ++ [x.consume]).map fun frame =>
        ⟨conn, now, frame⟩) = some consumed ∧
        consumed.written.filterMap Server.delivery = recorded.written.filterMap Server.delivery ++
          (recorded.waiting x.queue).map (fun body => (x.queue, body.bytes)) ++ [(x.queue, x.bodies.flatten)])

/-- The name that the server gives to a queue that is declared without one. -/
def generated (now : Nat) : GoString := ascii "amq.gen-" ++ GoString.decimal now

/-- The tickets stand for the names, or the ticket of the declaration begins with zero and the
    queue has the name that the server generates. A message for the queue has a body frame, and no
    more bytes than `make` can make. -/
structure Understood (now : Nat) (x : Session) : Prop where
  declares : (x.queue ≠ [] ∧ x.queue = x.declareTicket.spelled) ∨
    (x.declareTicket.high = 0 ∧ x.queue = generated now)
  publishes : x.exchange = x.publishTicket.spelled ∧ x.routingKey = x.publishTicket.left.spelled
  assembles : x.routingKey = x.queue → x.bodies ≠ [] ∧ x.bodies.flatten.length ≤ Server.maxAlloc

end Session

/-! ## The declaration -/

theorem generated_ne_nil (now : Nat) : Session.generated now ≠ [] := by
  intro empty
  have lengths := congrArg List.length empty
  rw [Session.generated, List.length_append] at lengths
  simp [ascii] at lengths

variable {request : Method}

namespace Server

variable (s : Server C) (conn : C) (now : Nat)

theorem handle_of_read (method : frame.frameType = frameMethod)
    (read : readMethod frame.payload = .ok request) :
    s.handle conn now frame =
      (s.handleMethod conn frame.channelID now request).bind Step.complete := by
  rw [handle, handleAMQPFrameWithChannel, if_pos method, handleMethodFrameWithChannel, read]

theorem handle_of_error (method : frame.frameType = frameMethod)
    (read : readMethod frame.payload = .error err) :
    s.handle conn now frame = some (s, some err) := by
  rw [handle, handleAMQPFrameWithChannel, if_pos method, handleMethodFrameWithChannel, read]
  rfl

theorem handleQueueDeclare_written (channelID : UInt16) (name : GoString) :
    let declared := if name = [] then Session.generated now else name
    ((s.handleQueueDeclare conn channelID name now).queues declared).isSome ∧
      ∃ count, (s.handleQueueDeclare conn channelID name now).written =
        s.written ++ [(conn, channelID, .queueDeclareOk declared count)] := by
  intro declared
  have queues : (s.handleQueueDeclare conn channelID name now).queues =
    (s.declareQueue declared).1.queues := rfl
  have written : (s.handleQueueDeclare conn channelID name now).written =
      (s.declareQueue declared).1.written ++
        [(conn, channelID, .queueDeclareOk declared (UInt32.ofNat (s.declareQueue declared).2))] := rfl
  rw [queues, written, declareQueue]
  cases found : s.queues declared with
  | some queue => exact ⟨by simp [found], _, rfl⟩
  | none => exact ⟨by simp, _, rfl⟩

end Server

theorem readMethod_nameless :
    readMethod (queueDeclareBytes ticket name bits table) = .ok (.queueDeclare []) ↔
      ticket.high = 0 := by
  rw [queueDeclareBytes, (readMethod_methodBytes _).1, queueDeclare_eq_ok, drop_methodBytes]
  constructor
  · rintro ⟨-, rest, same, -⟩
    exact (List.cons.inj same).1
  · intro zero
    refine ⟨Nat.zero_le _, ticket.low :: (shortString name ++ ([bits] ++ longString table)), ?_, ?_⟩
    · rw [Ticket.bytes, zero]
      rfl
    · simp [longString]
      omega

/-- What a declaration with a ticket is read as, if it is read at all. -/
theorem readMethod_queueDeclareBytes
    (read : readMethod (queueDeclareBytes ticket name bits table) = .ok request) :
    ∃ name', request = .queueDeclare name' := by
  rw [queueDeclareBytes, (readMethod_methodBytes _).1] at read
  revert read
  fun_cases queueDeclare _ with
  | case3 =>
    rintro ⟨⟩
    exact ⟨_, rfl⟩
  | _ => simp

theorem declare_iff (s : Server C) (conn : C) (now : Nat) (x : Session) :
    (∃ declared, s.handle conn now x.declare = some (declared, none) ∧
      (declared.queues x.queue).isSome ∧
      ∃ count, declared.written = s.written ++ [(conn, x.declareChannel, .queueDeclareOk x.queue count)]) ↔
    (x.queue ≠ [] ∧ x.queue = x.declareTicket.spelled) ∨
      (x.declareTicket.high = 0 ∧ x.queue = Session.generated now) := by
  have accepted (name : GoString) (read : readMethod x.declare.payload = .ok (.queueDeclare name)) :
      s.handle conn now x.declare = some (s.handleQueueDeclare conn x.declareChannel name now, none) := by
    rw [s.handle_of_read conn now rfl read]
    rfl
  constructor
  · rintro ⟨declared, handled, -, count, written⟩
    cases read : readMethod x.declare.payload with
    | error err =>
      rw [s.handle_of_error conn now rfl read] at handled
      cases handled
    | ok request =>
      obtain ⟨name, rfl⟩ := readMethod_queueDeclareBytes read
      rw [accepted name read] at handled
      obtain ⟨rfl, -⟩ := Prod.mk.inj (Option.some.inj handled)
      obtain ⟨-, count', answered⟩ := s.handleQueueDeclare_written conn now x.declareChannel name
      have named : x.queue = if name = [] then Session.generated now else name := by
        have same := List.append_cancel_left (answered.symm.trans written)
        simp only [List.cons.injEq, Prod.mk.injEq, Reply.queueDeclareOk.injEq, and_true, true_and] at same
        exact same.1.symm
      by_cases nameless : name = []
      · subst nameless
        exact .inr ⟨readMethod_nameless.mp read, named⟩
      · rw [if_neg nameless] at named
        exact .inl ⟨named ▸ nameless, (readMethod_queueDeclare x.queueShort).mp (named ▸ read)⟩
  · rintro (⟨filled, spelled⟩ | ⟨zero, named⟩)
    · have written := s.handleQueueDeclare_written conn now x.declareChannel x.queue
      dsimp only at written
      rw [if_neg filled] at written
      exact ⟨_, accepted x.queue ((readMethod_queueDeclare x.queueShort).mpr spelled), written⟩
    · have written := s.handleQueueDeclare_written conn now x.declareChannel []
      dsimp only at written
      rw [if_pos rfl, ← named] at written
      exact ⟨_, accepted [] (readMethod_nameless.mpr zero), written⟩

/-! ## The publish -/

theorem readMethod_basicPublishBytes
    (read : readMethod (basicPublishBytes ticket exchange routingKey bits) = .ok request) :
    ∃ exchange' routingKey', request = .basicPublish exchange' routingKey' := by
  rw [basicPublishBytes, (readMethod_methodBytes _).2.1, basicPublish] at read
  generalize shortStrings _ _ _ _ _ _ _ = names at read
  cases names with
  | error err => cases read
  | ok names => exact ⟨names.1, names.2, (Except.ok.inj read).symm⟩

theorem publish_iff (s : Server C) (conn : C) (now : Nat) (x : Session) :
    (s.handle conn now x.publish = some (recorded, none) ∧
      (recorded.channelStates x.publishChannel).bind (·.pendingPublish) =
        some { exchange := x.exchange, routingKey := x.routingKey }) ↔
    (x.exchange = x.publishTicket.spelled ∧ x.routingKey = x.publishTicket.left.spelled) ∧
      recorded = s.basicPublish x.publishChannel x.exchange x.routingKey := by
  have accepted (exchange routingKey : GoString)
      (read : readMethod x.publish.payload = .ok (.basicPublish exchange routingKey)) :
      s.handle conn now x.publish = some (s.basicPublish x.publishChannel exchange routingKey, none) := by
    rw [s.handle_of_read conn now rfl read]
    rfl
  have waits (exchange routingKey : GoString) :
      ((s.basicPublish x.publishChannel exchange routingKey).channelStates x.publishChannel).bind
        (·.pendingPublish) =
        some { exchange := exchange, routingKey := routingKey } := by
    rw [Server.basicPublish, Server.setChannel_channelStates, update_self]
    rfl
  constructor
  · rintro ⟨handled, recordedAs⟩
    cases read : readMethod x.publish.payload with
    | error err =>
      rw [s.handle_of_error conn now rfl read] at handled
      cases handled
    | ok request =>
      obtain ⟨exchange, routingKey, rfl⟩ := readMethod_basicPublishBytes read
      rw [accepted _ _ read] at handled
      obtain ⟨rfl, -⟩ := Prod.mk.inj (Option.some.inj handled)
      rw [waits] at recordedAs
      obtain ⟨rfl, rfl⟩ : exchange = x.exchange ∧ routingKey = x.routingKey := by simpa using recordedAs
      exact ⟨(readMethod_basicPublish x.exchangeShort x.routingKeyShort).mp read, rfl⟩
  · rintro ⟨spelled, rfl⟩
    exact ⟨accepted _ _ ((readMethod_basicPublish x.exchangeShort x.routingKeyShort).mpr spelled),
      waits _ _⟩

/-! ## The content and the consume -/

section

variable {s : Server C} {channelID : UInt16} {c : ChannelState C}

theorem run_stray_bodies (found : s.channelStates channelID = some c)
    (none : c.pendingPublish = none) (conn : C) (now : Nat) (bodies : List (List UInt8)) :
    arrivals.run s (bodies.map fun payload => ⟨conn, now, ⟨frameBody, channelID, payload⟩⟩) =
      some s := by
  induction bodies with
  | nil => rfl
  | cons payload bodies ih =>
    refine arrivals.run_cons.mpr ⟨s, ?_, ih⟩
    rw [Publication.body_next, Server.contentBody, found]
    dsimp only
    rw [none]
    rfl

theorem broker_setPending (found : s.channelStates channelID = some c)
    (next : Option PendingPublish) :
    (s.setChannel channelID (c.setPending next)).broker = s.broker := by
  refine s.broker_setChannel fun tag => ?_
  rw [found]
  rfl

variable {pending : PendingPublish}

variable (found : s.channelStates channelID = some c)
include found

variable (waits : c.pendingPublish = some pending)
include waits

theorem body_completes
    (enough : pending.bodySize.toNat ≤ (pending.body ++ payload).length) (conn : C) (now : Nat) :
    arrivals.next s ⟨conn, now, ⟨frameBody, channelID, payload⟩⟩ =
      some ((s.setChannel channelID (c.setPending none)).handleBasicPublish
        ⟨channelID, pending.exchange, pending.routingKey, pending.body ++ payload⟩).1 := by
  rw [Publication.body_next, Server.contentBody, found]
  dsimp only
  rw [waits]
  dsimp only
  rw [if_pos enough]
  exact congrArg (Option.map Prod.fst) (Server.finishAll_single _ (.publish _))

theorem body_waits
    (short : ¬ pending.bodySize.toNat ≤ (pending.body ++ payload).length) (conn : C) (now : Nat) :
    arrivals.next s ⟨conn, now, ⟨frameBody, channelID, payload⟩⟩ =
      some (s.setChannel channelID
        (c.setPending (some { pending with body := pending.body ++ payload }))) := by
  rw [Publication.body_next, Server.contentBody, found]
  dsimp only
  rw [waits]
  dsimp only
  rw [if_neg short]
  rfl

/-- The body frames of a message publish it. -/
theorem run_bodies
    (filled : bodies ≠ [])
    (whole : pending.bodySize.toNat = (pending.body ++ bodies.flatten).length)
    (conn : C) (now : Nat) :
    ∃ t, arrivals.run s (bodies.map fun payload => ⟨conn, now, ⟨frameBody, channelID, payload⟩⟩) =
      some t ∧ t.broker = s.broker.apply
        (s.publishOp ⟨channelID, pending.exchange, pending.routingKey, pending.body ++ bodies.flatten⟩) ∧
      Server.Grows s t := by
  induction bodies generalizing s c pending with
  | nil => exact absurd rfl filled
  | cons payload bodies ih =>
    rw [List.flatten_cons, ← List.append_assoc] at whole ⊢
    by_cases enough : pending.bodySize.toNat ≤ (pending.body ++ payload).length
    · -- the rest of the frames is empty
      have rest : bodies.flatten = [] := by
        rw [List.length_append] at whole
        exact List.length_eq_zero_iff.mp (by omega)
      have stepped := body_completes found waits enough conn now
      obtain ⟨-, states, -⟩ :=
        Server.handleBasicPublish_records (s.setChannel channelID (c.setPending none))
        ⟨channelID, pending.exchange, pending.routingKey, pending.body ++ payload⟩
      obtain ⟨changed, grows⟩ :=
        Server.handleBasicPublish_broker (s.setChannel channelID (c.setPending none))
        ⟨channelID, pending.exchange, pending.routingKey, pending.body ++ payload⟩
      have kept := (congrFun states channelID).trans (update_self ..)
      refine ⟨_, arrivals.run_cons.mpr ⟨_, stepped, run_stray_bodies kept rfl conn now bodies⟩, ?_, grows⟩
      rw [changed, broker_setPending found, Server.publishOp_setPending found, rest, List.append_nil]
    · have stepped := body_waits found waits enough conn now
      have more : bodies ≠ [] := by
        rintro rfl
        rw [List.flatten_nil, List.append_nil] at whole
        exact enough (Nat.le_of_eq whole)
      have longer : (s.setChannel channelID (c.setPending (some { pending with body := pending.body ++ payload }))).channelStates
          channelID = some (c.setPending (some { pending with body := pending.body ++ payload })) := update_self ..
      obtain ⟨t, ran, changed, grows⟩ := ih longer rfl more whole
      refine ⟨t, arrivals.run_cons.mpr ⟨_, stepped, ran⟩, ?_, grows⟩
      rw [changed, broker_setPending found, Server.publishOp_setPending found]

end

namespace Session

variable (x : Session) (s : Server C) (conn : C) (now : Nat)

theorem announced_header : (announced x.header.payload).toNat = x.bodies.flatten.length := by
  have number : numberAt x.header.payload 4 8 = x.bodies.flatten.length := by
    rw [numberAt, header, drop_methodBytes, List.take_left' (length_bigEndian 8 _),
      ofBigEndian_bigEndian]
    exact Nat.mod_eq_of_lt x.bodyFits
  rw [announced, number]
  exact UInt64.toNat_ofNat_of_lt' x.bodyFits

/-- The frames of the message, for a publish that is read as it is meant. -/
def publication
    (read : readMethod x.publish.payload = .ok (.basicPublish x.exchange x.routingKey)) :
    Publication where
  exchange := x.exchange
  routingKey := x.routingKey
  method := x.publish.payload
  header := x.header.payload
  bodies := x.bodies
  reads := read
  long := by
    rw [header, length_methodBytes, List.length_append, length_bigEndian]
    omega
  whole := x.announced_header.symm

theorem consume_next (exists_ : (s.queues x.queue).isSome) :
    ∃ t, arrivals.next s ⟨conn, now, x.consume⟩ = some t ∧
      t.written.filterMap Server.delivery = s.written.filterMap Server.delivery ++
        (s.waiting x.queue).map fun body => (x.queue, body.bytes) := by
  obtain ⟨queue, there⟩ := Option.isSome_iff_exists.mp exists_
  obtain ⟨t, completed⟩ := s.handleBasicConsume_isSome conn x.consumeChannel x.consumerTag there
  have read : readMethod x.consume.payload = .ok (.basicConsume x.queue x.consumerTag) :=
    readMethod_basicConsume x.queueShort x.consumerTagShort
  refine ⟨t, ?_, ?_⟩
  · rw [arrivals_next, s.handle_of_read conn now rfl read]
    exact congrArg (Option.map Prod.fst) completed
  · obtain ⟨changed, -⟩ := Server.handleBasicConsume_broker there completed
    exact congrArg Broker.delivered changed

/-- The channel of the publish once the header has arrived. -/
def announcedChannel : ChannelState C :=
  ((s.channelStates x.publishChannel).getD {}).setPending (some
    { exchange := x.exchange, routingKey := x.routingKey, bodySize := announced x.header.payload })

def announcing : Server C :=
  (s.basicPublish x.publishChannel x.exchange x.routingKey).setChannel x.publishChannel
    (x.announcedChannel s)

/-- The header of a message whose publish was just recorded. -/
theorem header_next
    (read : readMethod x.publish.payload = .ok (.basicPublish x.exchange x.routingKey)) :
    arrivals.next (s.basicPublish x.publishChannel x.exchange x.routingKey) ⟨conn, now, x.header⟩ =
      if x.bodies.flatten.length ≤ Server.maxAlloc then some (x.announcing s) else none := by
  have found :
    (s.basicPublish x.publishChannel x.exchange x.routingKey).channelStates x.publishChannel =
      some (((s.channelStates x.publishChannel).getD {}).setPending
        (some { exchange := x.exchange, routingKey := x.routingKey })) := update_self ..
  have arrived := Publication.header_next (p := x.publication read) found rfl conn now
  rw [Publication.size, publication, announced_header] at arrived
  exact arrived

theorem broker_announcing : (x.announcing s).broker = s.broker := by
  have recorded : (s.basicPublish x.publishChannel x.exchange x.routingKey).broker = s.broker :=
    s.broker_setChannel fun tag => Server.unacked_getD _ rfl tag
  rw [← recorded]
  refine Server.broker_setChannel _ fun tag => ?_
  rw [Server.basicPublish, Server.setChannel_channelStates, update_self]
  rfl

theorem publishOp_announcing (filled : x.queue ≠ []) (own : x.routingKey = x.queue)
    (exists_ : (s.queues x.queue).isSome) :
    (x.announcing s).publishOp ⟨x.publishChannel, x.exchange, x.routingKey, x.bodies.flatten⟩ =
      .accept x.queue x.bodies.flatten := by
  have target : (x.announcing s).targetQueue x.publishChannel x.routingKey = some x.queue := by
    rw [Server.targetQueue, own, if_pos filled]
  rw [Server.publishOp]
  dsimp only
  rw [target]
  exact if_pos exists_

/-- Without a body frame the consume finds only what waited before. -/
theorem run_without_body (exists_ : (s.queues x.queue).isSome) (nothing : x.bodies = [])
    (ran : arrivals.run (x.announcing s) ((x.body ++ [x.consume]).map fun frame =>
      ⟨conn, now, frame⟩) = some consumed) :
    consumed.written.filterMap Server.delivery = s.written.filterMap Server.delivery ++
      (s.waiting x.queue).map fun body => (x.queue, body.bytes) := by
  obtain ⟨t, consumes, finds⟩ := x.consume_next (x.announcing s) conn now exists_
  have alone : x.body = [] := by rw [body, nothing, List.map_nil]
  rw [alone, List.nil_append, List.map_cons, List.map_nil] at ran
  obtain ⟨mid, again, final⟩ := arrivals.run_cons.mp ran
  obtain rfl : t = mid := Option.some.inj (consumes.symm.trans again)
  obtain rfl : t = consumed := Option.some.inj final
  have waiting : (x.announcing s).waiting = s.waiting :=
    congrArg Broker.waiting (x.broker_announcing s)
  rw [finds, waiting]
  rfl

/-- With a body frame the message is published, and the consume delivers it last. -/
theorem run_with_body (filled : x.queue ≠ []) (own : x.routingKey = x.queue)
    (exists_ : (s.queues x.queue).isSome) (some_ : x.bodies ≠ []) :
    ∃ consumed, arrivals.run (x.announcing s)
        ((x.body ++ [x.consume]).map fun frame => ⟨conn, now, frame⟩) = some consumed ∧
      consumed.written.filterMap Server.delivery = s.written.filterMap Server.delivery ++
        (s.waiting x.queue).map (fun body => (x.queue, body.bytes)) ++ [(x.queue, x.bodies.flatten)] := by
  have found : (x.announcing s).channelStates x.publishChannel = some (x.announcedChannel s) :=
    update_self ..
  obtain ⟨t, ran, changed, grows⟩ := run_bodies found rfl some_ x.announced_header conn now
  have accepted : t.broker = s.broker.apply (.accept x.queue x.bodies.flatten) := by
    rw [changed, broker_announcing]
    exact congrArg s.broker.apply (x.publishOp_announcing s filled own exists_)
  obtain ⟨consumed, consumes, finds⟩ := x.consume_next t conn now (grows x.queue exists_)
  refine ⟨consumed, ?_, ?_⟩
  · rw [List.map_append, arrivals.run_append, body, List.map_map]
    refine (congrArg (Option.bind · _) ran).trans ?_
    rw [Option.bind_some, List.map_cons, List.map_nil]
    exact arrivals.run_cons.mpr ⟨consumed, consumes, arrivals.run_nil consumed⟩
  · have before : t.written.filterMap Server.delivery = s.written.filterMap Server.delivery :=
      congrArg Broker.delivered accepted
    have waits : t.waiting x.queue = s.waiting x.queue ++ [⟨s.accepted.length, x.bodies.flatten⟩] := by
      have queued := congrFun (congrArg Broker.waiting accepted) x.queue
      exact queued.trans (update_self ..)
    rw [finds, before, waits, List.map_append, ← List.append_assoc]
    rfl

/-- A message for the queue is delivered exactly if it has a body frame and can be made. -/
theorem content_iff
    (read : readMethod x.publish.payload = .ok (.basicPublish x.exchange x.routingKey))
    (filled : x.queue ≠ []) (own : x.routingKey = x.queue) (exists_ : (s.queues x.queue).isSome) :
    (∃ consumed, arrivals.run (s.basicPublish x.publishChannel x.exchange x.routingKey)
        ((x.header :: x.body ++ [x.consume]).map fun frame => ⟨conn, now, frame⟩) = some consumed ∧
      consumed.written.filterMap Server.delivery = s.written.filterMap Server.delivery ++
        (s.waiting x.queue).map (fun body => (x.queue, body.bytes)) ++ [(x.queue, x.bodies.flatten)]) ↔
    x.bodies ≠ [] ∧ x.bodies.flatten.length ≤ Server.maxAlloc := by
  have header := header_next x s conn now read
  rw [List.cons_append, List.map_cons]
  constructor
  · rintro ⟨consumed, ran, gives⟩
    obtain ⟨first, arrived, ran⟩ := arrivals.run_cons.mp ran
    rw [header] at arrived
    obtain ⟨modest, same⟩ | ⟨-, none⟩ := ite_eq_iff.mp arrived
    · obtain rfl : x.announcing s = first := Option.some.inj same
      refine ⟨fun nothing => ?_, modest⟩
      rw [run_without_body x s conn now exists_ nothing ran] at gives
      simp at gives
    · cases none
  · rintro ⟨some_, modest⟩
    rw [if_pos modest] at header
    obtain ⟨consumed, ran, gives⟩ := run_with_body x s conn now filled own exists_ some_
    exact ⟨consumed, arrivals.run_cons.mpr ⟨x.announcing s, header, ran⟩, gives⟩

/-- A client that sends tickets is served as the specification has it exactly if the tickets stand
    for the names that they come before, and its message can be put together. -/
theorem honoured_iff_understood (s : Server C) (conn : C) (now : Nat) (x : Session) :
    x.Honoured s conn now ↔ x.Understood now := by
  have named (declares : (x.queue ≠ [] ∧ x.queue = x.declareTicket.spelled) ∨
      (x.declareTicket.high = 0 ∧ x.queue = generated now)) : x.queue ≠ [] := by
    obtain ⟨filled, -⟩ | ⟨-, same⟩ := declares
    · exact filled
    · exact same ▸ generated_ne_nil now
  constructor
  · rintro ⟨declared, recorded, declares, publishes, consumes⟩
    obtain ⟨spelled, rfl⟩ := (publish_iff declared conn now x).mp publishes
    have declares' := (declare_iff s conn now x).mp ⟨declared, declares⟩
    have read : readMethod x.publish.payload = .ok (.basicPublish x.exchange x.routingKey) :=
      (readMethod_basicPublish x.exchangeShort x.routingKeyShort).mpr spelled
    exact ⟨declares', spelled, fun own =>
      (content_iff x declared conn now read (named declares') own declares.2.1).mp (consumes own)⟩
  · rintro ⟨declares, spelled, assembles⟩
    obtain ⟨declared, handled⟩ := (declare_iff s conn now x).mpr declares
    have read : readMethod x.publish.payload = .ok (.basicPublish x.exchange x.routingKey) :=
      (readMethod_basicPublish x.exchangeShort x.routingKeyShort).mpr spelled
    exact ⟨declared, _, handled, (publish_iff declared conn now x).mpr ⟨spelled, rfl⟩, fun own =>
      (content_iff x declared conn now read (named declares) own handled.2.1).mpr (assembles own)⟩

/-- A client that declares `orders`, publishes to it and consumes it, with the ticket zero. -/
def orders : Session where
  queue := ascii "orders"
  exchange := []
  routingKey := ascii "orders"
  consumerTag := ascii "c"
  bodies := [[1]]
  declareTicket := ⟨0, 0⟩
  publishTicket := ⟨0, 0⟩
  consumeTicket := ⟨0, 0⟩
  declareChannel := 1
  publishChannel := 1
  consumeChannel := 1
  declareBits := 0
  publishBits := 0
  consumeBits := 0
  declareTable := []
  consumeTable := []
  properties := [0, 0]
  queueShort := by decide
  exchangeShort := by decide
  routingKeyShort := by decide
  consumerTagShort := by decide
  bodyFits := by decide

/-- The queue `orders` is not declared, and the message is taken for one without a routing key: it
    goes to a queue with a generated name. -/
theorem zero_ticket_is_no_name :
    ¬ orders.Honoured (newEnhancedAMQPServer Unit) () 7 ∧
      readMethod orders.declare.payload = .ok (.queueDeclare []) ∧
      readMethod orders.publish.payload = .ok (.basicPublish [] []) ∧
      readMethod orders.consume.payload = .ok (.basicConsume (ascii "orders") (ascii "c")) := by
  refine ⟨fun honoured => ?_, by decide, by decide, by decide⟩
  obtain ⟨declared, recorded, ⟨handled, there, -⟩, -⟩ := honoured
  have declares : ((newEnhancedAMQPServer Unit).handle () 7 orders.declare).map
      (fun result => (result.1.queues (ascii "orders")).isSome) = some false := by decide +kernel
  rw [handled] at declares
  have missing : (declared.queues (ascii "orders")).isSome = false := Option.some.inj declares
  rw [show orders.queue = ascii "orders" from rfl, missing] at there
  cases there

end Session

end Portask.Amqp
