import Portask.Lib.Loop
import Portask.Network.Protocol

/-! # The connection loop of the native protocol

`HandleConnection` calls `processMessage` until an error is not recoverable. All errors of
`processMessage` are made by `fmt.Errorf`, so the comparison with `io.EOF` never holds and the
end of the stream counts as recoverable. An invalid header leaves its payload in the stream.
-/

namespace Portask.Network

open Lib Portask.Types PortaskProtocolHandler

/-- A connection with the state of the storage. `processed` records the messages that a handler
    has decoded and acted on. -/
structure Session (σ : Type) where
  conn : Conn
  storage : σ
  processed : List ProtocolMessage

/-- `incoming` is what the client sends before the end of the stream, as it arrives. -/
structure State (σ : Type) where
  incoming : List (List UInt8)
  session : Session σ

def Session.sendResponse {σ : Type} (s : Session σ) (messageType : UInt8) (payload : List UInt8) :
    Session σ × Option GoError :=
  let (conn, err) := s.conn.sendResponse messageType payload
  ({ s with conn := conn }, err)

def Session.sendErrorResponse {σ : Type} (s : Session σ) (err : GoError) : Session σ :=
  { s with conn := (s.conn.sendErrorResponse err).1 }

def isRecoverableError (err : GoError) : Bool :=
  match err.timeout? with
  | some timeout => timeout
  | none => if err = .eof then false else if err.isContext then false else true

section

variable {σ : Type} (h : PortaskProtocolHandler σ)

namespace PortaskProtocolHandler

section

variable (s : Session σ)

variable (message : ProtocolMessage)

def handlePublish : Session σ × Option GoError :=
  let decompressed :=
    if message.header.flags &&& FlagCompressed ≠ 0 then h.services.decompressPayload message.payload
    else .ok message.payload
  match decompressed with
  | .error err => (s, some (.wrap "failed to decompress payload" err))
  | .ok payload =>
    match h.services.decode payload with
    | .error err => (s, some (.wrap "failed to deserialize message" err))
    | .ok decoded =>
      let s := { s with processed := s.processed ++ [message] }
      match h.services.store s.storage decoded with
      | (storage, some err) => ({ s with storage := storage }, some (.wrap "failed to store message" err))
      | (storage, none) =>
        Session.sendResponse { s with storage := storage } MessageTypeResponse (GoString.ofAscii "message_stored")

def handleSubscribe : Session σ × Option GoError :=
  match h.services.topics message.payload with
  | .error err => (s, some (.wrap "failed to parse subscription request" err))
  | .ok topics =>
    let conn :=
      { s.conn with subscriptions := fun topic => decide (topic ∈ topics) || s.conn.subscriptions topic }
    let s := { s with conn := conn, processed := s.processed ++ [message] }
    match h.services.subscribed s.storage topics with
    | (storage, .error err) =>
      ({ s with storage := storage }, some (.wrap "failed to marshal response" err))
    | (storage, .ok response) =>
      Session.sendResponse { s with storage := storage } MessageTypeResponse response

/-- The payload is decompressed whatever the flags are. -/
def handleFetch : Session σ × Option GoError :=
  match h.services.decompressPayload message.payload with
  | .error err => (s, some (.wrap "failed to decompress fetch payload" err))
  | .ok payload =>
    match h.services.fetchRequest payload with
    | .error err => (s, some (.wrap "failed to parse fetch request" err))
    | .ok request =>
      let request := if request.limit ≤ 0 then { request with limit := 100 } else request
      let s := { s with processed := s.processed ++ [message] }
      match h.services.fetch s.storage request with
      | (storage, .error err) =>
        Session.sendResponse { s with storage := storage } MessageTypeResponse (h.services.fetchFailed request err)
      | (storage, .ok messages) =>
        match h.services.fetched request messages with
        | .error err => ({ s with storage := storage }, some (.wrap "failed to marshal fetch response" err))
        | .ok response => Session.sendResponse { s with storage := storage } MessageTypeResponse response

def handleHeartbeat : Session σ × Option GoError :=
  Session.sendResponse { s with processed := s.processed ++ [message] } MessageTypeHeartbeat
    (GoString.ofAscii "pong")

/-- The switch of `processMessage`. -/
def dispatch : Session σ × Option GoError :=
  if message.header.type = MessageTypePublish then h.handlePublish s message
  else if message.header.type = MessageTypeSubscribe then h.handleSubscribe s message
  else if message.header.type = MessageTypeFetch then h.handleFetch s message
  else if message.header.type = MessageTypeHeartbeat then handleHeartbeat s message
  else
    (s, some (.other (GoString.ofAscii "unsupported message type: " ++
      GoString.decimal message.header.type.toNat)))

end

def processMessage (s : State σ) : State σ × Option GoError :=
  match h.receive s.incoming with
  | (.error err, rest) => (⟨rest, s.session⟩, some err)
  | (.ok message, rest) =>
    let (session, err) := h.dispatch s.session message
    (⟨rest, session⟩, err)

/-- The loop of `HandleConnection`, under a context that is never done. The result is the error
    that is returned, or nothing for nil. -/
def handleConnection : Loop (State σ) (Option GoError) where
  round s :=
    match h.processMessage s with
    | (s, none) => .inr s
    | (s, some err) =>
      if err = .eof then .inl none
      else
        let s := { s with session := s.session.sendErrorResponse err }
        if isRecoverableError err then .inr s else .inl (some err)

end PortaskProtocolHandler

/-- Made by `fmt.Errorf`, with or without `%w`. -/
inductive GoError.Made : GoError → Prop
  | wrap (text : String) (cause : GoError) : Made (.wrap text cause)
  | other (text : GoString) : Made (.other text)

variable {err : GoError}

theorem GoError.Made.ne_eof (made : err.Made) : err ≠ .eof := by
  rintro rfl
  cases made

theorem isRecoverableError_of_made (made : err.Made) : isRecoverableError err = !err.isContext := by
  have notTimeout : err.timeout? = none := by
    cases made with
    | wrap text cause => rfl
    | other text => rfl
  rw [isRecoverableError, notTimeout]
  dsimp only
  rw [if_neg made.ne_eof]
  cases err.isContext with
  | true => rfl
  | false => rfl

/-- No error that is the error of a context. -/
def Calm {α : Type} (result : Except GoError α) : Prop :=
  ∀ err, result = .error err → err.isContext = false

theorem fails_write (conn : Conn) (bytes : List UInt8) :
    (conn.write bytes).1.fails = conn.fails ∧
      ∀ err, (conn.write bytes).2 = some err → ∃ n sent, conn.fails n = some (sent, err) := by
  rw [Conn.write]
  split
  · simp
  · next failed => exact ⟨rfl, fun _ same => Option.some.inj same ▸ ⟨_, _, failed⟩⟩

/-- An error of `writeMessage` wraps one of the connection. -/
theorem fails_writeMessage (conn : Conn) (header : ProtocolHeader) (payload : List UInt8) :
    (conn.writeMessage header payload).1.fails = conn.fails ∧
      ∀ err, (conn.writeMessage header payload).2 = some err →
        ∃ text cause n sent, err = .wrap text cause ∧ conn.fails n = some (sent, cause) := by
  have first := fails_write conn (headerBytes header)
  fun_cases Conn.writeMessage conn header payload with
  | case1 conn' err written =>
    rw [written] at first
    obtain ⟨n, sent, failed⟩ := first.2 err rfl
    exact ⟨first.1, fun _ same => ⟨_, err, n, sent, (Option.some.inj same).symm, failed⟩⟩
  | case2 conn' written long conn'' err written' =>
    have second := fails_write conn' payload
    rw [written] at first
    rw [written', first.1] at second
    obtain ⟨n, sent, failed⟩ := second.2 err rfl
    exact ⟨second.1, fun _ same => ⟨_, err, n, sent, (Option.some.inj same).symm, failed⟩⟩
  | case3 conn' written long conn'' written' =>
    have second := fails_write conn' payload
    rw [written] at first
    rw [written', first.1] at second
    exact ⟨second.1, fun _ never => nomatch never⟩
  | case4 conn' written short =>
    rw [written] at first
    exact ⟨first.1, fun _ never => nomatch never⟩

variable {s : Session σ}

variable {pieces : List (List UInt8)}

theorem calm_of_validateHeader (err : GoError) (refused : h.validateHeader header = some err) :
    err.isContext = false := by
  revert refused
  fun_cases validateHeader with
  | case4 => nofun
  | _ =>
    rintro ⟨⟩
    rfl

theorem calm_of_validateChecksum (err : GoError)
    (wrong : validateChecksum header payload = some err) : err.isContext = false := by
  rw [validateChecksum] at wrong
  split at wrong
  · exact Option.some.inj wrong ▸ rfl
  · cases wrong

theorem isContext_ofStream (err : StreamError) : (GoError.ofStream err).isContext = false := by
  cases err with
  | eof => rfl
  | unexpectedEOF => rfl

theorem calm_readHeader (pieces : List (List UInt8)) : Calm (readHeader pieces).1 := by
  fun_cases readHeader pieces with
  | case1 cause =>
    rintro _ ⟨⟩
    exact isContext_ofStream cause
  | case2 => nofun

theorem error_of_receive (failed : (h.receive pieces).1 = .error err) :
    err.Made ∧ err.isContext = false := by
  revert failed
  fun_cases receive with
  | case1 cause _ failed =>
    rintro ⟨⟩
    exact ⟨.wrap _ _, calm_readHeader _ cause (congrArg Prod.fst failed)⟩
  | case2 _ _ _ cause refused =>
    rintro ⟨⟩
    exact ⟨.wrap _ cause, calm_of_validateHeader h cause refused⟩
  | case3 _ _ _ _ cause =>
    rintro ⟨⟩
    exact ⟨.wrap _ _, isContext_ofStream cause⟩
  | case4 _ _ _ _ _ _ _ cause wrong =>
    rintro ⟨⟩
    exact ⟨.wrap _ cause, calm_of_validateChecksum cause wrong⟩
  | case5 => nofun

/-- The payload has a message or a request that its type's handler can act on. -/
def PortaskProtocolHandler.decodes (message : ProtocolMessage) : Bool :=
  if message.header.type = MessageTypePublish then
    ((if message.header.flags &&& FlagCompressed ≠ 0 then
      h.services.decompressPayload message.payload
      else .ok message.payload) >>= h.services.decode).isOk
  else if message.header.type = MessageTypeSubscribe then (h.services.topics message.payload).isOk
  else if message.header.type = MessageTypeFetch then
    (h.services.decompressPayload message.payload >>= h.services.fetchRequest).isOk
  else message.header.type = MessageTypeHeartbeat

/-- No service and no write to the connection fails with the error of a context. -/
structure PortaskProtocolHandler.Uncancelled (conn : Conn) : Prop where
  decompressPayload : ∀ payload, Calm (h.services.decompressPayload payload)
  decode : ∀ payload, Calm (h.services.decode payload)
  topics : ∀ payload, Calm (h.services.topics payload)
  fetchRequest : ∀ payload, Calm (h.services.fetchRequest payload)
  store : ∀ s message err, (h.services.store s message).2 = some err → err.isContext = false
  subscribed : ∀ s topics, Calm (h.services.subscribed s topics).2
  fetched : ∀ request messages, Calm (h.services.fetched request messages)
  write : ∀ n sent err, conn.fails n = some (sent, err) → err.isContext = false

/-- What a handler leaves behind: an error of its own making, and the message on record if it
    was accepted. -/
structure Handled (s : Session σ) (message : ProtocolMessage) (accepted : Bool)
    (result : Session σ × Option GoError) : Prop where
  made : ∀ err, result.2 = some err → err.Made
  calm : h.Uncancelled s.conn → ∀ err, result.2 = some err → err.isContext = false
  fails : result.1.conn.fails = s.conn.fails
  processed : result.1.processed = s.processed ++ if accepted then [message] else []

section

variable {h} {message : ProtocolMessage}

theorem Handled.refused (made : err.Made) (calm : h.Uncancelled s.conn → err.isContext = false) :
    Handled h s message false (s, some err) where
  made _ same := Option.some.inj same ▸ made
  calm fine _ same := Option.some.inj same ▸ calm fine
  fails := rfl
  processed := (List.append_nil _).symm

theorem Handled.failed {s t : Session σ} (made : err.Made)
    (calm : h.Uncancelled s.conn → err.isContext = false)
    (fails : t.conn.fails = s.conn.fails) (processed : t.processed = s.processed ++ [message]) :
    Handled h s message true (t, some err) where
  made _ same := Option.some.inj same ▸ made
  calm fine _ same := Option.some.inj same ▸ calm fine
  fails := fails
  processed := processed

theorem Handled.answered {s t : Session σ} (fails : t.conn.fails = s.conn.fails)
    (processed : t.processed = s.processed ++ [message]) :
    Handled h s message true (t.sendResponse messageType payload) where
  made err failed := by
    obtain ⟨text, cause, -, -, rfl, -⟩ := (fails_writeMessage ..).2 err failed
    exact .wrap text cause
  calm fine err failed := by
    obtain ⟨text, cause, n, sent, rfl, broken⟩ := (fails_writeMessage ..).2 err failed
    exact fine.write n sent cause (fails ▸ broken)
  fails := (fails_writeMessage ..).1.trans fails
  processed := processed

end

section

variable (s : Session σ)

variable (message : ProtocolMessage)

theorem handled_publish :
    Handled h s message
      ((if message.header.flags &&& FlagCompressed ≠ 0 then h.services.decompressPayload message.payload
        else .ok message.payload) >>= h.services.decode).isOk (h.handlePublish s message) := by
  rw [handlePublish]
  dsimp only
  generalize decompressed : (if message.header.flags &&& FlagCompressed ≠ 0 then _ else _ :
    Except GoError (List UInt8)) = plain
  cases plain with
  | error err =>
    refine .refused (.wrap _ _) fun fine => fine.decompressPayload message.payload err ?_
    split at decompressed
    · exact decompressed
    · cases decompressed
  | ok payload =>
    change Handled h s message (h.services.decode payload).isOk _
    dsimp only
    cases decoded : h.services.decode payload with
    | error err => exact .refused (.wrap _ _) fun fine => fine.decode payload err decoded
    | ok content =>
      dsimp only
      split
      · next err stored => exact .failed (.wrap _ _) (fun fine => fine.store _ _ err (congrArg Prod.snd stored)) rfl rfl
      · exact .answered (by rfl) rfl

theorem handled_subscribe :
    Handled h s message (h.services.topics message.payload).isOk (h.handleSubscribe s message) := by
  rw [handleSubscribe]
  cases parsed : h.services.topics message.payload with
  | error err => exact .refused (.wrap _ _) fun fine => fine.topics _ err parsed
  | ok topics =>
    dsimp only
    split
    · next err answer => exact .failed (.wrap _ _) (fun fine => fine.subscribed _ _ err (congrArg Prod.snd answer)) rfl rfl
    · exact .answered (by rfl) rfl

theorem handled_fetch :
    Handled h s message
    (h.services.decompressPayload message.payload >>= h.services.fetchRequest).isOk
      (h.handleFetch s message) := by
  rw [handleFetch]
  cases plain : h.services.decompressPayload message.payload with
  | error err => exact .refused (.wrap _ _) fun fine => fine.decompressPayload _ err plain
  | ok payload =>
    change Handled h s message (h.services.fetchRequest payload).isOk _
    dsimp only
    cases parsed : h.services.fetchRequest payload with
    | error err => exact .refused (.wrap _ _) fun fine => fine.fetchRequest _ err parsed
    | ok request =>
      dsimp only
      split
      · exact .answered (by rfl) rfl
      · split
        · next err marshalled => exact .failed (.wrap _ _) (fun fine => fine.fetched _ _ err marshalled) rfl rfl
        · exact .answered (by rfl) rfl

theorem handled_dispatch : Handled h s message (h.decodes message) (h.dispatch s message) := by
  rw [dispatch, decodes]
  split
  · exact handled_publish h s message
  · split
    · exact handled_subscribe h s message
    · split
      · exact handled_fetch h s message
      · split
        · next heartbeat => exact decide_eq_true heartbeat ▸ .answered (by rfl) rfl
        · next unknown => exact decide_eq_false unknown ▸ .refused (.other _) fun _ => rfl

end

theorem made_of_processMessage {s} (failed : (h.processMessage s).2 = some err) : err.Made := by
  rw [processMessage] at failed
  split at failed
  · next received =>
      obtain rfl := Option.some.inj failed
      exact (error_of_receive h (congrArg Prod.fst received)).1
  · exact (handled_dispatch h s.session _).made err failed

/-- A round goes on unless its error is, or wraps, that of a context. -/
theorem round_eq_inl_iff {s result} :
    h.handleConnection.round s = .inl result ↔
      ∃ err, (h.processMessage s).2 = some err ∧ err.isContext = true ∧ result = some err := by
  rw [handleConnection]
  dsimp only
  cases processed : h.processMessage s with
  | mk t error =>
    cases error with
    | none => simp
    | some err =>
      have made : err.Made := made_of_processMessage h (congrArg Prod.snd processed)
      dsimp only
      rw [if_neg made.ne_eof, isRecoverableError_of_made made]
      cases context : err.isContext with
      | true =>
        constructor
        · intro stops
          exact ⟨err, rfl, context, (Sum.inl.inj stops).symm⟩
        · rintro ⟨_, same, -, rfl⟩
          exact congrArg Sum.inl same
      | false => simp [context]

/-- The error response of a round touches neither the stream nor the writes to come. -/
theorem round_goes_on {s t} (goesOn : h.handleConnection.round s = .inr t) :
    t.incoming = (h.processMessage s).1.incoming ∧
      t.session.conn.fails = (h.processMessage s).1.session.conn.fails := by
  rw [handleConnection] at goesOn
  dsimp only at goesOn
  split at goesOn
  · next processed =>
      rw [processed, Sum.inr.inj goesOn]
      exact ⟨rfl, rfl⟩
  · next processed =>
      split at goesOn
      · cases goesOn
      · split at goesOn
        · rw [processed, ← Sum.inr.inj goesOn]
          exact ⟨rfl, (fails_writeMessage ..).1⟩
        · cases goesOn

/-- A round keeps what the connection's writes will do, and ends with no error of a context. -/
theorem processMessage_calm {s : State σ} (fine : h.Uncancelled s.session.conn) :
    (h.processMessage s).1.session.conn.fails = s.session.conn.fails ∧
      ∀ err, (h.processMessage s).2 = some err → err.isContext = false := by
  rw [processMessage]
  split
  · next received =>
      exact ⟨rfl, fun _ same => Option.some.inj same ▸ (error_of_receive h (congrArg Prod.fst received)).2⟩
  · next message _ _ =>
      have handled := handled_dispatch h s.session message
      exact ⟨handled.fails, handled.calm fine⟩

theorem Uncancelled.round {s : State σ} (fine : h.Uncancelled s.session.conn) :
    ∃ t, h.handleConnection.round s = .inr t ∧ h.Uncancelled t.session.conn := by
  obtain ⟨fails, calm⟩ := processMessage_calm h fine
  cases next : h.handleConnection.round s with
  | inl result =>
    obtain ⟨err, failed, context, -⟩ := (round_eq_inl_iff h).mp next
    rw [calm err failed] at context
    cases context
  | inr t =>
    refine ⟨t, rfl, { fine with write := ?_ }⟩
    rw [(round_goes_on h next).2, fails]
    exact fine.write

/-- The loop never returns, whatever the client sends before the end of its stream and whichever
    writes fail, if no service and no write fails with the error of a context. -/
theorem handleConnection_never_returns (s : State σ) (fine : h.Uncancelled s.session.conn) :
    ¬ h.handleConnection.Returns s :=
  Loop.not_returns_of_invariant (P := fun t => h.Uncancelled (State.session t).conn) _ fine fun _ =>
    Uncancelled.round h

theorem processMessage_at_end {s} (ended : s.incoming.flatten = []) :
    h.processMessage s = (⟨[], s.session⟩, some (.wrap "failed to read header" .eof)) := by
  have nothing : readFull HeaderSize [] s.incoming = (.error .eof, []) := by
    rw [readFull_error (by rw [ended]; decide), ended]
    rfl
  rw [processMessage, receive, readHeader, nothing]
  rfl

theorem round_at_end {s} (ended : s.incoming.flatten = []) :
    h.handleConnection.round s =
      .inr ⟨[], s.session.sendErrorResponse (.wrap "failed to read header" .eof)⟩ := by
  rw [handleConnection]
  dsimp only
  rw [processMessage_at_end h ended]
  rfl

/-- The smallest services: nothing is compressed, every payload is an empty message. -/
def plainServices : Services Unit where
  decompressPayload payload := .ok payload
  decode _ := .ok {}
  topics _ := .ok []
  fetchRequest _ := .ok ⟨[], 0, 0, 0⟩
  store s _ := (s, none)
  fetch s _ := (s, .ok [])
  subscribed s _ := (s, .ok [])
  fetched _ _ := .ok []
  fetchFailed _ _ := []

def freshSession : Session Unit := ⟨⟨[], 0, fun _ => none, fun _ => false⟩, (), []⟩

/-- A client that sends nothing and closes its end is served for ever. -/
theorem empty_stream_never_returns :
    ¬ (newPortaskProtocolHandler plainServices).handleConnection.Returns ⟨[], freshSession⟩ :=
  Loop.not_returns_of_invariant (P := fun t => (State.incoming t).flatten = []) _ rfl
    fun _ ended => ⟨_, round_at_end _ ended, rfl⟩

/-- A heartbeat and part of another, where the second write fails. -/
theorem cut_stream_never_returns :
    ¬ (newPortaskProtocolHandler plainServices).handleConnection.Returns
      ⟨[headerBytes ⟨ProtocolMagic, ProtocolVersion, MessageTypeHeartbeat, 0, 0, 0⟩, [0x50, 0x4F]],
        ⟨⟨[], 0, fun n => if n = 1 then some (2, .net (GoString.ofAscii "broken pipe") false)
          else none, fun _ => false⟩, (), []⟩⟩ := by
  refine handleConnection_never_returns _ _ ⟨nofun, nofun, nofun, nofun, nofun, nofun, nofun,
    fun n sent err failed => ?_⟩
  dsimp only at failed
  split at failed
  · cases failed
    rfl
  · cases failed

/-- What a client sends: a header with the length of the payload behind it. -/
structure Frame extends ProtocolMessage where
  sized : header.length.toNat = payload.length

def Frame.bytes (f : Frame) : List UInt8 := headerBytes f.header ++ f.payload

namespace PortaskProtocolHandler

def WellFormed (f : Frame) : Prop :=
  h.validateHeader f.header = none ∧ validateChecksum f.header f.payload = none ∧
    h.decodes f.toProtocolMessage = true

instance (f : Frame) : Decidable (h.WellFormed f) := inferInstanceAs (Decidable (_ ∧ _ ∧ _))

variable (s : Session σ)

/-- What a frame on its own does to the session. -/
def serve (f : Frame) : Session σ × Option GoError :=
  match h.validateHeader f.header with
  | some err => (s, some (.wrap "invalid header" err))
  | none =>
    match validateChecksum f.header f.payload with
    | some err => (s, some (.wrap "checksum validation failed" err))
    | none => h.dispatch s f.toProtocolMessage

/-- A frame on its own, with the error response that follows. -/
def answer (f : Frame) : Session σ :=
  match h.serve s f with
  | (s, none) => s
  | (s, some err) => s.sendErrorResponse err

end PortaskProtocolHandler

variable {f : Frame} {later : List UInt8}

/-- A frame is taken off the stream as a whole, and its error, if any, lets the loop go on. -/
structure PortaskProtocolHandler.Passes (s : Session σ) (f : Frame) : Prop where
  complete : h.validateHeader f.header = none ∨ f.payload = []
  recoverable : ∀ err, (h.serve s f).2 = some err → err.isContext = false

/-- What holds before the `n`-th round as long as the frames pass. -/
structure PortaskProtocolHandler.InStep (s : Session σ) (frames : List Frame) (n : Nat)
    (t : State σ) : Prop where
  incoming : t.incoming.flatten = (frames.drop n).flatMap Frame.bytes
  processed : t.session.processed = s.processed ++
    ((frames.take n).filter (h.WellFormed ·)).map Frame.toProtocolMessage
  session : n ≤ frames.length → t.session = (frames.take n).foldl h.answer s

end

end Portask.Network
