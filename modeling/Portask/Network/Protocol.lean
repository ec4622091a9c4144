import Portask.Lib.Crc
import Portask.Lib.GoString
import Portask.Lib.Stream
import Portask.Lib.Wire
import Portask.Types.Message

/-! # Frames of the native protocol

`pkg/network/protocol.go`. A frame is a header of 16 bytes and the payload whose length and
checksum the header has. What the handler gets from the codecs, from the storage and from
JSON is a parameter, with its errors; statistics are left out.
-/

namespace Portask.Network

open Lib Portask.Types GoString

/-- The errors that the connection loop tells apart. `net` stands for those that have a method
    `Timeout`, and `wrap` for those made by `fmt.Errorf` with `%w`. -/
inductive GoError where
  | eof
  | unexpectedEOF
  | canceled
  | deadlineExceeded
  | net (text : GoString) (timeout : Bool)
  | other (text : GoString)
  | wrap (text : String) (cause : GoError)
  deriving DecidableEq

namespace GoError

def message : GoError → GoString
  | eof => ofAscii "EOF"
  | unexpectedEOF => ofAscii "unexpected EOF"
  | canceled => ofAscii "context canceled"
  | deadlineExceeded => ofAscii "context deadline exceeded"
  | net text _ => text
  | other text => text
  | wrap text cause => ofAscii text ++ ofAscii ": " ++ cause.message

/-- `errors.Is` with one of the two errors of contexts. -/
def isContext : GoError → Bool
  | canceled => true
  | deadlineExceeded => true
  | wrap _ cause => cause.isContext
  | _ => false

/-- `Timeout` of the error itself, not of one that it wraps. The deadline of a context has that
    method too. -/
def timeout? : GoError → Option Bool
  | net _ timeout => some timeout
  | deadlineExceeded => some true
  | _ => none

def ofStream : StreamError → GoError
  | .eof => eof
  | .unexpectedEOF => unexpectedEOF

end GoError

def ProtocolMagic : UInt32 := 0x504F5254

def ProtocolVersion : UInt8 := 0x01

def HeaderSize : Nat := 16

def MessageTypePublish : UInt8 := 0x01

def MessageTypeSubscribe : UInt8 := 0x02

def MessageTypeFetch : UInt8 := 0x03

def MessageTypeHeartbeat : UInt8 := 0x05

def MessageTypeError : UInt8 := 0x06

def MessageTypeResponse : UInt8 := 0x07

def FlagCompressed : UInt16 := 0x01

/-- 64 MB. -/
def MaxMessageSize : Int64 := 64 * 1024 * 1024

structure ProtocolHeader where
  magic : UInt32
  version : UInt8
  type : UInt8
  flags : UInt16
  length : UInt32
  checksum : UInt32
  deriving DecidableEq

structure ProtocolMessage where
  header : ProtocolHeader
  payload : List UInt8
  deriving DecidableEq

/-- The bytes that `writeMessage` puts a header into. -/
def headerBytes (header : ProtocolHeader) : List UInt8 :=
  bigEndian 4 header.magic.toNat ++ header.version :: header.type ::
    (bigEndian 2 header.flags.toNat ++
    (bigEndian 4 header.length.toNat ++ bigEndian 4 header.checksum.toNat))

/-- The slice `b[start:stop]`. -/
def slice (b : List UInt8) (start stop : Nat) : List UInt8 := (b.drop start).take (stop - start)

/-- The header that `readHeader` takes from its 16 bytes. -/
def parseHeader (headerBytes : List UInt8) : ProtocolHeader where
  magic := UInt32.ofNat (ofBigEndian (slice headerBytes 0 4))
  version := headerBytes.getD 4 0
  type := headerBytes.getD 5 0
  flags := UInt16.ofNat (ofBigEndian (slice headerBytes 6 8))
  length := UInt32.ofNat (ofBigEndian (slice headerBytes 8 12))
  checksum := UInt32.ofNat (ofBigEndian (slice headerBytes 12 16))

@[simp] theorem length_headerBytes (header : ProtocolHeader) :
    (headerBytes header).length = HeaderSize := by
  simp [headerBytes, HeaderSize]

theorem ofNat_bigEndian_uint32 (v : UInt32) :
    UInt32.ofNat (ofBigEndian (bigEndian 4 v.toNat)) = v := by
  rw [ofBigEndian_bigEndian]
  exact uint32.ofNat_toNat v

theorem ofNat_bigEndian_uint16 (v : UInt16) :
    UInt16.ofNat (ofBigEndian (bigEndian 2 v.toNat)) = v := by
  rw [ofBigEndian_bigEndian]
  simp

theorem parseHeader_headerBytes (header : ProtocolHeader) :
    parseHeader (headerBytes header) = header := by
  have magic : slice (headerBytes header) 0 4 = bigEndian 4 header.magic.toNat := rfl
  have flags : slice (headerBytes header) 6 8 = bigEndian 2 header.flags.toNat := rfl
  have length : slice (headerBytes header) 8 12 = bigEndian 4 header.length.toNat := rfl
  have checksum : slice (headerBytes header) 12 16 = bigEndian 4 header.checksum.toNat := rfl
  rw [parseHeader, magic, flags, length, checksum, ofNat_bigEndian_uint32, ofNat_bigEndian_uint16,
    ofNat_bigEndian_uint32, ofNat_bigEndian_uint32]
  rfl

/-- `output` is what the client has been sent, `writes` the number of calls of `Write`, and
    `fails` says which of them fail, after how many bytes and with which error. -/
structure Conn where
  output : List UInt8
  writes : Nat
  fails : Nat → Option (Nat × GoError)
  subscriptions : GoString → Bool

def Conn.write (conn : Conn) (bytes : List UInt8) : Conn × Option GoError :=
  match conn.fails conn.writes with
  | none => ({ conn with output := conn.output ++ bytes, writes := conn.writes + 1 }, none)
  | some (n, err) =>
    ({ conn with output := conn.output ++ bytes.take n, writes := conn.writes + 1 }, some err)

def Conn.writeMessage (conn : Conn) (header : ProtocolHeader) (payload : List UInt8) :
    Conn × Option GoError :=
  match conn.write (headerBytes header) with
  | (conn, some err) => (conn, some (.wrap "failed to write header" err))
  | (conn, none) =>
    if payload.length > 0 then
      match conn.write payload with
      | (conn, some err) => (conn, some (.wrap "failed to write payload" err))
      | (conn, none) => (conn, none)
    else (conn, none)

def calculateCRC32 (data : List UInt8) : UInt32 := Crc.checksumIEEE data

def responseHeader (messageType : UInt8) (payload : List UInt8) : ProtocolHeader where
  magic := ProtocolMagic
  version := ProtocolVersion
  type := messageType
  flags := 0
  length := UInt32.ofNat payload.length
  checksum := calculateCRC32 payload

def Conn.sendResponse (conn : Conn) (messageType : UInt8) (payload : List UInt8) :
    Conn × Option GoError :=
  conn.writeMessage (responseHeader messageType payload) payload

def Conn.sendErrorResponse (conn : Conn) (err : GoError) : Conn × Option GoError :=
  conn.sendResponse MessageTypeError err.message

/-- What the handler is given by `codecManager`, by `storage` and by the packages for JSON and
    gzip, over a state of the storage and of the clock. -/
structure Services (σ : Type) where
  decompressPayload : List UInt8 → Except GoError (List UInt8)
  decode : List UInt8 → Except GoError PortaskMessage
  topics : List UInt8 → Except GoError (List GoString)
  fetchRequest : List UInt8 → Except GoError FetchRequest
  store : σ → PortaskMessage → σ × Option GoError
  fetch : σ → FetchRequest → σ × Except GoError (List PortaskMessage)
  subscribed : σ → List GoString → σ × Except GoError (List UInt8)
  fetched : FetchRequest → List PortaskMessage → Except GoError (List UInt8)
  fetchFailed : FetchRequest → GoError → List UInt8

structure PortaskProtocolHandler (σ : Type) where
  services : Services σ
  maxMessageSize : Int64

def newPortaskProtocolHandler {σ : Type} (services : Services σ) : PortaskProtocolHandler σ where
  services := services
  maxMessageSize := MaxMessageSize

def readHeader (pieces : List (List UInt8)) : Except GoError ProtocolHeader × List (List UInt8) :=
  match readFull HeaderSize [] pieces with
  | (.error err, rest) => (.error (.ofStream err), rest)
  | (.ok bytes, rest) => (.ok (parseHeader bytes), rest)

def validateChecksum (header : ProtocolHeader) (payload : List UInt8) : Option GoError :=
  let expectedChecksum := calculateCRC32 payload
  if header.checksum ≠ expectedChecksum then
    some (.other (ofAscii "checksum mismatch: expected " ++ hexadecimal expectedChecksum.toNat ++
      ofAscii ", got " ++ hexadecimal header.checksum.toNat))
  else none

section

variable {σ : Type} (h : PortaskProtocolHandler σ)

namespace PortaskProtocolHandler

def validateHeader (header : ProtocolHeader) : Option GoError :=
  if header.magic ≠ ProtocolMagic then
    some (.other (ofAscii "invalid magic number: " ++ hexadecimal header.magic.toNat))
  else if header.version ≠ ProtocolVersion then
    some (.other (ofAscii "unsupported protocol version: " ++ decimal header.version.toNat))
  else if header.length > h.maxMessageSize.toUInt64.toUInt32 then
    some (.other (ofAscii "message too large: " ++ decimal header.length.toNat ++ ofAscii " bytes"))
  else none

theorem validateHeader_eq_none :
    h.validateHeader header = none ↔ header.magic = ProtocolMagic ∧
      header.version = ProtocolVersion ∧ header.length ≤ h.maxMessageSize.toUInt64.toUInt32 := by
  rw [validateHeader]
  split
  · next wrong => simp [wrong]
  · next magic =>
      split
      · next wrong => simp [wrong]
      · next version =>
          rw [not_not] at magic version
          split
          · next large => simp [large]
          · next small => simp [magic, version, UInt32.not_lt.mp small]

/-- The part of `processMessage` before the switch. -/
def receive (pieces : List (List UInt8)) : Except GoError ProtocolMessage × List (List UInt8) :=
  match readHeader pieces with
  | (.error err, rest) => (.error (.wrap "failed to read header" err), rest)
  | (.ok header, rest) =>
    match h.validateHeader header with
    | some err => (.error (.wrap "invalid header" err), rest)
    | none =>
      match readFull header.length.toNat [] rest with
      | (.error err, rest) => (.error (.wrap "failed to read payload" (.ofStream err)), rest)
      | (.ok payload, rest) =>
        match validateChecksum header payload with
        | some err => (.error (.wrap "checksum validation failed" err), rest)
        | none => (.ok ⟨header, payload⟩, rest)

end PortaskProtocolHandler

variable {pieces : List (List UInt8)} {response : UInt8 × List UInt8} {conn : Conn}
  {header : ProtocolHeader}

/-- A header is read back, whatever follows it. -/
theorem readHeader_append (arrived : pieces.flatten = headerBytes header ++ later) :
    ∃ rest, readHeader pieces = (.ok header, rest) ∧ rest.flatten = later := by
  obtain ⟨rest, read, left⟩ := readFull_append arrived
  rw [length_headerBytes] at read
  refine ⟨rest, ?_, left⟩
  rw [readHeader, read]
  dsimp only
  rw [parseHeader_headerBytes]

theorem receive_append (message : ProtocolMessage) (valid : h.validateHeader message.header = none)
    (length : message.header.length.toNat = message.payload.length)
    (intact : validateChecksum message.header message.payload = none)
    (arrived : pieces.flatten = headerBytes message.header ++ (message.payload ++ later)) :
    ∃ rest, h.receive pieces = (.ok message, rest) ∧ rest.flatten = later := by
  obtain ⟨middle, first, between⟩ := readHeader_append arrived
  obtain ⟨rest, second, left⟩ := readFull_append between
  refine ⟨rest, ?_, left⟩
  rw [PortaskProtocolHandler.receive, first]
  dsimp only
  rw [valid, length]
  dsimp only
  rw [second]
  dsimp only
  rw [intact]

def responseBytes (response : UInt8 × List UInt8) : List UInt8 :=
  headerBytes (responseHeader response.1 response.2) ++ response.2

theorem write_of_fine (fine : ∀ n, conn.fails n = none) (bytes : List UInt8) :
    conn.write bytes =
      ({ conn with output := conn.output ++ bytes, writes := conn.writes + 1 }, none) := by
  rw [Conn.write, fine]

theorem sendResponse_of_fine (fine : ∀ n, conn.fails n = none) (messageType : UInt8)
    (payload : List UInt8) : (conn.sendResponse messageType payload).2 = none ∧
      (conn.sendResponse messageType payload).1.output =
        conn.output ++ responseBytes (messageType, payload) ∧
      (conn.sendResponse messageType payload).1.fails = conn.fails := by
  rw [Conn.sendResponse, Conn.writeMessage, write_of_fine fine]
  dsimp only
  split
  · rw [write_of_fine (by exact fine)]
    exact ⟨rfl, by rw [responseBytes, List.append_assoc], rfl⟩
  · next empty =>
      have nothing : payload = [] := List.length_eq_zero_iff.mp (Nat.eq_zero_of_not_pos empty)
      exact ⟨rfl, by rw [responseBytes, nothing, List.append_nil], rfl⟩

def Conn.sendResponses (conn : Conn) (responses : List (UInt8 × List UInt8)) : Conn :=
  responses.foldl (fun conn response => (conn.sendResponse response.1 response.2).1) conn

theorem output_sendResponses (fine : ∀ n, conn.fails n = none)
    (responses : List (UInt8 × List UInt8)) :
    (conn.sendResponses responses).output = conn.output ++ responses.flatMap responseBytes := by
  induction responses generalizing conn with
  | nil => exact (List.append_nil _).symm
  | cons response responses ih =>
    obtain ⟨-, output, fails⟩ := sendResponse_of_fine fine response.1 response.2
    have still : ∀ n, (conn.sendResponse response.1 response.2).1.fails n = none := by
      rw [fails]
      exact fine
    have later := ih still
    rw [Conn.sendResponses, List.foldl_cons]
    rw [Conn.sendResponses, output] at later
    rw [later, List.flatMap_cons, List.append_assoc]

/-- Reads `n` messages, or up to the first error. -/
def PortaskProtocolHandler.receiveAll : Nat → List (List UInt8) →
    Except GoError (List ProtocolMessage) × List (List UInt8)
  | 0, pieces => (.ok [], pieces)
  | n + 1, pieces =>
    match h.receive pieces with
    | (.error err, rest) => (.error err, rest)
    | (.ok message, rest) =>
      match receiveAll n rest with
      | (.error err, rest) => (.error err, rest)
      | (.ok messages, rest) => (.ok (message :: messages), rest)

def responseMessage (response : UInt8 × List UInt8) : ProtocolMessage :=
  ⟨responseHeader response.1 response.2, response.2⟩

theorem length_response (limit : h.maxMessageSize.toInt < 2 ^ 32)
    (small : (response.2.length : Int) ≤ h.maxMessageSize.toInt) :
    (responseMessage response).header.length.toNat = (responseMessage response).payload.length := by
  rw [responseMessage, responseHeader]
  refine UInt32.toNat_ofNat_of_lt' ?_
  show response.2.length < 2 ^ 32
  omega

theorem toNat_toUInt32 {limit : Int64} (lower : 0 ≤ limit.toInt) (upper : limit.toInt < 2 ^ 32) :
    (limit.toUInt64.toUInt32.toNat : Int) = limit.toInt := by
  have wide : limit.toInt = limit.toUInt64.toBitVec.toInt := rfl
  have same : limit.toUInt64.toNat = limit.toUInt64.toBitVec.toNat := rfl
  have bound := limit.toUInt64.toBitVec.isLt
  rw [BitVec.toInt_eq_toNat_cond] at wide
  rw [UInt64.toNat_toUInt32]
  split at wide
  · omega
  · omega

theorem validateHeader_response (limit : h.maxMessageSize.toInt < 2 ^ 32)
    (small : (response.2.length : Int) ≤ h.maxMessageSize.toInt) :
    h.validateHeader (responseMessage response).header = none := by
  have bound := toNat_toUInt32 ((Int.natCast_nonneg _).trans small) limit
  have length := length_response h limit small
  have payload : (responseMessage response).payload.length = response.2.length := rfl
  refine h.validateHeader_eq_none.mpr ⟨rfl, rfl, ?_⟩
  rw [UInt32.le_iff_toNat_le]
  omega

theorem validateChecksum_response (response : UInt8 × List UInt8) :
    validateChecksum (responseMessage response).header (responseMessage response).payload = none :=
  if_neg (not_not.mpr rfl)

theorem receiveAll_responses (limit : h.maxMessageSize.toInt < 2 ^ 32)
    {responses : List (UInt8 × List UInt8)}
    (small : ∀ response ∈ responses, (response.2.length : Int) ≤ h.maxMessageSize.toInt)
    (arrived : pieces.flatten = responses.flatMap responseBytes) :
    ∃ rest, h.receiveAll responses.length pieces = (.ok (responses.map responseMessage), rest) ∧
      rest.flatten = [] := by
  induction responses generalizing pieces with
  | nil => exact ⟨pieces, rfl, arrived⟩
  | cons response responses ih =>
    have here := small response List.mem_cons_self
    rw [List.flatMap_cons, responseBytes, List.append_assoc] at arrived
    obtain ⟨middle, first, between⟩ := receive_append h (responseMessage response)
      (validateHeader_response h limit here) (length_response h limit here)
        (validateChecksum_response response) arrived
    obtain ⟨rest, others, left⟩ :=
      ih (fun r inside => small r (List.mem_cons_of_mem _ inside)) between
    refine ⟨rest, ?_, left⟩
    rw [List.length_cons, PortaskProtocolHandler.receiveAll, first]
    dsimp only
    rw [others]
    rfl

/-- A checksum that matches the payload matches no payload that differs from it by a burst of at
    most 32 bits. -/
theorem validateChecksum_burst (intact : validateChecksum header payload = none)
    (burst : Crc.Burst 32 payload changed) : validateChecksum header changed ≠ none := by
  intro accepted
  have before : header.checksum = calculateCRC32 payload := by
    by_contra different
    rw [validateChecksum, if_pos different] at intact
    exact Option.some_ne_none _ intact
  have after : header.checksum = calculateCRC32 changed := by
    by_contra different
    rw [validateChecksum, if_pos different] at accepted
    exact Option.some_ne_none _ accepted
  exact Crc.checksumIEEE_ne_of_burst burst (after.symm.trans before)

/-- The responses that a connection has been sent are read back in their order, however the
    reads are split, with headers and checksums that are accepted; a payload changed within 32
    consecutive bits is not. The bits are those of `Crc.bits`, in the order of the remainder's
    coefficients: of each byte the low bit first. The constructor's limit is 64 MB. -/
theorem responses_read_back (limit : h.maxMessageSize.toInt < 2 ^ 32) (conn : Conn)
    (fine : ∀ n, conn.fails n = none) (responses : List (UInt8 × List UInt8))
    (small : ∀ response ∈ responses, (response.2.length : Int) ≤ h.maxMessageSize.toInt) :
    ∃ sent, (conn.sendResponses responses).output = conn.output ++ sent ∧
      ∀ pieces : List (List UInt8), pieces.flatten = sent →
        ∃ messages rest, h.receiveAll responses.length pieces = (.ok messages, rest) ∧ rest.flatten = [] ∧
          messages.map (fun message => (message.header.type, message.payload)) = responses ∧
          ∀ message ∈ messages, h.validateHeader message.header = none ∧
            validateChecksum message.header message.payload = none ∧
            ∀ changed, Crc.Burst 32 message.payload changed → validateChecksum message.header changed ≠ none := by
  refine ⟨responses.flatMap responseBytes, output_sendResponses fine responses,
    fun pieces arrived => ?_⟩
  obtain ⟨rest, read, left⟩ := receiveAll_responses h limit small arrived
  refine ⟨responses.map responseMessage, rest, read, left, ?_, ?_⟩
  · rw [List.map_map]
    exact List.map_id _
  · intro message inside
    obtain ⟨response, sent, rfl⟩ := List.mem_map.mp inside
    exact ⟨validateHeader_response h limit (small response sent),
      validateChecksum_response response,
      fun changed burst => validateChecksum_burst (validateChecksum_response response) burst⟩

theorem two_responses_read_back :
    let h := newPortaskProtocolHandler (σ := Unit)
      ⟨fun b => .ok b, fun _ => .error .eof, fun _ => .ok [], fun _ => .error .eof, fun s _ => (s, none),
        fun s _ => (s, .ok []), fun s _ => (s, .ok []), fun _ _ => .ok [], fun _ _ => []⟩
    let conn : Conn := ⟨[], 0, fun _ => none, fun _ => false⟩
    ∃ sent, (conn.sendResponses [(MessageTypeResponse, [1, 2]),
      (MessageTypeHeartbeat, [])]).output = conn.output ++ sent ∧
      ∀ pieces : List (List UInt8), pieces.flatten = sent →
        ∃ messages rest, h.receiveAll 2 pieces = (.ok messages, rest) ∧ rest.flatten = [] ∧
          messages.map (fun message => (message.header.type, message.payload)) =
            [(MessageTypeResponse, [1, 2]), (MessageTypeHeartbeat, [])] ∧
          ∀ message ∈ messages, h.validateHeader message.header = none ∧
            validateChecksum message.header message.payload = none ∧
            ∀ changed, Crc.Burst 32 message.payload changed → validateChecksum message.header changed ≠ none :=
  responses_read_back _ (by decide) _ (fun _ => rfl) [(MessageTypeResponse, [1, 2]),
    (MessageTypeHeartbeat, [])]
    (by decide)

end

end Portask.Network
