import Portask.Lib.GoString
import Portask.Lib.Machine
import Portask.Lib.Stream
import Portask.Lib.Wire

/-! # Requests and responses on a connection

`readRequest`, `writeResponse` and `HandleConnection` of `pkg/kafka/protocol.go`. A request is
its size, a header of fixed fields and a client ID, and a body; a response is its size, the
correlation ID of the request and a body. Logging and metrics are left out.
-/

namespace Portask.Kafka

open Lib

structure RequestHeader where
  apiKey : Int16
  apiVersion : Int16
  correlationID : Int32
  clientID : GoString
  deriving DecidableEq

structure KafkaRequest where
  header : RequestHeader
  body : List UInt8
  deriving DecidableEq

structure KafkaResponse where
  correlationID : Int32
  body : List UInt8
  deriving DecidableEq

inductive ReadError where
  | stream (err : StreamError)
  | tooLarge (size : UInt32)
  deriving DecidableEq

def ReadError.message : ReadError → String
  | .stream .eof => "EOF"
  | .stream .unexpectedEOF => "unexpected EOF"
  | .tooLarge size => "message too large: " ++ toString size.toNat ++ " bytes"

/-- 100 MB. -/
def maxMessageSize : UInt32 := 100 * 1024 * 1024

/-- A string whose length is negative, or of which nothing is there, is empty. A string that is
    cut short ends in zeros. -/
def readString : Reader GoString := readText length16

/-- `binary.Read` with its error. -/
def binaryRead {α : Type} (w : Fixed α) (buf : List UInt8) : Except ReadError (α × List UInt8) :=
  match w.decode buf with
  | some read => .ok read
  | none => .error (.stream (if buf = [] then .eof else .unexpectedEOF))

/-- The part of `readRequest` that works on the bytes of the message. -/
def parseRequest (messageBytes : List UInt8) : Except ReadError KafkaRequest := do
  let (apiKey, buf) ← binaryRead int16 messageBytes
  let (apiVersion, buf) ← binaryRead int16 buf
  let (correlationID, buf) ← binaryRead int32 buf
  -- A client ID takes at least the two bytes of its length.
  let (clientID, buf) := if buf.length ≥ 2 then readString buf else ([], buf)
  return ⟨⟨apiKey, apiVersion, correlationID, clientID⟩, buf⟩

def readRequest (pieces : List (List UInt8)) : Except ReadError KafkaRequest × List (List UInt8) :=
  match readFull 4 [] pieces with
  | (.error err, pieces) => (.error (.stream err), pieces)
  | (.ok sizeBytes, pieces) =>
    let size := UInt32.ofNat (ofBigEndian sizeBytes)
    if size > maxMessageSize then (.error (.tooLarge size), pieces)
    else
      match readFull size.toNat [] pieces with
      | (.error err, pieces) => (.error (.stream err), pieces)
      | (.ok messageBytes, pieces) => (parseRequest messageBytes, pieces)

/-- `incoming` is what the client sends, as it arrives, `written` has the writes that succeeded
    and `fails` says which writes do not. -/
structure Conn where
  incoming : List (List UInt8)
  written : List (List UInt8)
  fails : Nat → Bool

namespace Conn

variable (conn : Conn)

def write (bytes : List UInt8) : Conn × Bool :=
  if conn.fails conn.written.length then (conn, false)
  else ({ conn with written := conn.written ++ [bytes] }, true)

def writeResponse (response : KafkaResponse) : Conn × Bool :=
  let responseBytes := int32.encode response.correlationID ++ response.body
  match conn.write (uint32.encode (UInt32.ofNat responseBytes.length)) with
  | (conn, false) => (conn, false)
  | (conn, true) => conn.write responseBytes

theorem incoming_write (bytes : List UInt8) : (conn.write bytes).1.incoming = conn.incoming := by
  rw [write]
  split
  · rfl
  · rfl

theorem incoming_writeResponse (response : KafkaResponse) :
    (conn.writeResponse response).1.incoming = conn.incoming := by
  rw [writeResponse]
  have first := conn.incoming_write
    (uint32.encode (UInt32.ofNat (int32.encode response.correlationID ++ response.body).length))
  split
  · next kept => rwa [kept] at first
  · next kept =>
      rw [kept] at first
      rw [incoming_write, first]

end Conn

/-- A request takes at least its size from the stream. -/
theorem readRequest_shrinks {pieces rest request}
    (read : readRequest pieces = (.ok request, rest)) :
    rest.flatten.length < pieces.flatten.length := by
  have four : 4 ≤ pieces.flatten.length := by
    by_contra short
    rw [readRequest, readFull_error (by omega)] at read
    simp at read
  obtain ⟨middle, first, after⟩ := readFull_ok four []
  simp only [readRequest, first] at read
  split at read
  · simp at read
  · generalize UInt32.toNat _ = size at read
    by_cases enough : size ≤ middle.flatten.length
    · obtain ⟨final, second, left⟩ := readFull_ok enough []
      simp only [second, Prod.mk.injEq] at read
      rw [← read.2, left, after, List.drop_drop, List.length_drop]
      omega
    · rw [readFull_error (by omega)] at read
      simp at read

/-- The loop of `HandleConnection`. `handle` gives the body of the response, or nothing where
    the handler panics. `handleRequest` never returns an error. -/
def handleConnection {σ : Type} (handle : σ → KafkaRequest → σ × Option (List UInt8)) (conn : Conn)
    (s : σ) : Conn × σ :=
  match _read : readRequest conn.incoming with
  | (.error _, pieces) => ({ conn with incoming := pieces }, s)
  | (.ok request, pieces) =>
    match handle s request with
    | (s, none) => ({ conn with incoming := pieces }, s)
    | (s, some body) =>
      let written :=
        Conn.writeResponse { conn with incoming := pieces } ⟨request.header.correlationID, body⟩
      if written.2 then handleConnection handle written.1 s else (written.1, s)
termination_by conn.incoming.flatten.length
decreasing_by
  rw [Conn.incoming_writeResponse]
  exact readRequest_shrinks _read

end Portask.Kafka
