import Portask.Lib.Limit
import Portask.Types.Message

/-! # The Dragonfly store

Four ways to write a message to the keyspace of the server, and two to read it back. A writing call
prepares the commands of its pipelines. The server and the client that talks to it are a parameter
of the reading calls, with their errors. Statistics are left out.
-/

namespace Portask.Storage.Dragonfly

open Lib Portask.Types GoString

structure Serializer (ε : Type) where
  serialize : PortaskMessage → Except ε (List UInt8)
  deserialize : List UInt8 → Except ε PortaskMessage

def Serializer.Lossless {ε : Type} (s : Serializer ε) : Prop :=
  ∀ message data, s.serialize message = .ok data → s.deserialize data = .ok message

structure Compressor (ε : Type) where
  compress : List UInt8 → Except ε (List UInt8)
  decompress : List UInt8 → Except ε (List UInt8)

/-- Nothing is said of input that the compressor did not produce. -/
def Compressor.Lossless {ε : Type} (c : Compressor ε) : Prop :=
  ∀ data compressed, c.compress data = .ok compressed → c.decompress compressed = .ok data

structure DragonflyConfig where
  keyPrefix : GoString
  enableCompression : Bool

structure DragonflyStore (ε : Type) where
  config : DragonflyConfig
  serializer : Serializer ε
  compressor : Compressor ε

namespace DragonflyStore

variable {ε : Type} (d : DragonflyStore ε)

/-- The configured text before all keys but those of the streams. -/
def textBefore : GoString := if d.config.keyPrefix = [] then ofAscii "portask"
    else d.config.keyPrefix

def messagePrefix : GoString := d.textBefore ++ ofAscii ":msg:"

def messageKey (id : GoString) : GoString := d.messagePrefix ++ id

def streamKey (message : PortaskMessage) : GoString :=
  d.config.keyPrefix ++ (ofAscii ":stream:" ++ (message.topic ++ (ofAscii ":" ++
    ((if message.partition < 0 then ofAscii "-" else []) ++
      decimal message.partition.toInt.natAbs))))

def topicCountKey (message : PortaskMessage) : GoString :=
  d.textBefore ++ (ofAscii ":topic:" ++ (message.topic ++ ofAscii ":count"))

end DragonflyStore

inductive Path where
  | store
  | storeBatch
  | storeBatchParallel
  | ultraFastStore
  deriving DecidableEq

/-- `StoreBatchParallel` makes nil maps empty, in the message itself. -/
def Path.written (path : Path) (message : PortaskMessage) : PortaskMessage :=
  match path with
  | .storeBatchParallel =>
    { message with
      metadata := some (message.metadata.getD fun _ => none)
      headers := some (message.headers.getD fun _ => none) }
  | _ => message

/-- The errors of the writing calls; batches name the message. -/
inductive StoreError (ε : Type) where
  | serialization (id : Option GoString) (err : ε)
  | compression (id : Option GoString) (err : ε)

def forMessage : Option GoString → GoString
  | none => []
  | some id => ofAscii " for message " ++ id

/-- The error's text, before that of the error it wraps. -/
def StoreError.message {ε : Type} : StoreError ε → GoString
  | .serialization id _ => ofAscii "serialization failed" ++ forMessage id ++ ofAscii ": "
  | .compression id _ => ofAscii "compression failed" ++ forMessage id ++ ofAscii ": "

/-- A message on its way to the server: which way it takes, the message as the caller gave it,
    the bytes, and the expiration passed to `Set`, in nanoseconds. -/
structure Write where
  path : Path
  given : PortaskMessage
  data : List UInt8
  expiration : Int

structure StreamEntry where
  id : GoString
  data : List UInt8
  timestamp : Int

inductive Command where
  | set (write : Write)
  | xadd (key : GoString) (entry : StreamEntry)
  | incr (key : GoString)

/-- `time.Duration(ttl) * time.Second`, which wraps around. -/
def expirationOf (ttl : Int) : Int := if 0 < ttl then (ttl * 1000000000).bmod (2 ^ 64) else 0

namespace DragonflyStore

variable {ε : Type} (d : DragonflyStore ε)

def encode (id : Option GoString) (message : PortaskMessage) : Except (StoreError ε) (List UInt8) :=
  match d.serializer.serialize message with
  | .error err => .error (.serialization id err)
  | .ok data =>
    if d.config.enableCompression = true ∧ 1024 < data.length then
      match d.compressor.compress data with
      | .error err => .error (.compression id err)
      | .ok compressed => .ok compressed
    else .ok data

/-- What `Store`, `StoreBatch` and `StoreBatchParallel` do with one message. -/
def prepareWrite (path : Path) (id : Option GoString) (message : PortaskMessage) :
    Except (StoreError ε) Write :=
  (d.encode id (path.written message)).map fun data =>
    ⟨path, message, data, expirationOf message.ttl⟩

/-- The commands of one pipeline; the first error ends it before anything is sent. -/
def prepareWrites (path : Path) : List PortaskMessage → Except (StoreError ε) (List Command)
  | [] => .ok []
  | message :: rest =>
    match d.prepareWrite path (some message.id) message with
    | .error err => .error err
    | .ok write => (prepareWrites path rest).map (.set write :: ·)

def store (message : PortaskMessage) : Except (StoreError ε) (List Command) :=
  (d.prepareWrite .store none message).map fun write =>
    [.set write, .xadd (d.streamKey message) ⟨message.id, write.data, message.timestamp⟩,
      .incr (d.topicCountKey message)]

def storeBatch (messages : List PortaskMessage) : Except (StoreError ε) (List Command) :=
  d.prepareWrites .storeBatch messages

/-- The sub-batches. Their number is computed in 64 bits, and is negative if the sum overflows. -/
def subBatches (messages : List PortaskMessage) (subBatchSize : Int) : List (List PortaskMessage) :=
  let size := if subBatchSize ≤ 0 then 50 else subBatchSize.toNat
  if 2 ^ 63 ≤ messages.length + size - 1 then [] else pieces size messages

/-- Each sub-batch has a pipeline of its own, which fails alone. -/
def storeBatchParallel (batch : Option (List PortaskMessage)) (subBatchSize : Int) :
    List (Except (StoreError ε) (List Command)) :=
  match batch with
  | none => []
  | some messages => (subBatches messages subBatchSize).map (d.prepareWrites .storeBatchParallel)

def ultraFastStore (message : PortaskMessage) : Except (StoreError ε) (List Command) :=
  match message.payload with
  | some payload => .ok [.set ⟨.ultraFastStore, message, payload, 0⟩]
  | none =>
    match d.serializer.serialize message with
    | .error err => .error (.serialization none err)
    | .ok data => .ok [.set ⟨.ultraFastStore, message, data, 0⟩]

end DragonflyStore

inductive Call where
  | store (message : PortaskMessage)
  | storeBatch (messages : List PortaskMessage)
  | storeBatchParallel (batch : Option (List PortaskMessage)) (subBatchSize : Int)
  | ultraFastStore (message : PortaskMessage)

def DragonflyStore.prepare {ε : Type} (d : DragonflyStore ε) : Call →
    List (Except (StoreError ε) (List Command))
  | .store message => [d.store message]
  | .storeBatch messages => [d.storeBatch messages]
  | .storeBatchParallel batch subBatchSize => d.storeBatchParallel batch subBatchSize
  | .ultraFastStore message => [d.ultraFastStore message]

/-- The errors of the client: that there is no value, which the store tells apart, or any other. -/
inductive ClientError (χ : Type) where
  | nil
  | other (err : χ)

/-- The reply to a `GET`. -/
abbrev Reply (χ : Type) := Except (ClientError χ) (List UInt8)

/-- What the reading calls are given by the client: the replies to `GET`, and what `Exec` of a pipeline
    of such commands gives, the replies to them and an error of its own. -/
structure Client (χ : Type) where
  get : GoString → Reply χ
  exec : List GoString → List (Reply χ) × Option (ClientError χ)

/-- What the calls of `SCAN` answer, one after the other. -/
abbrev Pages (χ : Type) := List (Except (ClientError χ) (List GoString))

inductive DecodeError (ε : Type) where
  | decompression (err : ε)
  | deserialization (err : ε)

inductive FetchError (ε χ : Type) where
  | notFound
  | fetch (err : χ)
  | scan (err : ClientError χ)
  | decode (err : DecodeError ε)

/-- The error's text, before that of the error it wraps. -/
def FetchError.message {ε χ : Type} : FetchError ε χ → String
  | .notFound => "message not found"
  | .fetch _ => "fetch failed: "
  | .scan _ => "failed to scan message keys: "
  | .decode (.decompression _) => "decompression failed: "
  | .decode (.deserialization _) => "deserialization failed: "

/-- The pipeline fails as a whole, unless its error says that there is no value. -/
def skipped {χ : Type} : Option (ClientError χ) → Bool
  | some (.other _) => true
  | _ => false

namespace DragonflyStore

variable {χ ε : Type} (d : DragonflyStore ε)

def decode (data : List UInt8) : Except (DecodeError ε) PortaskMessage :=
  match if d.config.enableCompression = true then d.compressor.decompress data else .ok data with
  | .error err => .error (.decompression err)
  | .ok data =>
    match d.serializer.deserialize data with
    | .error err => .error (.deserialization err)
    | .ok message => .ok message

/-- The filter of `Fetch`. -/
def accepts (topic : GoString) (partition : Int32) (offset : Int)
    (message : PortaskMessage) : Bool :=
  message.topic = topic && (partition < 0 || message.partition = partition) && offset ≤
    message.offset

/-- What one reply adds; an error of any kind adds nothing. -/
def addReply (topic : GoString) (partition : Int32) (offset : Int)
    (messages : List PortaskMessage) : Reply χ → List PortaskMessage
  | .error _ => messages
  | .ok data =>
    match d.decode data with
    | .error _ => messages
    | .ok message =>
      if accepts topic partition offset message then messages ++ [message] else messages

variable (client : Client χ)

def fetchByID (messageID : GoString) : Except (FetchError ε χ) PortaskMessage :=
  match client.get (d.messageKey messageID) with
  | .error .nil => .error .notFound
  | .error (.other err) => .error (.fetch err)
  | .ok data => (d.decode data).mapError .decode

variable (topic : GoString) (partition : Int32) (offset : Int)

def fetchChunk (limit : Nat) (messages : List PortaskMessage) (chunk : List GoString) :
    List PortaskMessage :=
  if skipped (client.exec chunk).2 then messages
  else upTo limit (d.addReply topic partition offset) messages (client.exec chunk).1

/-- The scan; the cursor behind the last keys is 0. -/
def fetchPages (limit : Nat) : List PortaskMessage → Pages χ →
    Except (FetchError ε χ) (List PortaskMessage)
  | messages, [] => .ok messages
  | messages, answer :: pages =>
    if limit ≤ messages.length then .ok messages
    else
      match answer with
      | .error err => .error (.scan err)
      | .ok keys =>
        if keys = [] then .ok messages
        else fetchPages limit
          (upTo limit (d.fetchChunk client topic partition offset limit) messages (pieces 500 keys)) pages

def fetch (pages : Pages χ) (limit : Int) : Except (FetchError ε χ) (List PortaskMessage) :=
  if limit ≤ 0 then .ok [] else d.fetchPages client topic partition offset limit.toNat [] pages

end DragonflyStore

end Portask.Storage.Dragonfly
