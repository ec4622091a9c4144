import Mathlib.Algebra.Ring.Nat
import Portask.Lib.Buffer
import Portask.Types.Message

/-! # Processing a message

`ProcessMessage` hands a message to a worker and waits for the answer. The worker copies the
message into a pooled `memory.Message`, compresses the value if it is told to, computes a
checksum, and converts the pooled message back. The pooled form has a number for the ID and
bytes for the headers, and `copyMessage` sets neither its partition nor its key.
-/

namespace Portask.Processor

open Lib Portask.Types GoString

def emptyMap {V : Type} : GoMap V := some (fun _ => none)

/-- `memory.Message`. -/
structure MemoryMessage where
  id : UInt64 := 0
  topic : GoString := []
  partition : Int32 := 0
  offset : Int := 0
  key : Bytes := none
  value : Bytes := none
  headers : GoMap Bytes := emptyMap
  timestamp : Int := 0
  checksum : UInt32 := 0

/-- Slices are cut back to length zero, and the map is emptied. -/
def MemoryMessage.reset (m : MemoryMessage) : MemoryMessage where
  key := m.key.map (fun _ => [])
  value := m.value.map (fun _ => [])
  headers := m.headers.map (fun _ _ => none)

abbrev MessagePool := List MemoryMessage

namespace MessagePool

/-- `sync.Pool` gives any of the pooled messages, or makes one. -/
def get (pool : MessagePool) (pooled : Nat) : MemoryMessage × MessagePool :=
  match pool[pooled]? with
  | some m => (m, pool.eraseIdx pooled)
  | none => ({}, pool)

def put (pool : MessagePool) (m : MemoryMessage) : MessagePool := m.reset :: pool

end MessagePool

def bufferSizes : List Nat := [32, 64, 128, 256, 512, 1024, 2048, 4096, 8192, 16384, 32768, 65536]

/-- `BufferPool.Get`. A buffer that comes back from the pool is cut to length zero as well. -/
def bufferPoolGet (size : Nat) : Buffer UInt8 := .make ((bufferSizes.find? (size ≤ ·)).getD size)

/-- The contents of `dst` after `copy(dst, src)`. -/
def goCopy (dst src : List UInt8) : List UInt8 := src.take dst.length ++ dst.drop src.length

structure ProcessorConfig where
  enableCompression : Bool
  enableBackpressure : Bool
  enableSIMD : Bool
  enableZeroCopy : Bool
  deriving DecidableEq

def defaultProcessorConfig : ProcessorConfig := ⟨true, true, true, true⟩

inductive ProcessError (ε : Type) where
  | nilMessage
  | emptyTopic
  | nilValue
  | compression (err : ε)
  | backpressure
  | queueFull
  | timeout
  | cancelled
  deriving DecidableEq

def ProcessError.message {ε : Type} (render : ε → String) : ProcessError ε → String
  | .nilMessage => "message is nil"
  | .emptyTopic => "topic is empty"
  | .nilValue => "message value is nil"
  | .compression err => render err
  | .backpressure => "backpressure detected"
  | .queueFull => "queue is full"
  | .timeout => "processing timeout"
  | .cancelled => "context canceled"

def hash (s : GoString) : UInt64 := (runes s).foldl (fun h c => h * 31 + UInt64.ofNat c) 0

def crcBit (crc : UInt32) : UInt32 := if crc &&& 1 = 1 then (crc >>> 1) ^^^ 0xEDB88320
    else crc >>> 1

def standardCRC32 (data : List UInt8) : UInt32 :=
  ~~~ data.foldl (fun crc b => Nat.repeat crcBit 8 (crc ^^^ b.toUInt32)) 0xFFFFFFFF

def simdCRC32 (data : List UInt8) : UInt32 := standardCRC32 data

section

variable {ε : Type}

def validateMessage : Option PortaskMessage → Except (ProcessError ε) PortaskMessage
  | none => .error .nilMessage
  | some msg =>
    if msg.topic = [] then .error .emptyTopic
    else if msg.payload = none then .error .nilValue
    else .ok msg

def copyMessage (config : ProcessorConfig) (dst : MemoryMessage) (src : PortaskMessage) :
    MemoryMessage :=
  { dst with
    id := hash src.id
    topic := src.topic
    timestamp := src.timestamp
    value :=
      if config.enableZeroCopy then src.payload
      else
        match src.payload with
        | some payload => some (goCopy (bufferPoolGet payload.length).contents payload)
        | none => dst.value
    headers :=
      match src.headers with
      | some headers => some (fun k => (headers k).bind (fun v => v.string?.map some))
      | none => dst.headers }

/-- The compressed value is used only if it is smaller. -/
def compressMessageData (compress : List UInt8 → Except ε Bytes) (msg : MemoryMessage) :
    Except ε MemoryMessage :=
  let value := msg.value.getD []
  if value.length = 0 then .ok msg
  else
    match compress value with
    | .error err => .error err
    | .ok compressed =>
      .ok (if (compressed.getD []).length < value.length then { msg with value := compressed } else msg)

def calculateChecksum (config : ProcessorConfig) (msg : MemoryMessage) : MemoryMessage :=
  { msg with
    checksum :=
      if config.enableSIMD then simdCRC32 (msg.value.getD [])
      else standardCRC32 (msg.value.getD []) }

def convertToPortaskMessage (msg : MemoryMessage) : PortaskMessage where
  id := decimal msg.id.toNat
  topic := msg.topic
  payload := msg.value
  timestamp := msg.timestamp
  headers := some (fun k => (msg.headers.bind (· k)).map (fun v => .string (v.getD [])))

/-- The pool is the one of the processor. A worker has its pooled message to itself until
    it puts it back, so the whole call is one step. -/
def processSingleMessage (config : ProcessorConfig) (compress : List UInt8 → Except ε Bytes)
    (pooled : Nat) (pool : MessagePool) (msg : Option PortaskMessage) :
    MessagePool × Except (ProcessError ε) PortaskMessage :=
  match validateMessage msg with
  | .error err => (pool, .error err)
  | .ok msg =>
    let (dst, pool) := pool.get pooled
    let copied := copyMessage config dst msg
    match if config.enableCompression then compressMessageData compress copied else .ok copied with
    | .error err => (pool.put copied, .error (.compression err))
    | .ok compressed =>
      let processed := calculateChecksum config compressed
      (pool.put processed, .ok (convertToPortaskMessage processed))

/-- What happens to a call of `ProcessMessage` that the backpressure check lets through. The
    caller may give up while a worker has the task, or before any worker gets it. -/
inductive Course where
  | queueFull
  | cancelledInQueue
  | cancelled (worked : Option Nat)
  | timeout (worked : Option Nat)
  | answered (pooled : Nat)
  deriving DecidableEq

/-- `backpressured` is what `isBackpressured` says. -/
structure Circumstances where
  backpressured : Bool
  course : Course
  deriving DecidableEq

def processMessage (config : ProcessorConfig) (compress : List UInt8 → Except ε Bytes)
    (c : Circumstances)
    (pool : MessagePool) (msg : Option PortaskMessage) :
    MessagePool × Except (ProcessError ε) PortaskMessage :=
  let worked (pooled : Option Nat) : MessagePool :=
    pooled.elim pool (fun i => (processSingleMessage config compress i pool msg).1)
  if config.enableBackpressure && c.backpressured then (pool, .error .backpressure)
  else
    match c.course with
    | .queueFull => (pool, .error .queueFull)
    | .cancelledInQueue => (pool, .error .cancelled)
    | .cancelled pooled => (worked pooled, .error .cancelled)
    | .timeout pooled => (worked pooled, .error .timeout)
    | .answered pooled => processSingleMessage config compress pooled pool msg

structure Valid (msg : PortaskMessage) : Prop where
  topic : msg.topic ≠ []
  payload : msg.payload ≠ none

variable {msg : Option PortaskMessage}

theorem validateMessage_ok :
    validateMessage (ε := ε) msg = .ok valid ↔ msg = some valid ∧ Valid valid := by
  cases msg with
  | none => simp [validateMessage]
  | some msg =>
    simp only [validateMessage, Option.some.injEq]
    split_ifs with unnamed absent
    · exact ⟨nofun, fun ⟨same, valid⟩ => absurd (same ▸ unnamed) valid.topic⟩
    · exact ⟨nofun, fun ⟨same, valid⟩ => absurd (same ▸ absent) valid.payload⟩
    · exact ⟨fun ok => ⟨Except.ok.inj ok, Except.ok.inj ok ▸ ⟨unnamed, absent⟩⟩, fun ⟨same, _⟩ =>
        congrArg _ same⟩

/-- No pooled message has a header left from the message before it. -/
def MessagePool.Clean (pool : MessagePool) : Prop := ∀ m ∈ pool, m.headers = emptyMap

variable {pool : MessagePool}

theorem MessagePool.Clean.get (clean : pool.Clean) (pooled : Nat) :
    (pool.get pooled).1.headers = emptyMap ∧ (pool.get pooled).2.Clean := by
  cases found : pool[pooled]? with
  | none => exact ⟨by simp [MessagePool.get, found], by simpa [MessagePool.get, found] using clean⟩
  | some m =>
    have inside : m ∈ pool := List.mem_of_getElem? found
    simp only [MessagePool.get, found]
    exact ⟨clean m inside, fun m' kept => clean m' (List.mem_of_mem_eraseIdx kept)⟩

theorem MessagePool.Clean.put (clean : pool.Clean) {m : MemoryMessage} (mapped : m.headers ≠ none) :
    (pool.put m).Clean := by
  intro m' inside
  obtain rfl | before := List.mem_cons.mp inside
  · obtain ⟨headers, some_headers⟩ := Option.ne_none_iff_exists'.mp mapped
    simp [MemoryMessage.reset, some_headers, emptyMap]
  · exact clean m' before

variable {config : ProcessorConfig}

theorem copyMessage_headers (blank : dst.headers = emptyMap) (src : PortaskMessage) :
    (copyMessage config dst src).headers =
      some (fun k => (src.headers.bind (· k)).bind (fun v => v.string?.map some)) := by
  cases headers : src.headers <;> simp [copyMessage, headers, blank, emptyMap]

variable {compress : List UInt8 → Except ε Bytes}

theorem compressMessageData_headers {msg compressed}
    (done : compressMessageData compress msg = .ok compressed) :
    compressed.headers = msg.headers := by
  simp only [compressMessageData] at done
  split at done
  · rw [← Except.ok.inj done]
  · split at done
    · cases done
    · rw [← Except.ok.inj done]
      split <;> rfl

theorem processSingleMessage_clean (clean : pool.Clean) (msg : Option PortaskMessage) :
    (processSingleMessage config compress pooled pool msg).1.Clean := by
  obtain ⟨blank, rest⟩ := clean.get pooled
  rw [processSingleMessage]
  cases validateMessage (ε := ε) msg with
  | error err => exact clean
  | ok msg =>
    have mapped : (copyMessage config (pool.get pooled).1 msg).headers ≠ none := by
      rw [copyMessage_headers blank]
      exact Option.some_ne_none _
    simp only
    split
    · exact rest.put mapped
    · rename_i compressed done
      refine rest.put ?_
      split_ifs at done
      · exact (compressMessageData_headers done).symm ▸ mapped
      · exact Except.ok.inj done ▸ mapped

/-- What comes out for a valid message. A buffer of length zero takes none of the bytes that
    are copied to it, so without zero-copy the payload is empty. -/
def carried (config : ProcessorConfig) (msg : PortaskMessage) : PortaskMessage where
  id := decimal (hash msg.id).toNat
  topic := msg.topic
  payload := if config.enableZeroCopy then msg.payload else some []
  timestamp := msg.timestamp
  headers := some (fun k => (msg.headers.bind (· k)).bind (fun v => v.string?.map .string))

theorem convert_copyMessage {dst} (blank : dst.headers = emptyMap) {msg} (valid : Valid msg) :
    convertToPortaskMessage (calculateChecksum config (copyMessage config dst msg)) =
      carried config msg := by
  obtain ⟨payload, present⟩ := Option.ne_none_iff_exists'.mp valid.payload
  have headers : (copyMessage config dst msg).headers = _ := copyMessage_headers blank msg
  have copied : goCopy (bufferPoolGet payload.length).contents payload = [] := by
    simp [goCopy, bufferPoolGet]
  simp only [convertToPortaskMessage, calculateChecksum, headers, carried]
  congr 1
  · simp [copyMessage, present, copied]
  · simp [Option.map_bind, Function.comp_def]

theorem processSingleMessage_ok (off : config.enableCompression = false) {pooled}
    (clean : pool.Clean) {out} :
    (processSingleMessage config compress pooled pool msg).2 = .ok out ↔
      ∃ given, msg = some given ∧ Valid given ∧ out = carried config given := by
  rw [processSingleMessage]
  cases validated : validateMessage (ε := ε) msg with
  | error err =>
    refine ⟨nofun, fun ⟨given, same, valid, _⟩ => ?_⟩
    rw [validateMessage_ok.mpr ⟨same, valid⟩] at validated
    cases validated
  | ok given =>
    obtain ⟨rfl, valid⟩ := validateMessage_ok.mp validated
    simp only [off, Bool.false_eq_true, if_false, convert_copyMessage (clean.get pooled).1 valid]
    constructor
    · intro ok
      exact ⟨given, rfl, valid, (Except.ok.inj ok).symm⟩
    · rintro ⟨given', same, -, rfl⟩
      rw [Option.some.inj same]

theorem processMessage_clean (clean : pool.Clean)
    (called : processMessage config compress c pool msg = (after, answer)) : after.Clean := by
  have worked (pooled : Option Nat) :
      (pooled.elim pool (fun i => (processSingleMessage config compress i pool msg).1)).Clean := by
    cases pooled with
    | none => exact clean
    | some i => exact processSingleMessage_clean clean msg
  suffices (processMessage config compress c pool msg).1.Clean by rwa [called] at this
  rw [processMessage]
  split_ifs
  · exact clean
  · cases c.course with
    | queueFull | cancelledInQueue => exact clean
    | cancelled pooled | timeout pooled => exact worked pooled
    | answered pooled => exact processSingleMessage_clean clean msg

/-- The call reaches a worker, and the caller waits for its answer. -/
def Circumstances.Answered (c : Circumstances) (config : ProcessorConfig) : Prop :=
  (config.enableBackpressure && c.backpressured) = false ∧ ∃ pooled, c.course = .answered pooled

theorem processMessage_ok (off : config.enableCompression = false) (clean : pool.Clean) :
    (processMessage config compress c pool msg).2 = .ok out ↔
      c.Answered config ∧ ∃ given, msg = some given ∧ Valid given ∧ out = carried config given := by
  rw [processMessage, Circumstances.Answered]
  cases pressed : config.enableBackpressure && c.backpressured with
  | true => simp
  | false =>
    cases course : c.course with
    | answered pooled => simpa using processSingleMessage_ok off clean
    | queueFull | cancelledInQueue | cancelled | timeout => simp

/-- The hash without the wraparound. -/
def rank (codes : List Nat) (start : Nat) : Nat := codes.foldl (fun h c => h * 31 + c) start

theorem hash_toNat (s : GoString) : (hash s).toNat = rank (runes s) 0 % 2 ^ 64 := by
  have fold (codes : List Nat) (h : UInt64) (n : Nat) (same : h.toNat = n % 2 ^ 64) :
      (codes.foldl (fun h c => h * 31 + UInt64.ofNat c) h).toNat = rank codes n % 2 ^ 64 := by
    induction codes generalizing h n with
    | nil => exact same
    | cons c rest ih =>
      refine ih _ (n * 31 + c) ?_
      rw [UInt64.toNat_add, UInt64.toNat_mul, same, UInt64.toNat_ofNat']
      simp [Nat.add_mod, Nat.mul_mod]
  exact fold _ 0 0 rfl

theorem rank_le (digits : ∀ c ∈ codes, c ≤ 57) (start : Nat) :
    rank codes start + 2 ≤ (start + 2) * 31 ^ codes.length := by
  induction codes generalizing start with
  | nil => simp [rank]
  | cons c rest ih =>
    have step := ih (fun c' inside => digits c' (List.mem_cons_of_mem _ inside)) (start * 31 + c)
    have small := digits c List.mem_cons_self
    calc rank (c :: rest) start + 2 ≤ (start * 31 + c + 2) * 31 ^ rest.length := step
      _ ≤ ((start + 2) * 31) * 31 ^ rest.length := Nat.mul_le_mul_right _ (by omega)
      _ = (start + 2) * 31 ^ (c :: rest).length := by
          rw [List.length_cons, Nat.pow_succ', Nat.mul_assoc]

theorem ofDigitChars_lt_rank (digits : ∀ c ∈ cs, 48 ≤ c.toNat) (below : value < start) :
    Nat.ofDigitChars 10 cs value < rank (cs.map Char.toNat) start := by
  induction cs generalizing value start with
  | nil => exact below
  | cons c rest ih =>
    have digit := digits c List.mem_cons_self
    rw [Nat.ofDigitChars_cons]
    refine ih (fun c' inside => digits c' (List.mem_cons_of_mem _ inside)) ?_
    show 10 * value + (c.toNat - 48) < start * 31 + c.toNat
    omega

/-- Each digit of a number counts for more in its hash, which does not wrap around before
    the thirteenth. -/
theorem hash_decimal_ne (short : (decimal n).length ≤ 12) : (hash (decimal n)).toNat ≠ n := by
  have digits {c : Char} (inside : c ∈ Nat.toDigits 10 n) := digit_of_mem_toDigits inside
  have bounded : rank ((Nat.toDigits 10 n).map Char.toNat) 0 < 2 ^ 64 := by
    have bound : rank ((Nat.toDigits 10 n).map Char.toNat) 0 + 2 ≤ _ :=
      rank_le (by simpa using fun c inside => (digits inside).2) 0
    have power : 31 ^ ((Nat.toDigits 10 n).map Char.toNat).length ≤ 31 ^ 12 :=
      Nat.pow_le_pow_right (by decide) (by simpa [decimal] using short)
    omega
  have value : Nat.ofDigitChars 10 (Nat.toDigits 10 n) 0 = n :=
    Nat.ofDigitChars_toDigits (by decide) (by decide)
  rw [hash_toNat, runes_decimal, Nat.mod_eq_of_lt bounded]
  suffices larger : Nat.ofDigitChars 10 (Nat.toDigits 10 n) 0 <
    rank ((Nat.toDigits 10 n).map Char.toNat) 0 by omega
  cases written : Nat.toDigits 10 n with
  | nil => exact absurd written Nat.toDigits_ne_nil
  | cons c rest =>
    rw [written] at digits
    have first := digits List.mem_cons_self
    rw [Nat.ofDigitChars_cons]
    refine ofDigitChars_lt_rank (fun c' inside => (digits (List.mem_cons_of_mem _ inside)).1) ?_
    show 10 * 0 + (c.toNat - 48) < 0 * 31 + c.toNat
    omega

variable (config : ProcessorConfig)

theorem carried_id_ne {msg} (short : msg.id.length ≤ 12) : (carried config msg).id ≠ msg.id := by
  intro kept
  have numeral : decimal (hash msg.id).toNat = msg.id := kept
  exact hash_decimal_ne (by rw [numeral]; exact short) (congrArg (fun s => (hash s).toNat) numeral)

theorem carried_id_eq (a b : PortaskMessage) :
    (carried config a).id = (carried config b).id ↔ hash a.id = hash b.id := by
  rw [← UInt64.toNat_inj]
  exact decimal_injective.eq_iff

theorem carried_headers (msg : PortaskMessage) :
    (∀ k v, msg.headers.bind (· k) = some v → (carried config msg).headers.bind (· k) = some v) ↔
      ∀ k v, msg.headers.bind (· k) = some v → ∃ s, v = .string s := by
  refine forall_congr' fun k => forall_congr' fun v => imp_congr_right fun given => ?_
  simp only [carried, Option.bind_some, given]
  cases v <;> simp [HeaderValue.string?]

end

end Portask.Processor
