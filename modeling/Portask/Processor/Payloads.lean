import Portask.Processor.Process

/-! # What becomes of a payload

The deep copy of a payload goes into a slice from the buffer pool, which has length zero whatever the pool has
been used for, and `copy` fills a slice up to its length only. The flag `Compressed` of a result says that
compression is switched on, not that the value was compressed.
-/

namespace Portask.Processor

open Lib Portask.Types

/-- The buffers that wait in the pool of each size. -/
abbrev BufferPool := Nat → List (Buffer UInt8)

namespace BufferPool

def findPoolSize (size : Nat) : Option Nat := bufferSizes.find? (size ≤ ·)

/-- `sync.Pool` gives any of the pooled buffers, or makes one. -/
def get (pool : BufferPool) (pooled size : Nat) : Buffer UInt8 × BufferPool :=
  match findPoolSize size with
  | none => (.make size, pool)
  | some poolSize =>
    match (pool poolSize)[pooled]? with
    | none => (.make poolSize, pool)
    | some buffer => (buffer.clear, Function.update pool poolSize ((pool poolSize).eraseIdx pooled))

def put (pool : BufferPool) (buffer : Buffer UInt8) : BufferPool :=
  match findPoolSize buffer.capacity with
  | none => pool
  | some poolSize =>
    if buffer.len = 0 then pool else Function.update pool poolSize (buffer.clear :: pool poolSize)

inductive Use where
  | get (pooled size : Nat)
  | put (buffer : Buffer UInt8)

def use (pool : BufferPool) : Use → BufferPool
  | .get pooled size => (pool.get pooled size).2
  | .put buffer => pool.put buffer

def used (uses : List Use) : BufferPool := uses.foldl use fun _ => []

theorem contents_get (pool : BufferPool) (pooled size : Nat) :
    (pool.get pooled size).1.contents = [] := by
  unfold get
  split
  · rfl
  · split <;> simp

/-- A buffer that `Put` ignores, or files under its own capacity. -/
def Fits (buffer : Buffer UInt8) : Prop :=
  buffer.len = 0 ∨ 65536 < buffer.capacity ∨ buffer.capacity ∈ bufferSizes

/-- No buffer is smaller than the class it waits in. -/
def Sized (pool : BufferPool) : Prop := ∀ size, ∀ buffer ∈ pool size, size ≤ buffer.capacity

theorem findPoolSize_mem {n size : Nat} (found : findPoolSize n = some size) :
    size ∈ bufferSizes ∧ n ≤ size :=
  ⟨List.mem_of_find?_eq_some found, by simpa using List.find?_some found⟩

theorem findPoolSize_none {n : Nat} : findPoolSize n = none ↔ 65536 < n := by
  simp [findPoolSize, bufferSizes]
  omega

theorem findPoolSize_self : ∀ size ∈ bufferSizes, findPoolSize size = some size := by decide

/-- What a call can leave in a class: what waited there, or the buffer that was put back. -/
theorem mem_use {pool : BufferPool} {call : Use} (held : buffer ∈ pool.use call size) :
    buffer ∈ pool size ∨
      ∃ given, call = .put given ∧ given.len ≠ 0 ∧ findPoolSize given.capacity = some size ∧
      buffer = given.clear := by
  cases call with
  | get pooled n =>
    refine .inl ?_
    cases found : findPoolSize n with
    | none => simpa [use, get, found] using held
    | some poolSize =>
      cases taken : (pool poolSize)[pooled]? with
      | none => simpa [use, get, found, taken] using held
      | some given =>
        simp only [use, get, found, taken, Function.update_apply] at held
        grind [List.mem_of_mem_eraseIdx]
  | put given =>
    cases found : findPoolSize given.capacity with
    | none => exact .inl (by simpa [use, put, found] using held)
    | some poolSize =>
      simp only [use, put, found] at held
      grind [Function.update_apply]

theorem sized_used {uses : List Use} (fits : ∀ buffer, Use.put buffer ∈ uses → Fits buffer)
    (sized : Sized pool) : Sized (uses.foldl use pool) := by
  induction uses generalizing pool with
  | nil => exact sized
  | cons call rest ih =>
    refine ih (fun buffer inside => fits buffer (.tail _ inside)) fun size buffer held => ?_
    rcases mem_use held with kept | ⟨given, rfl, filled, found, rfl⟩
    · exact sized size buffer kept
    · -- a buffer that fits and is kept has the capacity that names its class
      rcases fits given (.head _) with empty | large | exactly
      · exact absurd empty filled
      · simp [findPoolSize_none.mpr large] at found
      · rw [findPoolSize_self _ exactly] at found
        exact Nat.le_of_eq (Option.some.inj found).symm

theorem le_capacity_get {pool : BufferPool} (sized : Sized pool) (pooled n : Nat) :
    n ≤ (pool.get pooled n).1.capacity := by
  unfold get
  split
  · exact Nat.le_refl n
  · rename_i poolSize found
    have large : n ≤ poolSize := (findPoolSize_mem found).2
    split
    · exact large
    · rename_i buffer held
      exact Nat.le_trans large (sized _ buffer (List.mem_of_getElem? held))

/-- The class is computed from a capacity by the same rounding up as from a request, so a buffer whose capacity is
not one of the sizes waits among larger ones. -/
theorem exists_small_of_put {buffer : Buffer UInt8} (misfit : ¬ Fits buffer) (pool : BufferPool) :
    ∃ size, buffer.capacity < size ∧ buffer.clear ∈ pool.put buffer size := by
  simp only [Fits, not_or, ← findPoolSize_none] at misfit
  obtain ⟨filled, small, between⟩ := misfit
  obtain ⟨size, found⟩ := Option.ne_none_iff_exists'.mp small
  obtain ⟨inside, le⟩ := findPoolSize_mem found
  refine ⟨size, lt_of_le_of_ne le fun same => between (same ▸ inside), ?_⟩
  simp [put, found, filled]

/-- Every buffer is as large as its class, and every request is met, all along a history exactly if each buffer that
was put back fits. -/
theorem capacity_at_least_iff (uses : List Use) :
    (∀ before, before <+: uses →
      (∀ size, ∀ buffer ∈ used before size, size ≤ buffer.capacity) ∧
        ∀ pooled n, n ≤ ((used before).get pooled n).1.capacity) ↔
    ∀ buffer, Use.put buffer ∈ uses → buffer.len = 0 ∨ 65536 < buffer.capacity ∨
      buffer.capacity ∈ bufferSizes := by
  constructor
  · intro holds buffer inside
    by_contra misfit
    obtain ⟨before, after, rfl⟩ := List.append_of_mem inside
    obtain ⟨size, small, held⟩ := exists_small_of_put misfit (used before)
    have sized := (holds (before ++ [.put buffer]) ⟨after, by simp⟩).1 size buffer.clear (by simpa [used, use] using held)
    exact absurd sized (Nat.not_le.mpr small)
  · intro fits before initial
    have sized : Sized (used before) := 
      sized_used (fun buffer inside => fits buffer (initial.subset inside)) (by simp [Sized])
    exact ⟨sized, le_capacity_get sized⟩

/-- A slice of capacity 40 that holds one byte. -/
def smallBuffer : Buffer UInt8 := ⟨40, [7], 1, by decide, by decide⟩

theorem capacity_small_of_put : ((used [.put smallBuffer]).get 0 50).1.capacity = 40 := by decide

end BufferPool

section

variable {ε : Type} {config : ProcessorConfig} {compress : List UInt8 → Except ε Bytes}
  {msg : PortaskMessage}

def copied (zeroCopy : Bool) (payload : List UInt8) : List UInt8 := if zeroCopy then payload else []

theorem copyMessage_value (given : msg.payload = some payload) (dst : MemoryMessage) :
    (copyMessage config dst msg).value = some (copied config.enableZeroCopy payload) := by
  cases zeroCopy : config.enableZeroCopy <;>
    simp [copyMessage, copied, zeroCopy, given, goCopy, bufferPoolGet]

def payloadOf (result : Except (ProcessError ε) PortaskMessage) : Option (List UInt8) :=
  result.toOption.map fun out => out.payload.getD []

theorem payloadOf_processSingleMessage (off : config.enableCompression = false) (valid : Valid msg)
    (given : msg.payload = some payload) (pooled : Nat) (pool : MessagePool) :
    payloadOf (processSingleMessage config compress pooled pool (some msg)).2 =
      some (copied config.enableZeroCopy payload) := by
  have accepted : validateMessage (ε := ε) (some msg) = .ok msg :=
    validateMessage_ok.mpr ⟨rfl, valid⟩
  simp [processSingleMessage, accepted, off, payloadOf, Except.toOption, convertToPortaskMessage,
    calculateChecksum, copyMessage_value given]

/-- With and without zero-copy the payload is the same only if it is empty, however the pools were used before;
and what the pool of buffers holds makes no difference. -/
theorem zero_copy_same_iff (config : ProcessorConfig) (compress : List UInt8 → Except ε Bytes)
    (off : config.enableCompression = false) (msg : PortaskMessage) (valid : Valid msg)
    (pooled pooled' : Nat) (pool pool' : MessagePool) :
    (payloadOf (processSingleMessage { config with enableZeroCopy := true } compress pooled pool
      (some msg)).2 =
        payloadOf (processSingleMessage { config with enableZeroCopy := false } compress pooled' pool' (some msg)).2 ↔
      msg.payload = some []) ∧
    ∀ (uses : List BufferPool.Use) (i : Nat) (payload : List UInt8),
      goCopy ((BufferPool.used uses).get i payload.length).1.contents payload =
        goCopy (bufferPoolGet payload.length).contents payload := by
  refine ⟨?_, fun uses i payload => by rw [BufferPool.contents_get]; rfl⟩
  obtain ⟨payload, given⟩ := Option.ne_none_iff_exists'.mp valid.payload
  rw [payloadOf_processSingleMessage (by exact off) valid given,
    payloadOf_processSingleMessage (by exact off) valid given]
  simp [copied, given]

def plainConfig : ProcessorConfig := ⟨false, false, false, true⟩

theorem zero_copy_same_empty :
    payloadOf (processSingleMessage plainConfig (ε := Unit) (fun _ => .error ()) 0 [] (some { topic := [1], payload := some [] })).2 =
      payloadOf (processSingleMessage { plainConfig with enableZeroCopy := false } (ε := Unit)
        (fun _ => .error ()) 0 [] (some { topic := [1], payload := some [] })).2 :=
  (zero_copy_same_iff plainConfig (fun _ => .error ()) rfl _ ⟨by simp, by simp⟩ 0 0 [] []).1.mpr rfl

theorem deep_copy_is_empty :
    payloadOf (processSingleMessage { plainConfig with enableZeroCopy := false } (ε := Unit)
        (fun _ => .error ()) 0 [] (some { topic := [1], payload := some [7] })).2 = some [] ∧
      payloadOf (processSingleMessage plainConfig (ε := Unit) (fun _ => .error ()) 0 []
        (some { topic := [1], payload := some [7] })).2 = some [7] := ⟨rfl, rfl⟩

def decompressMessage (decompress : List UInt8 → Except ε Bytes) (msg : PortaskMessage) :
    Except ε PortaskMessage :=
  match decompress (msg.payload.getD []) with
  | .error err => .error err
  | .ok decompressed =>
    .ok { id := msg.id, topic := msg.topic, payload := decompressed, timestamp := msg.timestamp, headers := msg.headers }

/-- What a consumer gets who goes by the flag `Compressed`, which is the setting. -/
def recovered (config : ProcessorConfig) (decompress : List UInt8 → Except ε Bytes)
    (out : PortaskMessage) : Except ε (List UInt8) :=
  (if config.enableCompression then decompressMessage decompress out else .ok out).map fun m =>
    m.payload.getD []

def Lossless (compress decompress : List UInt8 → Except ε Bytes) : Prop :=
  ∀ data compressed, compress data = .ok compressed →
    (decompress (compressed.getD [])).map (·.getD []) = .ok data

/-- The value is compressed and the compressed bytes are kept. -/
def Shrinks (compress : List UInt8 → Except ε Bytes) (data : List UInt8) : Prop :=
  ∃ compressed, compress data = .ok compressed ∧ (compressed.getD []).length < data.length

theorem recovered_eq (on : config.enableCompression = true)
    (decompress : List UInt8 → Except ε Bytes) (out : PortaskMessage) :
    recovered config decompress out = (decompress (out.payload.getD [])).map (·.getD []) := by
  unfold recovered decompressMessage
  cases decompress (out.payload.getD []) <;> simp [on, Except.map]

theorem valid_of_processSingleMessage
    (done : (processSingleMessage config compress pooled pool (some msg)).2 = .ok out) :
    Valid msg := by
  unfold processSingleMessage at done
  cases validated : validateMessage (ε := ε) (some msg) with
  | error err => simp [validated] at done
  | ok given =>
    obtain ⟨same, valid⟩ := validateMessage_ok.mp validated
    exact Option.some.inj same ▸ valid

/-- What a successful result holds: the compressed bytes if they are fewer, or else the copy itself. -/
theorem processSingleMessage_payload (on : config.enableCompression = true) (valid : Valid msg)
    (given : msg.payload = some payload)
    (done : (processSingleMessage config compress pooled pool (some msg)).2 = .ok out) :
    (∃ compressed, compress (copied config.enableZeroCopy payload) = .ok compressed ∧
      (compressed.getD []).length < (copied config.enableZeroCopy payload).length ∧
        out.payload = compressed) ∨
    ¬ Shrinks compress (copied config.enableZeroCopy payload) ∧
      out.payload = some (copied config.enableZeroCopy payload) := by
  have accepted : validateMessage (ε := ε) (some msg) = .ok msg :=
    validateMessage_ok.mpr ⟨rfl, valid⟩
  simp only [processSingleMessage, accepted, on, if_true, compressMessageData,
    copyMessage_value given, Option.getD_some] at done
  by_cases empty : (copied config.enableZeroCopy payload).length = 0
  · simp only [empty, if_true, Except.ok.injEq] at done
    subst done
    refine .inr ⟨fun shrinks => ?_, copyMessage_value given _⟩
    obtain ⟨_, _, fewer⟩ := shrinks
    omega
  · simp only [empty, if_false] at done
    cases outcome : compress (copied config.enableZeroCopy payload) with
    | error err => simp [outcome] at done
    | ok compressed =>
      by_cases fewer : (compressed.getD []).length < (copied config.enableZeroCopy payload).length
      · simp only [outcome, fewer, if_true, Except.ok.injEq] at done
        exact .inl ⟨compressed, rfl, fewer, by rw [← done]; rfl⟩
      · simp only [outcome, fewer, if_false, Except.ok.injEq] at done
        refine .inr ⟨fun shrinks => ?_, by rw [← done]; exact copyMessage_value given _⟩
        obtain ⟨_, same, less⟩ := shrinks
        rw [outcome] at same
        exact fewer (Except.ok.inj same ▸ less)

/-- Whoever goes by the flag recovers the payload exactly if it was kept compressed, or if decompressing what was
left as it is happens to give it. -/
theorem recovers_payload_iff (config : ProcessorConfig) (on : config.enableCompression = true)
    (compress decompress : List UInt8 → Except ε Bytes) (lossless : Lossless compress decompress)
    (msg : PortaskMessage)
    (payload : List UInt8) (given : msg.payload = some payload) (pooled : Nat) (pool : MessagePool)
    (out : PortaskMessage)
    (done : (processSingleMessage config compress pooled pool (some msg)).2 = .ok out) :
    recovered config decompress out = .ok payload ↔
      config.enableZeroCopy = true ∧ Shrinks compress payload ∨
        ¬ Shrinks compress (copied config.enableZeroCopy payload) ∧
          (decompress (copied config.enableZeroCopy payload)).map (·.getD []) = .ok payload := by
  rw [recovered_eq on]
  have valid : Valid msg := valid_of_processSingleMessage done
  rcases processSingleMessage_payload on valid given done with
    ⟨compressed, made, fewer, kept⟩ | ⟨large, kept⟩
  · have shrinks : Shrinks compress (copied config.enableZeroCopy payload) :=
      ⟨compressed, made, fewer⟩
    rw [kept, lossless _ compressed made]
    cases zeroCopy : config.enableZeroCopy with
    | false => simp [copied, zeroCopy] at fewer
    | true =>
      simp only [copied, zeroCopy, if_true] at shrinks
      simp [copied, shrinks]
  · rw [kept]
    cases zeroCopy : config.enableZeroCopy with
    | false => simpa [zeroCopy] using fun _ => zeroCopy ▸ large
    | true =>
      simp only [copied, zeroCopy, if_true] at large
      simp [copied, large]

/-- Two zeros in one byte, everything else behind a mark. -/
def pairCompress (data : List UInt8) : Except Unit Bytes :=
  .ok (some (if data = [0, 0] then [1] else 2 :: data))

def pairDecompress : List UInt8 → Except Unit Bytes
  | [1] => .ok (some [0, 0])
  | 2 :: data => .ok (some data)
  | _ => .error ()

theorem pair_lossless : Lossless pairCompress pairDecompress := by
  intro data compressed done
  obtain rfl := Except.ok.inj done
  by_cases zeros : data = [0, 0] <;> simp [zeros, pairDecompress, Except.map]

theorem recovers_zeros :
    recovered defaultProcessorConfig pairDecompress
      { id := GoString.decimal 0, topic := [1], payload := some [1], headers := some fun _ => none } = .ok [0, 0] :=
  (recovers_payload_iff defaultProcessorConfig rfl pairCompress pairDecompress pair_lossless
    { topic := [1], payload := some [0, 0] } [0, 0] rfl 0 [] _ rfl).mpr
      (.inl ⟨rfl, some [1], rfl, by decide⟩)

theorem flag_without_compression :
    (processSingleMessage defaultProcessorConfig pairCompress 0 []
      (some { topic := [1], payload := some [7] })).2.map
        (recovered defaultProcessorConfig pairDecompress) = .ok (.error ()) := rfl

end

end Portask.Processor
