import Portask.Kafka.Handlers

/-! # Topics and partitions on the wire

Produce and fetch requests have a list of topics with a list of partitions each, and the
responses have the same shape. If an entry of the request is answered with an entry of the
response, then so are whole lists of topics.
-/

namespace Portask.Kafka.Protocol

open Lib Portask.Types Lib.Handler Codec

/-- A list of topics, each with its name and the entries for its partitions. -/
def topicsOf {α : Type} (entry : Codec α) : Codec (List (GoString × List α)) :=
  .counted length32 (.pair (.text length16) (.counted length32 entry))

/-- Topics are served entry by entry. -/
def servingTopics {σ ι ο : Type} (serving : GoString → Object σ ι ο) :
    Object σ (GoString × List ι) (GoString × List ο) where
  apply s topic :=
    (((serving topic.1).run s topic.2).1, topic.1, ((serving topic.1).run s topic.2).2)

section

variable {σ : Type}

theorem run_readInt16 (v : Int16) (rest out : List UInt8) (s : σ) :
    readInt16 ⟨int16.encode v ++ rest, out, s⟩ = (some v, ⟨rest, out, s⟩) := by
  rw [readInt16, run_reading, Fixed.read_encode]

theorem run_readInt32 (v : Int32) (rest out : List UInt8) (s : σ) :
    readInt32 ⟨int32.encode v ++ rest, out, s⟩ = (some v, ⟨rest, out, s⟩) := by
  rw [readInt32, run_reading, Fixed.read_encode]

theorem run_readInt64 (v : Int64) (rest out : List UInt8) (s : σ) :
    readInt64 ⟨int64.encode v ++ rest, out, s⟩ = (some v, ⟨rest, out, s⟩) := by
  rw [readInt64, run_reading, Fixed.read_encode]

theorem run_writeInt32 (v : Int32) (bs out : List UInt8) (s : σ) :
    writeInt32 v ⟨bs, out, s⟩ = (some (), ⟨bs, out ++ int32.encode v, s⟩) := rfl

theorem run_writeString (text : GoString) (bs out : List UInt8) (s : σ) :
    writeString text ⟨bs, out, s⟩ = (some (), ⟨bs, out ++ stringBytes text, s⟩) := rfl

theorem run_readName {name : GoString} (short : (text length16).Valid name)
    (rest out : List UInt8) (s : σ) :
    readName ⟨(text length16).encode name ++ rest, out, s⟩ = (some name, ⟨rest, out, s⟩) := by
  rw [readName, run_reading, readString, readText_encode length16 short]

/-- A name that is null is read as empty. -/
theorem run_readNullable {name : Option GoString} (short : (block length16).Valid name)
    (rest out : List UInt8)
    (s : σ) : readName ⟨(block length16).encode name ++ rest, out, s⟩ =
      (some (name.getD []), ⟨rest, out, s⟩) := by
  rw [readName, run_reading, readString, readText_block length16 short]

theorem run_readCount (n : Nat) (rest out : List UInt8) (s : σ) :
    readInt32 ⟨length32.encode (length32.ofNat n) ++ rest, out, s⟩ =
      (some (Int32.ofNat n), ⟨rest, out, s⟩) :=
  run_readInt32 (Int32.ofNat n) rest out s

theorem rounds_ofNat (small : n < length32.limit) : rounds (Int32.ofNat n) = n := by
  rw [rounds, Int32.toInt_ofNat_of_lt small, Int.toNat_natCast]

variable {ι ο : Type}

/-- An entry of the request is answered with the entry of the response that the object gives. -/
def Serves (entry : Codec ι) (reply : Codec ο) (serving : Object σ ι ο)
    (body : Handler σ Unit) : Prop :=
  ∀ i, entry.Valid i → ∀ rest out s, body ⟨entry.encode i ++ rest, out, s⟩ =
    (some (), ⟨rest, out ++ reply.encode (serving.apply s i).2, (serving.apply s i).1⟩)

variable {entry : Codec ι} {reply : Codec ο} {serving : GoString → Object σ ι ο}
  {body : Handler σ Unit}

/-- The entries behind their number, in the request and in the response. -/
theorem Serves.times {serving} (serves : Serves entry reply serving body) {items}
    (valid : (counted length32 entry).Valid items) (rest out : List UInt8) (s : σ) :
    Handler.times (rounds (Int32.ofNat items.length)) body
        ⟨items.flatMap entry.encode ++ rest, out ++ int32.encode (Int32.ofNat items.length), s⟩ =
      (some (), ⟨rest, out ++ (counted length32 reply).encode (serving.run s items).2,
        (serving.run s items).1⟩) := by
  have length : Int32.ofNat items.length = length32.ofNat (serving.run s items).2.length := by
    rw [serving.length_run]
    rfl
  rw [rounds_ofNat valid.1, run_times serves valid.2, encode_counted, ← length, List.append_assoc]
  rfl

/-- A topic with all its partitions. -/
theorem Serves.forPartitions {body}
    (serves : ∀ topic, Serves entry reply (serving topic) (body topic)) :
    Serves (.pair (.text length16) (.counted length32 entry))
    (.pair (.text length16) (.counted length32 reply))
      (servingTopics serving) (Protocol.forPartitions body) := by
  intro topic valid rest out s
  have inner := (serves topic.1).times valid.2 rest (out ++ stringBytes topic.1) s
  rw [Protocol.forPartitions, encode_pair, encode_counted, List.append_assoc, List.append_assoc,
    bind_of_run (run_readName valid.1 ..), bind_of_run (run_writeString ..),
      bind_of_run (run_readCount ..), bind_of_run (run_writeInt32 ..), inner]
  simp only [servingTopics, encode_pair, List.append_assoc]
  rfl

/-- All topics, behind the throttle time and their number. -/
theorem Serves.forTopics {serving} (serves : Serves entry reply serving body) :
    Serves (.counted length32 entry) (.pair (.fixed int32) (.counted length32 reply))
      ⟨fun s items => ((serving.run s items).1, 0, (serving.run s items).2)⟩
      (Protocol.forTopics body) := by
  intro items valid rest out s
  have inner := serves.times valid rest (out ++ int32.encode 0) s
  rw [Protocol.forTopics, encode_counted, List.append_assoc, bind_of_run (run_readCount ..),
    bind_of_run (run_writeInt32 ..), bind_of_run (run_writeInt32 ..), inner,
      encode_pair, encode_fixed, List.append_assoc]

/-- A response has the names of the request, and as many entries under each. -/
theorem servingTopics_shape (serving : GoString → Object σ ι ο) (s : σ)
    (topics : List (GoString × List ι)) :
    ((servingTopics serving).run s topics).2.map (fun topic => (topic.1, topic.2.length)) =
      topics.map fun topic => (topic.1, topic.2.length) :=
  Object.map_answers (fun s topic => Prod.ext rfl ((serving topic.1).length_run s topic.2)) s topics

/-- What each entry of a response has from its entry of the request alone. -/
theorem servingTopics_map {κ : Type} {label : ο → κ} {key : ι → κ}
    {serving : GoString → Object σ ι ο}
    (agree : ∀ topic s i, label ((serving topic).apply s i).2 = key i) (s : σ)
    (topics : List (GoString × List ι)) :
    ((servingTopics serving).run s topics).2.map (fun topic => (topic.1, topic.2.map label)) =
      topics.map fun topic => (topic.1, topic.2.map key) :=
  Object.map_answers (fun s topic =>
    Prod.ext rfl (Object.map_answers (agree topic.1) s topic.2)) s topics

theorem servingTopics_valid (serving : GoString → Object σ ι ο) (s : σ)
    (valid : (topicsOf entry).Valid topics)
    (fits : ∀ topic ∈ ((servingTopics serving).run s topics).2, ∀ r ∈ topic.2, reply.Valid r) :
    (topicsOf reply).Valid ((servingTopics serving).run s topics).2 := by
  refine ⟨(Object.length_run _ s topics).symm ▸ valid.1, fun topic inside => ?_⟩
  obtain ⟨asked, among, same⟩ :
      ∃ asked ∈ topics, (asked.1, asked.2.length) = (topic.1, topic.2.length) := by
    rw [← List.mem_map, ← servingTopics_shape serving s topics]
    exact List.mem_map_of_mem inside
  obtain ⟨name, length⟩ := Prod.mk.inj same
  obtain ⟨short, few, _⟩ := valid.2 asked among
  refine ⟨?_, ?_, fits topic inside⟩
  · rw [← name]
    exact short
  · rw [← length]
    exact few

end

end Portask.Kafka.Protocol
