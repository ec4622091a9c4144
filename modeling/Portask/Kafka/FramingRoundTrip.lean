import Portask.Kafka.Framing

/-! # Requests arrive as they were sent

However a connection splits the bytes of some requests into reads, the requests are read one
after the other as they were sent and each of them is answered. What is left of a request that
ends early is not handled, and the connection is closed.
-/

namespace Portask.Kafka

open Lib

/-- A request as a client sends it. The client ID may be null. -/
structure SentRequest where
  apiKey : Int16
  apiVersion : Int16
  correlationID : Int32
  clientID : Option GoString
  body : List UInt8
  deriving DecidableEq

open SentRequest

namespace SentRequest

def message (r : SentRequest) : List UInt8 :=
  int16.encode r.apiKey ++ (int16.encode r.apiVersion ++ (int32.encode r.correlationID ++
    ((Codec.block length16).encode r.clientID ++ r.body)))

def encode (r : SentRequest) : List UInt8 :=
  uint32.encode (UInt32.ofNat r.message.length) ++ r.message

def received (r : SentRequest) : KafkaRequest :=
  ⟨⟨r.apiKey, r.apiVersion, r.correlationID, r.clientID.getD []⟩, r.body⟩

structure Fits (r : SentRequest) : Prop where
  clientID : ∀ id ∈ r.clientID, id.length ≤ 32767
  size : r.message.length ≤ 100 * 1024 * 1024

instance (r : SentRequest) : Decidable r.Fits :=
  decidable_of_iff ((∀ id ∈ r.clientID, id.length ≤ 32767) ∧ r.message.length ≤ 100 * 1024 * 1024)
    ⟨fun both => ⟨both.1, both.2⟩, fun fits => ⟨fits.clientID, fits.size⟩⟩

end SentRequest

section

variable {r : SentRequest} {pieces : List (List UInt8)}

theorem binaryRead_encode (w : Fixed α) (a : α) (rest : List UInt8) :
    binaryRead w (w.encode a ++ rest) = .ok (a, rest) := by
  rw [binaryRead, w.decode_encode]

theorem readString_encode {s : Option GoString} (fits : ∀ l ∈ s, l.length ≤ 32767)
    (rest : List UInt8) :
    readString ((Codec.block length16).encode s ++ rest) = (s.getD [], rest) := by
  have valid : (Codec.block length16).Valid s := fun l inside => Nat.lt_succ_of_le (fits l inside)
  refine readText_follows length16 _ _ _ ?_
  show ((Codec.block length16).decode _).map _ = _
  rw [(Codec.block length16).decode_encode valid, Option.map_some]

theorem length_block_encode (s : Option GoString) :
    2 ≤ ((Codec.block length16).encode s).length := by
  cases s with
  | none => exact Nat.le_of_eq (int16.length_encode _).symm
  | some l =>
    show 2 ≤ (int16.encode _ ++ l).length
    rw [List.length_append, int16.length_encode]
    exact Nat.le_add_right _ _

theorem parseRequest_message (fits : r.Fits) : parseRequest r.message = .ok r.received := by
  have long : ((Codec.block length16).encode r.clientID ++ r.body).length ≥ 2 := by
    rw [List.length_append]
    exact Nat.le_add_right_of_le (length_block_encode _)
  rw [parseRequest, message]
  simp only [binaryRead_encode, long, if_true, readString_encode fits.clientID, bind, Except.bind]
  rfl

theorem size_encode (fits : r.Fits) : (UInt32.ofNat r.message.length).toNat = r.message.length := by
  have small := fits.size
  rw [UInt32.toNat_ofNat']
  omega

theorem ofBigEndian_size (n : UInt32) : UInt32.ofNat (ofBigEndian (uint32.encode n)) = n := by
  show UInt32.ofNat (ofBigEndian (bigEndian 4 n.toNat)) = n
  rw [ofBigEndian_bigEndian]
  exact uint32.ofNat_toNat n

theorem size_not_too_large (fits : r.Fits) : ¬ UInt32.ofNat r.message.length > maxMessageSize := by
  rw [gt_iff_lt, UInt32.lt_iff_toNat_lt, size_encode fits]
  have small := fits.size
  show ¬ 104857600 < r.message.length
  omega

theorem readRequest_encode (fits : r.Fits) (arrives : pieces.flatten = r.encode ++ rest) :
    ∃ left, readRequest pieces = (.ok r.received, left) ∧ left.flatten = rest := by
  have width : (uint32.encode (UInt32.ofNat r.message.length)).length = 4 := uint32.length_encode _
  rw [encode, List.append_assoc] at arrives
  have four : 4 ≤ pieces.flatten.length := by
    rw [arrives, List.length_append, width]
    exact Nat.le_add_right _ _
  obtain ⟨middle, first, after⟩ := readFull_ok four []
  rw [arrives, List.nil_append, List.take_left' width] at first
  rw [arrives, List.drop_left' width] at after
  have enough : r.message.length ≤ middle.flatten.length := by
    rw [after, List.length_append]
    exact Nat.le_add_right _ _
  obtain ⟨left, second, final⟩ := readFull_ok enough []
  rw [after, List.nil_append, List.take_left' rfl] at second
  refine ⟨left, ?_, by rw [final, after, List.drop_left' rfl]⟩
  simp only [readRequest, first, ofBigEndian_size, if_neg (size_not_too_large fits),
    size_encode fits, second, parseRequest_message fits]

/-- A request that is not there as a whole is not read. -/
theorem readRequest_cut (fits : r.Fits) (cut : pieces.flatten <+: r.encode)
    (short : pieces.flatten ≠ r.encode) : ∃ err left, readRequest pieces = (.error err, left) := by
  have width : (uint32.encode (UInt32.ofNat r.message.length)).length = 4 := uint32.length_encode _
  have fewer : pieces.flatten.length < r.encode.length := by
    refine Nat.lt_of_le_of_ne cut.length_le fun same => short ?_
    exact cut.eq_of_length same
  by_cases four : 4 ≤ pieces.flatten.length
  · have size : pieces.flatten.take 4 = uint32.encode (UInt32.ofNat r.message.length) := by
      obtain ⟨missing, whole⟩ := cut
      have same : (pieces.flatten ++ missing).take 4 = pieces.flatten.take 4 :=
        List.take_append_of_le_length four
      rw [← same, whole, encode, List.take_left' width]
    obtain ⟨middle, first, after⟩ := readFull_ok four []
    rw [List.nil_append, size] at first
    have missing : middle.flatten.length < r.message.length := by
      rw [after, List.length_drop]
      rw [encode, List.length_append, width] at fewer
      omega
    simp only [readRequest, first, ofBigEndian_size, if_neg (size_not_too_large fits),
      size_encode fits, readFull_error missing]
    exact ⟨_, _, rfl⟩
  · simp only [readRequest, readFull_error (Nat.lt_of_not_le four)]
    exact ⟨_, _, rfl⟩

end

/-- What `n` calls of `readRequest` return, and what is left of the stream. -/
def readRequests : Nat → List (List UInt8) →
    List (Except ReadError KafkaRequest) × List (List UInt8)
  | 0, pieces => ([], pieces)
  | n + 1, pieces =>
    let first := readRequest pieces
    let later := readRequests n first.2
    (first.1 :: later.1, later.2)

def KafkaResponse.bytes (response : KafkaResponse) : List UInt8 :=
  int32.encode response.correlationID ++ response.body

def KafkaResponse.writes (response : KafkaResponse) : List (List UInt8) :=
  [uint32.encode (UInt32.ofNat response.bytes.length), response.bytes]

def answering {σ : Type} (bodies : Object σ KafkaRequest (List UInt8)) (s : σ)
    (request : KafkaRequest) : σ × Option (List UInt8) :=
  ((bodies.apply s request).1, some (bodies.apply s request).2)

def responses {σ : Type} (bodies : Object σ KafkaRequest (List UInt8)) (s : σ)
    (requests : List SentRequest) : List KafkaResponse :=
  (requests.zip (bodies.run s (requests.map received)).2).map fun answered =>
    ⟨answered.1.correlationID, answered.2⟩

/-- The bytes of some requests, followed by a part of another one. -/
structure Arrives (requests : List SentRequest) (last : SentRequest) (cut : List UInt8)
    (pieces : List (List UInt8)) : Prop where
  fit : ∀ r ∈ requests, r.Fits
  lastFits : last.Fits
  inside : cut <+: last.encode
  short : cut ≠ last.encode
  bytes : pieces.flatten = requests.flatMap encode ++ cut

section

variable {requests : List SentRequest} {last : SentRequest} {cut : List UInt8}
  {pieces : List (List UInt8)}

theorem Arrives.next (arrives : Arrives (r :: requests) last cut pieces) :
    ∃ left, readRequest pieces = (.ok r.received, left) ∧ Arrives requests last cut left := by
  have bytes := arrives.bytes
  rw [List.flatMap_cons, List.append_assoc] at bytes
  obtain ⟨left, read, after⟩ := readRequest_encode (arrives.fit r List.mem_cons_self) bytes
  exact ⟨left, read, {
    __ := arrives
    fit := fun other inside => arrives.fit other (List.mem_cons_of_mem _ inside)
    bytes := after }⟩

theorem Arrives.ended (arrives : Arrives [] last cut pieces) :
    ∃ err left, readRequest pieces = (.error err, left) := by
  have bytes : pieces.flatten = cut := arrives.bytes
  exact readRequest_cut arrives.lastFits (bytes ▸ arrives.inside) (bytes ▸ arrives.short)

theorem Arrives.reads (arrives : Arrives requests last cut pieces) (some : n ≤ requests.length) :
    (readRequests n pieces).1 = (requests.take n).map (fun r => .ok r.received) ∧
      Arrives (requests.drop n) last cut (readRequests n pieces).2 := by
  induction n generalizing requests pieces with
  | zero => exact ⟨rfl, arrives⟩
  | succ n ih =>
    cases requests with
    | nil => simp at some
    | cons r requests =>
      obtain ⟨left, read, later⟩ := arrives.next
      obtain ⟨others, final⟩ := ih later (Nat.le_of_succ_le_succ some)
      simp only [readRequests, read, others, List.take_succ_cons, List.map_cons, List.drop_succ_cons]
      exact ⟨trivial, final⟩

theorem writeResponse_ok (pieces written : List (List UInt8)) (response : KafkaResponse) :
    Conn.writeResponse ⟨pieces, written, fun _ => false⟩ response =
      (⟨pieces, written ++ response.writes, fun _ => false⟩, true) := by
  simp [Conn.writeResponse, Conn.write, KafkaResponse.writes, KafkaResponse.bytes]

theorem Arrives.answered (bodies : Object σ KafkaRequest (List UInt8))
    (arrives : Arrives requests last cut pieces) (written : List (List UInt8)) (s : σ) :
    let closed := handleConnection (answering bodies) ⟨pieces, written, fun _ => false⟩ s
    closed.1.written = written ++ (responses bodies s requests).flatMap KafkaResponse.writes ∧
      closed.2 = (bodies.run s (requests.map received)).1 := by
  induction requests generalizing pieces written s with
  | nil =>
    obtain ⟨err, left, read⟩ := arrives.ended
    rw [handleConnection]
    split
    · exact ⟨by simp [responses], rfl⟩
    · next answered =>
        rw [read] at answered
        simp at answered
  | cons r requests ih =>
    obtain ⟨left, read, later⟩ := arrives.next
    rw [handleConnection]
    split
    · next failed =>
        rw [read] at failed
        simp at failed
    · next request after answered =>
        obtain ⟨rfl, rfl⟩ : r.received = request ∧ left = after := by simpa [read] using answered
        simp only [answering, writeResponse_ok, if_true]
        obtain ⟨writes, final⟩ := ih later
          (written ++ KafkaResponse.writes ⟨r.correlationID, (bodies.apply s r.received).2⟩)
          (bodies.apply s r.received).1
        refine ⟨?_, final⟩
        rw [List.append_assoc] at writes
        exact writes

end

/-- Every request is read as it was sent and answered, and a request that is not there as a whole
    is neither. -/
theorem requests_round_trip {σ : Type} (bodies : Object σ KafkaRequest (List UInt8))
    (small : ∀ s request, (bodies.apply s request).2.length < 2 ^ 31) (requests : List SentRequest)
    (fit : ∀ r ∈ requests, r.Fits) (last : SentRequest) (lastFits : last.Fits) (cut : List UInt8)
    (inside : cut <+: last.encode) (short : cut ≠ last.encode) (pieces : List (List UInt8))
    (bytes : pieces.flatten = requests.flatMap encode ++ cut)
    (written : List (List UInt8)) (s : σ) : (∀ n ≤ requests.length,
      (readRequests n pieces).1 = (requests.take n).map (fun r => .ok r.received) ∧
        (readRequests n pieces).2.flatten = (requests.drop n).flatMap encode ++ cut) ∧
    (∃ err left, readRequest (readRequests requests.length pieces).2 = (.error err, left)) ∧
    (handleConnection (answering bodies) ⟨pieces, written, fun _ => false⟩ s).1.written =
      written ++ (responses bodies s requests).flatMap KafkaResponse.writes ∧
    (handleConnection (answering bodies) ⟨pieces, written, fun _ => false⟩ s).2 =
      (bodies.run s (requests.map received)).1 ∧
    (responses bodies s requests).length = requests.length ∧
    ∀ response ∈ responses bodies s requests, (UInt32.ofNat response.bytes.length).toNat =
      response.bytes.length := by
  have arrives : Arrives requests last cut pieces := ⟨fit, lastFits, inside, short, bytes⟩
  have counts : (bodies.run s (requests.map received)).2.length = requests.length := by
    rw [Object.length_run, List.length_map]
  refine ⟨fun n some => ?_, ?_, (arrives.answered bodies written s).1,
    (arrives.answered bodies written s).2, ?_, ?_⟩
  · obtain ⟨read, left⟩ := arrives.reads some
    exact ⟨read, left.bytes⟩
  · obtain ⟨-, left⟩ := arrives.reads (Nat.le_refl _)
    rw [List.drop_length] at left
    exact left.ended
  · rw [responses, List.length_map, List.length_zip, counts, Nat.min_self]
  · intro response answered
    obtain ⟨⟨r, body⟩, paired, rfl⟩ := List.mem_map.mp answered
    have few : body.length < 2 ^ 31 :=
      Object.answers_of_forall (fun body => body.length < 2 ^ 31) small s
      (requests.map received) body (List.of_mem_zip paired).2
    rw [UInt32.toNat_ofNat', KafkaResponse.bytes, List.length_append, int32.length_encode]
    show (4 + body.length) % 2 ^ 32 = 4 + body.length
    omega

/-- Two requests that arrive in four pieces, with the start of a third. -/
theorem two_requests_round_trip :
    (handleConnection (answering ⟨fun calls _ => (calls + 1, [0, 35])⟩)
      ⟨[[0, 0], [0, 13, 0, 18, 0, 3, 0, 0, 0, 7, 0, 1], [],
        [0x61, 1, 2, 0, 0, 0, 10, 0, 3, 0, 0, 0, 0, 0, 8, 255],
        [255, 0, 0, 0, 10, 0]], [], fun _ => false⟩ (0 : Nat)).1.written =
      [[0, 0, 0, 6], [0, 0, 0, 7, 0, 35], [0, 0, 0, 6], [0, 0, 0, 8, 0, 35]] :=
  (requests_round_trip ⟨fun calls _ => (calls + 1, [0, 35])⟩ (fun _ _ => show 2 < 2 ^ 31 by decide)
    [⟨18, 3, 7, some [0x61], [1, 2]⟩, ⟨3, 0, 8, none, []⟩] (by decide) ⟨0, 0, 9, none, []⟩
      (by decide) [0, 0, 0, 10, 0]
    (by decide) (by decide) _ (by decide) [] 0).2.2.1.trans (by decide)

end Portask.Kafka
