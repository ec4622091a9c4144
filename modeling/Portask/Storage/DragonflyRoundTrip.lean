import Portask.Storage.Dragonfly

/-! # Messages that come back from the Dragonfly store

What the calls store under the key of a message, and when `FetchByID` and `Fetch` give it back
unchanged: reading decompresses whenever compression is on, while writing compresses only some
of the messages and does not always serialize them.
-/

namespace Portask.Storage.Dragonfly

open Lib Portask.Types DragonflyStore

theorem of_map_ok {x : Except ε α} {f : α → β} (mapped : x.map f = .ok y) :
    ∃ a, x = .ok a ∧ f a = y := by
  cases x with
  | error err => cases mapped
  | ok a => exact ⟨a, rfl, Except.ok.inj mapped⟩

namespace DragonflyStore

variable {ε : Type} (d : DragonflyStore ε)

/-- What the bytes of a message are. -/
inductive Made : Write → Prop where
  | encoded {path given id data} (slow : path ≠ .ultraFastStore)
      (right : d.encode id (path.written given) = .ok data) :
        Made ⟨path, given, data, expirationOf given.ttl⟩
  | payload {given : PortaskMessage} {data : List UInt8} (right : given.payload = some data) :
      Made ⟨.ultraFastStore, given, data, 0⟩
  | serialized {given : PortaskMessage} {data : List UInt8} (empty : given.payload = none)
      (right : d.serializer.serialize given = .ok data) : Made ⟨.ultraFastStore, given, data, 0⟩

variable {d} {message : PortaskMessage}

theorem made_prepareWrite {path id write} (slow : path ≠ .ultraFastStore)
    (prepared : d.prepareWrite path id message = .ok write) : d.Made write := by
  obtain ⟨data, encoded, rfl⟩ := of_map_ok prepared
  exact .encoded slow encoded

variable {commands : List Command}

theorem made_prepareWrites (slow : path ≠ .ultraFastStore)
    (prepared : d.prepareWrites path messages = .ok commands) :
    ∀ w, .set w ∈ commands → d.Made w := by
  revert prepared
  fun_induction prepareWrites d path messages generalizing commands with
  | case1 =>
    rintro ⟨⟩
    exact fun _ inside => absurd inside List.not_mem_nil
  | case2 => simp
  | case3 message rest write first ih =>
    intro prepared w inside
    obtain ⟨more, later, rfl⟩ := of_map_ok prepared
    obtain same | behind := List.mem_cons.mp inside
    · cases same
      exact made_prepareWrite slow first
    · exact ih later w behind

theorem made_store (prepared : d.store message = .ok commands) :
    ∀ w, .set w ∈ commands → d.Made w := by
  obtain ⟨write, first, rfl⟩ := of_map_ok prepared
  intro w inside
  obtain rfl : w = write := by simpa using inside
  exact made_prepareWrite (by decide) first

theorem made_ultraFastStore (prepared : d.ultraFastStore message = .ok commands) :
    ∀ w, .set w ∈ commands → d.Made w := by
  revert prepared
  fun_cases ultraFastStore d message with
  | case1 payload given =>
    rintro ⟨⟩ w inside
    cases List.mem_singleton.mp inside
    exact .payload given
  | case2 => simp
  | case3 empty data serialized =>
    rintro ⟨⟩ w inside
    cases List.mem_singleton.mp inside
    exact .serialized empty serialized

theorem made_prepare (prepared : .ok commands ∈ d.prepare call) :
    ∀ w, .set w ∈ commands → d.Made w := by
  cases call with
  | store message => exact made_store (List.mem_singleton.mp prepared).symm
  | storeBatch messages =>
    exact made_prepareWrites (by decide) (List.mem_singleton.mp prepared).symm
  | ultraFastStore message => exact made_ultraFastStore (List.mem_singleton.mp prepared).symm
  | storeBatchParallel batch size =>
    cases batch with
    | none => exact absurd prepared List.not_mem_nil
    | some messages =>
      obtain ⟨sub, -, prepared⟩ := List.mem_map.mp prepared
      exact made_prepareWrites (by decide) prepared

variable (d)

/-- The bytes of a message before they are compressed. -/
def plain (w : Write) : List UInt8 :=
  match w.path, w.given.payload with
  | .ultraFastStore, some payload => payload
  | path, _ => (d.serializer.serialize (path.written w.given)).toOption.getD []

/-- Compression is on, and the bytes are stored as they are. -/
def Uncompressed (w : Write) : Prop :=
  d.config.enableCompression = true ∧ (w.path = .ultraFastStore ∨ (d.plain w).length ≤ 1024)

instance (w : Write) : Decidable (d.Uncompressed w) := inferInstanceAs (Decidable (_ ∧ _))

/-- The way a message takes does not change it, but for the compression. -/
def Faithful (w : Write) : Prop :=
  match w.path, w.given.payload with
  | .ultraFastStore, some payload => d.serializer.deserialize payload = .ok w.given
  | .storeBatchParallel, _ => w.given.metadata.isSome = true ∧ w.given.headers.isSome = true
  | _, _ => True

/-- Bytes that were not compressed are decompressed all the same, and give the message only by
    luck; otherwise the way that the message took must have been a faithful one. -/
def Survives (w : Write) : Prop :=
  if d.Uncompressed w then
    ∃ bytes, d.compressor.decompress (d.plain w) = .ok bytes ∧
      d.serializer.deserialize bytes = .ok w.given
  else d.Faithful w

variable {d} {w : Write}

theorem written_eq_iff {path : Path} : path.written message = message ↔
      (path = .storeBatchParallel → message.metadata.isSome = true ∧ message.headers.isSome = true) := by
  constructor
  · rintro same rfl
    have metadata := congrArg PortaskMessage.metadata same
    have headers := congrArg PortaskMessage.headers same
    rw [← metadata, ← headers]
    exact ⟨rfl, rfl⟩
  · intro initialised
    cases path with
    | store | storeBatch | ultraFastStore => rfl
    | storeBatchParallel =>
      obtain ⟨metadata, headers⟩ := initialised rfl
      obtain ⟨_, metadata⟩ := Option.isSome_iff_exists.mp metadata
      obtain ⟨_, headers⟩ := Option.isSome_iff_exists.mp headers
      rw [Path.written, metadata, headers, Option.getD_some, Option.getD_some, ← metadata, ← headers]

theorem decode_eq_ok_iff : d.decode data = .ok message ↔
      if d.config.enableCompression = true then
        ∃ bytes, d.compressor.decompress data = .ok bytes ∧ d.serializer.deserialize bytes = .ok message
      else d.serializer.deserialize data = .ok message := by
  by_cases on : d.config.enableCompression = true
  · rw [decode, if_pos on, if_pos on]
    cases d.compressor.decompress data with
    | error err => simp
    | ok bytes => cases found : d.serializer.deserialize bytes <;> simp [found]
  · rw [decode, if_neg on, if_neg on]
    cases found : d.serializer.deserialize data <;> simp [found]

theorem encode_eq_ok {id data} (encoded : d.encode id message = .ok data) :
    ∃ plain, d.serializer.serialize message = .ok plain ∧
      if d.config.enableCompression = true ∧ 1024 < plain.length then
        d.compressor.compress plain = .ok data
      else data = plain := by
  revert encoded
  fun_cases encode d id message with
  | case3 plain serialized large compressed done =>
    rintro ⟨⟩
    exact ⟨plain, serialized, by rwa [if_pos large]⟩
  | case4 plain serialized small =>
    rintro ⟨⟩
    exact ⟨_, serialized, by rw [if_neg small]⟩
  | _ => simp

theorem plain_of_slow (slow : w.path ≠ .ultraFastStore)
    (serialized : d.serializer.serialize (w.path.written w.given) = .ok bytes) :
    d.plain w = bytes := by
  rw [plain]
  split
  · next fast _ => exact absurd fast slow
  · rw [serialized]
    rfl

theorem faithful_of_slow (slow : w.path ≠ .ultraFastStore) :
    d.Faithful w ↔ w.path.written w.given = w.given := by
  rw [written_eq_iff, Faithful]
  split
  · next fast _ => exact absurd fast slow
  · next parallel =>
      exact ⟨fun initialised _ => initialised, fun initialised => initialised parallel⟩
  · next other _ => exact ⟨fun _ parallel => absurd parallel other, fun _ => trivial⟩

theorem decode_eq_ok_iff_survives (serializer : d.serializer.Lossless)
    (compressor : d.compressor.Lossless)
    (made : d.Made w) : d.decode w.data = .ok w.given ↔ d.Survives w := by
  rw [decode_eq_ok_iff, Survives]
  cases made with
  | @encoded path given id data slow right =>
    obtain ⟨bytes, serialized, stored⟩ := encode_eq_ok right
    have plain : d.plain ⟨path, given, data, expirationOf given.ttl⟩ = bytes :=
      plain_of_slow slow serialized
    have faithful : d.Faithful ⟨path, given, data, expirationOf given.ttl⟩ ↔
        d.serializer.deserialize bytes = .ok given := by
      rw [faithful_of_slow slow, serializer _ _ serialized, Except.ok.injEq]
    by_cases on : d.config.enableCompression = true
    · rw [if_pos on]
      by_cases large : 1024 < bytes.length
      · rw [if_pos ⟨on, large⟩] at stored
        have compressed : ¬ d.Uncompressed ⟨path, given, data, expirationOf given.ttl⟩ := by
          rintro ⟨-, fast | small⟩
          · exact slow fast
          · rw [plain] at small
            omega
        rw [if_neg compressed, faithful, compressor _ _ stored]
        simp
      · rw [if_neg fun both => large both.2] at stored
        rw [if_pos ⟨on, .inr (by rw [plain]; omega)⟩, plain, stored]
    · rw [if_neg fun both => on both.1] at stored
      rw [if_neg on, if_neg fun both => on both.1, faithful, stored]
  | @payload given data right =>
    have plain : d.plain ⟨.ultraFastStore, given, data, 0⟩ = data := by rw [plain, right]
    by_cases on : d.config.enableCompression = true
    · rw [if_pos on, if_pos ⟨on, .inl rfl⟩, plain]
    · rw [if_neg on, if_neg fun both => on both.1, Faithful, right]
  | @serialized given data empty right =>
    have plain : d.plain ⟨.ultraFastStore, given, data, 0⟩ = data := by
      simp only [plain, empty, Path.written, right]
      rfl
    by_cases on : d.config.enableCompression = true
    · rw [if_pos on, if_pos ⟨on, .inl rfl⟩, plain]
    · rw [if_neg on, if_neg fun both => on both.1, Faithful, empty]
      exact iff_of_true (serializer _ _ right) trivial

end DragonflyStore

section

variable {χ : Type}

/-- The keys that are answered before a `SCAN` fails or answers none. -/
def scanned : Pages χ → List (List GoString)
  | .ok (key :: keys) :: pages => (key :: keys) :: scanned pages
  | _ => []

/-- The error of the scan, unless it comes behind an answer without keys. -/
def scanError : Pages χ → Option (ClientError χ)
  | .error err :: _ => some err
  | .ok (_ :: _) :: pages => scanError pages
  | _ => none

/-- The replies that are looked at: those of the pipelines that do not fail. -/
def repliesTo (client : Client χ) (keys : List GoString) : List (Reply χ) :=
  (pieces 500 keys).flatMap fun chunk =>
    if skipped (client.exec chunk).2 then [] else (client.exec chunk).1

def replies (client : Client χ) (pages : Pages χ) : List (Reply χ) :=
  (scanned pages).flatMap (repliesTo client)

end

theorem length_take_append_lt {α : Type} {n : Nat} {l later : List α} :
    (l.take n ++ later).length < n ↔ (l ++ later).length < n := by
  simp only [List.length_append, List.length_take]
  omega

namespace DragonflyStore

variable {χ ε : Type} (d : DragonflyStore ε)

/-- The message of a reply, if it passes the filter. -/
def accepted (topic : GoString) (partition : Int32) (offset : Int) : Reply χ → Option PortaskMessage
  | .error _ => none
  | .ok data =>
    match d.decode data with
    | .error _ => none
    | .ok message => if accepts topic partition offset message then some message else none

variable {d} {client : Client χ} {topic : GoString} {partition : Int32} {offset : Int}
  {messages : List PortaskMessage} {message : PortaskMessage}

theorem addReply_eq (messages : List PortaskMessage) (reply : Reply χ) :
    d.addReply topic partition offset messages reply =
      messages ++ (d.accepted topic partition offset reply).toList := by
  cases reply with
  | error err => exact (List.append_nil _).symm
  | ok data =>
    rw [addReply, accepted]
    cases d.decode data with
    | error err => exact (List.append_nil _).symm
    | ok message =>
      dsimp only
      split
      · rfl
      · exact (List.append_nil _).symm

theorem fetchChunk_eq (room : messages.length < limit) (chunk : List GoString) :
    d.fetchChunk client topic partition offset limit messages chunk =
      (messages ++ (if skipped (client.exec chunk).2 then [] else (client.exec chunk).1).filterMap
        (d.accepted topic partition offset)).take limit := by
  rw [fetchChunk]
  split
  · rw [List.filterMap_nil, List.append_nil, List.take_of_length_le (Nat.le_of_lt room)]
  · have adds : ∀ (results : List PortaskMessage) (reply : Reply χ), results.length < limit →
        d.addReply topic partition offset results reply =
          (results ++ (d.accepted topic partition offset reply).toList).take limit := by
      intro results reply more
      have one : (d.accepted topic partition offset reply).toList.length ≤ 1 := Option.length_toList_le
      rw [addReply_eq, List.take_of_length_le]
      rw [List.length_append]
      omega
    rw [upTo_eq adds (Nat.le_of_lt room), List.filterMap_eq_flatMap_toList]

/-- What a result without a limit becomes with one: an error of the scan counts only if the limit
    is not reached before. -/
def limited (limit : Nat) (failed : Option (ClientError χ)) (found : List PortaskMessage) :
    Except (FetchError ε χ) (List PortaskMessage) :=
  match failed with
  | some err => if found.length < limit then .error (.scan err) else .ok (found.take limit)
  | none => .ok (found.take limit)

theorem limited_full (full : found.length = limit) (failed : Option (ClientError χ)) :
    (limited limit failed (found ++ later) : Except (FetchError ε χ) _) = .ok found := by
  have first : (found ++ later).take limit = found := by
    rw [List.take_append_of_le_length (Nat.le_of_eq full.symm), ← full, List.take_length]
  cases failed with
  | none => rw [limited, first]
  | some err => rw [limited, first, if_neg (by rw [List.length_append]; omega)]

theorem limited_take (limit : Nat) (failed : Option (ClientError χ))
    (found later : List PortaskMessage) :
    (limited limit failed (found.take limit ++ later) : Except (FetchError ε χ) _) =
      limited limit failed (found ++ later) := by
  cases failed with
  | none => rw [limited, limited, take_take_append]
  | some err => simp only [limited, length_take_append_lt, take_take_append]

/-- The loops of `Fetch` give the first of the messages that are reached and pass the filter. -/
theorem fetchPages_eq (room : messages.length ≤ limit) (pages : Pages χ) :
    d.fetchPages client topic partition offset limit messages pages =
      limited limit (scanError pages)
        (messages ++ (replies client pages).filterMap (d.accepted topic partition offset)) := by
  induction pages generalizing messages with
  | nil => simp [fetchPages, limited, scanError, replies, scanned, List.take_of_length_le room]
  | cons answer pages ih =>
    rw [fetchPages.eq_def]
    dsimp only
    split
    · next enough => rw [limited_full (Nat.le_antisymm room enough)]
    · next more =>
        match answer with
        | .error err => simp [limited, scanError, replies, scanned, Nat.lt_of_not_le more]
        | .ok [] => simp [limited, scanError, replies, scanned, List.take_of_length_le room]
        | .ok (key :: keys) =>
          have first : replies client (.ok (key :: keys) :: pages) =
              repliesTo client (key :: keys) ++ replies client pages := by
            rw [replies, scanned, List.flatMap_cons, ← replies]
          dsimp only
          rw [if_neg (List.cons_ne_nil _ _), upTo_eq (fun results chunk more => fetchChunk_eq more chunk) room,
            ih (List.length_take_le ..), limited_take, first, List.filterMap_append, repliesTo,
            List.filterMap_flatMap, scanError, List.append_assoc]

theorem fetch_eq (d : DragonflyStore ε) (client : Client χ) (topic : GoString) (partition : Int32)
    (offset : Int) (pages : Pages χ) (limit : Int) :
    d.fetch client topic partition offset pages limit =
      limited limit.toNat (scanError pages)
        ((replies client pages).filterMap (d.accepted topic partition offset)) := by
  rw [fetch]
  split
  · next none_ =>
      rw [Int.toNat_of_nonpos none_]
      cases scanError pages <;> simp [limited]
  · rw [fetchPages_eq (Nat.zero_le _), List.nil_append]

end DragonflyStore

section

variable {χ ε : Type} {client : Client χ} {d : DragonflyStore ε}

/-- The scan comes to a key, and the pipeline that asks for it does not fail. -/
def Reached (client : Client χ) (pages : Pages χ) (key : GoString) : Prop :=
  ∃ page ∈ scanned pages, ∃ chunk ∈ pieces 500 page, key ∈ chunk ∧
    skipped (client.exec chunk).2 = false

/-- Bytes that are read as the message. -/
def Copy (d : DragonflyStore ε) (message : PortaskMessage) (reply : Reply χ) : Prop :=
  ∃ data, reply = .ok data ∧ d.decode data = .ok message

theorem accepted_eq_some_iff {message : PortaskMessage} {reply : Reply χ} :
    d.accepted message.topic message.partition message.offset reply = some message ↔
      Copy d message reply := by
  have own : accepts message.topic message.partition message.offset message = true := by
    simp [accepts]
  rw [Copy, accepted.eq_def]
  cases reply with
  | error err => simp
  | ok data =>
    simp only [Except.ok.injEq, exists_eq_left']
    cases d.decode data with
    | error err => simp
    | ok found =>
      simp only [Except.ok.injEq]
      constructor
      · intro same
        exact (Option.ite_none_right_eq_some.mp same).2 |> Option.some.inj
      · rintro rfl
        exact if_pos own

theorem length_flatMap_le {α β : Type} {f : List α → List β} {l : List (List α)}
    (short : ∀ x ∈ l, (f x).length ≤ x.length) : (l.flatMap f).length ≤ l.flatten.length := by
  induction l with
  | nil => exact Nat.le_refl _
  | cons x l ih =>
    have first := short x List.mem_cons_self
    have later := ih fun y inside => short y (List.mem_cons_of_mem _ inside)
    rw [List.flatMap_cons, List.flatten_cons, List.length_append, List.length_append]
    omega

/-- In a pipeline that does not fail a `GET` has the reply that it has alone. -/
def Client.Pipelined (client : Client χ) : Prop :=
  ∀ keys, skipped (client.exec keys).2 = false → (client.exec keys).1 = keys.map client.get

variable (pipelined : client.Pipelined)
include pipelined

theorem mem_replies_iff :
    reply ∈ replies client pages ↔ ∃ key, Reached client pages key ∧ client.get key = reply := by
  simp only [replies, repliesTo, List.mem_flatMap]
  constructor
  · rintro ⟨page, asked, chunk, among, inside⟩
    split at inside
    · exact absurd inside List.not_mem_nil
    · next calm =>
        rw [Bool.not_eq_true] at calm
        rw [pipelined chunk calm] at inside
        obtain ⟨key, own, same⟩ := List.mem_map.mp inside
        exact ⟨key, ⟨page, asked, chunk, among, own, calm⟩, same⟩
  · rintro ⟨key, ⟨page, asked, chunk, among, own, calm⟩, rfl⟩
    refine ⟨page, asked, chunk, among, ?_⟩
    rw [if_neg (by simp [calm]), pipelined chunk calm]
    exact List.mem_map_of_mem own

theorem length_replies_le (pages : Pages χ) :
    (replies client pages).length ≤ (scanned pages).flatten.length := by
  refine length_flatMap_le fun page _ => ?_
  conv_rhs => rw [← flatten_pieces (show 0 < 500 by decide) page]
  refine length_flatMap_le fun chunk _ => ?_
  split
  · exact Nat.zero_le _
  · next calm => rw [pipelined chunk (by simpa using calm), List.length_map]

/-- `Fetch` finds a message, with any limit that the keys do not exceed, if the scan does not fail
    and comes to a copy. -/
theorem found_iff {message : PortaskMessage} :
    (∀ limit : Int, (scanned pages).flatten.length ≤ limit →
      ∃ messages, d.fetch client message.topic message.partition message.offset pages limit =
        .ok messages ∧ message ∈ messages) ↔
      scanError pages = none ∧ ∃ key, Reached client pages key ∧ Copy d message (client.get key) := by
  have among : message ∈ (replies client pages).filterMap
      (d.accepted message.topic message.partition message.offset) ↔
        ∃ key, Reached client pages key ∧ Copy d message (client.get key) := by
    simp only [List.mem_filterMap, accepted_eq_some_iff, mem_replies_iff pipelined]
    constructor
    · rintro ⟨_, ⟨key, reached, rfl⟩, copy⟩
      exact ⟨key, reached, copy⟩
    · rintro ⟨key, reached, copy⟩
      exact ⟨_, ⟨key, reached, rfl⟩, copy⟩
  rw [← among]
  have few : ((replies client pages).filterMap
      (d.accepted message.topic message.partition message.offset)).length ≤
        (scanned pages).flatten.length :=
    Nat.le_trans (List.length_filterMap_le ..) (length_replies_le pipelined pages)
  simp only [fetch_eq]
  generalize (replies client pages).filterMap
    (d.accepted message.topic message.partition message.offset) = found at few ⊢
  cases scanError pages with
  | some err =>
    refine iff_of_false (fun finds => ?_) fun both => by cases both.1
    obtain ⟨messages, fine, -⟩ := finds ((scanned pages).flatten.length + 1) (by omega)
    rw [limited, if_pos (by omega)] at fine
    cases fine
  | none =>
    constructor
    · intro finds
      obtain ⟨messages, fine, inside⟩ := finds (scanned pages).flatten.length (Int.le_refl _)
      cases fine
      exact ⟨rfl, List.mem_of_mem_take inside⟩
    · rintro ⟨-, inside⟩ limit enough
      refine ⟨_, rfl, ?_⟩
      rwa [List.take_of_length_le (by omega)]

/-- If the scan does not fail, nor any of its pipelines, then `Fetch` with its pages, its pipelines
    of 500 keys and its early exits gives the first messages, up to its limit, that one loop over
    all keys accepts. -/
theorem fetch_is_plain_loop (d : DragonflyStore ε) {pages : Pages χ}
    (whole : scanError pages = none)
    (calm : ∀ page ∈ scanned pages,
      ∀ chunk ∈ pieces 500 page, skipped (client.exec chunk).2 = false)
    (topic : GoString) (partition : Int32) (offset limit : Int) :
    d.fetch client topic partition offset pages limit =
      .ok (((scanned pages).flatten.filterMap fun key =>
        d.accepted topic partition offset (client.get key)).take limit.toNat) := by
  have all : replies client pages = (scanned pages).flatten.map client.get := by
    rw [List.map_flatten, ← List.flatMap_def]
    refine List.flatMap_congr fun page asked => ?_
    conv_rhs =>
      rw [← flatten_pieces (show 0 < 500 by decide) page, List.map_flatten, ← List.flatMap_def]
    refine List.flatMap_congr fun chunk among => ?_
    have fine := calm page asked chunk among
    rw [if_neg (by simp [fine]), pipelined chunk fine]
  rw [fetch_eq, whole, limited, all, List.filterMap_map]
  rfl

omit pipelined in
theorem fetchByID_eq_ok_iff {message : PortaskMessage} :
    d.fetchByID client message.id = .ok message ↔
      Copy d message (client.get (d.messageKey message.id)) := by
  rw [fetchByID, Copy]
  split
  · next expired => simp [expired]
  · next failed => simp [failed]
  · next data there =>
      simp only [there, Except.ok.injEq, exists_eq_left']
      cases decoded : d.decode data <;> simp [Except.mapError]

/-- A message that one of the four calls has written, and whose key still holds what was written, is
    returned unchanged by `FetchByID` and found by `Fetch` exactly if it survives its way through
    the encodings and its key is reached by a scan that does not fail (or another key with a copy of
    it is). -/
theorem returned_unchanged_iff (serializer : d.serializer.Lossless)
    (compressor : d.compressor.Lossless) {call : Call} {commands : List Command}
    (prepared : .ok commands ∈ d.prepare call) {w : Write} (written : .set w ∈ commands)
    (held : client.get (d.messageKey w.given.id) = .ok w.data) (pages : Pages χ) :
    (d.fetchByID client w.given.id = .ok w.given ∧
        ∀ limit : Int, (scanned pages).flatten.length ≤ limit →
          ∃ messages, d.fetch client w.given.topic w.given.partition w.given.offset pages limit =
            .ok messages ∧ w.given ∈ messages) ↔
      d.Survives w ∧ scanError pages = none ∧ ∃ key, Reached client pages key ∧
        (key = d.messageKey w.given.id ∨ Copy d w.given (client.get key)) := by
  have own : Copy d w.given (client.get (d.messageKey w.given.id)) ↔ d.Survives w := by
    have made : d.Made w := made_prepare prepared w written
    rw [← decode_eq_ok_iff_survives serializer compressor made, held]
    simp [Copy]
  rw [fetchByID_eq_ok_iff, found_iff pipelined, own]
  constructor
  · rintro ⟨survives, whole, key, reached, copy⟩
    exact ⟨survives, whole, key, reached, .inr copy⟩
  · rintro ⟨survives, whole, key, reached, same | copy⟩
    · exact ⟨survives, whole, key, reached, same ▸ own.mpr survives⟩
    · exact ⟨survives, whole, key, reached, copy⟩

end

/-- A compressor that puts a byte before its input and rejects what does not start with it. -/
def marking {ε : Type} [Inhabited ε] (marker : UInt8) : Compressor ε where
  compress data := .ok (marker :: data)
  decompress
    | [] => .error default
    | b :: data => if b = marker then .ok data else .error default

theorem marking_lossless {ε : Type} [Inhabited ε] (marker : UInt8) :
    (marking marker : Compressor ε).Lossless := by
  rintro data _ ⟨⟩
  exact if_pos rfl

def letter (id : UInt8) (payload : List UInt8) : PortaskMessage :=
  { id := [id], topic := [116], payload := some payload, partition := 2, offset := 5 }

/-- A serializer for such messages only. -/
def letters : Serializer Unit where
  serialize
    | ⟨[id], [116], some payload, 0, none, none, 0, 0, 2, [], [], [], 0, 0, 5, 0, 0, [], []⟩ =>
      .ok (id :: payload)
    | _ => .error ()
  deserialize
    | [] => .error ()
    | id :: payload => .ok (letter id payload)

theorem letters_lossless : letters.Lossless := by
  intro m data serialized
  simp only [letters] at serialized
  split at serialized
  · cases serialized
    rfl
  · cases serialized

/-- A server that has nothing but strings. -/
def memory (keyspace : GoString → Option (List UInt8)) : Client Unit where
  get key := (keyspace key).elim (.error .nil) .ok
  exec keys :=
    (keys.map fun key => (keyspace key).elim (.error .nil) .ok,
      if keys.all (keyspace · |>.isSome) then none else some .nil)

theorem memory_pipelined (keyspace : GoString → Option (List UInt8)) :
    (memory keyspace).Pipelined :=
  fun _ _ => rfl

theorem memory_calm (keyspace : GoString → Option (List UInt8)) (keys : List GoString) :
    skipped ((memory keyspace).exec keys).2 = false := by
  simp only [memory]
  split <;> rfl

def letterStore (enableCompression : Bool) : DragonflyStore Unit :=
  ⟨⟨[], enableCompression⟩, letters, marking 0⟩

/-- Three keys that hold themselves, on two pages. -/
theorem two_pages_in_one_loop :
    (letterStore false).fetch (memory some) [116] 2 5 [.ok [[1], [2]], .ok [[3]]] 2 =
      .ok [letter 1 [], letter 2 []] :=
  fetch_is_plain_loop (memory_pipelined some) (letterStore false) rfl
    (fun _ _ _ _ => memory_calm some _) [116] 2 5 2

/-- What a server has after one `SET`. -/
def holding (d : DragonflyStore Unit) (w : Write) : Client Unit :=
  memory fun key => if key = d.messageKey w.given.id then some w.data else none

theorem get_holding (d : DragonflyStore Unit) (w : Write) :
    (holding d w).get (d.messageKey w.given.id) = .ok w.data := by simp [holding, memory]

/-- A small message is not compressed, but decompressed; and a payload is read as if it were a message. -/
theorem written_but_not_returned :
    letters.Lossless ∧ (marking 0 : Compressor Unit).Lossless ∧
      (∃ commands w, .ok commands ∈ (letterStore true).prepare (.store (letter 1 [3])) ∧
        .set w ∈ commands ∧
        (holding (letterStore true) w).get ((letterStore true).messageKey [1]) = .ok w.data ∧
        (letterStore true).fetchByID (holding (letterStore true) w) [1] =
          .error (.decode (.decompression ()))) ∧
      ∃ commands w, .ok commands ∈ (letterStore false).prepare (.ultraFastStore (letter 1 [3])) ∧
        .set w ∈ commands ∧
        (holding (letterStore false) w).get ((letterStore false).messageKey [1]) = .ok w.data ∧
        (letterStore false).fetchByID (holding (letterStore false) w) [1] = .ok (letter 3 []) :=
  ⟨letters_lossless, marking_lossless 0,
    ⟨_, _, List.mem_singleton_self _, List.mem_cons_self, rfl, rfl⟩,
    _, _, List.mem_singleton_self _, List.mem_cons_self, rfl, rfl⟩

/-- A message of more than 1024 bytes is returned and found, behind a key with another value. -/
theorem stored_message_returned :
    ∃ (content : List UInt8) (w : Write), 1024 < content.length ∧ w.given = letter 1 content ∧
      (letterStore true).fetchByID (holding (letterStore true) w) [1] = .ok (letter 1 content) ∧
      ∀ limit : Int, 2 ≤ limit → ∃ messages,
        (letterStore true).fetch (holding (letterStore true) w) [116] 2 5
          [.ok [(letterStore true).messageKey [9]], .ok [(letterStore true).messageKey [1]]] limit =
            .ok messages ∧ letter 1 content ∈ messages := by
  obtain ⟨content, large⟩ : ∃ content : List UInt8, 1024 < content.length :=
    ⟨List.replicate 1100 7, by rw [List.length_replicate]; decide⟩
  have long : 1024 < (1 :: content).length := Nat.lt_succ_of_lt large
  have encoded : (letterStore true).encode none (letter 1 content) = .ok (0 :: 1 :: content) :=
    if_pos ⟨rfl, long⟩
  let w : Write := ⟨.store, letter 1 content, 0 :: 1 :: content, 0⟩
  obtain ⟨rest, prepared⟩ : ∃ rest, (letterStore true).prepare (.store (letter 1 content)) =
      [.ok (.set w :: rest)] := by
    rw [prepare, store, prepareWrite]
    exact ⟨_, by simp only [Path.written, encoded]; rfl⟩
  have survives : (letterStore true).Survives w := by
    rw [DragonflyStore.Survives, if_neg]
    · trivial
    · rintro ⟨-, fast | short⟩
      · cases fast
      · exact absurd long (Nat.not_lt.mpr short)
  have reached : Reached (holding (letterStore true) w)
      [.ok [(letterStore true).messageKey [9]], .ok [(letterStore true).messageKey [1]]]
      ((letterStore true).messageKey [1]) :=
    ⟨_, List.mem_cons_of_mem _ List.mem_cons_self, _, List.mem_cons_self, List.mem_cons_self,
      memory_calm _ _⟩
  exact ⟨content, w, large, rfl,
    (returned_unchanged_iff (memory_pipelined _) letters_lossless (marking_lossless 0)
      (prepared ▸ List.mem_singleton_self _) List.mem_cons_self (get_holding _ w) _).mpr
      ⟨survives, rfl, _, reached, .inl rfl⟩⟩

end Portask.Storage.Dragonfly
