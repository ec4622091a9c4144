import Mathlib.Data.List.Induction
import Portask.Types.Message

/-! # Publishing a batch through the native API

The handler turns each message of the request into a `PortaskMessage` and stores those that it
accepts with one call. The bytes of a value are what marshalling gives, and the two readings of
the clock that a message takes are given with the request.
-/

namespace Portask.Api

open Lib Portask.Types GoString

/-- `ttl` comes as `ttl_ms`, a time to live in milliseconds. -/
structure PublishMessage where
  topic : GoString
  partition : Int32
  key : GoString
  value : Except GoString (List UInt8)
  headers : GoMap HeaderValue
  ttl : Option Int

structure BatchPublishRequest where
  messages : List PublishMessage
  transactionID : GoString

/-- What the clock shows when a message gets its ID, and when it gets its timestamp. -/
structure Readings where
  id : Int
  timestamp : Int

structure PublishResult where
  index : Nat
  messageID : GoString := []
  topic : GoString := []
  partition : Int32 := 0
  offset : Int := 0
  error : GoString := []
  success : Bool

def messageID (clock : Readings) (topic : GoString) (i : Nat) : GoString :=
  ofAscii "msg_" ++ itoa clock.id ++ ofAscii "_" ++ topic ++ ofAscii "_" ++
    decimal i

/-- The loop's body for one message: the message to store, or the result that says why not. -/
def convert (transactionID : GoString) (clock : Readings) (i : Nat) (msg : PublishMessage) :
    Except PublishResult PortaskMessage :=
  if msg.topic = [] then
    .error { index := i, success := false, error := ofAscii "Topic is required" }
  else
    match msg.value with
    | .error err =>
      .error { index := i, topic := msg.topic, success := false, error := ofAscii "Failed to serialize value: " ++ err }
    | .ok payload =>
      .ok
        { id := messageID clock msg.topic i
          topic := msg.topic
          partition := msg.partition
          key := msg.key
          payload := some payload
          headers := some (msg.headers.getD fun _ => none)
          metadata := some fun name =>
            if transactionID ≠ [] ∧ name = ofAscii "transaction_id" then some transactionID else none
          timestamp := clock.timestamp
          ttl := msg.ttl.getD 0 }

def converted (req : BatchPublishRequest) (clock : Nat → Readings) :
    List (Except PublishResult PortaskMessage) :=
  req.messages.mapIdx fun i msg => convert req.transactionID (clock i) i msg

/-- The result of a message that is stored; the offset is that of the message before it is stored. -/
def accepted (i : Nat) (m : PortaskMessage) : PublishResult :=
  { index := i, messageID := m.id, topic := m.topic, partition := m.partition, offset := m.offset, success := true }

def resultOf (i : Nat) : Except PublishResult PortaskMessage → PublishResult
  | .error result => result
  | .ok m => accepted i m

inductive BatchPublishResponse where
  | refused (error : GoString)
  | failed (error : GoString)
  | done (published failed : Nat) (results : List PublishResult)

/-- `storeBatch` is the storage; an empty batch does not reach it. -/
def handleBatchPublish (storeBatch : List PortaskMessage → Except GoString Unit)
    (clock : Nat → Readings) (req : BatchPublishRequest) : BatchPublishResponse :=
  if req.messages = [] then .refused (ofAscii "At least one message is required")
  else if 1000 < req.messages.length then .refused (ofAscii "Max 1000 messages per batch")
  else
    let outcomes := converted req clock
    let batch := outcomes.filterMap Except.toOption
    let results := outcomes.mapIdx resultOf
    if batch = [] then .done 0 (req.messages.length) results
    else
      match storeBatch batch with
      | .error err => .failed (ofAscii "Failed to store batch: " ++ err)
      | .ok _ => .done batch.length (req.messages.length - batch.length) results

variable {transactionID : GoString} {clock : Readings} {i : Nat} {msg : PublishMessage}

theorem ttl_of_convert (ok : convert transactionID clock i msg = .ok m) :
    m.ttl = msg.ttl.getD 0 := by
  unfold convert at ok
  split at ok
  · cases ok
  · split at ok
    · cases ok
    · obtain rfl := Except.ok.inj ok
      rfl

/-- The variables of the loop over the messages. -/
structure PublishLoop where
  results : List PublishResult
  batch : List PortaskMessage
  failed : Nat

section

variable (req : BatchPublishRequest) (clock : Nat → Readings)

def PublishLoop.next (loop : PublishLoop) (entry : PublishMessage × Nat) : PublishLoop :=
  match convert req.transactionID (clock entry.2) entry.2 entry.1 with
  | .error result =>
    { loop with results := loop.results.set entry.2 result, failed := loop.failed + 1 }
  | .ok m =>
    { loop with results := loop.results.set entry.2 (accepted entry.2 m), batch := loop.batch ++ [m] }

/-- The results are made beforehand, all empty, and set one by one. -/
def publishLoop : PublishLoop :=
  req.messages.zipIdx.foldl (PublishLoop.next req clock)
    ⟨.replicate req.messages.length { index := 0, success := false }, [], 0⟩

def batchOf : List PortaskMessage := (converted req clock).filterMap Except.toOption

theorem length_batchOf_le : (batchOf req clock).length ≤ req.messages.length := by
  simpa [batchOf, converted] using List.length_filterMap_le Except.toOption (converted req clock)

/-- Up to a point the loop has set the results, and the others are still empty. -/
theorem foldl_next {msgs : List PublishMessage} (fits : msgs.length ≤ n) :
    msgs.zipIdx.foldl (PublishLoop.next req clock)
        ⟨.replicate n { index := 0, success := false }, [], 0⟩ =
      ⟨(converted ⟨msgs, req.transactionID⟩ clock).mapIdx resultOf ++
          .replicate (n - msgs.length) { index := 0, success := false },
        batchOf ⟨msgs, req.transactionID⟩ clock, msgs.length - (batchOf ⟨msgs, req.transactionID⟩ clock).length⟩ := by
  induction msgs using List.reverseRecOn with
  | nil => simp [converted, batchOf]
  | append_singleton msgs msg ih =>
    rw [List.length_append, List.length_singleton] at fits ⊢
    have kept := length_batchOf_le ⟨msgs, req.transactionID⟩ clock
    have rest : n - msgs.length = n - (msgs.length + 1) + 1 := by omega
    rw [List.zipIdx_append, List.foldl_append, ih (by omega), rest, List.replicate_succ]
    cases result : convert req.transactionID (clock msgs.length) msgs.length msg with
    | error r =>
      simp only [batchOf, converted] at kept
      simp [PublishLoop.next, result, batchOf, converted, resultOf, Except.toOption, List.filterMap_cons]
      omega
    | ok m => simp [PublishLoop.next, result, batchOf, converted, resultOf, Except.toOption]

/-- The loop leaves what the handler goes on with. -/
theorem publishLoop_eq : publishLoop req clock =
    ⟨(converted req clock).mapIdx resultOf, batchOf req clock,
      req.messages.length - (batchOf req clock).length⟩ := by
  simpa [publishLoop] using foldl_next req clock (Nat.le_refl req.messages.length)

end

def accepts (msg : PublishMessage) : Bool := msg.topic ≠ [] ∧ msg.value.toBool

theorem convert_cases (transactionID : GoString) (clock : Readings) (i : Nat)
    (msg : PublishMessage) :
    (∃ r, convert transactionID clock i msg = .error r ∧ r.index = i ∧ r.success = false ∧
      accepts msg = false) ∨
    ∃ m, convert transactionID clock i msg = .ok m ∧ m.id = messageID clock msg.topic i ∧
      accepts msg = true := by
  unfold convert
  cases given : msg.value <;> by_cases named : msg.topic = [] <;>
    simp [named, accepts, given, Except.toBool]

/-- The last underscore separates the index, whatever the time and the topic are. -/
theorem index_of_messageID (same : messageID clock topic i = messageID clock' topic' j) :
    i = j := by
  have last (clock : Readings) (topic : GoString) (n : Nat) :
      (messageID clock topic n).reverse.takeWhile isDigit = (decimal n).reverse := by
    have digits : ∀ b ∈ (decimal n).reverse, isDigit b = true :=
      fun b inside => isDigit_of_mem_decimal (List.mem_reverse.mp inside)
    have underscore : isDigit 95 = false := by decide
    rw [messageID, List.reverse_append, List.reverse_append, List.takeWhile_append_of_pos digits]
    simp [ofAscii, underscore]
  have equal := congrArg (fun id => id.reverse.takeWhile isDigit) same
  simp only [last, List.reverse_inj] at equal
  exact decimal_injective equal

theorem nodup_ids (req : BatchPublishRequest) (clock : Nat → Readings) :
    ((batchOf req clock).map PortaskMessage.id).Nodup := by
  rw [List.Nodup, List.pairwise_map, batchOf, List.pairwise_filterMap, List.pairwise_iff_getElem]
  intro i j _ _ before m found m' found' same
  simp only [converted, List.getElem_mapIdx] at found found'
  have named {n msg m} (ok : (convert req.transactionID (clock n) n msg).toOption = some m) :
      m.id = messageID (clock n) msg.topic n := by
    obtain ⟨r, refused, -⟩ | ⟨made, done, id, -⟩ := convert_cases req.transactionID (clock n) n msg
    · simp [refused, Except.toOption] at ok
    · obtain rfl : made = m := by simpa [done, Except.toOption] using ok
      exact id
  rw [named found, named found'] at same
  exact absurd (index_of_messageID same) (Nat.ne_of_lt before)

theorem map_ok_filterMap (transactionID : GoString) (clock : Nat → Readings)
    (entries : List (PublishMessage × Nat)) :
    ((entries.map fun entry => convert transactionID (clock entry.2) entry.2 entry.1).filterMap
      Except.toOption).map Except.ok =
      (entries.filter (accepts ·.1)).map fun entry =>
        convert transactionID (clock entry.2) entry.2 entry.1 := by
  induction entries with
  | nil => rfl
  | cons entry rest ih =>
    obtain ⟨r, refused, -, -, no⟩ | ⟨m, made, -, yes⟩ :=
      convert_cases transactionID (clock entry.2) entry.2 entry.1
    · simp [refused, no, ← ih, Except.toOption, List.filterMap_cons]
    · simp [made, yes, ← ih, Except.toOption]

/-- The batch is made of the messages that can be stored, in their order and under different IDs, and the results
tell of each message at its own index. -/
theorem handleBatchPublish_aligned (req : BatchPublishRequest) (clock : Nat → Readings)
    (filled : 1 ≤ req.messages.length) (few : req.messages.length ≤ 1000) :
    ∃ results batch failed, publishLoop req clock = ⟨results, batch, failed⟩ ∧
      (∀ storeBatch, handleBatchPublish storeBatch clock req =
        if batch = [] then .done 0 failed results
        else
          match storeBatch batch with
          | .error err => .failed (ofAscii "Failed to store batch: " ++ err)
          | .ok _ => .done batch.length failed results) ∧
      batch.map Except.ok = ((req.messages.zipIdx.filter (accepts ·.1)).map fun entry =>
        convert req.transactionID (clock entry.2) entry.2 entry.1) ∧
      (batch.map PortaskMessage.id).Nodup ∧ batch.length + failed = req.messages.length ∧
      results.length = req.messages.length ∧
      ∀ i msg, req.messages[i]? = some msg →
        ∃ r, results[i]? = some r ∧ r.index = i ∧ r.success = accepts msg ∧
        (accepts msg = true → ∃ m, convert req.transactionID (clock i) i msg = .ok m ∧
          r.messageID = m.id ∧ r.topic = m.topic ∧ r.partition = m.partition) := by
  have kept := length_batchOf_le req clock
  refine ⟨_, _, _, publishLoop_eq req clock, fun storeBatch =>
    ?_, ?_, nodup_ids req clock, by omega, by simp [converted], fun i msg here => ?_⟩
  · rw [handleBatchPublish, if_neg (by rintro none; simp [none] at filled), if_neg (by omega)]
    dsimp only
    rw [← batchOf]
    split
    · simp [*]
    · rfl
  · rw [batchOf, converted, List.mapIdx_eq_zipIdx_map, map_ok_filterMap]
  · refine ⟨_, by simp [converted, here]; rfl, ?_⟩
    obtain ⟨r, refused, index, failed, no⟩ | ⟨m, made, -, yes⟩ :=
      convert_cases req.transactionID (clock i) i msg
    · simp [refused, resultOf, index, failed, no]
    · simp [made, resultOf, accepted, yes]

/-- Two messages that can be stored, and between them one without a topic and one whose value cannot be serialized. -/
def mixed : BatchPublishRequest :=
  ⟨[⟨[116], 0, [], .ok [1], none, none⟩, ⟨[], 0, [], .ok [2], none, none⟩,
    ⟨[116], 0, [], .error [33], none, none⟩, ⟨[116], 3, [], .ok [4], none, some 9⟩], []⟩

/-- The clock stands still, and the IDs differ all the same. -/
theorem handleBatchPublish_aligned_mixed :
    ∃ results batch, publishLoop mixed (fun _ => ⟨0, 0⟩) = ⟨results, batch, 2⟩ ∧ batch.length = 2 ∧
      (batch.map PortaskMessage.id).Nodup ∧
        ∃ r, results[3]? = some r ∧ r.index = 3 ∧ r.success = true := by
  obtain ⟨results, batch, failed, loop, -, -, distinct, total, -, each⟩ :=
    handleBatchPublish_aligned mixed (fun _ => ⟨0, 0⟩) (by decide) (by decide)
  obtain rfl : 2 = failed := congrArg PublishLoop.failed loop
  obtain ⟨r, found, index, stored, -⟩ := each 3 _ rfl
  exact ⟨results, batch, loop, Nat.add_right_cancel total, distinct, r, found, index, stored⟩

end Portask.Api
