import Portask.Kafka.MemoryTopics

/-! # Bodies that are cut short

The handlers do not look at the errors of their reads. Where the counts of a body announce an
entry that is missing or cut short, they go on with zeros in the place of what is missing, and
produce a message, commit an offset, create a topic or delete one for it. So the state is
changed by the complete entries and nothing else if and only if the others do nothing: they
have no topic to produce to, or there is no offset manager.
-/

namespace Portask.Kafka.Protocol

open Lib Portask.Types Lib.Handler Emitter

variable {σ ε β : Type}

/-- An entry of a request that changes the state. -/
inductive Entry where
  | message (topic : GoString) (partition : Int32) (messageSet : List UInt8)
  | commit (made : MetadataCommit)
  | create (topic : GoString) (numPartitions : Int32) (replicationFactor : Int16)
  | delete (topic : GoString)
  deriving DecidableEq

namespace Entry

/-- What is to be done for an entry, with an offset manager or without one. -/
def apply (env : Surroundings σ ε β) (managed : Bool) (s : Broker σ β) : Entry → Broker σ β
  | message topic partition messageSet => (produceMessage env topic partition messageSet s).1
  | commit made => if managed then commitOffset env made s else s
  | create topic numPartitions replicationFactor =>
    (createTopic env topic numPartitions replicationFactor s).1
  | delete topic => (deleteTopic env topic s).1

/-- No message is made for the empty topic, and no offset committed without an offset manager. -/
def idle (managed : Bool) : Entry → Bool
  | message topic _ _ => topic = []
  | commit _ => !managed
  | _ => false

theorem apply_idle (env : Surroundings σ ε β) {entry : Entry} (idle : entry.idle managed)
    (s : Broker σ β) : entry.apply env managed s = s := by
  cases entry with
  | message topic partition messageSet =>
    obtain rfl : topic = [] := of_decide_eq_true idle
    rfl
  | commit made =>
    rw [Entry.idle, Bool.not_eq_true'] at idle
    rw [apply, idle, if_neg Bool.false_ne_true]
  | create | delete => cases idle

end Entry

def nameCodec : Codec GoString := .text length16

/-- A message set behind its size. -/
def decodeSized : Decoder (List UInt8) :=
  fun bs => (int32.decode bs).bind fun size => takeBytes (rounds size.1) size.2

def readSized : Reader (List UInt8) :=
  fun bs => fill (rounds (int32.read 0 bs).1) (int32.read 0 bs).2

def decodeMessage : Decoder (Int32 × List UInt8) := fun bs =>
  (int32.decode bs).bind fun partition =>
    (decodeSized partition.2).map fun messageSet => ((partition.1, messageSet.1), messageSet.2)

/-- The handler panics at a negative size. -/
def emitMessage (topic : GoString) : Emitter Entry := fun bs =>
  if (int32.read 0 (int32.read 0 bs).2).1 < 0 then ([], none)
  else entry decodeMessage ((int32.read 0).pair readSized)
    (fun read => .message topic read.1 read.2) bs

def emitCommit (groupID topic : GoString) : Emitter Entry :=
  .entry (Codec.pair (.fixed int32) (.pair (.fixed int64) nameCodec)).decode
    ((int32.read 0).pair ((int64.read 0).pair readString))
    fun read => .commit ⟨groupID, topic, read.1, read.2.1, read.2.2⟩

/-- The numbers of assignments and configs belong to the entry, but not what they count. -/
def emitCreate : Emitter Entry :=
  .entry (Codec.pair nameCodec
    (.pair (.fixed int32) (.pair (.fixed int16) (.pair (.fixed int32) (.fixed int32))))).decode
    (readString.pair
      ((int32.read 0).pair ((int16.read 0).pair ((int32.read 0).pair (int32.read 0)))))
    fun read => .create read.1 read.2.1 read.2.2.1

def emitDelete : Emitter Entry := .entry nameCodec.decode readString .delete

/-- Entries behind their number. A number that is cut short announces none. -/
def emitCounted (e : Emitter Entry) : Emitter Entry := fun bs =>
  several (rounds (int32.read 0 bs).1) e (int32.read 0 bs).2

/-- The entries of a topic, behind its name. No number is left behind a name that is cut short. -/
def emitPartitions (e : GoString → Emitter Entry) : Emitter Entry := fun bs =>
  emitCounted (e (readString bs).1) (readString bs).2

inductive Changing where
  | produce | offsetCommit | createTopics | deleteTopics
  deriving DecidableEq

namespace Changing

def api : Changing → API
  | produce => .produce
  | offsetCommit => .offsetCommit
  | createTopics => .createTopics
  | deleteTopics => .deleteTopics

/-- The entries that the numbers in a body announce. -/
def entries : Changing → Emitter Entry
  | produce =>
    fun body => emitCounted (emitPartitions emitMessage) (int32.read 0 (int16.read 0 body).2).2
  | offsetCommit => fun body =>
    emitCounted (emitPartitions (emitCommit (readString body).1))
      (int32.read 0 (readString body).2).2
  | createTopics => emitCounted emitCreate
  | deleteTopics => emitCounted emitDelete

/-- The entries that are completely present in a body. -/
def present (kind : Changing) (body : List UInt8) : List Entry := complete (kind.entries body).1

/-- The announced entries that are missing or cut short, with zeros for what is not there. -/
def missing (kind : Changing) (body : List UInt8) : List Entry := incomplete (kind.entries body).1

end Changing

open Changing

theorem readString_follows : Follows readString nameCodec.decode := readText_follows length16

theorem decodeMessage_followed : Follows ((int32.read 0).pair readSized) decodeMessage := by
  intro bs read rest decoded
  simp only [decodeMessage, decodeSized, Option.bind_eq_some_iff,
    Option.map_eq_some_iff, Prod.exists, Prod.mk.injEq] at decoded
  obtain ⟨partition, mid, one, content, after, ⟨size, mid', two, taken⟩, rfl, rfl⟩ := decoded
  simp only [Reader.pair, readSized, int32.read_follows 0 bs partition mid one,
    int32.read_follows 0 mid size mid' two, fill_follows _ mid' content after taken]

section

variable (env : Surroundings σ ε β) (managed : Bool)

theorem producePartition_emits (topic : GoString) :
    Emits (producePartition env topic) (emitMessage topic) (Entry.apply env managed) := by
  intro bs out s
  rw [emitMessage, entry_eq decodeMessage_followed]
  simp only [producePartition, readMessageSet, readInt32, run_bind, run_reading, Option.elim_some]
  split
  · exact ⟨out, _, rfl⟩
  · exact ⟨_, [], rfl⟩

theorem commitPartition_emits (groupID topic : GoString) :
    Emits (commitPartition env groupID topic) (emitCommit groupID topic) (Entry.apply env true) :=
  .entry ((int32.read_follows 0).pair ((int64.read_follows 0).pair readString_follows))
    fun _ out _ => ⟨out, rfl⟩

theorem createOne_emits : Emits (createOne env) emitCreate (Entry.apply env managed) :=
  .entry (readString_follows.pair ((int32.read_follows 0).pair ((int16.read_follows 0).pair
    ((int32.read_follows 0).pair (int32.read_follows 0))))) fun _ _ _ => ⟨_, rfl⟩

theorem deleteOne_emits : Emits (deleteOne env) emitDelete (Entry.apply env managed) :=
  .entry readString_follows fun _ _ _ => ⟨_, rfl⟩

variable {step : σ → Entry → σ}

theorem counted_emits {f : Int32 → Handler σ Unit} (emits : Emits body e step)
    (ran : ∀ count bs out s,
      ∃ out', f count ⟨bs, out, s⟩ = times (rounds count) body ⟨bs, out', s⟩) :
    Emits (readInt32 >>= f) (emitCounted e) step := by
  refine Emits.reading (e := fun count => several (rounds count) e) fun count bs out s => ?_
  obtain ⟨out', same⟩ := ran count bs out s
  rw [same]
  exact emits.several (rounds count) bs out' s

theorem forTopics_emits (emits : Emits body e step) : Emits (forTopics body) (emitCounted e) step :=
  counted_emits emits fun _ _ _ _ => ⟨_, rfl⟩

theorem forPartitions_emits (emits : ∀ topic, Emits (body topic) (e topic) step) :
    Emits (forPartitions body) (emitPartitions e) step :=
  Emits.reading (e := fun topic => emitCounted (e topic)) fun topic =>
    .write _ (counted_emits (emits topic) fun _ _ _ _ => ⟨_, rfl⟩)

theorem handleProduce_emits :
    Emits (handleProduce env) produce.entries (Entry.apply env managed) := by
  have topics := forTopics_emits (forPartitions_emits (producePartition_emits env managed))
  exact Emits.reading
    (e := fun _ bs => emitCounted (emitPartitions emitMessage) (int32.read 0 bs).2) fun _ =>
    Emits.reading (e := fun _ => emitCounted (emitPartitions emitMessage)) fun _ => topics

/-- `handleOffsetCommit` where there is an offset manager. -/
def makeCommits : Handler (Broker σ β) Unit := do
  let groupID ← readName
  let _generationID ← readInt32
  let topicCount ← readInt32
  times (rounds topicCount) (commitTopic env groupID)
  writeInt32 0
  writeInt32 topicCount
  write (List.replicate (rounds topicCount) (stringBytes (ascii "topic") ++ int32.encode 0)).flatten

theorem commitTopic_emits (groupID : GoString) :
    Emits (commitTopic env groupID) (emitPartitions (emitCommit groupID)) (Entry.apply env true) :=
  Emits.reading (e := fun topic => emitCounted (emitCommit groupID topic)) fun topic =>
    counted_emits (commitPartition_emits env groupID topic) fun _ _ out _ => ⟨out, rfl⟩

theorem makeCommits_emits :
    Emits (makeCommits env) offsetCommit.entries (Entry.apply env true) := by
  refine Emits.reading
    (e := fun groupID bs => emitCounted (emitPartitions (emitCommit groupID)) (int32.read 0 bs).2)
    fun groupID =>
      Emits.reading (e := fun _ => emitCounted (emitPartitions (emitCommit groupID))) fun _ =>
      Emits.reading (e := fun count => several (rounds count) (emitPartitions (emitCommit groupID)))
        fun count => ?_
  exact ((commitTopic_emits env groupID).several (rounds count)).answered fun _ _ _ => ⟨_, rfl⟩

variable {s : Broker σ β}

theorem respond_of_managed (body : List UInt8) (there : s.offsetManager.isSome = true) :
    (handleOffsetCommit env).respond s body = (makeCommits env).respond s body := by
  simp only [respond, handleOffsetCommit, makeCommits, readName, readInt32, hasOffsetManager,
    run_bind, run_reading, run_act, Option.elim_some, there, if_true]

theorem commits_idle (body : List UInt8) :
    ∀ entry ∈ (offsetCommit.entries body).1, entry.1.idle false := by
  refine forall_several (fun bs => forall_several (fun bs => ?_) _ _) _ _
  rw [emitCommit, entry]
  split
  · exact List.forall_mem_singleton.mpr rfl
  · exact List.forall_mem_singleton.mpr rfl

theorem respond_of_unmanaged (body : List UInt8) (absent : s.offsetManager.isSome = false) :
    ((handleOffsetCommit env).respond s body).1 = s := by
  simp only [respond, handleOffsetCommit, readName, readInt32, hasOffsetManager, run_bind,
    run_reading, run_act, Option.elim_some, absent]
  rfl

/-- All announced entries change the state, complete or not. -/
theorem respond_entries (apiVersion : Int16) (kind : Changing) (body : List UInt8)
    (here : s.offsetManager.isSome = managed) :
    ((dispatch env apiVersion kind.api).respond s body).1 =
      ((kind.entries body).1.map (·.1)).foldl (Entry.apply env managed) s := by
  cases kind with
  | produce => exact (handleProduce_emits env managed).respond_state s body
  | createTopics => exact (forTopics_emits (createOne_emits env managed)).respond_state s body
  | deleteTopics => exact (forTopics_emits (deleteOne_emits env managed)).respond_state s body
  | offsetCommit =>
    cases managed with
    | true => exact (congrArg Prod.fst (respond_of_managed env body here)).trans ((makeCommits_emits env).respond_state s body)
    | false =>
      have nothing : ∀ t, ∀ entry ∈ (offsetCommit.entries body).1.map (·.1), entry.apply env false t = t := by
        intro t entry inside
        obtain ⟨read, announced, rfl⟩ := List.mem_map.mp inside
        exact Entry.apply_idle env (commits_idle body read announced) t
      rw [List.foldl_ext _ (fun t _ => t) s nothing, List.foldl_fixed]
      exact respond_of_unmanaged env body here

end

/-- A store and a clock that count what is asked of them. -/
def counting : Surroundings Nat Unit Unit where
  store := ⟨fun s _ _ _ _ => (s, none), fun s _ => (s, .ok none), fun s _ _ _ => (s + 1, .ok ()), fun s _ => (s + 1, .ok ())⟩
  pooled _ := {}
  kafkaID _ := 0
  bridge _ _ := .ok 0
  clock _ := 0

def asked (s : Broker Nat Unit) : Nat := s.store + s.readings

theorem asked_apply (managed : Bool) (s : Broker Nat Unit) (entry : Entry) :
    asked (entry.apply counting managed s) = asked s + if entry.idle managed then 0 else 1 := by
  cases entry with
  | message topic partition messageSet =>
    rw [Entry.apply, produceMessage, translateProduce, Entry.idle]
    by_cases empty : topic = []
    · simp [empty]
    · simp [empty, asked, Nat.add_assoc]
  | commit made =>
    cases managed with
    | true => rfl
    | false => rfl
  | create | delete => exact Nat.add_right_comm _ _ _

theorem asked_foldl (managed : Bool) (s : Broker Nat Unit) (entries : List Entry) :
    asked (entries.foldl (Entry.apply counting managed) s) =
      asked s + entries.countP (!·.idle managed) := by
  induction entries generalizing s with
  | nil => rfl
  | cons entry entries ih =>
    rw [List.foldl_cons, ih, asked_apply, List.countP_cons, Nat.add_assoc,
      Nat.add_comm (entries.countP _)]
    cases entry.idle managed with
    | true => rfl
    | false => rfl

/-- Whatever the state and the surroundings are, a body changes the state by its complete entries
    if and only if the entries that are missing or cut short have nothing to do. -/
theorem changed_by_present_iff (apiVersion : Int16) (kind : Changing) (managed : Bool)
    (body : List UInt8) :
    (∀ (σ ε β : Type) (env : Surroundings σ ε β) (s : Broker σ β),
      s.offsetManager.isSome = managed →
        ((dispatch env apiVersion kind.api).respond s body).1 =
          (kind.present body).foldl (Entry.apply env managed) s) ↔
      ∀ entry ∈ kind.missing body, entry.idle managed := by
  constructor
  · intro same
    let start : Broker Nat Unit := ⟨0, none, if managed then some .new else none, [], 0⟩
    have here : start.offsetManager.isSome = managed := by
      cases managed with
      | true => rfl
      | false => rfl
    have counts := congrArg asked (same Nat Unit Unit counting start here)
    rw [respond_entries counting managed apiVersion kind body here, asked_foldl, asked_foldl,
      countP_entries, present] at counts
    have none : (kind.missing body).countP (!·.idle managed) = 0 := by
      rw [missing]
      omega
    simpa using List.countP_eq_zero.mp none
  · intro idle σ ε β env s here
    rw [respond_entries env managed apiVersion kind body here]
    exact foldl_complete (fun entry inside => Entry.apply_idle env (idle entry inside)) s

-- Of three message sets for one topic the second is empty and the third is cut short.
example :
    let body : List UInt8 :=
      [0, 1, 0, 0, 0, 0, 0, 0, 0, 1, 0, 1, 116, 0, 0, 0, 3, 0, 0, 0, 0, 0, 0, 0, 1, 9, 0, 0, 0, 3,
        0, 0, 0, 0, 0, 0, 0, 5]
    produce.present body = [.message [116] 0 [9], .message [116] 3 []] ∧
      produce.missing body = [.message [116] 5 []] := by decide +kernel

/-- A broker whose store has a topic with the empty name. -/
def unnamedTopic : Broker InMemoryMessageStore Unit :=
  ⟨InMemoryMessageStore.newInMemoryMessageStore.createTopic [] 1, some newGroupCoordinator,
    some .new, [], 0⟩

/-- A message set of two bytes that ends after one. -/
def cutMessageSet : List UInt8 :=
  [0, 1, 0, 0, 0, 0, 0, 0, 0, 1, 0, 1, 116, 0, 0, 0, 1, 0, 0, 0, 0, 0, 0, 0, 2, 9]

/-- A commit for one partition, which is missing. -/
def missingCommit : List UInt8 := [0, 1, 103, 0, 0, 0, 0, 0, 0, 0, 1, 0, 1, 116, 0, 0, 0, 1]

def missingTopic : List UInt8 := [0, 0, 0, 1]

/-- No body has a complete entry, but a message is produced, an offset is committed, a topic is
    created and a topic is deleted. -/
theorem missing_entries_change_the_state :
    (produce.present cutMessageSet = [] ∧
      ((dispatch started 0 .produce).respond unnamedTopic cutMessageSet).1.calls.map
        (fun call => (call.message.topic, call.message.partition, call.message.payload)) = [([116], 0, some [9, 0])]) ∧
    (offsetCommit.present missingCommit = [] ∧
      offsetOf unnamedTopic.offsetManager [103] [116] 0 = -1 ∧
      offsetOf ((dispatch started 0 .offsetCommit).respond unnamedTopic missingCommit).1.offsetManager
        [103] [116] 0 = 0) ∧
    (createTopics.present missingTopic = [] ∧
      ¬ (unnamedTopic.store.deleteTopic []).Has [] ∧
      ((dispatch started 0 .createTopics).respond
        { unnamedTopic with store := unnamedTopic.store.deleteTopic [] }
        missingTopic).1.store.Has []) ∧
    (deleteTopics.present missingTopic = [] ∧
      unnamedTopic.store.Has [] ∧
      ¬ ((dispatch started 0 .deleteTopics).respond unnamedTopic missingTopic).1.store.Has []) := by
  decide +kernel

end Portask.Kafka.Protocol
