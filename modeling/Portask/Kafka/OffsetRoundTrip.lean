import Mathlib.Data.List.Induction
import Portask.Kafka.TopicLayout

/-! # Committed offsets through the wire

After any sequence of complete offset commits, a complete offset fetch is answered with the
offset that was committed last for each group, topic and partition, and with -1 where there
is none. Strings may be null in a request, which the handlers read as empty.
-/

namespace Portask.Kafka.Protocol

open Lib Portask.Types Lib.Handler Codec

structure CommitEntry where
  partition : Int32
  offset : Int64
  metadata : Option GoString

structure CommitBody where
  groupID : Option GoString
  generationID : Int32
  topics : List (Option GoString × List CommitEntry)

structure OffsetFetchBody where
  groupID : Option GoString
  topics : List (Option GoString × List Int32)

structure FetchedOffset where
  partition : Int32
  offset : Int64
  metadata : GoString
  errorCode : Int16
  deriving DecidableEq

structure OffsetFetchResponse where
  throttleTime : Int32
  topics : List (GoString × List FetchedOffset)
  errorCode : Int16

def commitEntry : Codec CommitEntry :=
  (pair (.fixed int32) (.pair (.fixed int64) (.block length16))).iso
    (fun p => ⟨p.1, p.2.1, p.2.2⟩) (fun e => (e.partition, e.offset, e.metadata)) fun _ => rfl

def commitTopics : Codec (Option GoString × List CommitEntry) :=
  .pair (.block length16) (.counted length32 commitEntry)

def commitBody : Codec CommitBody :=
  (pair (.block length16) (.pair (.fixed int32) (.counted length32 commitTopics))).iso
    (fun p => ⟨p.1, p.2.1, p.2.2⟩) (fun b => (b.groupID, b.generationID, b.topics)) fun _ => rfl

def offsetFetchTopic : Codec (Option GoString × List Int32) :=
  .pair (.block length16) (.counted length32 (.fixed int32))

def offsetFetchBody : Codec OffsetFetchBody :=
  (pair (.block length16) (.counted length32 offsetFetchTopic)).iso
    (fun p => ⟨p.1, p.2⟩) (fun b => (b.groupID, b.topics)) fun _ => rfl

def fetchedOffset : Codec FetchedOffset :=
  (pair (.fixed int32) (.pair (.fixed int64) (.pair (.text length16) (.fixed int16)))).iso
    (fun p => ⟨p.1, p.2.1, p.2.2.1, p.2.2.2⟩)
    (fun e => (e.partition, e.offset, e.metadata, e.errorCode)) fun _ => rfl

def offsetFetchResponse : Codec OffsetFetchResponse :=
  (pair (.fixed int32) (.pair (topicsOf fetchedOffset) (.fixed int16))).iso
    (fun p => ⟨p.1, p.2.1, p.2.2⟩) (fun r => (r.throttleTime, r.topics, r.errorCode)) fun _ => rfl

def CommitEntry.commit (groupID topic : GoString) (entry : CommitEntry) : MetadataCommit :=
  ⟨groupID, topic, entry.partition, entry.offset, entry.metadata.getD []⟩

def CommitBody.commits (body : CommitBody) : List MetadataCommit :=
  body.topics.flatMap fun topic =>
    topic.2.map (CommitEntry.commit (body.groupID.getD []) (topic.1.getD []))

/-- The offset of the last commit for a partition of a group, -1 if there is none. -/
def lastCommitted (commits : List MetadataCommit) (groupID topic : GoString) (partition : Int32) :
    Int64 :=
  ((commits.filter fun commit => commit.At groupID topic partition).getLast?.map
    MetadataCommit.offset).getD (-1)

section

variable {σ ε β : Type}

theorem offsetOf_eq_get (omm : OffsetManagerWithMetadata) (groupID topic : GoString)
    (partition : Int32) : offsetOf (some omm) groupID topic partition =
      ((omm.metadata.get groupID topic partition).map OffsetMetadata.offset).getD (-1) := by
  have fetched : (omm.fetchOffsetMetadata groupID topic partition).toOption =
      omm.metadata.get groupID topic partition := by
    cases answer : omm.fetchOffsetMetadata groupID topic partition with
    | ok info => rw [MetadataSystem.fetchOffsetMetadata_eq_ok.mp answer, Except.toOption]
    | error err =>
      cases there : omm.metadata.get groupID topic partition with
      | none => rfl
      | some info => cases answer.symm.trans (MetadataSystem.fetchOffsetMetadata_eq_ok.mpr there)
  rw [offsetOf, Option.bind_some, fetched]

variable {s : Broker σ β} {body : OffsetFetchBody}

section

variable (env : Surroundings σ ε β)

/-- A commit changes the offset of its own partition and no other. -/
theorem offsetOf_commitOffset (commit : MetadataCommit) (present : s.offsetManager.isSome)
    (groupID topic : GoString) (partition : Int32) :
    offsetOf (commitOffset env commit s).offsetManager groupID topic partition =
      if commit.At groupID topic partition then commit.offset
        else offsetOf s.offsetManager groupID topic partition := by
  obtain ⟨omm, found⟩ := Option.isSome_iff_exists.mp present
  rw [commitOffset, found, Option.map_some]
  dsimp only
  rw [offsetOf_eq_get, offsetOf_eq_get, OffsetManagerWithMetadata.storeMetadata,
    GroupMetadata.get_set]
  by_cases here : commit.At groupID topic partition
  · obtain ⟨rfl, rfl, rfl⟩ := here
    simp [MetadataCommit.At]
  · rw [if_neg here, if_neg fun same => here ⟨same.1.symm, same.2.1.symm, same.2.2.symm⟩]
    rfl

def commitAll (s : Broker σ β) (commits : List MetadataCommit) : Broker σ β :=
  commits.foldl (fun s commit => commitOffset env commit s) s

theorem isSome_commitAll (s : Broker σ β) (commits : List MetadataCommit) :
    (commitAll env s commits).offsetManager.isSome = s.offsetManager.isSome := by
  induction commits generalizing s with
  | nil => rfl
  | cons commit commits ih =>
    rw [commitAll, List.foldl_cons, ← commitAll, ih, commitOffset, Option.isSome_map]

end

theorem lastCommitted_append_singleton (commits : List MetadataCommit) (commit : MetadataCommit)
    (groupID topic : GoString) (partition : Int32) :
    lastCommitted (commits ++ [commit]) groupID topic partition =
      if commit.At groupID topic partition then commit.offset
        else lastCommitted commits groupID topic partition := by
  rw [lastCommitted, List.filter_append]
  split
  · next here => simp [here]
  · next elsewhere => simp [elsewhere, lastCommitted]

/-- By induction on the commits from their end, as the last one decides. -/
theorem offsetOf_commitAll (env : Surroundings σ ε β) (fresh : s.offsetManager = some .new)
    (commits : List MetadataCommit) (groupID topic : GoString) (partition : Int32) :
    offsetOf (commitAll env s commits).offsetManager groupID topic partition =
      lastCommitted commits groupID topic partition := by
  induction commits using List.reverseRecOn with
  | nil =>
    rw [commitAll, List.foldl_nil, fresh]
    rfl
  | append_singleton commits commit ih =>
    have present : (commitAll env s commits).offsetManager.isSome := by
      rw [isSome_commitAll, fresh, Option.isSome_some]
    rw [lastCommitted_append_singleton, ← ih, ← offsetOf_commitOffset env commit present]
    rw [commitAll, List.foldl_append, List.foldl_cons, List.foldl_nil, ← commitAll]

theorem commitAll_append (env : Surroundings σ ε β) (s : Broker σ β)
    (first later : List MetadataCommit) :
    commitAll env s (first ++ later) = commitAll env (commitAll env s first) later :=
      List.foldl_append

theorem run_hasOffsetManager (bs out : List UInt8) (s : Broker σ β) :
    hasOffsetManager ⟨bs, out, s⟩ = (some s.offsetManager.isSome, ⟨bs, out, s⟩) := rfl

section

variable (env : Surroundings σ ε β)

theorem run_commitPartition (groupID topic : GoString)
    (valid : commitEntry.Valid entry) (rest out : List UInt8) (s : Broker σ β) :
    commitPartition env groupID topic ⟨commitEntry.encode entry ++ rest, out, s⟩ =
      (some (), ⟨rest, out, commitOffset env (entry.commit groupID topic) s⟩) := by
  have metadata : (block length16).Valid entry.metadata := valid.2.2
  rw [commitEntry, encode_iso, encode_pair, encode_pair, encode_fixed, encode_fixed,
    List.append_assoc, List.append_assoc, commitPartition, bind_of_run (run_readInt32 ..),
    bind_of_run (run_readInt64 ..), bind_of_run (run_readNullable metadata ..), run_act]
  rfl

theorem run_commitTopic (groupID : GoString)
    (valid : commitTopics.Valid topic) (rest out : List UInt8) (s : Broker σ β) :
    commitTopic env groupID ⟨commitTopics.encode topic ++ rest, out, s⟩ =
      (some (), ⟨rest, out, commitAll env s (topic.2.map (CommitEntry.commit groupID (topic.1.getD [])))⟩) := by
  have name : (block length16).Valid topic.1 := valid.1
  have entries : (counted length32 commitEntry).Valid topic.2 := valid.2
  have inner := run_times_foldl (fun entry ok => run_commitPartition env groupID (topic.1.getD []) ok) entries.2 rest out s
  rw [commitTopics, encode_pair, encode_counted, List.append_assoc, List.append_assoc, commitTopic,
    bind_of_run (run_readNullable name ..), bind_of_run (run_readCount ..), rounds_ofNat entries.1,
      inner, commitAll, List.foldl_map]

/-- A complete commit request makes its commits, in their order. -/
theorem respond_handleOffsetCommit {body} (valid : commitBody.Valid body)
    (present : s.offsetManager.isSome) :
    ((handleOffsetCommit env).respond s (commitBody.encode body)).1 =
      commitAll env s body.commits := by
  have group : (block length16).Valid body.groupID := valid.1
  have topics : (counted length32 commitTopics).Valid body.topics := valid.2.2
  have inner :=
    run_times_foldl (fun topic ok => run_commitTopic env (body.groupID.getD []) ok) topics.2 [] [] s
  rw [List.append_nil] at inner
  have all : body.topics.foldl (fun s topic => commitAll env s
      (topic.2.map (CommitEntry.commit (body.groupID.getD []) (topic.1.getD [])))) s =
        commitAll env s body.commits := by
    rw [CommitBody.commits, commitAll, List.foldl_flatMap]
    rfl
  rw [respond, commitBody, encode_iso, encode_pair, encode_pair, encode_fixed,
    encode_counted, handleOffsetCommit, bind_of_run (run_readNullable group ..),
      bind_of_run (run_readInt32 ..),
    bind_of_run (run_readCount ..), bind_of_run (run_hasOffsetManager ..), if_pos present,
      rounds_ofNat topics.1, bind_of_run inner, all]
  rfl

def afterCommits (s : Broker σ β) (requests : List CommitBody) : Broker σ β :=
  requests.foldl (fun s body => ((handleOffsetCommit env).respond s (commitBody.encode body)).1) s

theorem afterCommits_eq (valid : ∀ body ∈ requests, commitBody.Valid body)
    (present : s.offsetManager.isSome) :
    afterCommits env s requests = commitAll env s (requests.flatMap CommitBody.commits) := by
  induction requests generalizing s with
  | nil => rfl
  | cons body requests ih =>
    rw [afterCommits, List.foldl_cons,
      respond_handleOffsetCommit env (valid body List.mem_cons_self) present,
      ← afterCommits, ih (fun b inside => valid b (List.mem_cons_of_mem _ inside))
        (by rwa [isSome_commitAll]), List.flatMap_cons, commitAll_append]

end

def answerOffset (s : Broker σ β) (groupID topic : GoString) (partition : Int32) : FetchedOffset :=
  ⟨partition, offsetOf s.offsetManager groupID topic partition, [], 0⟩

theorem fetchOffset_serves (groupID topic : GoString) :
    Serves (.fixed int32) fetchedOffset (.query fun s => answerOffset s groupID topic)
      (fetchOffset groupID topic : Handler (Broker σ β) Unit) := by
  intro partition _ rest out s
  rw [encode_fixed, fetchOffset, bind_of_run (run_readInt32 ..), bind_of_run (run_act ..),
    fetchedOffset, encode_iso]
  simp only [run_bind, writeInt32, writeInt64, writeString, writeInt16, run_write,
    Option.elim_some, Object.query, answerOffset, encode_pair, encode_fixed, List.append_assoc]
  rfl

def answerTopic (groupID : GoString) (s : Broker σ β) (topic : Option GoString × List Int32) :
    GoString × List FetchedOffset :=
  (topic.1.getD [], topic.2.map (answerOffset s groupID (topic.1.getD [])))

theorem fetchOffsets_serves (groupID : GoString) :
    Serves offsetFetchTopic (.pair (.text length16) (.counted length32 fetchedOffset))
    (.query (answerTopic groupID)) (fetchOffsets groupID : Handler (Broker σ β) Unit) := by
  intro topic valid rest out s
  have name : (block length16).Valid topic.1 := valid.1
  have inner := (fetchOffset_serves groupID (topic.1.getD [])).times valid.2 rest
    (out ++ stringBytes (topic.1.getD [])) s
  rw [Object.run_query] at inner
  rw [offsetFetchTopic, encode_pair, encode_counted, List.append_assoc,
    List.append_assoc, fetchOffsets,
    bind_of_run (run_readNullable name ..), bind_of_run (run_readCount ..),
      bind_of_run (run_writeString ..), bind_of_run (run_writeInt32 ..), inner]
  simp only [Object.query, answerTopic, encode_pair, List.append_assoc]
  rfl

theorem run_handleOffsetFetch (valid : offsetFetchBody.Valid body)
    (present : s.offsetManager.isSome) : handleOffsetFetch ⟨offsetFetchBody.encode body, [], s⟩ =
      (some (), ⟨[], offsetFetchResponse.encode ⟨0, body.topics.map (answerTopic (body.groupID.getD []) s), 0⟩, s⟩) := by
  have group : (block length16).Valid body.groupID := valid.1
  have topics : (counted length32 offsetFetchTopic).Valid body.topics := valid.2
  have inner := (fetchOffsets_serves (body.groupID.getD [])).times topics [] (int32.encode 0) s
  rw [Object.run_query, List.append_nil] at inner
  rw [offsetFetchBody, encode_iso, encode_pair, encode_counted, handleOffsetFetch,
    bind_of_run (run_readNullable group ..), bind_of_run (run_readCount ..),
      bind_of_run (run_writeInt32 ..),
    bind_of_run (run_hasOffsetManager ..), if_pos present, bind_of_run (run_writeInt32 ..),
      List.nil_append, bind_of_run inner, writeInt16, run_write]
  simp only [offsetFetchResponse, encode_iso, encode_pair, encode_fixed,
    List.append_assoc, topicsOf]

/-- The response to a complete request is itself complete. -/
theorem answers_valid (valid : offsetFetchBody.Valid body) (s : Broker σ β) :
    (topicsOf fetchedOffset).Valid (body.topics.map (answerTopic (body.groupID.getD []) s)) := by
  have topics : (counted length32 offsetFetchTopic).Valid body.topics := valid.2
  refine ⟨(List.length_map _).symm ▸ topics.1, List.forall_mem_map.mpr fun topic inside => ?_⟩
  obtain ⟨name, few, _⟩ := topics.2 topic inside
  refine ⟨?_, (List.length_map _).symm ▸ few, List.forall_mem_map.mpr fun partition _ => ?_⟩
  · rw [valid_text, answerTopic]
    cases given : topic.1 with
    | none => exact Nat.two_pow_pos 15
    | some l => exact name l given
  · exact ⟨trivial, trivial, valid_text.mpr (Nat.two_pow_pos 15), trivial⟩

/-- The topics, partitions and offsets of a response in its order. -/
def OffsetFetchResponse.offsets (response : OffsetFetchResponse) :
    List (GoString × List (Int32 × Int64)) :=
  response.topics.map fun topic =>
    (topic.1, topic.2.map fun entry => (entry.partition, entry.offset))

theorem last_committed_offset_is_fetched (env : Surroundings σ ε β) {s : Broker σ β}
    (fresh : s.offsetManager = some .new) {requests : List CommitBody}
    (commits : ∀ body ∈ requests, commitBody.Valid body) {fetch : OffsetFetchBody}
    (valid : offsetFetchBody.Valid fetch) :
    ∃ bytes response,
      (handleOffsetFetch.respond (afterCommits env s requests) (offsetFetchBody.encode fetch)).2 =
        some bytes ∧
      offsetFetchResponse.decode bytes = some (response, []) ∧
      response.offsets = fetch.topics.map fun topic => (topic.1.getD [], topic.2.map fun partition =>
        (partition, lastCommitted (requests.flatMap CommitBody.commits) (fetch.groupID.getD [])
          (topic.1.getD []) partition)) := by
  have present : s.offsetManager.isSome := by rw [fresh, Option.isSome_some]
  have after : (afterCommits env s requests).offsetManager.isSome := by
    rw [afterCommits_eq env commits present, isSome_commitAll, present]
  refine ⟨_, ⟨0, _, 0⟩, ?_,
    offsetFetchResponse.decode_whole
      ⟨trivial, answers_valid valid (afterCommits env s requests), trivial⟩, ?_⟩
  · rw [respond, run_handleOffsetFetch valid after, Option.map_some]
  · simp only [OffsetFetchResponse.offsets, List.map_map]
    refine List.map_congr_left fun topic _ => Prod.ext rfl ?_
    simp only [Function.comp_apply, answerTopic, List.map_map]
    refine List.map_congr_left fun partition _ => Prod.ext rfl ?_
    simp only [Function.comp_apply, answerOffset]
    rw [afterCommits_eq env commits present, offsetOf_commitAll env fresh]

end

/-- A store and a bridge that answer nothing, as offsets do not need them. -/
def offsetsOnly : Surroundings Unit Unit Unit where
  store :=
    ⟨fun _ _ _ _ _ => ((), some (.error ())), fun _ _ => ((), .error ()), fun _ _ _ _ =>
      ((), .error ()), fun _ _ => ((), .error ())⟩
  pooled _ := {}
  kafkaID _ := 0
  bridge _ _ := .error ()
  clock n := n

theorem second_commit_is_fetched :
    ∃ bytes response, (handleOffsetFetch.respond
        (afterCommits offsetsOnly ⟨(), none, some .new, [], 0⟩
          [⟨some [1], 0, [(some [2], [⟨0, 5, none⟩, ⟨3, 6, some [9]⟩])]⟩, ⟨some [1], 1, [(some [2], [⟨0, 4, some []⟩])]⟩])
        (offsetFetchBody.encode ⟨some [1], [(some [2], [0, 3, 7]), (none, [0])]⟩)).2 = some bytes ∧
      offsetFetchResponse.decode bytes = some (response, []) ∧
      response.offsets = [([2], [(0, 4), (3, 6), (7, -1)]), ([], [(0, -1)])] :=
  last_committed_offset_is_fetched offsetsOnly rfl (by simp [commitBody, commitTopics, commitEntry])
    (by simp [offsetFetchBody, offsetFetchTopic])

end Portask.Kafka.Protocol
