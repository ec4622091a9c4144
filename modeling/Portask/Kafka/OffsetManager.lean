import Mathlib.Data.List.AList
import Portask.Lib.Machine
import Portask.Lib.Store
import Portask.Lib.GoString

/-! # The offset manager

`pkg/kafka/offset_manager.go`. Go maps are references, so the maps of the lower two levels
are cells of stores, and a map of the upper level holds addresses. What callers have been
given they may change at any time; it is kept track of in `handed`. Every operation runs
under the manager's mutex and is one step. Where the order in which a range yields the keys
of a map can be seen in the result, the order is given with the operation.
-/

namespace Portask.Kafka

open Lib Store

/-- `map[int32]int64` -/
abbrev PartitionMap := AList fun _ : Int32 => Int64

/-- `map[string]map[int32]int64` -/
abbrev TopicMap := AList fun _ : GoString => Nat

inductive OffsetError where
  | groupNotFound (groupID : GoString)
  | topicNotFound (topic : GoString)
  | partitionNotFound
  | metadataNotFound
  deriving DecidableEq

def OffsetError.message (render : GoString → String) : OffsetError → String
  | .groupNotFound groupID => "group not found: " ++ render groupID
  | .topicNotFound topic => "topic not found: " ++ render topic
  | .partitionNotFound => "partition offset not found"
  | .metadataNotFound => "partition metadata not found"

structure OffsetManager where
  offsets : AList fun _ : GoString => Nat
  topics : Store TopicMap
  partitions : Store PartitionMap
  handedTopics : List Nat
  handedPartitions : List Nat

def newOffsetManager : OffsetManager := ⟨∅, .empty, .empty, [], []⟩

namespace OffsetManager

section

variable (om : OffsetManager)

/-- `om.offsets[groupID][topic]` -/
def topicMap (groupID topic : GoString) : Option Nat :=
  (om.offsets.lookup groupID).bind fun a => (om.topics.read a).bind (·.lookup topic)

/-- `om.offsets[groupID][topic][partition]` -/
def entry (groupID topic : GoString) (partition : Int32) : Option Int64 :=
  (om.topicMap groupID topic).bind fun b => (om.partitions.read b).bind (·.lookup partition)

def ensureGroup (groupID : GoString) : OffsetManager :=
  match om.offsets.lookup groupID with
  | some _ => om
  | none =>
    let (topics, a) := om.topics.alloc ∅
    { om with topics := topics, offsets := om.offsets.insert groupID a }

def ensureTopic (groupID topic : GoString) : OffsetManager :=
  match om.offsets.lookup groupID, om.topicMap groupID topic with
  | some a, none =>
    let (partitions, b) := om.partitions.alloc ∅
    { om with partitions := partitions, topics := om.topics.modify a (·.insert topic b) }
  | _, _ => om

def setOffset (groupID topic : GoString) (partition : Int32) (offset : Int64) : OffsetManager :=
  match om.topicMap groupID topic with
  | some b => { om with partitions := om.partitions.modify b (·.insert partition offset) }
  | none => om

def commitOffset (groupID topic : GoString) (partition : Int32) (offset : Int64) :
    OffsetManager :=
  ((om.ensureGroup groupID).ensureTopic groupID topic).setOffset groupID topic partition offset

def fetchOffset (groupID topic : GoString) (partition : Int32) : Int64 × Option OffsetError :=
  if (om.offsets.lookup groupID).isNone then (-1, some (.groupNotFound groupID))
  else if (om.topicMap groupID topic).isNone then (-1, some (.topicNotFound topic))
  else
    match om.entry groupID topic partition with
    | none => (-1, some .partitionNotFound)
    | some offset => (offset, none)

end

/-- The inner loop of the deep copy. -/
def copyPartitions (partitions : PartitionMap) : PartitionMap :=
  partitions.entries.foldr (fun e copy => copy.insert e.1 e.2) ∅

/-- One round of the outer loop of the deep copy. -/
def copyTopic (e : Σ _ : GoString, Nat) (copied : Store PartitionMap × TopicMap) :
    Store PartitionMap × TopicMap :=
  let (partitions, b) := copied.1.alloc (copyPartitions ((copied.1.read e.2).getD ∅))
  (partitions, copied.2.insert e.1 b)

def fetchAllOffsets (om : OffsetManager) (groupID : GoString) :
    OffsetManager × Except OffsetError Nat :=
  match om.offsets.lookup groupID with
  | none => (om, .error (.groupNotFound groupID))
  | some a =>
    let (partitions, result) :=
      ((om.topics.read a).getD ∅).entries.foldr copyTopic (om.partitions, ∅)
    let (topics, r) := om.topics.alloc result
    ({ om with
        topics := topics
        partitions := partitions
        handedTopics := r :: om.handedTopics
        handedPartitions := result.entries.map Sigma.snd ++ om.handedPartitions },
      .ok r)

def deleteGroup (om : OffsetManager) (groupID : GoString) : OffsetManager × Option OffsetError :=
  match om.offsets.lookup groupID with
  | none => (om, some (.groupNotFound groupID))
  | some _ => ({ om with offsets := om.offsets.erase groupID }, none)

/-- The keys of a map in the order of a range. -/
def range (order keys : List GoString) : List GoString := if order.Perm keys then order else keys

variable (om : OffsetManager)

def listGroups (order : List GoString) : List GoString := range order om.offsets.keys

def getGroupTopics (groupID : GoString) (order : List GoString) :
    Except OffsetError (List GoString) :=
  match om.offsets.lookup groupID with
  | none => .error (.groupNotFound groupID)
  | some a => .ok (range order ((om.topics.read a).getD ∅).keys)

/-- A caller changes a map of topics it has been given, as it likes. -/
def writeTopics (a : Nat) (topics : TopicMap) : OffsetManager :=
  if a ∈ om.handedTopics ∧ ∀ e ∈ topics.entries, e.2 ∈ om.handedPartitions then
    { om with topics := om.topics.modify a fun _ => topics }
  else om

/-- A caller changes a map of partitions it has been given, as it likes. -/
def writePartitions (b : Nat) (partitions : PartitionMap) : OffsetManager :=
  if b ∈ om.handedPartitions then
    { om with partitions := om.partitions.modify b fun _ => partitions } else om

/-- A caller makes a map of partitions of its own. -/
def makePartitions (partitions : PartitionMap) : OffsetManager :=
  let (store, b) := om.partitions.alloc partitions
  { om with partitions := store, handedPartitions := b :: om.handedPartitions }

end OffsetManager

inductive OffsetCall where
  | commit (groupID topic : GoString) (partition : Int32) (offset : Int64)
  | fetch (groupID topic : GoString) (partition : Int32)
  | fetchAll (groupID : GoString)
  | deleteGroup (groupID : GoString)
  | listGroups (order : List GoString)
  | groupTopics (groupID : GoString) (order : List GoString)
  | writeTopics (a : Nat) (topics : TopicMap)
  | writePartitions (b : Nat) (partitions : PartitionMap)
  | makePartitions (partitions : PartitionMap)

inductive OffsetAnswer where
  | committed (err : Option OffsetError)
  | fetched (offset : Int64) (err : Option OffsetError)
  | all (result : Except OffsetError Nat)
  | deleted (err : Option OffsetError)
  | groups (groupIDs : List GoString)
  | topics (result : Except OffsetError (List GoString))
  | written

/-- The manager with its callers. -/
def offsetSystem : Object OffsetManager OffsetCall OffsetAnswer where
  apply om
    | .commit groupID topic partition offset =>
      (om.commitOffset groupID topic partition offset, .committed none)
    | .fetch groupID topic partition =>
      (om, .fetched (om.fetchOffset groupID topic partition).1 (om.fetchOffset groupID topic partition).2)
    | .fetchAll groupID => ((om.fetchAllOffsets groupID).1, .all (om.fetchAllOffsets groupID).2)
    | .deleteGroup groupID => ((om.deleteGroup groupID).1, .deleted (om.deleteGroup groupID).2)
    | .listGroups order => (om, .groups (om.listGroups order))
    | .groupTopics groupID order => (om, .topics (om.getGroupTopics groupID order))
    | .writeTopics a topics => (om.writeTopics a topics, .written)
    | .writePartitions b partitions => (om.writePartitions b partitions, .written)
    | .makePartitions partitions => (om.makePartitions partitions, .written)

namespace OffsetManager

/-- The manager reaches each of its maps in one way, and none of them has been handed out. -/
structure Sound (om : OffsetManager) : Prop where
  groups : Owned (fun groupID => om.offsets.lookup groupID) om.topics.size om.handedTopics
  topics : Owned (fun k : GoString × GoString => om.topicMap k.1 k.2) om.partitions.size om.handedPartitions

structure Filled (om : OffsetManager) : Prop where
  group : ∀ {groupID}, (om.offsets.lookup groupID).isSome →
    ∃ topic, (om.topicMap groupID topic).isSome
  topic : ∀ {groupID topic}, (om.topicMap groupID topic).isSome →
    ∃ partition, (om.entry groupID topic partition).isSome

/-- The maps that have been handed out are still with the callers, and as they were. -/
structure Spares (om after : OffsetManager) : Prop where
  topics : ∀ a ∈ om.handedTopics, a ∈ after.handedTopics ∧ after.topics.read a = om.topics.read a
  partitions : ∀ b ∈ om.handedPartitions, b ∈ after.handedPartitions ∧
    after.partitions.read b = om.partitions.read b

variable {om : OffsetManager} {groupID topic : GoString}

theorem ensureGroup_of_none (none : om.offsets.lookup groupID = none) :
    om.ensureGroup groupID =
      { om with topics := (om.topics.alloc ∅).1, offsets := om.offsets.insert groupID om.topics.size } := by
  rw [ensureGroup, none]
  rfl

theorem lookup_ensureGroup_isSome : ((om.ensureGroup groupID).offsets.lookup groupID).isSome := by
  cases found : om.offsets.lookup groupID with
  | some a => simp [ensureGroup, found]
  | none => simp [ensureGroup_of_none found]

theorem lookup_ensureGroup_ne (differ : other ≠ groupID) :
    (om.ensureGroup groupID).offsets.lookup other = om.offsets.lookup other := by
  cases found : om.offsets.lookup groupID with
  | some a => simp [ensureGroup, found]
  | none => simp [ensureGroup_of_none found, AList.lookup_insert_ne differ]

theorem topicMap_ensureGroup (sound : om.Sound) (group' topic' : GoString) :
    (om.ensureGroup groupID).topicMap group' topic' = om.topicMap group' topic' := by
  cases found : om.offsets.lookup groupID with
  | some a => rw [ensureGroup, found]
  | none =>
    rw [ensureGroup_of_none found, topicMap, topicMap]
    by_cases here : group' = groupID
    · subst here
      simp [found]
    · rw [AList.lookup_insert_ne here]
      cases there : om.offsets.lookup group' with
      | none => rfl
      | some a => simp [read_alloc (sound.groups.below there)]

theorem ensureGroup_partitions : (om.ensureGroup groupID).partitions = om.partitions := by
  rw [ensureGroup]
  split <;> rfl

theorem Sound.ensureGroup (sound : om.Sound) : (om.ensureGroup groupID).Sound := by
  cases found : om.offsets.lookup groupID with
  | some a =>
    rw [OffsetManager.ensureGroup, found]
    exact sound
  | none =>
    have sameMaps : ∀ group' topic', (om.ensureGroup groupID).topicMap group' topic' =
        om.topicMap group' topic' :=
      topicMap_ensureGroup sound
    rw [ensureGroup_of_none found] at sameMaps ⊢
    refine ⟨?_, ?_⟩
    · have renewed := sound.groups.renew groupID
      rw [← size_alloc (c := ∅)] at renewed
      convert renewed using 2 with other
      split
      · next here => rw [here, AList.lookup_insert]
      · next differ => rw [AList.lookup_insert_ne differ]
    · simpa only [sameMaps] using sound.topics

section EnsureTopic

variable {a : Nat}

theorem ensureTopic_of_none (found : om.offsets.lookup groupID = some a)
    (none : om.topicMap groupID topic = none) : om.ensureTopic groupID topic =
      { om with
        partitions := (om.partitions.alloc ∅).1
        topics := om.topics.modify a (·.insert topic om.partitions.size) } := by
  rw [ensureTopic, found, none]
  rfl

theorem ensureTopic_of_some (some : (om.topicMap groupID topic).isSome) :
    om.ensureTopic groupID topic = om := by
  obtain ⟨b, there⟩ := Option.isSome_iff_exists.mp some
  cases found : om.offsets.lookup groupID with
  | none | some a => simp [ensureTopic, found, there]

theorem ensureTopic_offsets : (om.ensureTopic groupID topic).offsets = om.offsets := by
  rw [ensureTopic]
  split <;> rfl

variable (sound : om.Sound)
include sound

variable (found : om.offsets.lookup groupID = some a)
include found

theorem topicMap_ensureTopic (none : om.topicMap groupID topic = none) (k : GoString × GoString) :
    (om.ensureTopic groupID topic).topicMap k.1 k.2 =
      if k = (groupID, topic) then some om.partitions.size else om.topicMap k.1 k.2 := by
  obtain ⟨topics, read⟩ := exists_read (sound.groups.below found)
  obtain ⟨group', topic'⟩ := k
  rw [ensureTopic_of_none found none, topicMap, topicMap]
  by_cases sameGroup : group' = groupID
  · subst sameGroup
    by_cases sameTopic : topic' = topic
    · subst sameTopic
      simp [found, read]
    · simp [found, read, sameTopic, AList.lookup_insert_ne sameTopic]
  · cases there : om.offsets.lookup group' with
    | none => simp [sameGroup]
    | some other =>
      have apart : other ≠ a := fun same => sameGroup (sound.groups.apart there (same ▸ found))
      simp [sameGroup, read_modify_ne apart]

theorem topicMap_ensureTopic_isSome :
    ((om.ensureTopic groupID topic).topicMap groupID topic).isSome := by
  cases there : om.topicMap groupID topic with
  | some b => rw [ensureTopic_of_some (by simp [there]), there]; rfl
  | none => rw [topicMap_ensureTopic sound found there (groupID, topic), if_pos rfl]; rfl

theorem topicMap_ensureTopic_ne (differ : k ≠ (groupID, topic)) :
    (om.ensureTopic groupID topic).topicMap k.1 k.2 = om.topicMap k.1 k.2 := by
  cases there : om.topicMap groupID topic with
  | some b => rw [ensureTopic_of_some (by simp [there])]
  | none => rw [topicMap_ensureTopic sound found there k, if_neg differ]

theorem entry_ensureTopic (group' topic' : GoString) (partition : Int32) :
    (om.ensureTopic groupID topic).entry group' topic' partition =
      om.entry group' topic' partition := by
  cases there : om.topicMap groupID topic with
  | some b => rw [ensureTopic_of_some (by simp [there])]
  | none =>
    rw [entry, entry, topicMap_ensureTopic sound found there (group', topic'),
      ensureTopic_of_none found there]
    by_cases here : (group', topic') = (groupID, topic)
    · cases here
      simp [there]
    · rw [if_neg here]
      cases reached : om.topicMap group' topic' with
      | none => rfl
      | some b =>
        have inside : b < om.partitions.size := sound.topics.below (k := (group', topic')) reached
        simp [read_alloc inside]

theorem Sound.ensureTopic : (om.ensureTopic groupID topic).Sound := by
  cases there : om.topicMap groupID topic with
  | some b =>
    rw [ensureTopic_of_some (by simp [there])]
    exact sound
  | none =>
    refine ⟨?_, ?_⟩
    · rw [ensureTopic_of_none found there]
      simpa using sound.groups
    · have renewed := sound.topics.renew (groupID, topic)
      simp only [topicMap_ensureTopic sound found there]
      rw [ensureTopic_of_none found there]
      simpa using renewed

end EnsureTopic

section SetOffset

variable {b : Nat} {partition : Int32} {offset : Int64}

theorem setOffset_of_some (found : om.topicMap groupID topic = some b) :
    om.setOffset groupID topic partition offset =
      { om with partitions := om.partitions.modify b (·.insert partition offset) } := by
  rw [setOffset, found]

theorem entry_setOffset (sound : om.Sound) (found : om.topicMap groupID topic = some b)
    (group' topic' : GoString) (partition' : Int32) :
    (om.setOffset groupID topic partition offset).entry group' topic' partition' =
      if group' = groupID ∧ topic' = topic ∧ partition' = partition then some offset
      else om.entry group' topic' partition' := by
  obtain ⟨partitions, read⟩ := exists_read (sound.topics.below (k := (groupID, topic)) found)
  rw [setOffset_of_some found, entry, entry]
  change (om.topicMap group' topic').bind _ = _
  by_cases here : group' = groupID ∧ topic' = topic
  · obtain ⟨rfl, rfl⟩ := here
    by_cases same : partition' = partition
    · subst same
      simp [found, read]
    · simp [found, read, same, AList.lookup_insert_ne same]
  · have elsewhere : ¬ (group' = groupID ∧ topic' = topic ∧ partition' = partition) :=
      fun all => here ⟨all.1, all.2.1⟩
    rw [if_neg elsewhere]
    cases there : om.topicMap group' topic' with
    | none => rfl
    | some other =>
      have apart : other ≠ b := by
        rintro rfl
        have same := sound.topics.apart (k := (group', topic')) (l := (groupID, topic)) there found
        exact here (Prod.mk.injEq _ _ _ _ ▸ same)
      simp [read_modify_ne apart]

theorem Sound.setOffset (sound : om.Sound) (found : om.topicMap groupID topic = some b) :
    (om.setOffset groupID topic partition offset).Sound := by
  rw [setOffset_of_some found]
  refine ⟨sound.groups, ?_⟩
  rw [size_modify]
  exact sound.topics

end SetOffset

section Commit

variable {partition : Int32} {offset : Int64}

/-- Before the offset is stored, the maps for it are there. -/
theorem commit_ready (sound : om.Sound) (groupID topic : GoString) :
    ∃ a b, (om.ensureGroup groupID).offsets.lookup groupID = some a ∧
      ((om.ensureGroup groupID).ensureTopic groupID topic).Sound ∧
      ((om.ensureGroup groupID).ensureTopic groupID topic).topicMap groupID topic = some b := by
  have there : ((om.ensureGroup groupID).offsets.lookup groupID).isSome := lookup_ensureGroup_isSome
  obtain ⟨a, found⟩ := Option.isSome_iff_exists.mp there
  have inside :
      (((om.ensureGroup groupID).ensureTopic groupID topic).topicMap groupID topic).isSome :=
    topicMap_ensureTopic_isSome sound.ensureGroup found
  obtain ⟨b, reached⟩ := Option.isSome_iff_exists.mp inside
  exact ⟨a, b, found, sound.ensureGroup.ensureTopic found, reached⟩

theorem Sound.commitOffset (sound : om.Sound) :
    (om.commitOffset groupID topic partition offset).Sound := by
  obtain ⟨a, b, -, ready, reached⟩ := commit_ready sound groupID topic
  exact ready.setOffset reached

theorem entry_commitOffset (sound : om.Sound) (group' topic' : GoString) (partition' : Int32) :
    (om.commitOffset groupID topic partition offset).entry group' topic' partition' =
      if group' = groupID ∧ topic' = topic ∧ partition' = partition then some offset
      else om.entry group' topic' partition' := by
  obtain ⟨a, b, found, ready, reached⟩ := commit_ready sound groupID topic
  rw [commitOffset, entry_setOffset ready reached,
    entry_ensureTopic sound.ensureGroup found, entry, entry,
    topicMap_ensureGroup sound, ensureGroup_partitions]

theorem lookup_commitOffset (other : GoString) :
    ((om.commitOffset groupID topic partition offset).offsets.lookup other).isSome ↔
      other = groupID ∨ (om.offsets.lookup other).isSome := by
  have same : (om.commitOffset groupID topic partition offset).offsets =
      (om.ensureGroup groupID).offsets := by
    rw [commitOffset, setOffset]
    split
    · exact ensureTopic_offsets
    · exact ensureTopic_offsets
  rw [same]
  by_cases here : other = groupID
  · subst here
    simp [lookup_ensureGroup_isSome]
  · simp [lookup_ensureGroup_ne here, here]

theorem topicMap_commitOffset (sound : om.Sound) (group' topic' : GoString) :
    ((om.commitOffset groupID topic partition offset).topicMap group' topic').isSome ↔
      (group' = groupID ∧ topic' = topic) ∨ (om.topicMap group' topic').isSome := by
  obtain ⟨a, b, found, ready, reached⟩ := commit_ready sound groupID topic
  rw [commitOffset, setOffset_of_some reached]
  change (((om.ensureGroup groupID).ensureTopic groupID topic).topicMap group' topic').isSome ↔ _
  by_cases here : (group', topic') = (groupID, topic)
  · cases here
    simp [reached]
  · have differ : ¬ (group' = groupID ∧ topic' = topic) := fun same => here (by rw [same.1, same.2])
    rw [topicMap_ensureTopic_ne (k := (group', topic')) sound.ensureGroup found here,
      topicMap_ensureGroup sound]
    simp [differ]

theorem Filled.commitOffset (filled : om.Filled) (sound : om.Sound) :
    (om.commitOffset groupID topic partition offset).Filled where
  group {group'} there := by
    simp only [topicMap_commitOffset sound]
    rcases (lookup_commitOffset group').mp there with rfl | before
    · exact ⟨topic, .inl ⟨rfl, rfl⟩⟩
    · exact (filled.group before).imp fun topic' inside => .inr inside
  topic {group' topic'} there := by
    simp only [entry_commitOffset sound]
    rcases (topicMap_commitOffset sound group' topic').mp there with ⟨rfl, rfl⟩ | before
    · exact ⟨partition, by simp⟩
    · refine (filled.topic before).imp fun partition' inside => ?_
      split
      · rfl
      · exact inside

end Commit

theorem Spares.refl (om : OffsetManager) : om.Spares om :=
  ⟨fun _ out => ⟨out, rfl⟩, fun _ out => ⟨out, rfl⟩⟩

theorem Spares.trans (first : om.Spares mid) (later : mid.Spares after) : om.Spares after where
  topics a out := by
    obtain ⟨still, same⟩ := first.topics a out
    exact ⟨(later.topics a still).1, (later.topics a still).2.trans same⟩
  partitions b out := by
    obtain ⟨still, same⟩ := first.partitions b out
    exact ⟨(later.partitions b still).1, (later.partitions b still).2.trans same⟩

theorem spares_ensureGroup (sound : om.Sound) : om.Spares (om.ensureGroup groupID) := by
  cases found : om.offsets.lookup groupID with
  | some a =>
    rw [ensureGroup, found]
    exact .refl om
  | none =>
    rw [ensureGroup_of_none found]
    exact ⟨fun a out => ⟨out, read_alloc (sound.groups.made out)⟩, fun _ out => ⟨out, rfl⟩⟩

theorem spares_ensureTopic (sound : om.Sound) (found : om.offsets.lookup groupID = some a) :
    om.Spares (om.ensureTopic groupID topic) := by
  cases there : om.topicMap groupID topic with
  | some b =>
    rw [ensureTopic_of_some (by simp [there])]
    exact .refl om
  | none =>
    rw [ensureTopic_of_none found there]
    refine ⟨fun other out => ⟨out, ?_⟩, fun b out => ⟨out, read_alloc (sound.topics.made out)⟩⟩
    exact read_modify_ne fun same => sound.groups.kept found (same ▸ out)

theorem spares_setOffset (sound : om.Sound) (found : om.topicMap groupID topic = some b)
    (partition : Int32)
    (offset : Int64) : om.Spares (om.setOffset groupID topic partition offset) := by
  rw [setOffset_of_some found]
  refine ⟨fun _ out => ⟨out, rfl⟩, fun other out => ⟨out, ?_⟩⟩
  exact read_modify_ne fun same => sound.topics.kept (k := (groupID, topic)) found (same ▸ out)

theorem spares_commitOffset (sound : om.Sound) (partition : Int32) (offset : Int64) :
    om.Spares (om.commitOffset groupID topic partition offset) := by
  obtain ⟨a, b, found, ready, reached⟩ := commit_ready sound groupID topic
  exact (spares_ensureGroup sound).trans
    ((spares_ensureTopic sound.ensureGroup found).trans
      (spares_setOffset ready reached partition offset))

variable {partition : Int32}

theorem entry_isSome_lookup (some : (om.entry groupID topic partition).isSome) :
    (om.topicMap groupID topic).isSome ∧ (om.offsets.lookup groupID).isSome := by
  obtain ⟨offset, found⟩ := Option.isSome_iff_exists.mp some
  obtain ⟨b, reached, -⟩ := Option.bind_eq_some_iff.mp found
  obtain ⟨a, there, -⟩ := Option.bind_eq_some_iff.mp reached
  simp [reached, there]

theorem fetchOffset_of_some (found : om.entry groupID topic partition = some offset) :
    om.fetchOffset groupID topic partition = (offset, none) := by
  obtain ⟨reached, there⟩ := entry_isSome_lookup (Option.isSome_of_eq_some found)
  simp [fetchOffset, found, Option.isSome_iff_ne_none.mp reached,
    Option.isSome_iff_ne_none.mp there]

theorem fetchOffset_of_none (none : om.entry groupID topic partition = none) :
    ∃ err, om.fetchOffset groupID topic partition = (-1, some err) := by
  rw [fetchOffset, none]
  split
  · exact ⟨_, rfl⟩
  · split
    · exact ⟨_, rfl⟩
    · exact ⟨_, rfl⟩

theorem deleteGroup_fst :
    (om.deleteGroup groupID).1 = { om with offsets := om.offsets.erase groupID } := by
  rw [deleteGroup]
  split
  · next none =>
      have same : om.offsets.erase groupID = om.offsets :=
        AList.ext (List.kerase_of_notMem_keys (AList.lookup_eq_none.mp none))
      rw [same]
  · rfl

theorem lookup_deleteGroup (other : GoString) :
    (om.deleteGroup groupID).1.offsets.lookup other = if other = groupID then none
      else om.offsets.lookup other := by
  rw [deleteGroup_fst]
  split
  · next here => rw [here, AList.lookup_erase]
  · next differ => rw [AList.lookup_erase_ne differ]

theorem topicMap_deleteGroup (group' topic' : GoString) :
    (om.deleteGroup groupID).1.topicMap group' topic' =
      if group' = groupID then none else om.topicMap group' topic' := by
  rw [topicMap, lookup_deleteGroup, deleteGroup_fst]
  split <;> rfl

theorem entry_deleteGroup (group' topic' : GoString) (partition : Int32) :
    (om.deleteGroup groupID).1.entry group' topic' partition =
      if group' = groupID then none else om.entry group' topic' partition := by
  rw [entry, topicMap_deleteGroup, deleteGroup_fst]
  split <;> rfl

theorem Sound.deleteGroup (sound : om.Sound) : (om.deleteGroup groupID).1.Sound := by
  have groups : Owned (fun other => (om.deleteGroup groupID).1.offsets.lookup other) om.topics.size
      om.handedTopics :=
    sound.groups.drop (by simp [lookup_deleteGroup])
  have topics : Owned (fun k : GoString × GoString => (om.deleteGroup groupID).1.topicMap k.1 k.2)
      om.partitions.size om.handedPartitions := sound.topics.drop (by simp [topicMap_deleteGroup])
  rw [deleteGroup_fst] at groups topics ⊢
  exact ⟨groups, topics⟩

theorem Filled.deleteGroup (filled : om.Filled) : (om.deleteGroup groupID).1.Filled where
  group {group'} there := by
    rw [lookup_deleteGroup] at there
    split at there
    · cases there
    · next differ => simpa only [topicMap_deleteGroup, if_neg differ] using filled.group there
  topic {group' topic'} there := by
    rw [topicMap_deleteGroup] at there
    split at there
    · cases there
    · next differ => simpa only [entry_deleteGroup, if_neg differ] using filled.topic there

theorem newOffsetManager_sound : newOffsetManager.Sound where
  groups :=
    ⟨fun found => (nomatch found), fun found => (nomatch found), fun found => (nomatch found),
    fun out => (nomatch out)⟩
  topics :=
    ⟨fun found => (nomatch found), fun found => (nomatch found), fun found => (nomatch found),
    fun out => (nomatch out)⟩

theorem newOffsetManager_filled : newOffsetManager.Filled where
  group there := nomatch there
  topic there := nomatch there

end OffsetManager

end Portask.Kafka
