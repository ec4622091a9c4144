import Portask.Kafka.OffsetManager
import Portask.Lib.Assoc

/-! # Offsets and their metadata

`OffsetManagerWithMetadata` keeps metadata beside an offset manager, in maps of its own under
a lock of its own. `CommitOffsetWithMetadata` commits the offset first and stores the metadata
in a second step, between which other calls may come. The two agree as long as only such
commits change the offsets, no two of them work on one partition at once, and a cleanup
takes a group whole or leaves it alone.
-/

namespace Portask.Kafka

open Lib OffsetManager AList

/-- The timestamp is in nanoseconds. -/
structure OffsetMetadata where
  offset : Int64
  metadata : GoString
  timestamp : Int
  deriving DecidableEq

abbrev PartitionMetadata := AList fun _ : Int32 => OffsetMetadata

abbrev TopicMetadata := AList fun _ : GoString => PartitionMetadata

abbrev GroupMetadata := AList fun _ : GoString => TopicMetadata

/-- `omm.metadata[groupID][topic][partition]` -/
def GroupMetadata.get (metadata : GroupMetadata) (groupID topic : GoString) (partition : Int32) :
    Option OffsetMetadata :=
  (metadata.lookup groupID).bind fun topics => (topics.lookup topic).bind (·.lookup partition)

/-- Stores metadata, in maps that are made if they are not there. -/
def GroupMetadata.set (metadata : GroupMetadata) (groupID topic : GoString) (partition : Int32)
    (info : OffsetMetadata) : GroupMetadata :=
  let topics := (metadata.lookup groupID).getD ∅
  let partitions := (topics.lookup topic).getD ∅
  metadata.insert groupID (topics.insert topic (partitions.insert partition info))

section

variable (cutoff : Int)

/-- What a cleanup leaves of a map of partitions. -/
def cleanPartitions : PartitionMetadata → PartitionMetadata :=
  sweep fun _ info => if info.timestamp < cutoff then none else some info

def cleanTopics : TopicMetadata → TopicMetadata :=
  sweep fun _ partitions =>
    if (cleanPartitions cutoff partitions).keys = [] then none
    else some (cleanPartitions cutoff partitions)

def cleanGroups : GroupMetadata → GroupMetadata :=
  sweep fun _ topics =>
    if (cleanTopics cutoff topics).keys = [] then none else some (cleanTopics cutoff topics)

/-- The groups of which a cleanup leaves nothing. -/
def emptiedGroups (metadata : GroupMetadata) : List GoString :=
  (metadata.entries.filter fun e => (cleanTopics cutoff e.2).keys = []).map Sigma.fst

def cleanedCount (metadata : GroupMetadata) : Nat :=
  (metadata.entries.map fun group => (group.2.entries.map fun topic =>
    topic.2.entries.countP fun e => e.2.timestamp < cutoff).sum).sum

end

structure OffsetManagerWithMetadata where
  manager : OffsetManager
  metadata : GroupMetadata

namespace OffsetManagerWithMetadata

def new : OffsetManagerWithMetadata := ⟨newOffsetManager, ∅⟩

variable (omm : OffsetManagerWithMetadata)

/-- The second step of `CommitOffsetWithMetadata`. -/
def storeMetadata (groupID topic : GoString) (partition : Int32) (offset : Int64)
    (metadata : GoString) (now : Int) : OffsetManagerWithMetadata :=
  { omm with metadata := omm.metadata.set groupID topic partition ⟨offset, metadata, now⟩ }

/-- A method that is promoted from the embedded offset manager. -/
def commitOffset (groupID topic : GoString) (partition : Int32) (offset : Int64) :
    OffsetManagerWithMetadata :=
  { omm with manager := omm.manager.commitOffset groupID topic partition offset }

/-- A method that is promoted from the embedded offset manager. -/
def deleteGroup (groupID : GoString) : OffsetManagerWithMetadata :=
  { omm with manager := (omm.manager.deleteGroup groupID).1 }

def fetchOffsetMetadata (groupID topic : GoString) (partition : Int32) :
    Except OffsetError OffsetMetadata :=
  match omm.metadata.lookup groupID with
  | none => .error (.groupNotFound groupID)
  | some topics =>
    match topics.lookup topic with
    | none => .error (.topicNotFound topic)
    | some partitions =>
      match partitions.lookup partition with
      | none => .error .metadataNotFound
      | some info => .ok info

def cleanupExpiredOffsets (retention now : Int) :
    OffsetManagerWithMetadata × Nat :=
  let cutoff := now - retention
  (⟨(emptiedGroups cutoff omm.metadata).foldl (fun om groupID =>
    (om.deleteGroup groupID).1) omm.manager, cleanGroups cutoff omm.metadata⟩,
    cleanedCount cutoff omm.metadata)

end OffsetManagerWithMetadata

/-- A call of `CommitOffsetWithMetadata`. -/
structure MetadataCommit where
  groupID : GoString
  topic : GoString
  partition : Int32
  offset : Int64
  metadata : GoString
  deriving DecidableEq

def MetadataCommit.At (commit : MetadataCommit) (groupID topic : GoString)
    (partition : Int32) : Prop :=
  commit.groupID = groupID ∧ commit.topic = topic ∧ commit.partition = partition

instance (commit : MetadataCommit) (groupID topic : GoString) (partition : Int32) :
    Decidable (commit.At groupID topic partition) := inferInstanceAs (Decidable (_ ∧ _ ∧ _))

/-- The manager and the commits of which the offset is committed and the metadata is not yet
    stored. -/
structure MetadataSystem (T : Type*) where
  omm : OffsetManagerWithMetadata
  pending : AList fun _ : T => MetadataCommit

namespace MetadataSystem

inductive Label (T : Type*) where
  | commitOffset (groupID topic : GoString) (partition : Int32) (offset : Int64)
  | start (t : T) (commit : MetadataCommit)
  | finish (t : T) (now : Int)
  | deleteGroup (groupID : GoString)
  | cleanup (retention now : Int)

variable {T : Type*} [DecidableEq T]

def init : MetadataSystem T := ⟨.new, ∅⟩

def machine : Machine (MetadataSystem T) (Label T) where
  next s
    | .commitOffset groupID topic partition offset =>
      some { s with omm := s.omm.commitOffset groupID topic partition offset }
    | .start t commit =>
      if t ∈ s.pending then none
      else
        some ⟨s.omm.commitOffset commit.groupID commit.topic commit.partition commit.offset, s.pending.insert t commit⟩
    | .finish t now =>
      (s.pending.lookup t).map fun commit =>
        ⟨s.omm.storeMetadata commit.groupID commit.topic commit.partition commit.offset
          commit.metadata now, s.pending.erase t⟩
    | .deleteGroup groupID => some { s with omm := s.omm.deleteGroup groupID }
    | .cleanup retention now => some { s with omm := (s.omm.cleanupExpiredOffsets retention now).1 }

def Idle (s : MetadataSystem T) : Prop := s.pending.keys = []

/-- `FetchOffsetMetadata` finds an entry if and only if `FetchOffset` does, with the same offset. -/
structure Agree (omm : OffsetManagerWithMetadata) (groupID topic : GoString) (partition : Int32) :
    Prop where
  found : (∃ info, omm.fetchOffsetMetadata groupID topic partition = .ok info) ↔
    (omm.manager.fetchOffset groupID topic partition).2 = none
  equal : ∀ info, omm.fetchOffsetMetadata groupID topic partition = .ok info →
    (omm.manager.fetchOffset groupID topic partition).1 = info.offset

/-- Nothing of the group is expired, or everything is and no commit to it is in progress. -/
def TakesWhole (s : MetadataSystem T) (cutoff : Int)
    (group : Σ _ : GoString, TopicMetadata) : Prop :=
  (∀ topic ∈ group.2.entries, ∀ e ∈ topic.2.entries, ¬ e.2.timestamp < cutoff) ∨
    ((∀ topic ∈ group.2.entries, ∀ e ∈ topic.2.entries, e.2.timestamp < cutoff) ∧
      ∀ e ∈ s.pending.entries, e.2.groupID ≠ group.1)

instance (s : MetadataSystem T) (cutoff : Int) (group : Σ _ : GoString, TopicMetadata) :
    Decidable (s.TakesWhole cutoff group) := inferInstanceAs (Decidable (_ ∨ _))

/-- A plain commit changes nothing, a commit has its partition to itself, only groups are
    deleted that do not exist, and a cleanup takes every group whole. -/
def Tidy (s : MetadataSystem T) : Label T → Prop
  | .commitOffset groupID topic partition offset =>
    s.omm.manager.entry groupID topic partition = some offset
  | .start _ commit =>
    ∀ e ∈ s.pending.entries, ¬ e.2.At commit.groupID commit.topic commit.partition
  | .finish .. => True
  | .deleteGroup groupID => s.omm.manager.offsets.lookup groupID = none
  | .cleanup retention now => ∀ group ∈ s.omm.metadata.entries, s.TakesWhole (now - retention) group

instance (s : MetadataSystem T) : (label : Label T) → Decidable (s.Tidy label)
  | .commitOffset .. => inferInstanceAs (Decidable (_ = _))
  | .start .. => inferInstanceAs (Decidable (∀ _ ∈ _, _))
  | .finish .. => .isTrue trivial
  | .deleteGroup .. => inferInstanceAs (Decidable (_ = _))
  | .cleanup .. => inferInstanceAs (Decidable (∀ _ ∈ _, _))

end MetadataSystem

namespace GroupMetadata

variable {metadata : GroupMetadata} {groupID topic : GoString} {partition : Int32}
  {info : OffsetMetadata}

theorem get_set (group' topic' : GoString) (partition' : Int32) :
    (metadata.set groupID topic partition info).get group' topic' partition' =
      if group' = groupID ∧ topic' = topic ∧ partition' = partition then some info
      else metadata.get group' topic' partition' := by
  rw [set, get, get]
  by_cases sameGroup : group' = groupID
  · subst sameGroup
    by_cases sameTopic : topic' = topic
    · subst sameTopic
      by_cases samePartition : partition' = partition
      · subst samePartition
        simp
      · simp [samePartition, lookup_insert_ne samePartition, lookup_getD_empty, Option.bind_assoc]
    · simp [sameTopic, lookup_insert_ne sameTopic, lookup_getD_empty, Option.bind_assoc]
  · simp [sameGroup, lookup_insert_ne sameGroup]

theorem get_eq_some (found : metadata.get groupID topic partition = some info) :
    ∃ topics partitions, metadata.lookup groupID = some topics ∧
      topics.lookup topic = some partitions ∧ partitions.lookup partition = some info := by
  obtain ⟨topics, there, found⟩ := Option.bind_eq_some_iff.mp found
  obtain ⟨partitions, inside, found⟩ := Option.bind_eq_some_iff.mp found
  exact ⟨topics, partitions, there, inside, found⟩

/-- A cleanup leaves what is not expired. -/
theorem get_cleanGroups (cutoff : Int) (groupID topic : GoString) (partition : Int32) :
    (cleanGroups cutoff metadata).get groupID topic partition =
      (metadata.get groupID topic partition).bind fun info =>
        if info.timestamp < cutoff then none else some info := by
  rw [get, get, cleanGroups, lookup_sweep]
  cases metadata.lookup groupID with
  | none => rfl
  | some topics =>
    rw [Option.bind_some, Option.bind_some]
    have lookups : ((if (cleanTopics cutoff topics).keys = [] then none else some (cleanTopics cutoff topics)).bind
        fun topics => (topics.lookup topic).bind fun partitions => partitions.lookup partition) =
        ((cleanTopics cutoff topics).lookup topic).bind fun partitions => partitions.lookup partition := by
      rw [← lookup_unless_empty (cleanTopics cutoff topics) topic, Option.bind_assoc]
    rw [lookups, cleanTopics, lookup_sweep]
    cases topics.lookup topic with
    | none => rfl
    | some partitions =>
      rw [Option.bind_some, Option.bind_some, lookup_unless_empty, cleanPartitions, lookup_sweep]

theorem mem_emptiedGroups :
    groupID ∈ emptiedGroups cutoff metadata ↔
      ∃ topics, metadata.lookup groupID = some topics ∧ (cleanTopics cutoff topics).keys = [] := by
  simp only [emptiedGroups, List.mem_map, List.mem_filter, decide_eq_true_eq]
  constructor
  · rintro ⟨⟨group, topics⟩, ⟨inside, empty⟩, rfl⟩
    exact ⟨topics, mem_lookup_iff.mpr inside, empty⟩
  · rintro ⟨topics, found, empty⟩
    exact ⟨⟨groupID, topics⟩, ⟨mem_lookup_iff.mp found, empty⟩, rfl⟩

def Stocked (metadata : GroupMetadata) : Prop :=
  ∀ groupID topics, metadata.lookup groupID = some topics →
    ∃ topic partition, (metadata.get groupID topic partition).isSome

theorem Stocked.set (stocked : Stocked metadata) :
    Stocked (metadata.set groupID topic partition info) := by
  intro group' topics found
  simp only [get_set]
  by_cases here : group' = groupID
  · subst here
    exact ⟨topic, partition, by simp⟩
  · rw [GroupMetadata.set, lookup_insert_ne here] at found
    simpa [here] using stocked group' topics found

theorem Stocked.clean (cutoff : Int) : Stocked (cleanGroups cutoff metadata) := by
  intro groupID topics found
  have swept := found
  rw [cleanGroups, lookup_sweep] at swept
  obtain ⟨before, -, cleaned⟩ := Option.bind_eq_some_iff.mp swept
  split at cleaned
  · cases cleaned
  · next left =>
      cases cleaned
      obtain ⟨topic, partitions, inside⟩ := exists_lookup_of_keys left
      have swept := inside
      rw [cleanTopics, lookup_sweep] at swept
      obtain ⟨all, -, cleaned⟩ := Option.bind_eq_some_iff.mp swept
      split at cleaned
      · cases cleaned
      · next left =>
          cases cleaned
          obtain ⟨partition, info, there⟩ := exists_lookup_of_keys left
          exact ⟨topic, partition, by rw [get, found, Option.bind_some, inside, Option.bind_some, there]; rfl⟩

/-- A group goes if nothing of it is left. -/
theorem mem_emptiedGroups_iff :
    groupID ∈ emptiedGroups cutoff metadata ↔
      groupID ∈ metadata ∧
        ∀ topic partition, (cleanGroups cutoff metadata).get groupID topic partition = none := by
  rw [mem_emptiedGroups]
  constructor
  · rintro ⟨topics, found, empty⟩
    refine ⟨lookup_isSome.mp (by rw [found]; rfl), fun topic partition => ?_⟩
    rw [get, cleanGroups, lookup_sweep, found, Option.bind_some, if_pos empty, Option.bind_none]
  · rintro ⟨inside, nothing⟩
    obtain ⟨topics, found⟩ := Option.isSome_iff_exists.mp (lookup_isSome.mpr inside)
    refine ⟨topics, found, ?_⟩
    by_contra left
    have kept : (cleanGroups cutoff metadata).lookup groupID = some (cleanTopics cutoff topics) := by
      rw [cleanGroups, lookup_sweep, found, Option.bind_some, if_neg left]
    obtain ⟨topic, partition, there⟩ := Stocked.clean cutoff groupID _ kept
    rw [nothing] at there
    cases there

end GroupMetadata

namespace OffsetManager

theorem deleteAll_induction {P : OffsetManager → Prop}
    (keeps : ∀ om groupID, P om → P (om.deleteGroup groupID).1) (start : P om)
    (groupIDs : List GoString) :
    P (groupIDs.foldl (fun om groupID => (om.deleteGroup groupID).1) om) := by
  induction groupIDs generalizing om with
  | nil => exact start
  | cons groupID rest ih => exact ih (keeps om groupID start)

theorem entry_deleteAll (om : OffsetManager) (groupIDs : List GoString) (groupID topic : GoString)
    (partition : Int32) :
    (groupIDs.foldl (fun om groupID => (om.deleteGroup groupID).1) om).entry groupID
      topic partition = if groupID ∈ groupIDs then none else om.entry groupID topic partition := by
  induction groupIDs generalizing om with
  | nil => rfl
  | cons first rest ih =>
    rw [List.foldl_cons, ih, entry_deleteGroup]
    by_cases here : groupID = first
    · simp [here]
    · simp [here]

theorem entry_recommit {om : OffsetManager} (sound : om.Sound)
    (same : om.entry groupID topic partition = some offset) (group' topic' : GoString)
    (partition' : Int32) :
    (om.commitOffset groupID topic partition offset).entry group' topic' partition' =
      om.entry group' topic' partition' := by
  rw [entry_commitOffset sound]
  split
  · next here => rw [here.1, here.2.1, here.2.2, same]
  · rfl

end OffsetManager

namespace MetadataSystem

variable {T : Type*} [DecidableEq T]

/-- Where no commit is in progress the two agree, and where one is, its offset is committed. -/
structure Consistent (s : MetadataSystem T) : Prop where
  sound : s.omm.manager.Sound
  stocked : s.omm.metadata.Stocked
  started : ∀ t commit, s.pending.lookup t = some commit →
    s.omm.manager.entry commit.groupID commit.topic commit.partition = some commit.offset
  agrees : ∀ groupID topic partition,
    (∀ t commit, s.pending.lookup t = some commit → ¬ commit.At groupID topic partition) →
    (s.omm.metadata.get groupID topic partition).map OffsetMetadata.offset =
      s.omm.manager.entry groupID topic partition

theorem init_consistent : (init : MetadataSystem T).Consistent where
  sound := newOffsetManager_sound
  stocked _ _ found := nomatch found
  started _ _ found := nomatch found
  agrees _ _ _ _ := rfl

variable {s : MetadataSystem T}

variable {groupID topic : GoString} {partition : Int32} {commit : MetadataCommit}

section

variable (consistent : s.Consistent)
include consistent

theorem consistent_commitOffset {offset : Int64}
    (same : s.omm.manager.entry groupID topic partition = some offset) :
    Consistent { s with omm := s.omm.commitOffset groupID topic partition offset } where
  sound := consistent.sound.commitOffset
  stocked := consistent.stocked
  started t commit found :=
    (entry_recommit consistent.sound same _ _ _).trans (consistent.started t commit found)
  agrees _ _ _ free :=
    (consistent.agrees _ _ _ free).trans (entry_recommit consistent.sound same _ _ _).symm

theorem consistent_start (idle : t ∉ s.pending)
    (alone : ∀ e ∈ s.pending.entries, ¬ e.2.At commit.groupID commit.topic commit.partition) :
    Consistent ⟨s.omm.commitOffset commit.groupID commit.topic commit.partition commit.offset,
      s.pending.insert t commit⟩ where
  sound := consistent.sound.commitOffset
  stocked := consistent.stocked
  started := by
    refine forall_insert ((entry_commitOffset consistent.sound _ _ _).trans (by simp))
      fun u other found => ?_
    refine (entry_commitOffset consistent.sound _ _ _).trans ?_
    rw [if_neg, consistent.started u other found]
    exact alone ⟨u, other⟩ (mem_lookup_iff.mp found)
  agrees groupID topic partition free := by
    have elsewhere : ¬ commit.At groupID topic partition := free t commit (lookup_insert _)
    refine Eq.trans (consistent.agrees groupID topic partition fun u other found =>
      free u other ?_) ?_
    · have differ : u ≠ t := by
        rintro rfl
        exact idle (lookup_isSome.mp (by rw [found]; rfl))
      rw [lookup_insert_ne differ, found]
    · refine Eq.symm ((entry_commitOffset consistent.sound _ _ _).trans (if_neg ?_))
      exact fun same => elsewhere ⟨same.1.symm, same.2.1.symm, same.2.2.symm⟩

theorem consistent_finish (found : s.pending.lookup t = some commit) (now : Int) :
    Consistent
      ⟨s.omm.storeMetadata commit.groupID commit.topic commit.partition commit.offset
        commit.metadata now, s.pending.erase t⟩ where
  sound := consistent.sound
  stocked := consistent.stocked.set
  started u other still := consistent.started u other (lookup_of_erase still)
  agrees groupID topic partition free := by
    simp only [OffsetManagerWithMetadata.storeMetadata, GroupMetadata.get_set]
    split
    · next here =>
        obtain ⟨rfl, rfl, rfl⟩ := here
        exact (consistent.started t commit found).symm
    · next elsewhere =>
        refine consistent.agrees groupID topic partition fun u other pending => ?_
        by_cases here : u = t
        · subst here
          cases found.symm.trans pending
          exact fun same => elsewhere ⟨same.1.symm, same.2.1.symm, same.2.2.symm⟩
        · exact free u other (by rw [lookup_erase_ne here, pending])

theorem consistent_deleteGroup (missing : s.omm.manager.offsets.lookup groupID = none) :
    Consistent { s with omm := s.omm.deleteGroup groupID } := by
  have same : s.omm.deleteGroup groupID = s.omm := by
    rw [OffsetManagerWithMetadata.deleteGroup, deleteGroup, missing]
  rw [same]
  exact consistent

end

section Cleanup

variable {cutoff : Int} {groupID : GoString} {topics : TopicMetadata}

theorem TakesWhole.cases (whole : s.TakesWhole cutoff ⟨groupID, topics⟩)
    (found : s.omm.metadata.lookup groupID = some topics) :
    (∀ topic partition info, s.omm.metadata.get groupID topic partition = some info →
      ¬ info.timestamp < cutoff) ∨
      ((∀ topic partition info, s.omm.metadata.get groupID topic partition = some info →
        info.timestamp < cutoff) ∧
        ∀ t commit, s.pending.lookup t = some commit → commit.groupID ≠ groupID) := by
  have entries {topic partition info}
    (there : s.omm.metadata.get groupID topic partition = some info) :
      ∃ partitions, ⟨topic, partitions⟩ ∈ topics.entries ∧ ⟨partition, info⟩ ∈ partitions.entries := by
    obtain ⟨topics', partitions, group, topic, partition⟩ := GroupMetadata.get_eq_some there
    cases found.symm.trans group
    exact ⟨partitions, mem_lookup_iff.mp topic, mem_lookup_iff.mp partition⟩
  refine whole.imp (fun fresh topic partition info there => ?_) fun old =>
    ⟨fun topic partition info there => ?_, ?_⟩
  · obtain ⟨partitions, inside, entry⟩ := entries there
    exact fresh _ inside _ entry
  · obtain ⟨partitions, inside, entry⟩ := entries there
    exact old.1 _ inside _ entry
  · exact fun t commit pending => old.2 ⟨t, commit⟩ (mem_lookup_iff.mp pending)

/-- A group either stays as it is, or goes whole while nobody is committing to it. -/
theorem cleanup_cases (stocked : s.omm.metadata.Stocked)
    (tidy : ∀ group ∈ s.omm.metadata.entries, s.TakesWhole cutoff group) (groupID : GoString) :
    (groupID ∉ emptiedGroups cutoff s.omm.metadata ∧ ∀ topic partition,
        (cleanGroups cutoff s.omm.metadata).get groupID topic partition =
          s.omm.metadata.get groupID topic partition) ∨
      (groupID ∈ emptiedGroups cutoff s.omm.metadata ∧
        ∀ t commit, s.pending.lookup t = some commit → commit.groupID ≠ groupID) := by
  rw [GroupMetadata.mem_emptiedGroups_iff]
  simp only [GroupMetadata.get_cleanGroups]
  cases found : s.omm.metadata.lookup groupID with
  | none =>
    refine .inl ⟨fun inside => lookup_eq_none.mp found inside.1, fun topic partition => ?_⟩
    rw [GroupMetadata.get, found, Option.bind_none, Option.bind_none]
  | some topics =>
    rcases (tidy ⟨groupID, topics⟩ (mem_lookup_iff.mp found)).cases found with fresh | ⟨old, apart⟩
    · have same : ∀ topic partition, ((s.omm.metadata.get groupID topic partition).bind fun info =>
          if info.timestamp < cutoff then none else some info) = s.omm.metadata.get groupID topic partition := by
        intro topic partition
        cases there : s.omm.metadata.get groupID topic partition with
        | none => rfl
        | some info => rw [Option.bind_some, if_neg (fresh topic partition info there)]
      refine .inl ⟨fun gone => ?_, same⟩
      obtain ⟨topic, partition, there⟩ := stocked groupID topics found
      rw [← same, gone.2] at there
      cases there
    · refine .inr ⟨⟨lookup_isSome.mp (by rw [found]; rfl), fun topic partition => ?_⟩, apart⟩
      cases there : s.omm.metadata.get groupID topic partition with
      | none => rfl
      | some info => rw [Option.bind_some, if_pos (old topic partition info there)]

theorem consistent_cleanup (consistent : s.Consistent) {retention now : Int}
    (tidy : ∀ group ∈ s.omm.metadata.entries, s.TakesWhole (now - retention) group) :
    Consistent { s with omm := (s.omm.cleanupExpiredOffsets retention now).1 } where
  sound := deleteAll_induction (fun om groupID sound => sound.deleteGroup) consistent.sound _
  stocked := GroupMetadata.Stocked.clean _
  started t commit found := by
    refine (entry_deleteAll _ _ _ _ _).trans ?_
    rcases cleanup_cases consistent.stocked tidy commit.groupID with ⟨stays, -⟩ | ⟨-, apart⟩
    · rw [if_neg stays, consistent.started t commit found]
    · exact absurd rfl (apart t commit found)
  agrees groupID topic partition free := by
    have entry := entry_deleteAll s.omm.manager (emptiedGroups (now - retention) s.omm.metadata)
      groupID topic partition
    refine Eq.trans ?_ entry.symm
    rcases cleanup_cases consistent.stocked tidy groupID with ⟨stays, same⟩ | ⟨goes, -⟩
    · rw [if_neg stays]
      exact (congrArg (Option.map _) (same topic partition)).trans
        (consistent.agrees groupID topic partition free)
    · rw [if_pos goes]
      have nothing := (GroupMetadata.mem_emptiedGroups_iff.mp goes).2 topic partition
      exact congrArg (Option.map _) nothing

end Cleanup

theorem consistent_next (consistent : s.Consistent) (tidy : s.Tidy label)
    (stepped : machine.next s label = some after) : after.Consistent := by
  cases label with
  | commitOffset =>
    cases stepped
    exact consistent_commitOffset consistent tidy
  | start t commit =>
    simp only [machine] at stepped
    split at stepped
    · cases stepped
    · next idle =>
        cases stepped
        exact consistent_start consistent idle tidy
  | finish t now =>
    obtain ⟨commit, found, rfl⟩ := Option.map_eq_some_iff.mp stepped
    exact consistent_finish consistent found now
  | deleteGroup =>
    cases stepped
    exact consistent_deleteGroup consistent tidy
  | cleanup retention now =>
    cases stepped
    exact consistent_cleanup consistent tidy

variable {omm : OffsetManagerWithMetadata}

theorem fetchOffsetMetadata_eq_ok :
    omm.fetchOffsetMetadata groupID topic partition = .ok info ↔
      omm.metadata.get groupID topic partition = some info := by
  rw [OffsetManagerWithMetadata.fetchOffsetMetadata, GroupMetadata.get]
  cases omm.metadata.lookup groupID with
  | none => simp
  | some topics =>
    cases found : topics.lookup topic with
    | none => simp [found]
    | some partitions =>
      cases inside : partitions.lookup partition with
      | none => simp [found, inside]
      | some info => simp [found, inside]

theorem agree_iff : Agree omm groupID topic partition ↔
      (omm.metadata.get groupID topic partition).map OffsetMetadata.offset =
        omm.manager.entry groupID topic partition := by
  have both : Agree omm groupID topic partition ↔ (_ ↔ _) ∧ ∀ _, _ :=
    ⟨fun agree => ⟨agree.found, agree.equal⟩, fun both => ⟨both.1, both.2⟩⟩
  simp only [both, fetchOffsetMetadata_eq_ok]
  cases entry : omm.manager.entry groupID topic partition with
  | none =>
    obtain ⟨err, missing⟩ := fetchOffset_of_none entry
    cases omm.metadata.get groupID topic partition <;> simp [missing]
  | some offset =>
    cases omm.metadata.get groupID topic partition <;> simp [fetchOffset_of_some entry, eq_comm]

/-- In a tidy run the two agree on every partition whenever no call is in progress. -/
theorem metadata_agrees_of_tidy {labels : List (Label T)} {s : MetadataSystem T}
    (ran : (machine.restrict Tidy).run init labels = some s) (idle : s.Idle)
    (groupID topic : GoString) (partition : Int32) : Agree s.omm groupID topic partition := by
  have consistent : s.Consistent := by
    refine Machine.run_invariant _ (fun s label after consistent stepped => ?_) init_consistent ran
    obtain ⟨tidy, stepped⟩ := Machine.restrict_next _ |>.mp stepped
    exact consistent_next consistent tidy stepped
  refine agree_iff.mpr (consistent.agrees groupID topic partition fun t commit found => ?_)
  have inside : t ∈ s.pending.keys := mem_keys.mp (lookup_isSome.mp (by rw [found]; rfl))
  rw [show s.pending.keys = [] from idle] at inside
  cases inside

section Runs

/-- A commit to a partition of topic t of group g. -/
def commitTo (partition : Int32) (offset : Int64) : MetadataCommit :=
  ⟨[0x67], [0x74], partition, offset, []⟩

/-- Two commits to different partitions overlap, and a cleanup takes neither. -/
def overlapping : List (Label Bool) :=
  [.start false (commitTo 0 5), .start true (commitTo 1 6), .finish true 10, .finish false 11,
    .cleanup 5 12]

theorem metadata_agrees_of_tidy_overlapping :
    ∃ s, (machine.restrict Tidy).run init overlapping = some s ∧ s.Idle ∧
      s.omm.manager.fetchOffset [0x67] [0x74] 0 = (5, none) ∧ Agree s.omm [0x67] [0x74] 0 := by
  refine exists_of_view (fun s => (s.pending.keys, s.omm.manager.fetchOffset [0x67] [0x74] 0))
    ([], (5, none))
    (by decide +kernel) fun s ran found => ?_
  obtain ⟨idle, fetched⟩ := Prod.mk.inj found
  exact ⟨idle, fetched, metadata_agrees_of_tidy ran idle _ _ _⟩

/-- The run ends with no call in progress and with the two in disagreement about partition 0. -/
def EndsApart (labels : List (Label Bool)) : Prop :=
  ∃ s, machine.run init labels = some s ∧ s.Idle ∧ ¬ Agree s.omm [0x67] [0x74] 0

theorem endsApart_of_decide (view : (machine.run init labels).map (fun s => (s.pending.keys,
      decide ((s.omm.metadata.get [0x67] [0x74] 0).map OffsetMetadata.offset =
        s.omm.manager.entry [0x67] [0x74] 0))) = some ([], false)) : EndsApart labels := by
  obtain ⟨s, ran, found⟩ := Option.map_eq_some_iff.mp view
  obtain ⟨idle, differ⟩ := Prod.mk.inj found
  exact ⟨s, ran, idle, fun agree => of_decide_eq_false differ (agree_iff.mp agree)⟩

/-- A plain commit, a deleted group, two commits to one partition that cross, and a cleanup that
    takes one of two partitions. -/
theorem not_metadata_agrees :
    EndsApart [.commitOffset [0x67] [0x74] 0 5] ∧
      EndsApart [.start false (commitTo 0 5), .finish false 10, .deleteGroup [0x67]] ∧
      EndsApart
      [.start false (commitTo 0 5), .start true (commitTo 0 6), .finish true 10, .finish false 11] ∧
      EndsApart
      [.start false (commitTo 0 5), .finish false 10, .start true (commitTo 1 6), .finish true 20,
        .cleanup 5 20] :=
  ⟨endsApart_of_decide (by decide +kernel), endsApart_of_decide (by decide +kernel),
    endsApart_of_decide (by decide +kernel), endsApart_of_decide (by decide +kernel)⟩

end Runs

end MetadataSystem

end Portask.Kafka
