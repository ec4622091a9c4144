import Portask.Kafka.OffsetManager
import Portask.Lib.Assoc

/-! # The offset manager is one finite map

Three levels of maps that are made when they are needed behave as one map from group, topic
and partition to an offset, and none of the manager's own maps is ever in a caller's hands:
what `FetchAllOffsets` returns is made for the caller.
-/

namespace Portask.Kafka

open Lib Store

namespace OffsetManager

theorem lookup_copyPartitions (partitions : PartitionMap) (partition : Int32) :
    (copyPartitions partitions).lookup partition = partitions.lookup partition := by
  rw [copyPartitions, AList.lookup.eq_def partition partitions]
  induction partitions.entries with
  | nil => rfl
  | cons e rest ih =>
    rw [List.foldr_cons]
    by_cases here : partition = e.1
    · subst here
      rw [AList.lookup_insert, List.dlookup_cons_eq]
    · rw [AList.lookup_insert_ne here, List.dlookup_cons_ne rest e here, ih]

/-- What a map of topics shows of its contents. -/
def contents (topics : TopicMap) (store : Store PartitionMap) (topic : GoString)
    (partition : Int32) : Option Int64 :=
  (topics.lookup topic).bind fun b => (store.read b).bind (·.lookup partition)

/-- The maps of `copied` are new ones with the contents of the old. -/
structure Copied (store : Store PartitionMap) (topics : List (Σ _ : GoString, Nat))
    (copied : Store PartitionMap × TopicMap) : Prop where
  grows : store.size ≤ copied.1.size
  same : ∀ b < store.size, copied.1.read b = store.read b
  fresh : ∀ topic b, copied.2.lookup topic = some b → store.size ≤ b ∧ b < copied.1.size
  keys : ∀ topic, (copied.2.lookup topic).isSome = (topics.dlookup topic).isSome
  equal : ∀ topic partition, contents copied.2 copied.1 topic partition =
    (topics.dlookup topic).bind fun b => (store.read b).bind (·.lookup partition)

variable {topics : List (Σ _ : GoString, Nat)} {store : Store PartitionMap}

theorem Copied.cons (done : Copied store topics copied) (inside : e.2 < store.size) :
    Copied store (e :: topics) (copyTopic e copied) := by
  obtain ⟨partitions, read⟩ := exists_read inside
  have source : copied.1.read e.2 = some partitions := (done.same _ inside).trans read
  have result : copyTopic e copied =
      ((copied.1.alloc (copyPartitions partitions)).1, copied.2.insert e.1 copied.1.size) := by
    rw [copyTopic, source]
    rfl
  rw [result]
  constructor
  case grows =>
    rw [size_alloc]
    exact Nat.le_succ_of_le done.grows
  case same =>
    intro b old
    rw [read_alloc (Nat.lt_of_lt_of_le old done.grows), done.same b old]
  case fresh =>
    rw [size_alloc]
    refine forall_insert ⟨done.grows, Nat.lt_succ_self _⟩ fun topic b found => ?_
    exact ⟨(done.fresh topic b found).1, Nat.lt_succ_of_lt (done.fresh topic b found).2⟩
  case keys =>
    intro topic
    by_cases here : topic = e.1
    · subst here
      rw [AList.lookup_insert, List.dlookup_cons_eq]
      rfl
    · rw [AList.lookup_insert_ne here, List.dlookup_cons_ne topics e here, done.keys]
  case equal =>
    intro topic partition
    by_cases here : topic = e.1
    · subst here
      rw [contents, AList.lookup_insert, List.dlookup_cons_eq]
      simp [read, lookup_copyPartitions]
    · rw [List.dlookup_cons_ne topics e here, ← done.equal, contents, contents,
        AList.lookup_insert_ne here]
      cases found : copied.2.lookup topic with
      | none => rfl
      | some b => simp [read_alloc (done.fresh topic b found).2]

theorem copied_foldr
    (inside : ∀ e ∈ topics, e.2 < store.size) :
    Copied store topics (topics.foldr copyTopic (store, ∅)) := by
  induction topics with
  | nil => exact ⟨Nat.le_refl _, fun _ _ => rfl, fun _ _ found => (nomatch found), fun _ => rfl, fun _ _ => rfl⟩
  | cons e rest ih =>
    exact (ih fun e later => inside e (List.mem_cons_of_mem _ later)).cons
      (inside e List.mem_cons_self)

variable {om : OffsetManager} {groupID : GoString} {a : Nat}

/-- The manager's own maps are as they were. -/
structure Untouched (om after : OffsetManager) : Prop where
  offsets : after.offsets = om.offsets
  topics : ∀ {groupID a}, om.offsets.lookup groupID = some a →
    after.topics.read a = om.topics.read a
  partitions : ∀ {groupID topic b}, om.topicMap groupID topic = some b →
    after.partitions.read b = om.partitions.read b

theorem Untouched.refl (om : OffsetManager) : om.Untouched om := ⟨rfl, fun _ => rfl, fun _ => rfl⟩

variable {after : OffsetManager}

section

variable (untouched : om.Untouched after)
include untouched

theorem Untouched.topicMap (groupID topic : GoString) :
    after.topicMap groupID topic = om.topicMap groupID topic := by
  rw [OffsetManager.topicMap, OffsetManager.topicMap, untouched.offsets]
  cases found : om.offsets.lookup groupID with
  | none => rfl
  | some a => simp [untouched.topics found]

theorem Untouched.entry (groupID topic : GoString) (partition : Int32) :
    after.entry groupID topic partition = om.entry groupID topic partition := by
  rw [OffsetManager.entry, OffsetManager.entry, untouched.topicMap]
  cases found : om.topicMap groupID topic with
  | none => rfl
  | some b => simp [untouched.partitions found]

theorem Untouched.filled (filled : om.Filled) : after.Filled where
  group there := by
    rw [untouched.offsets] at there
    simpa only [untouched.topicMap] using filled.group there
  topic there := by
    rw [untouched.topicMap] at there
    simpa only [untouched.entry] using filled.topic there

theorem Untouched.sound
    (groups : Owned (fun groupID => om.offsets.lookup groupID) after.topics.size after.handedTopics)
    (topics : Owned (fun k : GoString × GoString => om.topicMap k.1 k.2) after.partitions.size
      after.handedPartitions) : after.Sound := by
  refine ⟨?_, ?_⟩
  · rw [untouched.offsets]
    exact groups
  · simpa only [untouched.topicMap] using topics

end

/-- The copy that `FetchAllOffsets` makes of the map at an address. -/
def copyAt (om : OffsetManager) (a : Nat) : Store PartitionMap × TopicMap :=
  ((om.topics.read a).getD ∅).entries.foldr copyTopic (om.partitions, ∅)

theorem fetchAllOffsets_of_some (found : om.offsets.lookup groupID = some a) :
    om.fetchAllOffsets groupID =
      ({ om with
          topics := (om.topics.alloc (om.copyAt a).2).1
          partitions := (om.copyAt a).1
          handedTopics := om.topics.size :: om.handedTopics
          handedPartitions := (om.copyAt a).2.entries.map Sigma.snd ++ om.handedPartitions },
        .ok om.topics.size) := by
  rw [fetchAllOffsets, found]
  rfl

variable (sound : om.Sound)
include sound

theorem copied_copyAt (found : om.offsets.lookup groupID = some a) :
    Copied om.partitions ((om.topics.read a).getD ∅).entries (om.copyAt a) := by
  obtain ⟨topics, read⟩ := exists_read (sound.groups.below found)
  rw [copyAt, read]
  refine copied_foldr fun e inside => sound.topics.below (k := (groupID, e.1)) ?_
  have there : topics.lookup e.1 = some e.2 := AList.mem_lookup_iff.mpr inside
  simp [topicMap, found, read, there]

theorem untouched_fetchAll : om.Untouched (om.fetchAllOffsets groupID).1 := by
  cases found : om.offsets.lookup groupID with
  | none =>
    rw [fetchAllOffsets, found]
    exact .refl om
  | some a =>
    rw [fetchAllOffsets_of_some found]
    refine ⟨rfl, fun there => read_alloc (sound.groups.below there),
      fun {group' topic' b} there => ?_⟩
    exact (copied_copyAt sound found).same b (sound.topics.below (k := (group', topic')) there)

theorem spares_fetchAll : om.Spares (om.fetchAllOffsets groupID).1 := by
  cases found : om.offsets.lookup groupID with
  | none =>
    rw [fetchAllOffsets, found]
    exact .refl om
  | some a =>
    rw [fetchAllOffsets_of_some found]
    refine ⟨fun other out => ⟨List.mem_cons_of_mem _ out, read_alloc (sound.groups.made out)⟩,
      fun b out =>
        ⟨List.mem_append_right _ out, (copied_copyAt sound found).same b (sound.topics.made out)⟩⟩

theorem Sound.fetchAll : (om.fetchAllOffsets groupID).1.Sound := by
  have untouched : om.Untouched (om.fetchAllOffsets groupID).1 := untouched_fetchAll sound
  cases found : om.offsets.lookup groupID with
  | none =>
    rw [fetchAllOffsets, found]
    exact sound
  | some a =>
    have copied := copied_copyAt sound found
    rw [fetchAllOffsets_of_some found] at untouched ⊢
    refine untouched.sound ?_ ?_
    · rw [size_alloc]
      exact sound.groups.handOutOne
    · refine sound.topics.handOut copied.grows fun b new => ?_
      obtain ⟨e, inside, rfl⟩ := List.mem_map.mp new
      exact copied.fresh e.1 e.2 (AList.mem_lookup_iff.mpr inside)

/-- The map that is returned has a topic for each topic of the group, and the same offsets. -/
theorem contents_fetchAll (found : om.offsets.lookup groupID = some a) :
    ∃ result, (om.fetchAllOffsets groupID).1.topics.read om.topics.size = some result ∧
      (∀ topic, (result.lookup topic).isSome = (om.topicMap groupID topic).isSome) ∧
      ∀ topic partition, contents result (om.fetchAllOffsets groupID).1.partitions topic partition =
        om.entry groupID topic partition := by
  obtain ⟨topics, read⟩ := exists_read (sound.groups.below found)
  have copied := copied_copyAt sound found
  rw [read] at copied
  rw [fetchAllOffsets_of_some found]
  refine ⟨(om.copyAt a).2, read_alloc_self, fun topic => ?_, fun topic partition => ?_⟩
  · rw [copied.keys, topicMap, found, Option.bind_some, read]
    rfl
  · rw [copied.equal, entry, topicMap, found, Option.bind_some, read]
    rfl

theorem untouched_writeTopics (topics : TopicMap) : om.Untouched (om.writeTopics a topics) := by
  rw [writeTopics]
  split
  · next out =>
      refine ⟨rfl, fun there => read_modify_ne fun same => ?_, fun _ => rfl⟩
      exact sound.groups.kept there (same ▸ out.1)
  · exact .refl om

theorem untouched_writePartitions (b : Nat) (partitions : PartitionMap) :
    om.Untouched (om.writePartitions b partitions) := by
  rw [writePartitions]
  split
  · next out =>
      refine ⟨rfl, fun _ => rfl, fun {group' topic' other} there => read_modify_ne fun same => ?_⟩
      exact sound.topics.kept (k := (group', topic')) there (same ▸ out)
  · exact .refl om

theorem untouched_makePartitions (partitions : PartitionMap) :
    om.Untouched (om.makePartitions partitions) :=
  ⟨rfl, fun _ => rfl, fun {group' topic' _} there =>
    read_alloc (sound.topics.below (k := (group', topic')) there)⟩

theorem Sound.writeTopics (topics : TopicMap) : (om.writeTopics a topics).Sound := by
  refine (untouched_writeTopics sound topics).sound ?_ ?_
  all_goals
    rw [OffsetManager.writeTopics]
    split
  · simpa using sound.groups
  · exact sound.groups
  · exact sound.topics
  · exact sound.topics

theorem Sound.writePartitions (b : Nat) (partitions : PartitionMap) :
    (om.writePartitions b partitions).Sound := by
  refine (untouched_writePartitions sound b partitions).sound ?_ ?_
  all_goals
    rw [OffsetManager.writePartitions]
    split
  · exact sound.groups
  · exact sound.groups
  · simpa using sound.topics
  · exact sound.topics

theorem Sound.makePartitions (partitions : PartitionMap) :
    (om.makePartitions partitions).Sound := by
  refine (untouched_makePartitions sound partitions).sound sound.groups ?_
  rw [OffsetManager.makePartitions, size_alloc]
  exact sound.topics.handOutOne

end OffsetManager

abbrev Offsets := GoString → GoString → Int32 → Option Int64

namespace Offsets

variable (flat : Offsets)

def HasTopic (groupID topic : GoString) : Prop := ∃ partition, (flat groupID topic partition).isSome

def HasGroup (groupID : GoString) : Prop := ∃ topic, flat.HasTopic groupID topic

/-- What a call does to the flat map; callers cannot do anything to it. -/
def after : OffsetCall → Offsets
  | .commit groupID topic partition offset => fun group' topic' partition' =>
    if group' = groupID ∧ topic' = topic ∧ partition' = partition then some offset
    else flat group' topic' partition'
  | .deleteGroup groupID => fun group' topic' partition' =>
    if group' = groupID then none else flat group' topic' partition'
  | _ => flat

/-- The answers that the flat map allows; `om` is the manager after the call. -/
def Answers (om : OffsetManager) : OffsetCall → OffsetAnswer → Prop
  | .commit .., .committed err => err = none
  | .fetch groupID topic partition, .fetched offset err =>
    (err = none ↔ (flat groupID topic partition).isSome) ∧
      offset = (flat groupID topic partition).getD (-1)
  | .fetchAll groupID, .all (.ok r) =>
    flat.HasGroup groupID ∧ r ∈ om.handedTopics ∧ ∃ result, om.topics.read r = some result ∧
      (∀ topic, topic ∈ result ↔ flat.HasTopic groupID topic) ∧
      ∀ topic partition, OffsetManager.contents result om.partitions topic partition =
        flat groupID topic partition
  | .deleteGroup groupID, .deleted err => err = none ↔ flat.HasGroup groupID
  | .listGroups _, .groups groupIDs =>
    groupIDs.Nodup ∧ ∀ groupID, groupID ∈ groupIDs ↔ flat.HasGroup groupID
  | .groupTopics groupID _, .topics (.ok topics) =>
    flat.HasGroup groupID ∧ topics.Nodup ∧ ∀ topic, topic ∈ topics ↔ flat.HasTopic groupID topic
  | .fetchAll groupID, .all (.error _) | .groupTopics groupID _, .topics (.error _) =>
    ¬ flat.HasGroup groupID
  | .writeTopics .., .written | .writePartitions .., .written | .makePartitions .., .written => True
  | _, _ => False

end Offsets

def OffsetCall.IsOperation : OffsetCall → Prop
  | .writeTopics .. | .writePartitions .. | .makePartitions .. => False
  | _ => True

/-- The manager, with the flat map beside it. -/
def specified : Object (OffsetManager × Offsets) OffsetCall OffsetAnswer :=
  offsetSystem.tracking fun _ call flat => flat.after call

/-- The answer is the flat map's, an operation changes no map that has been handed out, and no
    map of the manager is one that has been handed out. -/
structure Refines (s : OffsetManager × Offsets) (call : OffsetCall) : Prop where
  answers : s.2.Answers (offsetSystem.apply s.1 call).1 call (offsetSystem.apply s.1 call).2
  spares : call.IsOperation → s.1.Spares (offsetSystem.apply s.1 call).1
  groups : ∀ groupID a, (offsetSystem.apply s.1 call).1.offsets.lookup groupID = some a →
    a ∉ (offsetSystem.apply s.1 call).1.handedTopics
  topics : ∀ groupID topic b, (offsetSystem.apply s.1 call).1.topicMap groupID topic = some b →
    b ∉ (offsetSystem.apply s.1 call).1.handedPartitions

structure Represents (om : OffsetManager) (flat : Offsets) : Prop where
  sound : om.Sound
  filled : om.Filled
  entry : ∀ groupID topic partition, om.entry groupID topic partition = flat groupID topic partition

theorem range_perm (order keys : List GoString) : (OffsetManager.range order keys).Perm keys := by
  rw [OffsetManager.range]
  split
  · assumption
  · exact .refl keys

namespace Represents

variable {om : OffsetManager} {flat : Offsets} {groupID topic : GoString}

variable (represents : Represents om flat)
include represents

theorem topicMap_isSome : (om.topicMap groupID topic).isSome ↔ flat.HasTopic groupID topic := by
  simp only [Offsets.HasTopic, ← represents.entry]
  constructor
  · exact represents.filled.topic
  · rintro ⟨partition, found⟩
    exact (OffsetManager.entry_isSome_lookup found).1

theorem lookup_isSome : (om.offsets.lookup groupID).isSome ↔ flat.HasGroup groupID := by
  simp only [Offsets.HasGroup, ← represents.topicMap_isSome]
  constructor
  · exact represents.filled.group
  · rintro ⟨topic, inside⟩
    obtain ⟨partition, found⟩ := represents.filled.topic inside
    exact (OffsetManager.entry_isSome_lookup found).2

theorem not_hasGroup (none : om.offsets.lookup groupID = none) : ¬ flat.HasGroup groupID := by
  rw [← represents.lookup_isSome, none]
  exact Bool.false_ne_true

theorem hasGroup (found : om.offsets.lookup groupID = some a) : flat.HasGroup groupID := by
  rw [← represents.lookup_isSome, found]
  rfl

theorem untouched (sound : after.Sound) (untouched : om.Untouched after) : Represents after flat :=
  ⟨sound, untouched.filled represents.filled, fun _ _ _ =>
    (untouched.entry _ _ _).trans (represents.entry _ _ _)⟩

theorem apply (call : OffsetCall) :
    Represents (offsetSystem.apply om call).1 (flat.after call) := by
  have sound := represents.sound
  cases call with
  | commit =>
    refine ⟨sound.commitOffset, represents.filled.commitOffset sound,
      fun group' topic' partition' => ?_⟩
    exact (OffsetManager.entry_commitOffset sound group' topic' partition').trans
      (by rw [represents.entry]; rfl)
  | deleteGroup =>
    refine ⟨sound.deleteGroup, represents.filled.deleteGroup, fun group' topic' partition' => ?_⟩
    exact (OffsetManager.entry_deleteGroup group' topic' partition').trans
      (by rw [represents.entry]; rfl)
  | fetchAll => exact represents.untouched sound.fetchAll (OffsetManager.untouched_fetchAll sound)
  | writeTopics _ topics =>
    exact represents.untouched (sound.writeTopics topics)
      (OffsetManager.untouched_writeTopics sound topics)
  | writePartitions b partitions =>
    exact represents.untouched (sound.writePartitions b partitions)
      (OffsetManager.untouched_writePartitions sound b partitions)
  | makePartitions partitions =>
    exact represents.untouched (sound.makePartitions partitions)
      (OffsetManager.untouched_makePartitions sound partitions)
  | fetch | listGroups | groupTopics => exact represents

theorem answers (call : OffsetCall) :
    flat.Answers (offsetSystem.apply om call).1 call (offsetSystem.apply om call).2 := by
  cases call with
  | commit => rfl
  | fetch groupID topic partition =>
    simp only [offsetSystem, Offsets.Answers, ← represents.entry]
    cases found : om.entry groupID topic partition with
    | some offset => simp [OffsetManager.fetchOffset_of_some found]
    | none =>
      obtain ⟨err, result⟩ := OffsetManager.fetchOffset_of_none found
      simp [result]
  | fetchAll groupID =>
    simp only [offsetSystem]
    cases found : om.offsets.lookup groupID with
    | none =>
      rw [OffsetManager.fetchAllOffsets, found]
      exact represents.not_hasGroup found
    | some a =>
      obtain ⟨result, read, topics, equal⟩ := OffsetManager.contents_fetchAll represents.sound found
      rw [OffsetManager.fetchAllOffsets_of_some found] at read equal ⊢
      refine ⟨represents.hasGroup found, List.mem_cons_self, result, read, fun topic => ?_,
        fun topic partition => ?_⟩
      · rw [← AList.lookup_isSome, topics, represents.topicMap_isSome]
      · rw [equal, represents.entry]
  | deleteGroup groupID =>
    simp only [offsetSystem, OffsetManager.deleteGroup]
    cases found : om.offsets.lookup groupID with
    | none => simp [Offsets.Answers, represents.not_hasGroup found]
    | some a => simp [Offsets.Answers, represents.hasGroup found]
  | listGroups order =>
    have same : (om.listGroups order).Perm om.offsets.keys := range_perm order _
    refine ⟨same.nodup_iff.mpr om.offsets.keys_nodup, fun groupID => ?_⟩
    rw [same.mem_iff, ← AList.mem_keys, ← AList.lookup_isSome, represents.lookup_isSome]
  | groupTopics groupID order =>
    simp only [offsetSystem, OffsetManager.getGroupTopics]
    cases found : om.offsets.lookup groupID with
    | none => exact represents.not_hasGroup found
    | some a =>
      obtain ⟨topics, read⟩ := exists_read (represents.sound.groups.below found)
      have same : (OffsetManager.range order topics.keys).Perm topics.keys := range_perm order _
      simp only [read, Option.getD_some]
      refine ⟨represents.hasGroup found, same.nodup_iff.mpr topics.keys_nodup, fun topic => ?_⟩
      rw [same.mem_iff, ← AList.mem_keys, ← AList.lookup_isSome, ← represents.topicMap_isSome,
        OffsetManager.topicMap, found, Option.bind_some, read, Option.bind_some]
  | writeTopics | writePartitions | makePartitions => trivial

theorem spares (operation : call.IsOperation) : om.Spares (offsetSystem.apply om call).1 := by
  cases call with
  | commit _ _ partition offset =>
    exact OffsetManager.spares_commitOffset represents.sound partition offset
  | fetchAll => exact OffsetManager.spares_fetchAll represents.sound
  | deleteGroup =>
    change om.Spares (om.deleteGroup _).1
    rw [OffsetManager.deleteGroup_fst]
    exact ⟨fun _ out => ⟨out, rfl⟩, fun _ out => ⟨out, rfl⟩⟩
  | fetch | listGroups | groupTopics => exact .refl om
  | writeTopics | writePartitions | makePartitions => exact operation.elim

end Represents

/-- In every run the manager answers as the flat map does and shares no map with its callers. -/
theorem offsetManager_refines (calls : List OffsetCall) :
    specified.Along Refines (newOffsetManager, fun _ _ _ => none) calls := by
  refine Object.along_of_invariant
    (P := fun s => Represents s.1 s.2) (fun s call represents _ => ?_) ?_
    (Object.along_true _ calls)
  · have next := represents.apply call
    refine ⟨⟨represents.answers call, represents.spares, ?_, ?_⟩, next⟩
    · exact fun groupID a found => next.sound.groups.kept found
    · exact fun groupID topic b found => next.sound.topics.kept (k := (groupID, topic)) found
  · exact ⟨OffsetManager.newOffsetManager_sound, OffsetManager.newOffsetManager_filled,
      fun _ _ _ => rfl⟩

end Portask.Kafka
