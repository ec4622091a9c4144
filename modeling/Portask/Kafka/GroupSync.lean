import Portask.Kafka.GroupCoordinator
import Portask.Lib.Assoc

/-! # What a member gets from `SyncGroup`

It is to be what the leader has assigned to it in this generation. The coordinator keeps
assignments in the field of the members' subscription metadata, so a member that asks
before the leader has supplied anything, or that the leader has left out, is answered with
the bytes it has joined with. A record of the leader's calls says what was supplied.
-/

namespace Portask.Kafka

open Lib Portask.Types GroupCoordinator

/-- A `SyncGroup` in which the leader has supplied assignments. -/
structure Supply where
  groupID : GoString
  leader : GoString
  generation : Int32
  assignments : Assignments

def supplyOf (gc : GroupCoordinator) : GroupCall → Option Supply
  | .sync groupID memberID generationID assignments now =>
    match gc.groups.lookup groupID,
      (gc.syncGroup groupID memberID generationID assignments now).2 with
    | some group, .ok _ =>
      if group.Supplies memberID assignments then
        some ⟨groupID, memberID, generationID, assignments⟩ else none
    | _, _ => none
  | _ => none

/-- The coordinator with the record of what has been supplied. -/
def supplied : Object (GroupCoordinator × List Supply) GroupCall GroupAnswer :=
  coordinator.recording supplyOf

/-- What the leader has supplied last in a generation. -/
def latest (record : List Supply) (groupID leader : GoString) (generation : Int32) :
    Option Assignments :=
  (record.find? fun s => s.groupID = groupID ∧ s.leader = leader ∧ s.generation = generation).map
    Supply.assignments

/-- What the group's current leader has supplied last in a generation. -/
def assignedBy (s : GroupCoordinator × List Supply) (groupID : GoString) (generation : Int32) :
    Option Assignments :=
  (s.1.groups.lookup groupID).bind fun group => latest s.2 groupID group.leader generation

/-- The bytes are what was assigned, and empty if nothing was. -/
def IsAssigned (bytes : Bytes) : Option Bytes → Prop
  | some assignment => bytes = assignment
  | none => bytes.getD [] = []

instance (bytes : Bytes) : (given : Option Bytes) → Decidable (IsAssigned bytes given)
  | some _ => inferInstanceAs (Decidable (_ = _))
  | none => inferInstanceAs (Decidable (_ = _))

/-- If this is a `SyncGroup` that succeeds, then it returns what the current leader has
    supplied for the member in this generation. -/
def Delivers (s : GroupCoordinator × List Supply) (call : GroupCall) : Prop :=
  ∀ groupID memberID generationID assignments now bytes,
    call = .sync groupID memberID generationID assignments now →
    (s.1.syncGroup groupID memberID generationID assignments now).2 = .ok bytes →
    ∃ given ∈ assignedBy (supplied.apply s call).1 groupID generationID,
      IsAssigned bytes (given.lookup memberID)

/-- A `SyncGroup` finds the group stable unless it is the leader's with assignments, and
    these omit no member that has any bytes. -/
def ConsumerGroup.LeaderFirst (group : ConsumerGroup) : GroupCall → Prop
  | .sync _ memberID generationID assignments _ =>
    group.generation = generationID → memberID ∈ group.members →
      (group.Supplies memberID assignments ∨ group.state = .stable) ∧
        (group.Supplies memberID assignments →
          ∀ e ∈ group.members.entries, e.1 ∈ assignments ∨ e.2.metadata.getD [] = [])
  | _ => True

open ConsumerGroup

instance (group : ConsumerGroup) : (call : GroupCall) → Decidable (group.LeaderFirst call)
  | .sync .. => inferInstanceAs (Decidable (_ → _ → _ ∧ _))
  | .join .. | .heartbeat .. | .leave .. | .check .. => .isTrue trivial

def LeaderFirst (s : GroupCoordinator × List Supply) (call : GroupCall) : Prop :=
  ∀ group ∈ s.1.groups.lookup call.groupID, group.LeaderFirst call

instance (s : GroupCoordinator × List Supply) (call : GroupCall) : Decidable (LeaderFirst s call) :=
  inferInstanceAs (Decidable (∀ group ∈ _, _))

/-- The members of a stable group hold what its leader has supplied last. -/
def Holds (record : List Supply) (id : GoString) (group : ConsumerGroup) : Prop :=
  group.state = .stable → ∃ given, latest record id group.leader group.generation = some given ∧
    ∀ memberID member, group.members.lookup memberID = some member →
      IsAssigned member.metadata (given.lookup memberID)

def Kept (s : GroupCoordinator × List Supply) : Prop :=
  ∀ id group, s.1.groups.lookup id = some group → Holds s.2 id group

section

variable {gc : GroupCoordinator} {record : List Supply} {group : ConsumerGroup} {id : GoString}
  {call : GroupCall}
  {assignments : Assignments}

theorem supplyOf_groupID (event : supplyOf gc call = some supply) :
    supply.groupID = call.groupID := by
  cases call with
  | sync groupID memberID generationID assignments now =>
    rw [supplyOf] at event
    split at event
    · split at event
      · cases event
        rfl
      · cases event
    · cases event
  | join | heartbeat | leave | check => cases event

/-- A supply to one group is nothing to the others. -/
theorem latest_of_ne (other : id ≠ call.groupID) (leader : GoString) (generation : Int32) :
    latest ((supplyOf gc call).toList ++ record) id leader generation =
      latest record id leader generation := by
  cases event : supplyOf gc call with
  | none => rfl
  | some supply =>
    have elsewhere : supply.groupID ≠ id := supplyOf_groupID event ▸ other.symm
    simp [latest, elsewhere]

theorem holds_of_unstable (unstable : group.state ≠ .stable) : Holds record id group :=
  fun stable => absurd stable unstable

theorem ConsumerGroup.shrink_unstable (leaderGone : Bool) (choice : GoString) :
    (group.shrink leaderGone choice).state ≠ .stable := by
  rw [shrink]
  split <;> simp

/-- What a member that the leader has left out holds is empty, so all members hold what was
    supplied. -/
theorem isAssigned_assignAll
    (covers : ∀ e ∈ group.members.entries, e.1 ∈ assignments ∨ e.2.metadata.getD [] = [])
    (found : (assignments.foldl assign group.members).lookup memberID = some member) :
    IsAssigned member.metadata (assignments.lookup memberID) := by
  rw [lookup_assignAll] at found
  obtain ⟨before, there, rfl⟩ := Option.map_eq_some_iff.mp found
  cases given : assignments.lookup memberID with
  | some assignment => rfl
  | none =>
    rcases covers ⟨memberID, before⟩ (AList.mem_lookup_iff.mp there) with covered | empty
    · rw [← AList.lookup_isSome, given] at covered
      cases covered
    · exact empty

theorem sync_holds (found : gc.groups.lookup id = some group)
    (holds : Holds record id group)
    (first : group.LeaderFirst (.sync id memberID generationID assignments now)) :
    Holds ((supplyOf gc (.sync id memberID generationID assignments now)).toList ++ record) id
      (group.sync memberID generationID assignments now).1 := by
  obtain ⟨err, result⟩ | ⟨current, member, inside, ⟨supplies, result⟩ | ⟨asks, result⟩⟩ :=
    group.sync_cases memberID generationID assignments now
  · simpa [supplyOf, syncGroup, found, result] using holds
  · rw [result]
    intro _
    have covers := (first current (AList.lookup_isSome.mp (by rw [inside]; rfl))).2 supplies
    have event : supplyOf gc (.sync id memberID generationID assignments now) =
        some ⟨id, memberID, generationID, assignments⟩ := by
      simp [supplyOf, syncGroup, found, result, supplies]
    refine ⟨assignments, ?_, fun memberID member there => isAssigned_assignAll covers there⟩
    rw [event]
    simp [latest, supplies.1, current]
  · simpa [supplyOf, syncGroup, found, result, asks] using holds

theorem heartbeat_holds (holds : Holds record id group) (memberID : GoString)
    (generationID : Int32) (now : Int) :
    Holds record id (group.heartbeat memberID generationID now).1 := by
  obtain ⟨err, result⟩ | ⟨-, member, inside, result⟩ :=
    group.heartbeat_cases memberID generationID now
  · exact result ▸ holds
  · rw [result]
    intro stable
    obtain ⟨given, supplied, assigned⟩ := holds stable
    exact ⟨given, supplied, Lib.forall_insert (assigned memberID member inside) assigned⟩

theorem act_holds (found : gc.groups.lookup call.groupID = some group)
    (holds : Holds record call.groupID group) (first : group.LeaderFirst call) :
    Holds ((supplyOf gc call).toList ++ record) call.groupID (group.act call) := by
  cases call with
  | join _ request now nanos => exact holds_of_unstable (by simp [act, join])
  | sync groupID memberID generationID assignments now => exact sync_holds found holds first
  | heartbeat _ memberID generationID now => exact heartbeat_holds holds memberID generationID now
  | leave _ memberID choice => exact holds_of_unstable (shrink_unstable _ choice)
  | check _ now choice =>
    rw [act, check]
    split
    · exact holds
    · exact holds_of_unstable (shrink_unstable _ choice)

theorem kept_apply (kept : Kept s) (first : LeaderFirst s call) :
    Kept (supplied.apply s call).1 := by
  intro id after found
  obtain ⟨rfl, group, there, rfl⟩ | ⟨request, now, nanos, -, rfl⟩ | ⟨other, there⟩ :=
    apply_cases found
  · exact act_holds there (kept _ group there) (first group there)
  · exact holds_of_unstable (by simp [join])
  · intro stable
    obtain ⟨given, supplied, assigned⟩ := kept id after there stable
    exact ⟨given, (latest_of_ne other _ _).trans supplied, assigned⟩

end

/-- A `SyncGroup` that succeeds answers with what the member then holds. -/
theorem ConsumerGroup.sync_ok {group : ConsumerGroup}
    {memberID generationID assignments now bytes id}
    (success : (group.sync memberID generationID assignments now).2 = .ok bytes)
    (first : group.LeaderFirst (.sync id memberID generationID assignments now)) :
    (group.sync memberID generationID assignments now).1.state = .stable ∧
      (group.sync memberID generationID assignments now).1.generation = generationID ∧
      ∃ member, (group.sync memberID generationID assignments now).1.members.lookup memberID =
        some member ∧ member.metadata = bytes := by
  obtain ⟨err, result⟩ | ⟨current, member, inside, ⟨supplies, result⟩ | ⟨asks, result⟩⟩ :=
    group.sync_cases memberID generationID assignments now
  · rw [result] at success
    cases success
  · rw [result] at success ⊢
    cases success
    exact ⟨rfl, current, _, by rw [lookup_assignAll, inside]; rfl, rfl⟩
  · rw [result] at success ⊢
    cases success
    have ready := (first current (AList.lookup_isSome.mp (by rw [inside]; rfl))).1
    exact ⟨ready.resolve_left asks, current, member, inside, rfl⟩

theorem delivers_of_kept (kept : Kept s) (first : LeaderFirst s call) : Delivers s call := by
  rintro groupID memberID generationID assignments now bytes rfl success
  cases found : s.1.groups.lookup groupID with
  | none => simp [syncGroup, found] at success
  | some group =>
    have reached :
      (coordinator.apply s.1 (.sync groupID memberID generationID assignments now)).1.groups.lookup
        groupID = some (group.sync memberID generationID assignments now).1 := by
      simp [lookup_apply, GroupCall.groupID, found, act]
    simp only [syncGroup, found] at success
    obtain ⟨stable, current, member, inside, rfl⟩ := sync_ok success (first group found)
    obtain ⟨given, supplied, assigned⟩ := kept_apply kept first groupID _ reached stable
    rw [current] at supplied
    exact ⟨given, Option.bind_eq_some_iff.mpr ⟨_, reached, supplied⟩,
      assigned memberID member inside⟩

/-- In a run in which a `SyncGroup` that gets through finds a stable group or supplies it,
    with an assignment for each member that has bytes to lose, every member gets what the
    leader has assigned to it. -/
theorem sync_delivers_of_leaderFirst (calls : List GroupCall)
    (first : supplied.Along LeaderFirst (newGroupCoordinator, []) calls) :
    supplied.Along Delivers (newGroupCoordinator, []) calls := by
  refine Object.along_of_invariant (P := Kept) (fun s call kept first => ?_) ?_ first
  · exact ⟨delivers_of_kept kept first, kept_apply kept first⟩
  · intro id group found
    cases found

section Runs

def joinsWith (memberID : GoString) (metadata : Bytes) : GroupCall :=
  .join [0x67] ⟨memberID, [], [], 10, 10, metadata⟩ 0 0

/-- Two members join, the leader assigns 1 and 2 to them, and then the other asks. -/
def leaderThenOther : List GroupCall :=
  [joinsWith [0x61] (some [8]), joinsWith [0x62] (some [9]),
    .sync [0x67] [0x61] 0 ((AList.singleton [0x61] (some [1])).insert [0x62] (some [2])) 1,
    .sync [0x67] [0x62] 0 ∅ 2]

theorem sync_delivers_of_leaderFirst_two :
    supplied.Along LeaderFirst (newGroupCoordinator, []) leaderThenOther ∧
      supplied.Along Delivers (newGroupCoordinator, []) leaderThenOther :=
  have first : supplied.Along LeaderFirst (newGroupCoordinator, []) leaderThenOther := by
    decide +kernel
  ⟨first, sync_delivers_of_leaderFirst leaderThenOther first⟩

/-- The other member asks before the leader has supplied anything, and gets the bytes of its
    own subscription. So does a member that the leader leaves out. -/
theorem not_sync_delivers :
    ¬ supplied.Along Delivers (newGroupCoordinator, [])
        [joinsWith [0x61] (some [8]), joinsWith [0x62] (some [9]), .sync [0x67] [0x62] 0 ∅ 1] ∧
      ¬ supplied.Along Delivers (newGroupCoordinator, [])
        [joinsWith [0x61] (some [8]), joinsWith [0x62] (some [9]),
          .sync [0x67] [0x61] 0 (AList.singleton [0x61] (some [1])) 1, .sync [0x67] [0x62] 0 ∅ 2] := by
  constructor
  · rintro ⟨-, -, delivers, -⟩
    exact absurd (delivers _ _ _ _ _ (some [9]) rfl (by decide +kernel)) (by decide +kernel)
  · rintro ⟨-, -, -, delivers, -⟩
    exact absurd (delivers _ _ _ _ _ (some [9]) rfl (by decide +kernel)) (by decide +kernel)

end Runs

end Portask.Kafka
