import Portask.Kafka.GroupCoordinator

/-! # Members and leader

A group is empty exactly when it has no members, and it is otherwise led by one of them,
whatever is called in whatever order.
-/

namespace Portask.Kafka

open Lib Portask.Types

/-- A group without members is empty and has no leader, and a group with members is led by
    one of them. -/
structure WellLed (group : ConsumerGroup) : Prop where
  empty : (∀ id, id ∉ group.members) ↔ group.state = .empty ∧ group.leader = []
  led : (∃ id, id ∈ group.members) → group.leader ∈ group.members

variable {group : ConsumerGroup}

theorem WellLed.of_leader (led : group.leader ∈ group.members)
    (state : group.state ≠ .empty) : WellLed group where
  empty := ⟨fun none => absurd led (none _), fun both => absurd both.1 state⟩
  led _ := led

theorem WellLed.of_none (none : ∀ id, id ∉ group.members) (state : group.state = .empty)
    (leader : group.leader = []) : WellLed group where
  empty := ⟨fun _ => ⟨state, leader⟩, fun _ => none⟩
  led some := some.elim fun id inside => absurd inside (none id)

theorem WellLed.congr (wellLed : WellLed group)
    (members : ∀ id, id ∈ after.members ↔ id ∈ group.members) (state : after.state = group.state)
    (leader : after.leader = group.leader) : WellLed after where
  empty := by simp only [members, state, leader, wellLed.empty]
  led := by simpa only [members, leader] using wellLed.led

namespace ConsumerGroup

variable {group : ConsumerGroup}

theorem join_leader (request : JoinRequest) (now : Int) (nanos : Nat) :
    (group.join request now nanos).1.leader =
      (group.enrol request (request.memberIDAt nanos) now).leader := by
  simp only [join, startRebalance]
  split <;> rfl

theorem mem_sync {memberID generationID assignments now id} :
    id ∈ (group.sync memberID generationID assignments now).1.members ↔ id ∈ group.members := by
  obtain ⟨err, result⟩ | ⟨-, member, -, ⟨-, result⟩ | ⟨-, result⟩⟩ :=
    group.sync_cases memberID generationID assignments now
  · rw [result]
  · rw [result, ← AList.lookup_isSome, ← AList.lookup_isSome, lookup_assignAll, Option.isSome_map]
  · rw [result]

theorem mem_heartbeat {memberID generationID now id} :
    id ∈ (group.heartbeat memberID generationID now).1.members ↔ id ∈ group.members := by
  obtain ⟨err, result⟩ | ⟨-, member, found, result⟩ :=
    group.heartbeat_cases memberID generationID now
  · rw [result]
  · have present : memberID ∈ group.members := AList.lookup_isSome.mp (by rw [found]; rfl)
    rw [result, AList.mem_insert]
    constructor
    · rintro (rfl | inside)
      · exact present
      · exact inside
    · exact .inr

theorem join_wellLed (wellLed : WellLed group) (request : JoinRequest) (now : Int) (nanos : Nat) :
    WellLed (group.join request now nanos).1 := by
  refine .of_leader ?_ (by simp [join])
  rw [join_leader, join_members, mem_enrol]
  cases found : group.members.lookup (request.memberIDAt nanos) with
  | some existing =>
    have present : request.memberIDAt nanos ∈ group.members :=
      AList.lookup_isSome.mp (by rw [found]; rfl)
    simp only [enrol, found]
    exact .inr (wellLed.led ⟨_, present⟩)
  | none =>
    simp only [enrol, found]
    cases some : group.hasMembers with
    | true => exact .inr (wellLed.led (hasMembers_iff.mp some))
    | false => exact .inl rfl

theorem sync_wellLed (wellLed : WellLed group) (memberID : GoString) (generationID : Int32)
    (assignments : Assignments) (now : Int) :
    WellLed (group.sync memberID generationID assignments now).1 := by
  have same : ∀ id, id ∈ (group.sync memberID generationID assignments now).1.members ↔
      id ∈ group.members :=
    fun id => mem_sync
  obtain ⟨err, result⟩ | ⟨-, member, found, ⟨-, result⟩ | ⟨-, result⟩⟩ :=
    group.sync_cases memberID generationID assignments now
  · exact result ▸ wellLed
  · rw [result] at same ⊢
    have present : memberID ∈ group.members := AList.lookup_isSome.mp (by rw [found]; rfl)
    exact .of_leader ((same _).mpr (wellLed.led ⟨_, present⟩)) (by simp)
  · exact result ▸ wellLed

theorem heartbeat_wellLed (wellLed : WellLed group) (memberID : GoString)
    (generationID : Int32) (now : Int) : WellLed (group.heartbeat memberID generationID now).1 := by
  refine wellLed.congr (fun id => mem_heartbeat) ?_ ?_
  all_goals
    obtain ⟨err, result⟩ | ⟨-, member, -, result⟩ := group.heartbeat_cases memberID generationID now
    · rw [result]
    · rw [result]

/-- Members have been deleted, and if no new leader is elected then the leader is still there. -/
theorem shrink_wellLed
    (stays : (∃ id, id ∈ group.members) → leaderGone = false → group.leader ∈ group.members) :
    WellLed (group.shrink leaderGone choice) := by
  rw [shrink]
  split
  · next some =>
      rw [hasMembers_iff] at some
      refine .of_leader ?_ (by simp)
      cases gone : leaderGone with
      | true => exact elect_mem some
      | false => exact stays some gone
  · next none =>
      have none : ∀ id, id ∉ group.members := not_hasMembers.mp (by simpa using none)
      exact .of_none none rfl rfl

theorem leave_wellLed (wellLed : WellLed group) (memberID choice : GoString) :
    WellLed (group.leave memberID choice) := by
  apply shrink_wellLed
  rintro ⟨id, inside⟩ stays
  obtain ⟨-, before⟩ := AList.mem_erase.mp inside
  exact AList.mem_erase.mpr ⟨Ne.symm (by simpa using stays), wellLed.led ⟨id, before⟩⟩

theorem check_wellLed (wellLed : WellLed group) (now : Int) (choice : GoString) :
    WellLed (group.check now choice) := by
  rw [check]
  split
  · exact wellLed
  · apply shrink_wellLed
    intro _ stays
    simp only [Bool.not_eq_false', Bool.and_eq_true] at stays
    exact AList.lookup_isSome.mp stays.2

theorem act_wellLed (wellLed : WellLed group) (call : GroupCall) : WellLed (group.act call) := by
  cases call with
  | join _ request now nanos => exact join_wellLed wellLed request now nanos
  | sync _ memberID generationID assignments now =>
    exact sync_wellLed wellLed memberID generationID assignments now
  | heartbeat _ memberID generationID now =>
    exact heartbeat_wellLed wellLed memberID generationID now
  | leave _ memberID choice => exact leave_wellLed wellLed memberID choice
  | check _ now choice => exact check_wellLed wellLed now choice

theorem new_wellLed (groupID : GoString) (now : Int) : WellLed (new groupID now) :=
  .of_none (fun id => AList.notMem_empty id) rfl rfl

end ConsumerGroup

theorem groups_wellLed (calls : List GroupCall) {id : GoString} {group : ConsumerGroup}
    (found : (coordinator.run newGroupCoordinator calls).1.groups.lookup id = some group) :
    WellLed group := by
  refine Object.run_invariant (P := GroupCoordinator.Each WellLed) (fun gc call each _ => ?_) ?_
    (Object.along_true _ calls) id group found
  · intro id after found
    obtain ⟨rfl, group, there, rfl⟩ | ⟨request, now, nanos, -, rfl⟩ | ⟨-, there⟩ :=
      apply_cases found
    · exact group.act_wellLed (each _ group there) call
    · exact ConsumerGroup.join_wellLed (ConsumerGroup.new_wellLed id now) request now nanos
    · exact each id after there
  · intro id group found
    cases found

/-- The leader leaves, and the member that stays leads. -/
theorem groups_wellLed_reelected :
    ∃ group, (coordinator.run newGroupCoordinator
        [.join [0x67] ⟨[0x61], [], [], 10, 10, none⟩ 0 0, .join [0x67] ⟨[0x62], [], [], 10, 10, none⟩ 1 1,
          .leave [0x67] [0x61] []]).1.groups.lookup [0x67] = some group ∧
      group.leader = [0x62] ∧ WellLed group := by
  refine exists_of_view (·.leader) [0x62] (by decide +kernel) fun group found leader => ?_
  exact ⟨leader, groups_wellLed _ found⟩

end Portask.Kafka
