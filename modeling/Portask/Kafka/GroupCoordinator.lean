import Mathlib.Data.List.AList
import Portask.Lib.Machine
import Portask.Types.Message

/-! # The group coordinator

`pkg/kafka/group_coordinator.go`. Every operation works on one group under its lock, and
groups are never removed, so an operation is one step and a pass of `checkHeartbeats` is
one step for each group that it treats. The clock readings are given with the operation.
Where the source takes the first key that ranging over a map yields, the key is given too.
-/

namespace Portask.Kafka

open Lib Portask.Types

/-- `StateAwaitingSync` is another name of `completingRebalance`. -/
inductive ConsumerGroupState where
  | unknown
  | preparingRebalance
  | completingRebalance
  | stable
  | dead
  | empty
  deriving DecidableEq

/-- Times and durations are in nanoseconds. -/
structure GroupMember where
  id : GoString
  clientID : GoString
  clientHost : GoString
  sessionTimeout : Int
  rebalanceTimeout : Int
  metadata : Bytes
  joinedAt : Int
  lastHeartbeat : Int
  deriving DecidableEq

abbrev Members := AList fun _ : GoString => GroupMember

abbrev Assignments := AList fun _ : GoString => Bytes

structure ConsumerGroup where
  id : GoString
  members : Members
  state : ConsumerGroupState
  protocol : GoString
  leader : GoString
  generation : Int32
  createdAt : Int
  lastHeartbeat : Option Int
  deriving DecidableEq

/-- The parameters of `JoinGroup` that it reads. -/
structure JoinRequest where
  memberID : GoString
  clientID : GoString
  clientHost : GoString
  sessionTimeout : Int
  rebalanceTimeout : Int
  metadata : Bytes
  deriving DecidableEq

structure JoinGroupResponse where
  generationID : Int32
  protocolName : GoString
  leaderID : GoString
  memberID : GoString
  members : List (GoString × Bytes)
  deriving DecidableEq

inductive GroupError where
  | groupNotFound (groupID : GoString)
  | generationMismatch
  | heartbeatMismatch (expected got : Int32)
  | memberNotFound (memberID : GoString)
  deriving DecidableEq

def GroupError.message (render : GoString → String) : GroupError → String
  | .groupNotFound groupID => "group not found: " ++ render groupID
  | .generationMismatch => "generation mismatch"
  | .heartbeatMismatch expected got =>
    "generation mismatch: expected " ++ toString expected ++ ", got " ++ toString got
  | .memberNotFound memberID => "member not found: " ++ render memberID

/-- A member that gives no ID gets `clientID-clientHost-nanoseconds`. -/
def JoinRequest.memberIDAt (request : JoinRequest) (nanos : Nat) : GoString :=
  if request.memberID = [] then
    request.clientID ++ [0x2D] ++ request.clientHost ++ [0x2D] ++ GoString.decimal nanos
  else request.memberID

namespace ConsumerGroup

def new (groupID : GoString) (now : Int) : ConsumerGroup :=
  ⟨groupID, ∅, .empty, [], [], 0, now, none⟩

section

variable (group : ConsumerGroup)

def hasMembers : Bool := !group.members.keys.isEmpty

def enrol (request : JoinRequest) (memberID : GoString) (now : Int) : ConsumerGroup :=
  match group.members.lookup memberID with
  | some existing =>
    { group with
      members := group.members.insert memberID
        { existing with
          lastHeartbeat := now
          sessionTimeout := request.sessionTimeout
          rebalanceTimeout := request.rebalanceTimeout
          metadata := request.metadata } }
  | none =>
    { group with
      leader := if group.hasMembers then group.leader else memberID
      members := group.members.insert memberID
        ⟨memberID, request.clientID, request.clientHost, request.sessionTimeout,
          request.rebalanceTimeout, request.metadata, now, now⟩ }

/-- The part of `JoinGroup` that raises the generation. -/
def startRebalance : ConsumerGroup :=
  if group.state = .stable then
    { group with state := .preparingRebalance, generation := group.generation + 1 }
  else group

def join (request : JoinRequest) (now : Int) (nanos : Nat) :
    ConsumerGroup × JoinGroupResponse :=
  let memberID := request.memberIDAt nanos
  let group := (group.enrol request memberID now).startRebalance
  let members :=
    if memberID = group.leader then group.members.entries.map (fun e => (e.1, e.2.metadata)) else []
  ({ group with state := .completingRebalance },
    ⟨group.generation, group.protocol, group.leader, memberID, members⟩)

end

/-- One round of the loop that stores the leader's assignments. -/
def assign (members : Members) (id : GoString) (assignment : Bytes) : Members :=
  match members.lookup id with
  | some member => members.insert id { member with metadata := assignment }
  | none => members

/-- The member is the leader and supplies assignments. -/
def Supplies (group : ConsumerGroup) (memberID : GoString) (assignments : Assignments) : Prop :=
  memberID = group.leader ∧ assignments.keys ≠ []

instance (group : ConsumerGroup) (memberID : GoString) (assignments : Assignments) :
    Decidable (group.Supplies memberID assignments) := inferInstanceAs (Decidable (_ ∧ _))

def sync (group : ConsumerGroup) (memberID : GoString) (generationID : Int32)
    (assignments : Assignments) (now : Int) : ConsumerGroup × Except GroupError Bytes :=
  if group.generation ≠ generationID then (group, .error .generationMismatch)
  else
    match group.members.lookup memberID with
    | none => (group, .error (.memberNotFound memberID))
    | some member =>
      let after :=
        if group.Supplies memberID assignments then
          { group with
            members := assignments.foldl assign group.members
            state := .stable
            lastHeartbeat := some now }
        else group
      (after, .ok (((after.members.lookup memberID).getD member).metadata))

def heartbeat (group : ConsumerGroup) (memberID : GoString) (generationID : Int32) (now : Int) :
    ConsumerGroup × Option GroupError :=
  if group.generation ≠ generationID then
    (group, some (.heartbeatMismatch group.generation generationID))
  else
    match group.members.lookup memberID with
    | none => (group, some (.memberNotFound memberID))
    | some member =>
      ({ group with members := group.members.insert memberID { member with lastHeartbeat := now } }, none)

/-- The first key of a range over the members, which is `choice` if that is a key. -/
def elect (members : Members) (choice old : GoString) : GoString :=
  if choice ∈ members then choice else members.keys.headD old

/-- What `LeaveGroup` and `checkHeartbeats` do after members have been deleted. -/
def shrink (group : ConsumerGroup) (leaderGone : Bool) (choice : GoString) : ConsumerGroup :=
  if group.hasMembers then
    { group with
      state := .preparingRebalance
      generation := group.generation + 1
      leader := if leaderGone then elect group.members choice group.leader else group.leader }
  else { group with state := .empty, leader := [], generation := 0 }

def leave (group : ConsumerGroup) (memberID choice : GoString) : ConsumerGroup :=
  ({ group with members := group.members.erase memberID }).shrink (memberID = group.leader) choice

def Overdue (member : GroupMember) (now : Int) : Prop :=
  member.sessionTimeout < now - member.lastHeartbeat

instance (member : GroupMember) (now : Int) : Decidable (Overdue member now) :=
  inferInstanceAs (Decidable (_ < _))

def expiredMembers (group : ConsumerGroup) (now : Int) : List GoString :=
  (group.members.entries.filter (fun e => Overdue e.2 now)).map Sigma.fst

def eraseAll (members : Members) (ids : List GoString) : Members :=
  ids.foldl (fun ms id => ms.erase id) members

/-- What a pass of `checkHeartbeats` does with a group. -/
def check (group : ConsumerGroup) (now : Int) (choice : GoString) : ConsumerGroup :=
  let expired := group.expiredMembers now
  let members := eraseAll group.members expired
  if expired = [] then group
  else
    ({ group with members := members }).shrink
      (!(group.leader ≠ [] && (members.lookup group.leader).isSome)) choice

end ConsumerGroup

namespace ConsumerGroup

variable {group : ConsumerGroup} {id : GoString} {request : JoinRequest} {now : Int}

theorem hasMembers_iff : group.hasMembers = true ↔ ∃ id, id ∈ group.members := by
  simp only [hasMembers, Bool.not_eq_true', List.isEmpty_eq_false_iff_exists_mem, AList.mem_keys]

theorem not_hasMembers : group.hasMembers = false ↔ ∀ id, id ∉ group.members := by
  rw [← Bool.not_eq_true, hasMembers_iff, not_exists]

theorem lookup_enrol_self (request : JoinRequest) (memberID : GoString) (now : Int) :
    ∃ member, (group.enrol request memberID now).members.lookup memberID = some member ∧
      member.lastHeartbeat = now ∧ member.sessionTimeout = request.sessionTimeout := by
  cases found : group.members.lookup memberID with
  | none | some existing => exact ⟨_, by simp [enrol, found]; rfl, rfl, rfl⟩

theorem lookup_enrol_ne (other : id ≠ memberID) :
    (group.enrol request memberID now).members.lookup id = group.members.lookup id := by
  cases found : group.members.lookup memberID with
  | none | some existing => simp [enrol, found, AList.lookup_insert_ne other]

theorem mem_enrol :
    id ∈ (group.enrol request memberID now).members ↔ id = memberID ∨ id ∈ group.members := by
  cases found : group.members.lookup memberID with
  | none | some existing => simp [enrol, found]

theorem join_members (request : JoinRequest) (now : Int) (nanos : Nat) :
    (group.join request now nanos).1.members =
      (group.enrol request (request.memberIDAt nanos) now).members := by
  simp only [join, startRebalance]
  split <;> rfl

theorem lookup_assign (members : Members) (id other : GoString) (assignment : Bytes) :
    (assign members id assignment).lookup other =
      (members.lookup other).map fun member =>
        if other = id then { member with metadata := assignment } else member := by
  by_cases here : other = id
  · subst here
    cases found : members.lookup other with
    | none => simp [assign, found]
    | some member => simp [assign, found]
  · cases found : members.lookup id with
    | none => simp [assign, found, here]
    | some member => simp [assign, found, here, AList.lookup_insert_ne here]

/-- A member that the leader names gets its assignment, and nobody else is touched. -/
theorem lookup_assignAll (assignments : Assignments) (members : Members) (id : GoString) :
    (assignments.foldl assign members).lookup id =
      (members.lookup id).map fun member =>
        { member with metadata := (assignments.lookup id).getD member.metadata } := by
  obtain ⟨entries, nodup⟩ := assignments
  simp only [AList.foldl, AList.lookup]
  induction entries generalizing members with
  | nil => simp
  | cons entry rest ih =>
    obtain ⟨key, assignment⟩ := entry
    obtain ⟨fresh, nodup⟩ := List.nodupKeys_cons.mp nodup
    have later := ih (assign members key assignment) nodup
    simp only [List.foldl_cons]
    rw [later]
    change ((assign members key assignment).lookup id).map _ = (members.lookup id).map _
    rw [lookup_assign, Option.map_map]
    congr 1
    funext member
    by_cases here : id = key
    · subst here
      simp [List.dlookup_eq_none.mpr fresh]
    · simp [here, List.dlookup_cons_ne rest ⟨key, assignment⟩ here]

/-- `SyncGroup` is refused, or stores what the leader supplies, or only answers. -/
theorem sync_cases (memberID : GoString) (generationID : Int32)
    (assignments : Assignments) (now : Int) :
    (∃ err, group.sync memberID generationID assignments now = (group, .error err)) ∨
      (group.generation = generationID ∧ ∃ member, group.members.lookup memberID = some member ∧
        (group.Supplies memberID assignments ∧
            group.sync memberID generationID assignments now =
              ({ group with
                  members := assignments.foldl assign group.members, state := .stable, lastHeartbeat := some now },
                .ok ((assignments.lookup memberID).getD member.metadata)) ∨
          ¬ group.Supplies memberID assignments ∧
            group.sync memberID generationID assignments now = (group, .ok member.metadata))) := by
  rw [sync]
  split
  · exact .inl ⟨_, rfl⟩
  · next current =>
      split
      · exact .inl ⟨_, rfl⟩
      · next member found =>
          refine .inr ⟨not_not.mp current, member, found, ?_⟩
          by_cases supplies : group.Supplies memberID assignments
          · simp [supplies, lookup_assignAll, found]
          · simp [supplies, found]

/-- `Heartbeat` is refused, or sets the time of the member's last heartbeat. -/
theorem heartbeat_cases (memberID : GoString) (generationID : Int32) (now : Int) :
    (∃ err, group.heartbeat memberID generationID now = (group, some err)) ∨
      (group.generation = generationID ∧ ∃ member, group.members.lookup memberID = some member ∧
        group.heartbeat memberID generationID now =
          ({ group with members := group.members.insert memberID { member with lastHeartbeat := now } }, none)) := by
  rw [heartbeat]
  split
  · exact .inl ⟨_, rfl⟩
  · next current =>
      split
      · exact .inl ⟨_, rfl⟩
      · next member found => exact .inr ⟨not_not.mp current, member, found, rfl⟩

theorem lookup_eraseAll (members : Members) (ids : List GoString) (id : GoString) :
    (eraseAll members ids).lookup id = if id ∈ ids then none else members.lookup id := by
  induction ids generalizing members with
  | nil => simp [eraseAll]
  | cons first rest ih =>
    have later := ih (members.erase first)
    rw [eraseAll] at later ⊢
    rw [List.foldl_cons, later]
    by_cases here : id = first
    · subst here
      simp
    · simp [here, AList.lookup_erase_ne here]

theorem mem_expiredMembers :
    id ∈ group.expiredMembers now ↔
      ∃ member, group.members.lookup id = some member ∧ Overdue member now := by
  simp only [expiredMembers, List.mem_map, List.mem_filter, decide_eq_true_eq]
  constructor
  · rintro ⟨⟨key, member⟩, ⟨inside, overdue⟩, rfl⟩
    exact ⟨member, AList.mem_lookup_iff.mpr inside, overdue⟩
  · rintro ⟨member, found, overdue⟩
    exact ⟨⟨id, member⟩, ⟨AList.mem_lookup_iff.mp found, overdue⟩, rfl⟩

theorem elect_mem {members choice old} (some : ∃ id, id ∈ members) :
    elect members choice old ∈ members := by
  rw [elect]
  split
  · assumption
  · obtain ⟨id, inside⟩ := some
    rw [AList.mem_keys] at inside ⊢
    cases keys : members.keys with
    | nil => simp [keys] at inside
    | cons first rest => simp

end ConsumerGroup

structure GroupCoordinator where
  groups : AList fun _ : GoString => ConsumerGroup
  deriving DecidableEq

open GroupCoordinator

def newGroupCoordinator : GroupCoordinator := ⟨∅⟩

namespace GroupCoordinator

variable (gc : GroupCoordinator)

def getOrCreateGroup (groupID : GoString) (now : Int) : ConsumerGroup :=
  (gc.groups.lookup groupID).getD (.new groupID now)

def put (groupID : GoString) (group : ConsumerGroup) : GroupCoordinator :=
  ⟨gc.groups.insert groupID group⟩

def joinGroup (groupID : GoString) (request : JoinRequest) (now : Int) (nanos : Nat) :
    GroupCoordinator × JoinGroupResponse :=
  let (group, response) := (gc.getOrCreateGroup groupID now).join request now nanos
  (gc.put groupID group, response)

def syncGroup (groupID memberID : GoString) (generationID : Int32)
    (assignments : Assignments) (now : Int) : GroupCoordinator × Except GroupError Bytes :=
  match gc.groups.lookup groupID with
  | none => (gc, .error (.groupNotFound groupID))
  | some group =>
    let (group, answer) := group.sync memberID generationID assignments now
    (gc.put groupID group, answer)

def heartbeat (groupID memberID : GoString) (generationID : Int32) (now : Int) :
    GroupCoordinator × Option GroupError :=
  match gc.groups.lookup groupID with
  | none => (gc, some (.groupNotFound groupID))
  | some group =>
    let (group, answer) := group.heartbeat memberID generationID now
    (gc.put groupID group, answer)

def leaveGroup (groupID memberID choice : GoString) : GroupCoordinator × Option GroupError :=
  match gc.groups.lookup groupID with
  | none => (gc, some (.groupNotFound groupID))
  | some group => (gc.put groupID (group.leave memberID choice), none)

/-- One round of the inner loop of `checkHeartbeats`. -/
def checkGroup (groupID : GoString) (now : Int) (choice : GoString) : GroupCoordinator :=
  match gc.groups.lookup groupID with
  | none => gc
  | some group => gc.put groupID (group.check now choice)

end GroupCoordinator

inductive GroupCall where
  | join (groupID : GoString) (request : JoinRequest) (now : Int) (nanos : Nat)
  | sync (groupID memberID : GoString) (generationID : Int32)
    (assignments : Assignments) (now : Int)
  | heartbeat (groupID memberID : GoString) (generationID : Int32) (now : Int)
  | leave (groupID memberID choice : GoString)
  | check (groupID : GoString) (now : Int) (choice : GoString)

inductive GroupAnswer where
  | joined (response : JoinGroupResponse)
  | synced (answer : Except GroupError Bytes)
  | beaten (err : Option GroupError)
  | left (err : Option GroupError)
  | checked

def GroupCall.groupID : GroupCall → GoString
  | .join groupID .. | .sync groupID .. | .heartbeat groupID .. | .leave groupID .. | .check groupID .. => groupID

def GroupCall.now : GroupCall → Option Int
  | .join _ _ now _ | .sync _ _ _ _ now | .heartbeat _ _ _ now | .check _ now _ => some now
  | .leave .. => none

def coordinator : Object GroupCoordinator GroupCall GroupAnswer where
  apply gc
    | .join groupID request now nanos =>
      ((gc.joinGroup groupID request now nanos).1, .joined (gc.joinGroup groupID request now nanos).2)
    | .sync groupID memberID generationID assignments now =>
      ((gc.syncGroup groupID memberID generationID assignments now).1,
        .synced (gc.syncGroup groupID memberID generationID assignments now).2)
    | .heartbeat groupID memberID generationID now =>
      ((gc.heartbeat groupID memberID generationID now).1,
        .beaten (gc.heartbeat groupID memberID generationID now).2)
    | .leave groupID memberID choice =>
      ((gc.leaveGroup groupID memberID choice).1, .left (gc.leaveGroup groupID memberID choice).2)
    | .check groupID now choice => (gc.checkGroup groupID now choice, .checked)

def ConsumerGroup.act (group : ConsumerGroup) : GroupCall → ConsumerGroup
  | .join _ request now nanos => (group.join request now nanos).1
  | .sync _ memberID generationID assignments now =>
    (group.sync memberID generationID assignments now).1
  | .heartbeat _ memberID generationID now => (group.heartbeat memberID generationID now).1
  | .leave _ memberID choice => group.leave memberID choice
  | .check _ now choice => group.check now choice

def GroupCall.created : GroupCall → Option ConsumerGroup
  | .join groupID request now nanos =>
    some ((ConsumerGroup.new groupID now).join request now nanos).1
  | _ => none

section

variable {gc : GroupCoordinator} {call : GroupCall}

/-- A call changes the group it names, creates it, or does nothing. -/
theorem apply_eq :
    (coordinator.apply gc call).1 =
      (((gc.groups.lookup call.groupID).map (·.act call)).or call.created).elim gc
      (gc.put call.groupID) := by
  cases call with
  | join groupID =>
    cases found : gc.groups.lookup groupID with
    | none | some =>
      simp [coordinator, joinGroup, getOrCreateGroup, GroupCall.groupID, found,
        GroupCall.created, ConsumerGroup.act]
  | sync groupID =>
    cases found : gc.groups.lookup groupID with
    | none | some =>
      simp [coordinator, syncGroup, GroupCall.groupID, found, GroupCall.created, ConsumerGroup.act]
  | heartbeat groupID =>
    cases found : gc.groups.lookup groupID with
    | none | some =>
      simp [coordinator, heartbeat, GroupCall.groupID, found, GroupCall.created, ConsumerGroup.act]
  | leave groupID =>
    cases found : gc.groups.lookup groupID with
    | none | some =>
      simp [coordinator, leaveGroup, GroupCall.groupID, found, GroupCall.created,
        ConsumerGroup.act]
  | check groupID =>
    cases found : gc.groups.lookup groupID with
    | none | some =>
      simp [coordinator, checkGroup, GroupCall.groupID, found, GroupCall.created,
        ConsumerGroup.act]

theorem lookup_apply (id : GoString) :
    (coordinator.apply gc call).1.groups.lookup id =
      if id = call.groupID then ((gc.groups.lookup id).map (·.act call)).or call.created
      else gc.groups.lookup id := by
  rw [apply_eq]
  by_cases here : id = call.groupID
  · subst here
    rw [if_pos rfl]
    cases result : ((gc.groups.lookup call.groupID).map (·.act call)).or call.created with
    | none => simpa using (Option.or_eq_none_iff.mp result).1
    | some group => simp [put]
  · rw [if_neg here]
    cases result : ((gc.groups.lookup call.groupID).map (·.act call)).or call.created with
    | none => rfl
    | some group => simp [put, AList.lookup_insert_ne here]

/-- A group after a call is one that the call has acted on or created, or it was there before. -/
theorem apply_cases {id after}
    (found : (coordinator.apply gc call).1.groups.lookup id = some after) :
    (id = call.groupID ∧ ∃ group, gc.groups.lookup call.groupID = some group ∧
      after = group.act call) ∨ (∃ request now nanos, call = .join id request now nanos ∧
        after = ((ConsumerGroup.new id now).join request now nanos).1) ∨
      (id ≠ call.groupID ∧ gc.groups.lookup id = some after) := by
  rw [lookup_apply] at found
  split at found
  · next here =>
      subst here
      rcases Option.or_eq_some_iff.mp found with acted | ⟨-, created⟩
      · obtain ⟨group, there, rfl⟩ := Option.map_eq_some_iff.mp acted
        exact .inl ⟨rfl, group, there, rfl⟩
      · cases call with
        | join groupID request now nanos =>
          cases created
          exact .inr (.inl ⟨request, now, nanos, rfl, rfl⟩)
        | sync | heartbeat | leave | check => cases created
  · next other => exact .inr (.inr ⟨other, found⟩)

/-- Every group there is has property `P`. -/
def GroupCoordinator.Each (P : ConsumerGroup → Prop) (gc : GroupCoordinator) : Prop :=
  ∀ id group, gc.groups.lookup id = some group → P group

end

end Portask.Kafka
