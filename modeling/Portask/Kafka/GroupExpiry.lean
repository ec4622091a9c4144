import Portask.Kafka.GroupCoordinator
import Portask.Lib.Assoc

/-! # Which members a pass of `checkHeartbeats` removes

A record of the successful `JoinGroup` and `Heartbeat` calls says when each member was seen
last and which session timeout it has given last. A pass goes by exactly that, whatever else
has been called in between.
-/

namespace Portask.Kafka

open Lib Portask.Types ConsumerGroup AList

/-- A successful `JoinGroup`, which gives a timeout, or `Heartbeat`. -/
structure Sign where
  groupID : GoString
  memberID : GoString
  seen : Int
  timeout : Option Int

def Sign.Of (sign : Sign) (groupID memberID : GoString) : Prop :=
  sign.groupID = groupID ∧ sign.memberID = memberID

instance (sign : Sign) (groupID memberID : GoString) : Decidable (sign.Of groupID memberID) :=
  inferInstanceAs (Decidable (_ ∧ _))

def signOf (gc : GroupCoordinator) : GroupCall → Option Sign
  | .join groupID request now nanos =>
    some ⟨groupID, request.memberIDAt nanos, now, some request.sessionTimeout⟩
  | .heartbeat groupID memberID generationID now =>
    match (gc.heartbeat groupID memberID generationID now).2 with
    | none => some ⟨groupID, memberID, now, none⟩
    | some _ => none
  | _ => none

/-- The coordinator with the record of the members' signs of life. -/
def watched : Object (GroupCoordinator × List Sign) GroupCall GroupAnswer :=
  coordinator.recording signOf

/-- The newest entry about a member that gives the field. -/
def newest (field : Sign → Option Int) (record : List Sign) (groupID memberID : GoString) :
    Option Int :=
  record.findSome? fun sign => if sign.Of groupID memberID then field sign else none

def lastSeen (record : List Sign) (groupID memberID : GoString) : Option Int :=
  newest (fun sign => some sign.seen) record groupID memberID

def lastTimeout (record : List Sign) (groupID memberID : GoString) : Option Int :=
  newest Sign.timeout record groupID memberID

/-- What a pass has done with a group, by the record. -/
structure Sweeps (record : List Sign) (groupID : GoString) (now : Int)
    (group after : ConsumerGroup) : Prop where
  removes :
    ∀ memberID ∈ group.members, ∃ seen timeout, lastSeen record groupID memberID = some seen ∧
    lastTimeout record groupID memberID = some timeout ∧
      (memberID ∉ after.members ↔ timeout < now - seen)
  keeps : ∀ memberID ∈ after.members, after.members.lookup memberID = group.members.lookup memberID
  idle : (∀ memberID ∈ group.members, memberID ∈ after.members) → after = group

/-- A pass over a group sweeps it and leaves all other groups alone. -/
def Passes (s : GroupCoordinator × List Sign) (call : GroupCall) : Prop :=
  ∀ groupID now choice, call = .check groupID now choice →
    (∀ id ≠ groupID, (watched.apply s call).1.1.groups.lookup id = s.1.groups.lookup id) ∧
      ∀ group ∈ s.1.groups.lookup groupID,
        ∃ after ∈ (watched.apply s call).1.1.groups.lookup groupID, Sweeps s.2 groupID now group after

/-- A sign of the member comes within the timeout after the one before. -/
def Prompt (groupID memberID : GoString) (s : GroupCoordinator × List Sign)
    (call : GroupCall) : Prop :=
  ∀ sign ∈ signOf s.1 call, sign.Of groupID memberID →
    ∀ seen ∈ lastSeen s.2 groupID memberID, ∀ timeout ∈ lastTimeout s.2 groupID memberID,
      sign.seen - seen ≤ timeout

/-- The call is no sign of the member. -/
def Silent (groupID memberID : GoString) (s : GroupCoordinator × List Sign)
    (call : GroupCall) : Prop :=
  ∀ sign ∈ signOf s.1 call, ¬ sign.Of groupID memberID

/-- The clock does not go back. -/
def Clocked (calls : List GroupCall) : Prop := (calls.filterMap GroupCall.now).Pairwise (· ≤ ·)

instance (calls : List GroupCall) : Decidable (Clocked calls) :=
  inferInstanceAs (Decidable (List.Pairwise _ _))

/-- A member whose signs are all prompt is in no pass removed that another sign follows. -/
def Survives (calls : List GroupCall) : Prop :=
  ∀ before rest groupID now choice memberID, calls = before ++ .check groupID now choice :: rest →
    watched.Along (Prompt groupID memberID) (newGroupCoordinator, []) calls →
    ¬ watched.Along (Silent groupID memberID) (watched.run (newGroupCoordinator, []) before).1
      (.check groupID now choice :: rest) →
    ∀ group ∈ (watched.run (newGroupCoordinator, []) before).1.1.groups.lookup groupID, memberID ∈
      group.members →
      ∃ after ∈ (watched.run (newGroupCoordinator, [])
        (before ++ [.check groupID now choice])).1.1.groups.lookup
        groupID, memberID ∈ after.members

/-- The record is right about the group's members. -/
def Known (record : List Sign) (groupID : GoString) (group : ConsumerGroup) : Prop :=
  ∀ memberID member, group.members.lookup memberID = some member →
    lastSeen record groupID memberID = some member.lastHeartbeat ∧
      lastTimeout record groupID memberID = some member.sessionTimeout

section

variable {gc : GroupCoordinator} {record : List Sign} {group : ConsumerGroup}
  {id memberID : GoString}
  {call : GroupCall}

variable {field : Sign → Option Int} {sign : Sign}

theorem newest_cons_of_not (other : ¬ sign.Of id memberID) :
    newest field (sign :: record) id memberID = newest field record id memberID := by
  simp [newest, other]

theorem newest_cons_of_none (none : field sign = none) :
    newest field (sign :: record) id memberID = newest field record id memberID := by
  simp [newest, none]

theorem newest_cons_self (own : sign.Of id memberID) (given : field sign = some value) :
    newest field (sign :: record) id memberID = some value := by
  simp [newest, own, given]

theorem signOf_eq_some (event : signOf gc call = some sign) :
    sign.groupID = call.groupID ∧ call.now = some sign.seen := by
  cases call with
  | join =>
    cases event
    exact ⟨rfl, rfl⟩
  | heartbeat =>
    rw [signOf] at event
    split at event
    · cases event
      exact ⟨rfl, rfl⟩
    · cases event
  | sync | leave | check => cases event

/-- Calls that are no sign of a member change nothing of what is known about it. -/
theorem newest_of_silent (silent : Silent id memberID (gc, record) call) :
    newest field ((signOf gc call).toList ++ record) id memberID =
      newest field record id memberID := by
  cases event : signOf gc call with
  | none => rfl
  | some sign => exact newest_cons_of_not (silent sign event)

theorem silent_of_ne (other : id ≠ call.groupID) : Silent id memberID (gc, record) call := by
  intro sign event own
  exact other (own.1.symm.trans (signOf_eq_some event).1)

theorem known_cons_of_not (other : ¬ sign.Of id memberID)
    (known : lastSeen record id memberID = some seen ∧
      lastTimeout record id memberID = some timeout) :
    lastSeen (sign :: record) id memberID = some seen ∧
      lastTimeout (sign :: record) id memberID = some timeout :=
  ⟨(newest_cons_of_not other).trans known.1, (newest_cons_of_not other).trans known.2⟩

/-- Fewer members, or members of which the record is right. -/
theorem Known.mono (known : Known record id group)
    (fewer : ∀ memberID member, after.members.lookup memberID = some member →
      ∃ before, group.members.lookup memberID = some before ∧ member.lastHeartbeat = before.lastHeartbeat ∧
        member.sessionTimeout = before.sessionTimeout) : Known record id after := by
  intro memberID member found
  obtain ⟨before, there, beat, timeout⟩ := fewer memberID member found
  rw [beat, timeout]
  exact known memberID before there

theorem known_join (known : Known record id group) (request : JoinRequest) (now : Int)
    (nanos : Nat) :
    Known (⟨id, request.memberIDAt nanos, now, some request.sessionTimeout⟩ :: record) id
      (group.join request now nanos).1 := by
  intro memberID member found
  rw [join_members] at found
  by_cases here : memberID = request.memberIDAt nanos
  · subst here
    obtain ⟨enrolled, there, beat, timeout⟩ :=
      group.lookup_enrol_self request (request.memberIDAt nanos) now
    obtain rfl : enrolled = member := Option.some.inj (there.symm.trans found)
    rw [beat, timeout]
    exact ⟨newest_cons_self ⟨rfl, rfl⟩ rfl, newest_cons_self ⟨rfl, rfl⟩ rfl⟩
  · rw [lookup_enrol_ne here] at found
    exact known_cons_of_not (fun own => here own.2.symm) (known memberID member found)

theorem known_sync (known : Known record id group) (memberID : GoString) (generationID : Int32)
    (assignments : Assignments) (now : Int) :
    Known record id (group.sync memberID generationID assignments now).1 := by
  obtain ⟨err, result⟩ | ⟨-, member, -, ⟨-, result⟩ | ⟨-, result⟩⟩ :=
    group.sync_cases memberID generationID assignments now
  · exact result ▸ known
  · rw [result]
    refine known.mono fun memberID member found => ?_
    rw [lookup_assignAll] at found
    obtain ⟨before, there, rfl⟩ := Option.map_eq_some_iff.mp found
    exact ⟨before, there, rfl, rfl⟩
  · exact result ▸ known

theorem known_heartbeat (found : gc.groups.lookup id = some group) (known : Known record id group)
    (memberID : GoString) (generationID : Int32) (now : Int) :
    Known ((signOf gc (.heartbeat id memberID generationID now)).toList ++ record) id
      (group.heartbeat memberID generationID now).1 := by
  obtain ⟨err, result⟩ | ⟨-, member, inside, result⟩ :=
    group.heartbeat_cases memberID generationID now
  · simpa [signOf, GroupCoordinator.heartbeat, found, result] using known
  · have event : signOf gc (.heartbeat id memberID generationID now) = some ⟨id, memberID, now, none⟩ := by
      simp [signOf, GroupCoordinator.heartbeat, found, result]
    rw [event, result]
    intro other found there
    by_cases here : other = memberID
    · subst here
      rw [lookup_insert] at there
      cases there
      exact ⟨newest_cons_self ⟨rfl, rfl⟩ rfl,
        (newest_cons_of_none rfl).trans (known other member inside).2⟩
    · rw [lookup_insert_ne here] at there
      exact known_cons_of_not (fun own => here own.2.symm) (known other found there)

theorem ConsumerGroup.leave_members (choice : GoString) :
    (group.leave memberID choice).members = group.members.erase memberID := by
  rw [leave, shrink]
  split <;> rfl

/-- A pass removes the overdue members and nobody else. -/
theorem ConsumerGroup.lookup_check (now : Int) (choice : GoString) (memberID : GoString) :
    (group.check now choice).members.lookup memberID =
      if memberID ∈ group.expiredMembers now then none else group.members.lookup memberID := by
  rw [← lookup_eraseAll, check]
  split
  · next none => rw [none, eraseAll, List.foldl_nil]
  · rw [shrink]
    split <;> rfl

theorem known_act (found : gc.groups.lookup call.groupID = some group)
    (known : Known record call.groupID group) :
    Known ((signOf gc call).toList ++ record) call.groupID (group.act call) := by
  cases call with
  | join _ request now nanos => exact known_join known request now nanos
  | sync _ memberID generationID assignments now =>
    exact known_sync known memberID generationID assignments now
  | heartbeat _ memberID generationID now =>
    exact known_heartbeat found known memberID generationID now
  | leave _ gone choice =>
    refine known.mono fun memberID member there => ⟨member, ?_, rfl, rfl⟩
    rw [act, leave_members] at there
    exact Lib.lookup_of_erase there
  | check _ now choice =>
    refine known.mono fun memberID member there => ⟨member, ?_, rfl, rfl⟩
    rw [act, lookup_check] at there
    split at there
    · cases there
    · exact there

def AllKnown (s : GroupCoordinator × List Sign) : Prop :=
  ∀ id group, s.1.groups.lookup id = some group → Known s.2 id group

theorem allKnown_apply (known : AllKnown s) : AllKnown (watched.apply s call).1 := by
  intro id after found
  obtain ⟨rfl, group, there, rfl⟩ | ⟨request, now, nanos, rfl, rfl⟩ | ⟨other, there⟩ :=
    apply_cases found
  · exact known_act there (known _ group there)
  · refine known_join (fun memberID member inside => ?_) request now nanos
    cases inside
  · intro memberID member inside
    have silent : Silent id memberID (s.1, s.2) call := silent_of_ne other
    obtain ⟨seen, timeout⟩ := known id after there memberID member inside
    exact ⟨(newest_of_silent silent).trans seen, (newest_of_silent silent).trans timeout⟩

theorem allKnown_run (calls : List GroupCall) :
    AllKnown (watched.run (newGroupCoordinator, []) calls).1 := by
  refine Object.run_invariant (P := AllKnown) (fun s call known _ => allKnown_apply known) ?_
    (Object.along_true _ calls)
  intro id group found
  cases found

end

variable {group : ConsumerGroup}

theorem sweeps_check (known : Known record groupID group) (now : Int) (choice : GoString) :
    Sweeps record groupID now group (group.check now choice) where
  removes memberID inside := by
    obtain ⟨member, found⟩ := Option.isSome_iff_exists.mp (lookup_isSome.mpr inside)
    obtain ⟨seen, timeout⟩ := known memberID member found
    refine ⟨_, _, seen, timeout, ?_⟩
    rw [← lookup_isSome, lookup_check]
    have overdue : memberID ∈ group.expiredMembers now ↔ Overdue member now := by
      simp [mem_expiredMembers, found]
    simp only [overdue, found]
    by_cases late : Overdue member now
    · rw [if_pos late]
      exact iff_of_true (by simp) late
    · rw [if_neg late]
      exact iff_of_false (by simp) late
  keeps memberID stays := by
    rw [← lookup_isSome, lookup_check] at stays
    rw [lookup_check]
    split at stays
    · cases stays
    · next current => rw [if_neg current]
  idle all := by
    have none : group.expiredMembers now = [] := by
      refine List.eq_nil_iff_forall_not_mem.mpr fun memberID expired => ?_
      obtain ⟨member, found, -⟩ := mem_expiredMembers.mp expired
      have stays := all memberID (lookup_isSome.mp (by rw [found]; rfl))
      rw [← lookup_isSome, lookup_check, if_pos expired] at stays
      cases stays
    rw [check, if_pos none]

variable {s : GroupCoordinator × List Sign}

theorem lookup_pass (found : s.1.groups.lookup groupID = some group) (now : Int)
    (choice : GoString) :
    (watched.apply s (.check groupID now choice)).1.1.groups.lookup groupID =
      some (group.check now choice) := by
  change (coordinator.apply s.1 _).1.groups.lookup groupID = _
  simp [lookup_apply, GroupCall.groupID, found, act]

theorem passes_of_known (known : AllKnown s) : Passes s call := by
  rintro groupID now choice rfl
  constructor
  · intro id other
    exact (lookup_apply id).trans (if_neg other)
  · intro group found
    exact ⟨_, lookup_pass found now choice, sweeps_check (known groupID group found) now choice⟩

/-- If a prompt sign of the member is still to come, then its timeout has not run out. -/
theorem within_of_prompt (prompt : watched.Along (Prompt groupID memberID) s rest)
    (sounds : ¬ watched.Along (Silent groupID memberID) s rest)
    (last : lastSeen s.2 groupID memberID = some seen)
    (given : lastTimeout s.2 groupID memberID = some timeout)
    (clock : ∀ time ∈ rest.filterMap GroupCall.now, now ≤ time) : now - seen ≤ timeout := by
  induction rest generalizing s with
  | nil => exact absurd trivial sounds
  | cons call rest ih =>
    by_cases silent : Silent groupID memberID s call
    · have still : ∀ field, newest field ((signOf s.1 call).toList ++ s.2) groupID memberID =
          newest field s.2 groupID memberID := fun field => newest_of_silent silent
      refine ih prompt.2 (fun rest => sounds ⟨silent, rest⟩) ((still _).trans last)
        ((still _).trans given) ?_
      intro time later
      refine clock time ?_
      rw [List.filterMap_cons]
      split
      · exact later
      · exact List.mem_cons_of_mem _ later
    · obtain ⟨sign, event, own⟩ : ∃ sign ∈ signOf s.1 call, sign.Of groupID memberID := by
        simpa [Silent] using silent
      have soon := prompt.1 sign event own seen last timeout given
      have later : now ≤ sign.seen := clock _ (by simp [(signOf_eq_some event).2])
      omega

/-- With a clock that does not go back, every pass removes exactly the members not seen for
    longer than their timeout, and no member that keeps to its timeout is ever removed. -/
theorem expiry_exact (calls : List GroupCall) (clocked : Clocked calls) :
    watched.Along Passes (newGroupCoordinator, []) calls ∧ Survives calls := by
  constructor
  · refine Object.along_of_invariant (P := AllKnown) (fun s call known _ => ?_) (allKnown_run [])
      (Object.along_true _ calls)
    exact ⟨passes_of_known known, allKnown_apply known⟩
  · rintro before rest groupID now choice memberID rfl prompt sounds group found inside
    obtain ⟨member, there⟩ := Option.isSome_iff_exists.mp (lookup_isSome.mpr inside)
    obtain ⟨last, given⟩ := allKnown_run before groupID group found memberID member there
    have within : now - member.lastHeartbeat ≤ member.sessionTimeout := by
      refine within_of_prompt (Object.along_append.mp prompt).2 sounds last given fun time later => ?_
      rw [Clocked, List.filterMap_append, List.pairwise_append] at clocked
      rcases List.mem_cons.mp later with rfl | later
      · exact Int.le_refl _
      · exact List.rel_of_pairwise_cons clocked.2.1 later
    rw [Object.run_append]
    refine ⟨_, lookup_pass found now choice, ?_⟩
    rw [← lookup_isSome, lookup_check, if_neg, there]
    · rfl
    · rw [mem_expiredMembers]
      rintro ⟨member', found', overdue⟩
      obtain rfl : member = member' := Option.some.inj (there.symm.trans found')
      exact absurd overdue (Int.not_lt.mpr within)

/-- Member a sends a heartbeat after 8 of its 10 nanoseconds and member b does not: the pass
    at 12 removes b. -/
def heartbeatsOfOne : List GroupCall :=
  [.join [0x67] ⟨[0x61], [], [], 10, 10, none⟩ 0 0, .join [0x67] ⟨[0x62], [], [], 10, 10, none⟩ 1 1,
    .heartbeat [0x67] [0x61] 0 8, .check [0x67] 12 [], .heartbeat [0x67] [0x61] 1 18]

theorem expiry_exact_one :
    Clocked heartbeatsOfOne ∧ watched.Along Passes (newGroupCoordinator, []) heartbeatsOfOne ∧
      Survives heartbeatsOfOne ∧
      ((coordinator.run newGroupCoordinator heartbeatsOfOne).1.groups.lookup [0x67]).map
      (·.members.keys) = some [[0x61]] :=
  have clocked : Clocked heartbeatsOfOne := by decide
  ⟨clocked, (expiry_exact heartbeatsOfOne clocked).1,
    (expiry_exact heartbeatsOfOne clocked).2, by decide +kernel⟩

end Portask.Kafka
