import Portask.Lib.Machine
import Portask.Lib.Tally
import Mathlib.Logic.Function.Basic

/-! # Writing and syncing at the same time

`Write`, `WriteBatch`, `Sync`, `Close` and rotation of `pkg/storage/wal.go`, step by step. A
writer holds the log's lock, `Sync` holds it only while it looks up the current segment. The
segment's own lock is taken by `Sync` and `Close`, not by writers, so a writer may come between
the sync of the file and the update of the flag. Of the files only the numbers of bytes matter.
-/

namespace Portask.Storage.WalSync

open Lib

/-- The lock of a segment. While it is held by `Sync`, the file is synced and then the flag updated. -/
inductive SegmentLock where
  | free
  | held
  | flushed
  deriving DecidableEq

/-- `written` bytes are in the file, `durable` of them were there at its last sync. -/
structure Segment where
  written : Nat
  durable : Nat
  synced : Bool
  lock : SegmentLock
  closed : Bool
  deriving DecidableEq

/-- The holder of the log's lock: a call of `Write` or `WriteBatch` before it has made room, before
    its first write to the file, and between that and its return, or `Close`. -/
inductive WriterPc where
  | free
  | entered
  | ready
  | writing
  | closing
  deriving DecidableEq

/-- A call of `Sync`: it has the segment, or also the segment's lock. -/
inductive SyncPc where
  | out
  | picked (i : Nat)
  | locked (i : Nat)
  deriving DecidableEq

structure System (T : Type) where
  segments : List Segment
  current : Nat
  writer : WriterPc
  sync : T → SyncPc

/-- `put` is a write to the file, `fail` one that ends after `n` bytes. -/
inductive Label (T : Type) where
  | enter
  | room
  | rotate (fails : Bool)
  | put (n : Nat)
  | finish
  | fail (n : Nat)
  | pick (t : T)
  | lock (t : T)
  | fsync (t : T) (fails : Bool)
  | flag (t : T)
  | close
  | closeSegment (i : Nat) (fails : Bool)
  deriving DecidableEq

section

variable {T : Type} [DecidableEq T]

namespace System

def set (s : System T) (i : Nat) (segment : Segment) : System T :=
  { s with segments := s.segments.set i segment }

def turn (s : System T) (pc : WriterPc) : System T := { s with writer := pc }

def move (s : System T) (t : T) (pc : SyncPc) : System T :=
  { s with sync := Function.update s.sync t pc }

end System

/-- After `NewWALWriter` on an empty directory. -/
def opened : System T := ⟨[⟨0, 0, true, .free, false⟩], 0, .free, fun _ => .out⟩

def machine : Machine (System T) (Label T) where
  next s label :=
    match label with
    | .enter => if s.writer = .free then some (s.turn .entered) else none
    | .room => if s.writer = .entered then some (s.turn .ready) else none
    | .rotate fails =>
      if s.writer = .entered then
        some (if fails then s.turn .free
          else
            { s with
              segments := s.segments ++ [⟨0, 0, true, .free, false⟩]
              current := s.segments.length
              writer := .ready })
      else none
    | .put n =>
      if s.writer = .ready ∨ s.writer = .writing then
        (s.segments[s.current]?).map fun segment =>
          (s.set s.current { segment with written := segment.written + n }).turn .writing
      else none
    | .finish =>
      if s.writer = .ready ∨ s.writer = .writing then
        (s.segments[s.current]?).map fun segment => (s.set s.current { segment with synced := false }).turn .free
      else none
    -- An error returns before the flag is updated.
    | .fail n =>
      if s.writer = .ready ∨ s.writer = .writing then
        (s.segments[s.current]?).map fun segment =>
          (s.set s.current { segment with written := segment.written + n }).turn .free
      else none
    | .pick t =>
      if s.sync t = .out ∧ s.writer = .free then some (s.move t (.picked s.current)) else none
    | .lock t =>
      match s.sync t with
      | .picked i =>
        (s.segments[i]?).bind fun segment =>
          if segment.lock = .free then some ((s.set i { segment with lock := .held }).move t (.locked i)) else none
      | _ => none
    | .fsync t fails =>
      match s.sync t with
      | .locked i =>
        (s.segments[i]?).bind fun segment =>
          if segment.lock = .held then
            some (if fails || segment.closed then (s.set i { segment with lock := .free }).move t .out
              else s.set i { segment with durable := segment.written, lock := .flushed })
          else none
      | _ => none
    | .flag t =>
      match s.sync t with
      | .locked i =>
        (s.segments[i]?).bind fun segment =>
          if segment.lock = .flushed then some ((s.set i { segment with synced := true, lock := .free }).move t .out)
          else none
      | _ => none
    | .close => if s.writer = .free then some (s.turn .closing) else none
    -- `Close` does not look at the error of the sync.
    | .closeSegment i fails =>
      if s.writer = .closing then
        (s.segments[i]?).bind fun segment =>
          if segment.lock ≠ .free ∨ segment.closed = true then none
          else if segment.synced || fails then some (s.set i { segment with closed := true })
          else some (s.set i { segment with durable := segment.written, closed := true })
      else none

/-- All bytes of the segment were in its file at the last sync. -/
def Segment.Durable (segment : Segment) : Prop := segment.durable = segment.written

/-- No byte is written to a segment between the sync of its file and the update of the flag, and a
    call that fails while the flag is set has written none. -/
def Apart (s : System T) : Label T → Prop
  | .put _ => ∀ segment ∈ s.segments[s.current]?, segment.lock ≠ .flushed
  | .fail n => ∀ segment ∈ s.segments[s.current]?,
      (segment.lock = .flushed → n = 0) ∧ (segment.synced = true → n = 0 ∧ s.writer = .ready)
  | _ => True

instance (s : System T) : (label : Label T) → Decidable (Apart s label)
  | .put _ => inferInstanceAs (Decidable (∀ segment ∈ s.segments[s.current]?, _))
  | .fail _ => inferInstanceAs (Decidable (∀ segment ∈ s.segments[s.current]?, _ ∧ _))
  | .enter | .room | .rotate _ | .finish | .pick _ | .lock _ | .fsync _ _ | .flag _ | .close
    | .closeSegment _ _ =>
    inferInstanceAs (Decidable True)

/-- A call has written to the segment and not yet updated its flag. -/
def System.BeingWritten (s : System T) (i : Nat) : Prop := s.writer = .writing ∧ i = s.current

/-- The flag of a segment is right, or the segment is being written to; what was flushed is durable. -/
def System.Covers (s : System T) (i : Nat) (segment : Segment) : Prop :=
  (segment.synced = true → segment.Durable ∨ s.BeingWritten i) ∧
    (segment.lock = .flushed → segment.Durable)

def Covered (s : System T) : Prop :=
  ∀ (i : Nat) (segment : Segment), s.segments[i]? = some segment → s.Covers i segment

section

omit [DecidableEq T]

variable {s : System T}

variable (covered : Covered s)
include covered

/-- Nobody is writing, so all flags are right. -/
theorem Covered.flags (quiet : s.writer ≠ .writing) (i : Nat) (segment : Segment)
    (found : s.segments[i]? = some segment) (synced : segment.synced = true) : segment.Durable :=
  ((covered i segment found).1 synced).resolve_right fun writing => quiet writing.1

theorem Covered.set (i : Nat) (covers : s.Covers i new) : Covered (s.set i new) :=
  forall_set (P := s.Covers) (fun j segment _ found => covered j segment found) covers

theorem Covered.turn (quiet : s.writer ≠ .writing) (pc : WriterPc) : Covered (s.turn pc) :=
  fun i segment found =>
  ⟨fun synced => .inl (covered.flags quiet i segment found synced), (covered i segment found).2⟩

/-- The writer has done something to the current segment. -/
theorem Covered.turn_set (covers : ((s.set s.current new).turn pc).Covers s.current new) :
    Covered ((s.set s.current new).turn pc) := by
  refine forall_set (P := ((s.set s.current new).turn pc).Covers)
    (fun i segment other found => ?_) covers
  exact ⟨fun synced =>
    .inl (((covered i segment found).1 synced).resolve_right fun writing => other writing.2),
    (covered i segment found).2⟩

end

theorem covered_next {label : Label T} (covered : Covered s) (apart : Apart s label)
    (moved : machine.next s label = some t) : Covered t := by
  cases label with
  | enter | room | close =>
    simp only [machine, Option.ite_none_right_eq_some, Option.some.injEq] at moved
    obtain ⟨here, rfl⟩ := moved
    exact covered.turn (by simp [here]) _
  | rotate fails =>
    simp only [machine, Option.ite_none_right_eq_some, Option.some.injEq] at moved
    obtain ⟨entered, rfl⟩ := moved
    have quiet : s.writer ≠ .writing := by simp [entered]
    split
    · exact covered.turn quiet _
    · intro i segment found
      obtain ⟨-, old⟩ | ⟨-, rfl⟩ := getElem?_concat_cases found
      · exact ⟨fun synced => .inl (covered.flags quiet i segment old synced), (covered i segment old).2⟩
      · exact ⟨fun _ => .inl rfl, nofun⟩
  | put n =>
    simp only [machine, Option.ite_none_right_eq_some] at moved
    obtain ⟨segment, found, rfl⟩ := Option.map_eq_some_iff.mp moved.2
    exact covered.turn_set ⟨fun _ => .inr ⟨rfl, rfl⟩, fun flushed =>
      absurd flushed (apart segment found)⟩
  | finish =>
    simp only [machine, Option.ite_none_right_eq_some] at moved
    obtain ⟨segment, found, rfl⟩ := Option.map_eq_some_iff.mp moved.2
    exact covered.turn_set ⟨nofun, (covered _ segment found).2⟩
  | fail n =>
    simp only [machine, Option.ite_none_right_eq_some] at moved
    obtain ⟨segment, found, rfl⟩ := Option.map_eq_some_iff.mp moved.2
    obtain ⟨between, under⟩ := apart segment found
    refine covered.turn_set ⟨fun synced => .inl ?_, fun flushed => ?_⟩
    · obtain ⟨rfl, ready⟩ := under synced
      exact covered.flags (by simp [ready]) _ segment found synced
    · obtain rfl := between flushed
      exact (covered _ segment found).2 flushed
  | pick t =>
    simp only [machine, Option.ite_none_right_eq_some, Option.some.injEq] at moved
    obtain ⟨_, rfl⟩ := moved
    exact covered
  | lock t =>
    simp only [machine] at moved
    split at moved
    · obtain ⟨segment, found, moved⟩ := Option.bind_eq_some_iff.mp moved
      obtain ⟨-, rfl⟩ := by simpa using moved
      exact covered.set _ ⟨(covered _ segment found).1, nofun⟩
    · cases moved
  | fsync t fails =>
    simp only [machine] at moved
    split at moved
    · obtain ⟨segment, found, moved⟩ := Option.bind_eq_some_iff.mp moved
      simp only [Option.ite_none_right_eq_some, Option.some.injEq] at moved
      obtain ⟨-, rfl⟩ := moved
      split
      · exact covered.set _ ⟨(covered _ segment found).1, nofun⟩
      · exact covered.set _ ⟨fun _ => .inl rfl, fun _ => rfl⟩
    · cases moved
  | flag t =>
    simp only [machine] at moved
    split at moved
    · obtain ⟨segment, found, moved⟩ := Option.bind_eq_some_iff.mp moved
      simp only [Option.ite_none_right_eq_some, Option.some.injEq] at moved
      obtain ⟨flushed, rfl⟩ := moved
      exact covered.set _ ⟨fun _ => .inl ((covered _ segment found).2 flushed), nofun⟩
    · cases moved
  | closeSegment i fails =>
    simp only [machine, Option.ite_none_right_eq_some] at moved
    obtain ⟨segment, found, moved⟩ := Option.bind_eq_some_iff.mp moved.2
    split at moved
    · cases moved
    · split at moved
      · obtain rfl := Option.some.inj moved
        exact covered.set _ ⟨(covered _ segment found).1, (covered _ segment found).2⟩
      · obtain rfl := Option.some.inj moved
        exact covered.set _ ⟨fun _ => .inl rfl, fun _ => rfl⟩

/-- In a run in which no byte is written between the sync of a file and the update of its flag, and
    no call that fails leaves bytes behind under a flag that is set: in every state, each segment
    whose flag is set is on disk as a whole, but for one that a call of `Write` or `WriteBatch` has
    just written to, whose flag is still that of before. `Close` has the lock of the writers, so it
    skips only what is on disk. -/
theorem flagged_segments_durable {labels : List (Label T)} {s : System T}
    (ran : (machine.restrict Apart).run opened labels = some s) :
    (∀ (i : Nat) (segment : Segment), s.segments[i]? = some segment → segment.synced = true →
      ¬ s.BeingWritten i → segment.Durable) ∧
    ∀ i fails t, machine.next s (.closeSegment i fails) = some t →
      ∀ segment, s.segments[i]? = some segment → segment.synced = true → segment.Durable := by
  have fresh : Covered (opened : System T) := by
    intro i segment found
    rw [List.mem_singleton.mp (List.mem_of_getElem? found)]
    exact ⟨fun _ => .inl rfl, nofun⟩
  have covered : Covered s := by
    refine Machine.run_invariant _ (fun s label t kept moved => ?_) fresh ran
    obtain ⟨apart, moved⟩ := (Machine.restrict_next _).mp moved
    exact covered_next kept apart moved
  refine ⟨fun i segment found synced idle => ?_, fun i fails t closes segment found synced => ?_⟩
  · exact ((covered i segment found).1 synced).resolve_right idle
  · simp only [machine, Option.ite_none_right_eq_some] at closes
    exact covered.flags (by simp [closes.1]) i segment found synced

/-- A write of 17 bytes, a sync of the file, another write, and the update of the flag. -/
def racing : List (Label Unit) :=
  [.enter, .room, .put 16, .put 1, .finish, .pick (), .lock (), .fsync () false, .enter, .room,
    .put 16, .put 1, .finish, .flag (), .close, .closeSegment 0 false]

/-- `Close` finds the flag set and leaves half of the bytes unsynced. -/
theorem close_skips_unsynced_bytes :
    ∃ s, machine.run opened racing = some s ∧ s.segments = [⟨34, 17, true, .free, true⟩] :=
  Option.map_eq_some_iff.mp (by decide +kernel)

/-- The same calls one after the other, and one more write after a rotation. -/
def inTurn : List (Label Unit) :=
  [.enter, .room, .put 16, .put 1, .finish, .pick (), .lock (), .fsync () false, .flag (), .enter,
    .rotate false, .put 16, .put 1, .finish, .close, .closeSegment 0 false, .closeSegment 1 false]

theorem calls_in_turn_durable :
    ∃ s, (machine.restrict Apart).run opened inTurn = some s ∧
      s.segments.map Segment.closed = [true, true] ∧
      ∀ (i : Nat) (segment : Segment), s.segments[i]? = some segment → segment.synced = true →
        ¬ s.BeingWritten i → segment.Durable := by
  refine exists_of_view (fun s => s.segments.map Segment.closed) [true, true]
    (by decide +kernel) fun s ran seen => ?_
  exact ⟨seen, (flagged_segments_durable ran).1⟩

end

end Portask.Storage.WalSync
