import Portask.Lib.Assoc
import Portask.Lib.Machine

/-! # Threads on reader/writer locks

Go's `sync.RWMutex`: a writer announces itself and then waits for the readers to leave, and
readers that come after the announcement queue until it has unlocked. Threads run
operations, each a fixed sequence of acquisitions and releases. If at some moment all
operations in progress acquire their locks in one order, then one of them can go on.
-/

namespace Portask.Lib

open AList

inductive LockMode where
  | read
  | write
  deriving DecidableEq

inductive LockAction (M : Type*) where
  | acquire (mode : LockMode) (m : M)
  | release (mode : LockMode) (m : M)
  deriving DecidableEq

structure RWMutex (T : Type*) where
  readers : List T
  queued : List T
  announced : Option T
  writer : Option T

def RWMutex.free {T : Type*} : RWMutex T := ⟨[], [], none, none⟩

/-- No writer is in the way of a reader. -/
def RWMutex.Open {T : Type*} (lock : RWMutex T) : Prop := lock.announced = none ∧ lock.writer = none

instance {T : Type*} (lock : RWMutex T) : Decidable lock.Open :=
  decidable_of_iff (lock.announced.isNone ∧ lock.writer.isNone) (by simp [RWMutex.Open])

/-- The operations in progress, with what each has still to do. -/
abbrev Running (M O T : Type*) := AList fun _ : T => O × List (LockAction M)

/-- The threads that have been woken have got what they waited for. -/
def Running.wake {M O T : Type*} [DecidableEq T] (running : Running M O T) (woken : List T) :
    Running M O T :=
  sweep (fun t r => some (if t ∈ woken then (r.1, r.2.tail) else r)) running

structure LockSystem (M O T : Type*) where
  locks : M → RWMutex T
  running : Running M O T

namespace LockSystem

inductive Label (O T : Type*) where
  | call (t : T) (o : O)
  | step (t : T)

variable {M O T : Type*} [DecidableEq M] [DecidableEq T]

def init : LockSystem M O T := ⟨fun _ => .free, ∅⟩

section

variable (s : LockSystem M O T)

def setLock (m : M) (lock : RWMutex T) : LockSystem M O T :=
  { s with locks := fun k => if k = m then lock else s.locks k }

/-- The operation of a thread goes on with `rest`. -/
def goOn (t : T) (o : O) (rest : List (LockAction M)) : LockSystem M O T :=
  { s with running := s.running.insert t (o, rest) }

/-- The queued readers have the lock. -/
def wake (woken : List T) : LockSystem M O T :=
  { s with running := s.running.wake woken }

def stepOf (t : T) (o : O) : List (LockAction M) → Option (LockSystem M O T)
  | [] => some { s with running := s.running.erase t }
  | .acquire .read m :: rest =>
    let lock := s.locks m
    if t ∈ lock.queued then none
    else if lock.Open then
      some ((s.setLock m { lock with readers := t :: lock.readers }).goOn t o rest)
    else some (s.setLock m { lock with queued := t :: lock.queued })
  | .acquire .write m :: rest =>
    let lock := s.locks m
    if lock.announced = some t then
      if lock.readers = [] then
        some ((s.setLock m { lock with announced := none, writer := some t }).goOn t o rest)
      else none
    else if lock.Open then some (s.setLock m { lock with announced := some t })
    else none
  | .release .read m :: rest =>
    let lock := s.locks m
    if t ∈ lock.readers then
      some ((s.setLock m { lock with readers := lock.readers.erase t }).goOn t o rest)
    else none
  | .release .write m :: rest =>
    let lock := s.locks m
    if lock.writer = some t then
      some (((s.wake lock.queued).setLock m
        { lock with writer := none, readers := lock.queued ++ lock.readers, queued := [] }).goOn t o rest)
    else none

end

def machine (program : O → List (LockAction M)) : Machine (LockSystem M O T) (Label O T) where
  next s
    | .call t o => if t ∈ s.running then none else some (s.goOn t o (program o))
    | .step t => (s.running.lookup t).bind fun r => s.stepOf t r.1 r.2

end LockSystem

/-- In which mode a lock is held that is released next in the rest of a program. -/
def held {M : Type*} [DecidableEq M] : List (LockAction M) → M → Option LockMode
  | [], _ => none
  | .acquire _ m :: rest, k => if k = m then none else held rest k
  | .release mode m :: rest, k => if k = m then some mode else held rest k

/-- What is acquired is not held already and is then released, and what is released is not
    released again. -/
def Bracketed {M : Type*} [DecidableEq M] : List (LockAction M) → Prop
  | [] => True
  | .acquire mode m :: rest => held rest m = some mode ∧ Bracketed rest
  | .release _ m :: rest => held rest m = none ∧ Bracketed rest

/-- Every acquisition is of a lock above all those that are held. -/
def Ordered {M : Type*} [DecidableEq M] (rank : M → Nat) : List (LockAction M) → Prop
  | [] => True
  | .acquire _ m :: rest =>
    (∀ k, k ≠ m → (held rest k).isSome → rank k < rank m) ∧ Ordered rank rest
  | .release _ _ :: rest => Ordered rank rest

section Programs

variable {M : Type*} [DecidableEq M] {rest : List (LockAction M)} {mode : LockMode} {m k : M}

theorem held_of_acquire (bracketed : Bracketed (.acquire mode m :: rest)) :
    held rest k = if k = m then some mode else held (.acquire mode m :: rest) k := by
  split
  · next here => rw [here, bracketed.1]
  · next differ => rw [held, if_neg differ]

theorem Bracketed.tail (bracketed : Bracketed (a :: rest)) : Bracketed rest := by
  cases a with
  | acquire => exact bracketed.2
  | release => exact bracketed.2

theorem Ordered.tail (ordered : Ordered rank (a :: rest)) : Ordered rank rest := by
  cases a with
  | acquire => exact ordered.2
  | release => exact ordered

theorem Ordered.of_suffix (suffix : rest <:+ program) (ordered : Ordered rank program) :
    Ordered rank rest := by
  induction program with
  | nil =>
    rw [List.suffix_nil.mp suffix]
    trivial
  | cons a later ih =>
    rcases List.suffix_cons_iff.mp suffix with rfl | inside
    · exact ordered
    · exact ih inside ordered.tail

end Programs

def LockAction.target {M : Type*} : LockAction M → M
  | .acquire _ m | .release _ m => m

theorem held_tail [DecidableEq M] {k : M} (differ : k ≠ a.target) :
    held rest k = held (a :: rest) k := by
  cases a with
  | acquire | release => exact (if_neg differ).symm

section Waiting

variable {M O T : Type*} [DecidableEq T]

def Running.Wants (running : Running M O T) (t : T) (mode : LockMode) (m : M) : Prop :=
  ∃ o rest, running.lookup t = some (o, .acquire mode m :: rest)

variable {running : Running M O T} {t u : T} {mode : LockMode} {m : M}

theorem wants_insert (other : u ≠ t) (program : O × List (LockAction M)) :
    Running.Wants (running.insert t program) u mode m ↔ running.Wants u mode m := by
  rw [Running.Wants, lookup_insert_ne other, Running.Wants]

/-- A thread whose next action is another does not wait for the lock. -/
theorem ne_of_wants (found : running.lookup t = some (o, a :: rest))
    (wants : running.Wants u mode m) (differ : a ≠ .acquire mode m) : u ≠ t := by
  rintro rfl
  obtain ⟨o', rest', there⟩ := wants
  cases found.symm.trans there
  exact differ rfl

theorem lookup_wake (woken : List T) (u : T) :
    (running.wake woken).lookup u =
      (running.lookup u).map fun r => if u ∈ woken then (r.1, r.2.tail) else r := by
  rw [Running.wake, lookup_sweep]
  cases running.lookup u with
  | none => rfl
  | some r => rfl

theorem wants_wake (want : ∀ u ∈ woken, running.Wants u .read m) (differ : ¬ (mode = .read ∧ k = m))
    (wants : running.Wants u mode k) : (running.wake woken).Wants u mode k := by
  obtain ⟨o, rest, found⟩ := wants
  have asleep : u ∉ woken := by
    intro inside
    obtain ⟨o', rest', there⟩ := want u inside
    cases found.symm.trans there
    exact differ ⟨rfl, rfl⟩
  exact ⟨o, rest, by simp [lookup_wake, found, asleep]⟩

end Waiting

section Holding

variable {M O T : Type*} [DecidableEq M] [DecidableEq T]

def Running.held (running : Running M O T) (t : T) (m : M) : Option LockMode :=
  (running.lookup t).bind fun r => Lib.held r.2 m

/-- The lock knows who holds it and who waits for it. -/
structure RWMutex.Ok (running : Running M O T) (m : M) (lock : RWMutex T) : Prop where
  readers : ∀ t, t ∈ lock.readers ↔ running.held t m = some .read
  nodup : lock.readers.Nodup
  writer : ∀ t, lock.writer = some t ↔ running.held t m = some .write
  announced : ∀ t, lock.announced = some t → lock.writer = none ∧ running.Wants t .write m
  queued : ∀ t ∈ lock.queued, running.Wants t .read m
  nodupQueued : lock.queued.Nodup
  closed : lock.queued ≠ [] → ¬ lock.Open

variable {running : Running M O T} {t u : T} {o : O} {a : LockAction M}
  {rest : List (LockAction M)} {m k : M}
  {lock : RWMutex T}

theorem held_insert (program : List (LockAction M)) :
    Running.held (running.insert t (o, program)) u m = if u = t then held program m
      else running.held u m := by
  split
  · next here => rw [here, Running.held, lookup_insert, Option.bind_some]
  · next differ => rw [Running.held, lookup_insert_ne differ, Running.held]

/-- An operation that begins or ends holds nothing and waits for nothing. -/
theorem RWMutex.Ok.congr {after : Running M O T} (ok : lock.Ok running k)
    (held : ∀ u, after.held u k = running.held u k)
    (wants : ∀ u mode, running.Wants u mode k → after.Wants u mode k) : lock.Ok after k where
  readers u := by rw [held, ok.readers]
  __ := ok
  writer u := by rw [held, ok.writer]
  announced u out := ⟨(ok.announced u out).1, wants u _ (ok.announced u out).2⟩
  queued u out := wants u _ (ok.queued u out)

/-- What a thread does about another lock changes nothing here. -/
theorem RWMutex.Ok.frame (ok : lock.Ok running k) (found : running.lookup t = some (o, a :: rest))
    (differ : k ≠ a.target) : lock.Ok (running.insert t (o, rest)) k := by
  refine ok.congr (fun u => ?_) fun u mode wants => ?_
  · rw [held_insert]
    split
    · next here => rw [here, Running.held, found, Option.bind_some, held_tail differ]
    · rfl
  · have other : u ≠ t := ne_of_wants found wants fun here => differ (by rw [here]; rfl)
    exact (wants_insert other _).mpr wants

section

variable (ok : lock.Ok running m)
include ok

theorem RWMutex.Ok.acquireRead (found : running.lookup t = some (o, .acquire .read m :: rest))
    (bracketed : Bracketed (.acquire .read m :: rest)) (waits : t ∉ lock.queued) :
    RWMutex.Ok (running.insert t (o, rest)) m { lock with readers := t :: lock.readers } := by
  have before : running.held t m = none := by simp [Running.held, found, held]
  refine ⟨fun u => ?_, ?_, fun u => ?_, fun u out => ?_, fun u out => ?_, ok.nodupQueued, ok.closed⟩
  · rw [held_insert]
    split
    · next here => simp [here, bracketed.1]
    · next differ => simp [differ, ok.readers]
  · refine List.nodup_cons.mpr ⟨fun inside => ?_, ok.nodup⟩
    rw [ok.readers, before] at inside
    cases inside
  · rw [held_insert, ok.writer]
    split
    · next here => simp [here, before, bracketed.1]
    · rfl
  · obtain ⟨none, wants⟩ := ok.announced u out
    exact ⟨none, (wants_insert (ne_of_wants found wants (by simp)) _).mpr wants⟩
  · have other : u ≠ t := fun here => waits (here ▸ out)
    exact (wants_insert other _).mpr (ok.queued u out)

theorem RWMutex.Ok.acquireWrite (found : running.lookup t = some (o, .acquire .write m :: rest))
    (bracketed : Bracketed (.acquire .write m :: rest)) (mine : lock.announced = some t)
    (empty : lock.readers = []) :
    RWMutex.Ok (running.insert t (o, rest)) m
    { lock with announced := none, writer := some t } := by
  have none := (ok.announced t mine).1
  refine ⟨fun u => ?_, ok.nodup, fun u => ?_, fun u out => ?_, fun u out => ?_, ok.nodupQueued,
    fun _ open_ => ?_⟩
  · rw [held_insert]
    split
    · next here => simp [empty, bracketed.1]
    · exact ok.readers u
  · rw [held_insert]
    split
    · next here => simp [here, bracketed.1]
    · next differ =>
        rw [← ok.writer u, none]
        simp [Ne.symm differ]
  · cases out
  · exact (wants_insert (ne_of_wants found (ok.queued u out) (by simp)) _).mpr (ok.queued u out)
  · cases open_.2

theorem RWMutex.Ok.releaseRead (found : running.lookup t = some (o, .release .read m :: rest))
    (bracketed : Bracketed (.release .read m :: rest)) :
    RWMutex.Ok (running.insert t (o, rest)) m { lock with readers := lock.readers.erase t } := by
  have before : running.held t m = some .read := by simp [Running.held, found, held]
  refine ⟨fun u => ?_, ok.nodup.erase t, fun u => ?_, fun u out => ?_, fun u out =>
    ?_, ok.nodupQueued, ok.closed⟩
  · rw [held_insert, ok.nodup.mem_erase_iff]
    split
    · next here => simp [here, bracketed.1]
    · next differ => simp [differ, ok.readers]
  · rw [held_insert, ok.writer]
    split
    · next here => simp [here, before, bracketed.1]
    · rfl
  · obtain ⟨none, wants⟩ := ok.announced u out
    exact ⟨none, (wants_insert (ne_of_wants found wants (by simp)) _).mpr wants⟩
  · exact (wants_insert (ne_of_wants found (ok.queued u out) (by simp)) _).mpr (ok.queued u out)

theorem RWMutex.Ok.releaseWrite (found : running.lookup t = some (o, .release .write m :: rest))
    (bracketed : Bracketed (.release .write m :: rest)) (mine : lock.writer = some t)
    (none : lock.queued = []) :
    RWMutex.Ok (running.insert t (o, rest)) m { lock with writer := .none } := by
  have before : running.held t m = some .write := by simp [Running.held, found, held]
  refine ⟨fun u => ?_, ok.nodup, fun u => ?_, fun u out => ?_, fun u out => ?_, ok.nodupQueued,
    fun some => ?_⟩
  · rw [held_insert]
    split
    · next here => simp [here, ok.readers, before, bracketed.1]
    · exact ok.readers u
  · rw [held_insert]
    split
    · next here => simp [bracketed.1]
    · next differ =>
        rw [← ok.writer u, mine]
        simp [Ne.symm differ]
  · exact absurd ((ok.announced u out).1.symm.trans mine) (by simp)
  · rw [none] at out
    cases out
  · exact absurd none some

theorem RWMutex.Ok.queue (wants : running.Wants t .read m) (waits : t ∉ lock.queued)
    (shut : ¬ lock.Open) : RWMutex.Ok running m { lock with queued := t :: lock.queued } where
  __ := ok
  queued u out := by
    rcases List.mem_cons.mp out with rfl | before
    · exact wants
    · exact ok.queued u before
  nodupQueued := List.nodup_cons.mpr ⟨waits, ok.nodupQueued⟩
  closed _ := shut

theorem RWMutex.Ok.announce (wants : running.Wants t .write m) (free : lock.Open) :
    RWMutex.Ok running m { lock with announced := some t } where
  __ := ok
  announced u out := by
    cases out
    exact ⟨free.2, wants⟩
  closed _ open_ := nomatch open_.1

end

section Wake

variable {woken : List T}

theorem held_wake (bracketed : ∀ u r, running.lookup u = some r → Bracketed r.2)
    (want : ∀ u ∈ woken, running.Wants u .read m) (u : T) (k : M) :
    (running.wake woken).held u k = if u ∈ woken ∧ k = m then some .read else running.held u k := by
  rw [Running.held, lookup_wake]
  by_cases inside : u ∈ woken
  · obtain ⟨o, rest, found⟩ := want u inside
    have tail := held_of_acquire (k := k) (bracketed u _ found)
    simpa [inside, found, Running.held] using tail
  · cases found : running.lookup u with
    | none | some r => simp [inside, Running.held, found]

theorem RWMutex.Ok.wake (ok : lock.Ok running m)
    (bracketed : ∀ u r, running.lookup u = some r → Bracketed r.2) :
    RWMutex.Ok (running.wake lock.queued) m
    { lock with readers := lock.queued ++ lock.readers, queued := [] } where
  readers u := by
    rw [held_wake bracketed ok.queued, List.mem_append, ok.readers]
    by_cases inside : u ∈ lock.queued
    · simp [inside]
    · simp [inside]
  nodup := by
    refine List.nodup_append.mpr ⟨ok.nodupQueued, ok.nodup, fun u out v reads => ?_⟩
    rintro rfl
    obtain ⟨o, rest, found⟩ := ok.queued u out
    rw [ok.readers, Running.held, found] at reads
    simp [Lib.held] at reads
  writer u := by
    rw [held_wake bracketed ok.queued, ok.writer]
    by_cases inside : u ∈ lock.queued
    · obtain ⟨o, rest, found⟩ := ok.queued u inside
      simp [inside, Running.held, found, Lib.held]
    · simp [inside]
  announced u out :=
    ⟨(ok.announced u out).1, wants_wake ok.queued (by simp) (ok.announced u out).2⟩
  queued u out := nomatch out
  nodupQueued := List.nodup_nil
  closed some := absurd rfl some

end Wake

end Holding

namespace LockSystem

variable {M O T : Type*} [DecidableEq M] [DecidableEq T]

/-- What a thread does next, with the branches of `stepOf` taken apart. -/
inductive Acts (s : LockSystem M O T) (t : T) (o : O) :
    List (LockAction M) → LockSystem M O T → Prop
  | done : Acts s t o [] { s with running := s.running.erase t }
  | reads {m rest} (waits : t ∉ (s.locks m).queued) (free : (s.locks m).Open) :
      Acts s t o (.acquire .read m :: rest)
        ((s.setLock m { s.locks m with readers := t :: (s.locks m).readers }).goOn t o rest)
  | queues {m rest} (waits : t ∉ (s.locks m).queued) (shut : ¬ (s.locks m).Open) :
      Acts s t o (.acquire .read m :: rest)
        (s.setLock m { s.locks m with queued := t :: (s.locks m).queued })
  | announces {m rest} (free : (s.locks m).Open) :
      Acts s t o (.acquire .write m :: rest) (s.setLock m { s.locks m with announced := some t })
  | writes {m rest} (mine : (s.locks m).announced = some t)
      (empty : (s.locks m).readers = []) :
      Acts s t o (.acquire .write m :: rest)
        ((s.setLock m { s.locks m with announced := none, writer := some t }).goOn t o rest)
  | leaves {m rest} (mine : t ∈ (s.locks m).readers) :
      Acts s t o (.release .read m :: rest)
        ((s.setLock m { s.locks m with readers := (s.locks m).readers.erase t }).goOn t o rest)
  | unlocks {m rest} (mine : (s.locks m).writer = some t) :
      Acts s t o (.release .write m :: rest)
        (((s.wake (s.locks m).queued).setLock m
          { s.locks m with
            writer := none, readers := (s.locks m).queued ++ (s.locks m).readers, queued := [] }).goOn t o rest)

theorem acts_of_stepOf {s after : LockSystem M O T} {t : T} {o : O} {actions : List (LockAction M)}
    (stepped : s.stepOf t o actions = some after) : Acts s t o actions after := by
  revert stepped
  fun_cases stepOf s t o actions with
  | case1 =>
    rintro ⟨⟩
    exact .done
  | case3 m rest lock waits free =>
    rintro ⟨⟩
    exact .reads waits free
  | case4 m rest lock waits shut =>
    rintro ⟨⟩
    exact .queues waits shut
  | case5 m rest lock mine empty =>
    rintro ⟨⟩
    exact .writes mine empty
  | case7 m rest lock mine free =>
    rintro ⟨⟩
    exact .announces free
  | case9 m rest lock mine =>
    rintro ⟨⟩
    exact .leaves mine
  | case11 m rest lock mine =>
    rintro ⟨⟩
    exact .unlocks mine
  | _ => simp

structure Inv (program : O → List (LockAction M)) (s : LockSystem M O T) : Prop where
  rest : ∀ t r, s.running.lookup t = some r → Bracketed r.2 ∧ r.2 <:+ program r.1
  locks : ∀ m, (s.locks m).Ok s.running m

variable {program : O → List (LockAction M)} {s : LockSystem M O T} {t : T} {o : O}
  {rest : List (LockAction M)}
  {m : M} {lock : RWMutex T}

omit [DecidableEq T] in
@[simp] theorem setLock_locks_self : (s.setLock m lock).locks m = lock := if_pos rfl

omit [DecidableEq T] in
@[simp] theorem setLock_setLock : (s.setLock m lock).setLock m other = s.setLock m other := by
  simp only [setLock, mk.injEq, and_true]
  funext k
  split <;> rfl

theorem init_inv : Inv program (init : LockSystem M O T) where
  rest _ _ found := nomatch found
  locks m := by
    constructor
    all_goals simp [init, RWMutex.free, Running.held]

theorem ok_setLock {running : Running M O T} (here : lock.Ok running m)
    (others : ∀ k, k ≠ m → (s.locks k).Ok running k) (k : M) :
    ((s.setLock m lock).locks k).Ok running k := by
  rw [setLock]
  dsimp only
  split
  · next same => exact same ▸ here
  · next differ => exact others k differ

section

variable (inv : Inv program s)
include inv

theorem Inv.setLock (ok : lock.Ok s.running m) : Inv program (s.setLock m lock) where
  rest := inv.rest
  locks := ok_setLock ok fun k _ => inv.locks k

theorem Inv.goOn {a : LockAction M} (found : s.running.lookup t = some (o, a :: rest))
    (ok : lock.Ok (s.running.insert t (o, rest)) a.target) :
    Inv program ((s.setLock a.target lock).goOn t o rest) where
  rest := by
    obtain ⟨bracketed, suffix⟩ := inv.rest t _ found
    exact forall_insert ⟨bracketed.tail, (List.suffix_cons a rest).trans suffix⟩ inv.rest
  locks := ok_setLock ok fun k differ => (inv.locks k).frame found differ

theorem Inv.call (idle : t ∉ s.running) (bracketed : Bracketed (program o))
    (nothing : ∀ m, held (program o) m = none) : Inv program (s.goOn t o (program o)) where
  rest := forall_insert ⟨bracketed, List.suffix_rfl⟩ inv.rest
  locks k := by
    have none : s.running.lookup t = none := lookup_eq_none.mpr idle
    refine (inv.locks k).congr (fun u => ?_) fun u mode wants => ?_
    · rw [LockSystem.goOn, held_insert]
      split
      · next here =>
          subst here
          simp [nothing, Running.held, none]
      · rfl
    · refine (wants_insert ?_ _).mpr wants
      rintro rfl
      obtain ⟨o', rest', there⟩ := wants
      cases none.symm.trans there

theorem Inv.done (found : s.running.lookup t = some (o, [])) :
    Inv program { s with running := s.running.erase t } where
  rest u r there := inv.rest u r (lookup_of_erase there)
  locks k := by
    refine (inv.locks k).congr (fun u => ?_) fun u mode wants => ?_
    · by_cases here : u = t
      · subst here
        simp [Running.held, found, held]
      · simp [Running.held, lookup_erase_ne here]
    · obtain ⟨o', rest', there⟩ := wants
      have other : u ≠ t := by
        rintro rfl
        cases found.symm.trans there
      exact ⟨o', rest', by rw [lookup_erase_ne other, there]⟩

theorem Inv.wake (m : M) :
    Inv program ((s.wake (s.locks m).queued).setLock m
      { s.locks m with readers := (s.locks m).queued ++ (s.locks m).readers, queued := [] }) where
  rest u r there := by
    change (s.running.wake _).lookup u = some r at there
    rw [lookup_wake] at there
    obtain ⟨before, found, rfl⟩ := Option.map_eq_some_iff.mp there
    obtain ⟨bracketed, suffix⟩ := inv.rest u before found
    split
    · next woken =>
        obtain ⟨o', rest', wants⟩ := (inv.locks m).queued u woken
        cases found.symm.trans wants
        exact ⟨bracketed.tail, (List.suffix_cons _ _).trans suffix⟩
    · exact ⟨bracketed, suffix⟩
  locks := by
    have bracketed : ∀ u r, s.running.lookup u = some r → Bracketed r.2 :=
      fun u r found => (inv.rest u r found).1
    refine ok_setLock ((inv.locks m).wake bracketed) fun k differ =>
      (inv.locks k).congr (fun u => ?_) ?_
    · exact (held_wake bracketed (inv.locks m).queued u k).trans (if_neg fun both => differ both.2)
    · exact fun u mode => wants_wake (inv.locks m).queued fun both => differ both.2

end

variable {after : LockSystem M O T}

theorem Inv.step (inv : Inv program s) (found : s.running.lookup t = some (o, rest))
    (acts : Acts s t o rest after) : Inv program after := by
  obtain ⟨bracketed, -⟩ := inv.rest t _ found
  cases acts with
  | done => exact inv.done found
  | @reads m rest waits free =>
    exact inv.goOn found ((inv.locks m).acquireRead found bracketed waits)
  | @queues m rest waits shut => exact inv.setLock ((inv.locks m).queue ⟨o, rest, found⟩ waits shut)
  | @announces m rest free => exact inv.setLock ((inv.locks m).announce ⟨o, rest, found⟩ free)
  | @writes m rest mine empty =>
    exact inv.goOn found ((inv.locks m).acquireWrite found bracketed mine empty)
  | @leaves m rest mine => exact inv.goOn found ((inv.locks m).releaseRead found bracketed)
  | @unlocks m rest mine =>
    have ready : ((s.wake (s.locks m).queued).running).lookup t = some (o, .release .write m :: rest) := by
      have asleep : t ∉ (s.locks m).queued :=
        fun inside => ne_of_wants found ((inv.locks m).queued t inside) (by simp) rfl
      simp [LockSystem.wake, lookup_wake, found, asleep]
    have woken := inv.wake m
    have unlocked := woken.goOn ready ((woken.locks m).releaseWrite ready bracketed (by simpa using mine) (by simp))
    simpa [LockAction.target] using unlocked

theorem Inv.next (inv : Inv program s) (bracketed : ∀ o, Bracketed (program o))
    (nothing : ∀ o m, held (program o) m = none) {label : Label O T}
    (stepped : (machine program).next s label = some after) : Inv program after := by
  cases label with
  | call t o =>
    simp only [machine] at stepped
    split at stepped
    · cases stepped
    · next idle =>
        cases stepped
        exact inv.call idle (bracketed o) (nothing o)
  | step t =>
    obtain ⟨r, found, stepped⟩ := Option.bind_eq_some_iff.mp stepped
    exact inv.step found (acts_of_stepOf stepped)

theorem Acts.operation (found : s.running.lookup t = some (o, rest))
    (acts : Acts s t o rest after) :
    ∀ u r, after.running.lookup u = some r →
      ∃ before, s.running.lookup u = some before ∧ before.1 = r.1 := by
  have stays : ∀ u r, s.running.lookup u = some r →
      ∃ before, s.running.lookup u = some before ∧ before.1 = r.1 :=
    fun u r there => ⟨r, there, rfl⟩
  cases acts with
  | done => exact fun u r there => stays u r (lookup_of_erase there)
  | reads | writes | leaves => exact forall_insert ⟨_, found, rfl⟩ stays
  | queues | announces => exact stays
  | unlocks =>
    refine forall_insert ⟨_, found, rfl⟩ fun u r woken => ?_
    change (s.running.wake _).lookup u = some r at woken
    rw [lookup_wake] at woken
    obtain ⟨before, found, rfl⟩ := Option.map_eq_some_iff.mp woken
    exact ⟨before, found, by split <;> rfl⟩

/-- No operation in progress can go on. -/
def Stuck (program : O → List (LockAction M)) (s : LockSystem M O T) : Prop :=
  ∀ t, (machine program).next s (.step t) = none

theorem Stuck.stepOf (stuck : Stuck program s) (found : s.running.lookup t = some (o, rest)) :
    s.stepOf t o rest = none := by
  have none := stuck t
  simpa [machine, found] using none

/-- A thread that cannot go on waits for a lock. -/
theorem waits_of_stuck (inv : Inv program s) (stuck : Stuck program s)
    (found : s.running.lookup t = some (o, rest)) :
    ∃ mode m later, rest = .acquire mode m :: later := by
  have none := stuck.stepOf found
  match rest with
  | [] => cases none
  | .acquire mode m :: later => exact ⟨mode, m, later, rfl⟩
  | .release .read m :: later =>
    have reads : t ∈ (s.locks m).readers :=
      ((inv.locks m).readers t).mpr (by simp [Running.held, found, held])
    simp [LockSystem.stepOf, reads] at none
  | .release .write m :: later =>
    have writes : (s.locks m).writer = some t :=
      ((inv.locks m).writer t).mpr (by simp [Running.held, found, held])
    simp [LockSystem.stepOf, writes] at none

/-- If nobody can go on, then somebody holds a lock that a thread waits for. -/
theorem holder_of_waits (inv : Inv program s) (stuck : Stuck program s)
    (wants : s.running.Wants t mode m) : ∃ u, (s.running.held u m).isSome := by
  -- Of a writer that has announced itself it is a reader that is in the way.
  have behind : ∀ u, (s.locks m).announced = some u → ∃ v, (s.running.held v m).isSome := by
    intro u announced
    obtain ⟨none, o, rest, found⟩ := (inv.locks m).announced u announced
    have blocked := stuck.stepOf found
    cases readers : (s.locks m).readers with
    | nil => simp [LockSystem.stepOf, announced, readers] at blocked
    | cons v later => exact ⟨v, by rw [((inv.locks m).readers v).mp (by simp [readers])]; rfl⟩
  have shut : ¬ (s.locks m).Open → ∃ u, (s.running.held u m).isSome := by
    intro shut
    cases writer : (s.locks m).writer with
    | some u => exact ⟨u, by rw [((inv.locks m).writer u).mp writer]; rfl⟩
    | none =>
      cases announced : (s.locks m).announced with
      | some u => exact behind u announced
      | none => exact absurd ⟨announced, writer⟩ shut
  obtain ⟨o, rest, found⟩ := wants
  have blocked := stuck.stepOf found
  cases mode with
  | read =>
    by_cases queued : t ∈ (s.locks m).queued
    · exact shut ((inv.locks m).closed (List.ne_nil_of_mem queued))
    · by_cases free : (s.locks m).Open
      · simp [LockSystem.stepOf, queued, free] at blocked
      · exact shut free
  | write =>
    by_cases announced : (s.locks m).announced = some t
    · exact behind t announced
    · by_cases free : (s.locks m).Open
      · simp [LockSystem.stepOf, announced, free] at blocked
      · exact shut free

/-- If the operations in progress acquire their locks in one order, then one of them can go on. -/
theorem not_stuck_of_ordered (inv : Inv program s) (rank : M → Nat) (bound : Nat)
    (bounded : ∀ m, rank m < bound)
    (ordered : ∀ t r, s.running.lookup t = some r → Ordered rank (program r.1))
    (busy : ∃ t, t ∈ s.running) : ¬ Stuck program s := by
  intro stuck
  -- Whoever waits for a lock of some rank waits for somebody who waits for one of a higher rank.
  have climb : ∀ gap t mode m, bound - rank m = gap → ¬ s.running.Wants t mode m := by
    intro gap
    induction gap using Nat.strongRecOn with
    | ind gap ih =>
      rintro t mode m rfl wants
      obtain ⟨u, holds⟩ := holder_of_waits inv stuck wants
      obtain ⟨held', mine⟩ := Option.isSome_iff_exists.mp holds
      obtain ⟨⟨o, rest⟩, found, mine⟩ := Option.bind_eq_some_iff.mp mine
      obtain ⟨mode', m', later, rfl⟩ := waits_of_stuck inv stuck found
      have differ : m ≠ m' := by
        rintro rfl
        simp [held] at mine
      have above : rank m < rank m' := by
        have suffix := (inv.rest u _ found).2
        refine ((ordered u _ found).of_suffix suffix).1 m differ ?_
        rw [held_tail (a := .acquire mode' m') differ, mine]
        rfl
      have low := bounded m'
      exact ih (bound - rank m') (by omega) u mode' m' rfl ⟨o, later, found⟩
  obtain ⟨t, inside⟩ := busy
  obtain ⟨⟨o, rest⟩, found⟩ := Option.isSome_iff_exists.mp (lookup_isSome.mpr inside)
  obtain ⟨mode, m, later, rfl⟩ := waits_of_stuck inv stuck found
  exact climb _ t mode m rfl ⟨o, later, found⟩

end LockSystem

end Portask.Lib
