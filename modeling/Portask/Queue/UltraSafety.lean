import Portask.Queue.UltraRecord

/-! # The interleaved ultra queue, as long as its callers keep apart

On the fast path the position word lags one behind the positions in use, so nothing but
luck keeps a second caller from taking up the same position. In every run in which that
does not happen the steps are those of the ring, and no message is lost or delivered
twice.
-/

namespace Portask.Queue.UltraThreads

open Lib Lib.Ring UltraHighPerformanceQueue

variable {T M : Type}

/-- One aspect of all program counters. -/
def System.view {α : Type} (s : System T M) (f : Pc M → α) : T → α := fun t => f (s.pc t)

structure Inv (e : Nat) (s : System T M) : Prop where
  shape : s.queue.Shape e
  ring : Protocol e s.queue.buffer s.log (s.view Pc.stake)
  enqueueCursor : Cursor s.queue.enqueuePos s.log.claimed.length (s.view Pc.fastEnqueuing)
    (s.view Pc.enqueueSeen)
  dequeueCursor : Cursor s.queue.dequeuePos s.log.taken.length (s.view Pc.fastDequeuing)
    (s.view Pc.dequeueSeen)
  books : Books s.record s.batches (s.view Pc.work)
  settled : Settled s.log s.record (s.view Pc.stake)
  genuine : ∀ item ∈ s.log.enqueues, item.isSome

variable {e : Nat} {q : UltraHighPerformanceQueue M}

theorem inv_initial (shape : q.Shape e) (buffer : q.buffer = Ring.fresh (2 ^ e))
    (enqueuePos : q.enqueuePos = 0)
    (dequeuePos : q.dequeuePos = 0) : Inv e (initial q : System T M) where
  shape := shape
  ring := by
    simp only [initial, buffer]
    exact Protocol.fresh shape.two shape.fits
  enqueueCursor := by
    simp only [initial, enqueuePos]
    exact ⟨fun _ => rfl, by simp [System.view, Pc.fastEnqueuing],
      by simp [System.view, Pc.fastEnqueuing], by simp [System.view, Pc.enqueueSeen]⟩
  dequeueCursor := by
    simp only [initial, dequeuePos]
    exact ⟨fun _ => rfl, by simp [System.view, Pc.fastDequeuing],
      by simp [System.view, Pc.fastDequeuing], by simp [System.view, Pc.dequeueSeen]⟩
  books := by constructor <;> simp [initial, System.view, Pc.work, Work.batch]
  settled := by constructor <;> simp [initial]
  genuine := by simp [initial]

variable {s : System T M}

theorem Inv.turn_of_sequence (inv : Inv e s) (found : s.queue.sequence pos = value) :
    turnAt e s.queue.buffer pos.toNat = value.toNat := by
  rw [turnAt, ← inv.shape.index pos.toNat, UInt64.ofNat_toNat, ← found]
  rfl

variable {pc : Pc M}

theorem enqueuing_of_producing (producing : pc.stake.producing = some k) :
    ∃ pos, pc.enqueuing = some pos ∧ pos.toNat = k := by
  cases pc with
  | fastData f pos | fastPublish f pos | slowData f pos | slowPublish f pos =>
    exact ⟨pos, rfl, Option.some.inj producing⟩
  | _ => cases producing

variable {pos : UInt64}

theorem enqueuing_of_fast (fast : pc.fastEnqueuing = some pos) : pc.enqueuing = some pos := by
  cases pc with
  | fastData | fastPublish | fastAdd => exact fast
  | _ => cases fast

theorem dequeuing_of_consuming (consuming : pc.stake.consuming = some k) :
    ∃ pos, pc.dequeuing = some pos ∧ pos.toNat = k := by
  cases pc with
  | fastTake f pos | fastRelease f pos data | slowTake f pos | slowRelease f pos data =>
    exact ⟨pos, rfl, Option.some.inj consuming⟩
  | _ => cases consuming

theorem dequeuing_of_fast (fast : pc.fastDequeuing = some pos) : pc.dequeuing = some pos := by
  cases pc with
  | fastTake | fastRelease | fastAdvance => exact fast
  | _ => cases fast

variable {t : T} {f : EnqueueFrame M}

/-- A slot found ready on the fast path, at which nobody else is working, is the next one. -/
theorem Inv.fast_enqueue (inv : Inv e s) (here : s.pc t = .enqueueSequence f pos)
    (ready : s.queue.sequence pos = pos) (apart : ∀ u, u ≠ t → (s.pc u).enqueuing ≠ some pos) :
    pos.toNat = s.log.claimed.length ∧ s.queue.enqueuePos = pos ∧
      turnAt e s.queue.buffer s.log.claimed.length = s.log.claimed.length := by
  have turn := inv.turn_of_sequence ready
  have seen : pos.toNat ≤ s.queue.enqueuePos.toNat :=
    inv.enqueueCursor.behind t pos (by rw [System.view, here]; rfl)
  have le := inv.enqueueCursor.le
  have last : pos.toNat = s.log.claimed.length := by
    by_contra earlier
    obtain ⟨u, producing⟩ := inv.ring.produced pos.toNat (by omega) turn
    have other : u ≠ t := by
      rintro rfl
      rw [System.view, here] at producing
      cases producing
    obtain ⟨p, working, same⟩ := enqueuing_of_producing producing
    obtain rfl : p = pos := UInt64.toNat_inj.mp same
    exact apart u other working
  exact ⟨last, UInt64.toNat_inj.mp (by omega), last ▸ turn⟩

theorem Inv.slow_enqueue (inv : Inv e s) (here : s.pc t = .slowCas f pos)
    (won : s.queue.enqueuePos = pos)
    (apart : ∀ u, u ≠ t → (s.pc u).enqueuing ≠ some pos) :
    s.queue.enqueuePos.toNat = s.log.claimed.length := by
  refine inv.enqueueCursor.counts_all fun u fast => ?_
  have other : u ≠ t := by
    rintro rfl
    rw [System.view, here] at fast
    cases fast
  exact apart u other (won ▸ enqueuing_of_fast fast)

theorem Inv.fast_dequeue (inv : Inv e s) {f} (here : s.pc t = .dequeueSequence f pos)
    (small : pos.toNat < 2 ^ 63) (ready : s.queue.sequence pos = pos + 1)
    (apart : ∀ u, u ≠ t → (s.pc u).dequeuing ≠ some pos) :
    pos.toNat = s.log.taken.length ∧ s.queue.dequeuePos = pos ∧
      turnAt e s.queue.buffer s.log.taken.length = s.log.taken.length + 1 := by
  have turn := inv.turn_of_sequence ready
  rw [toNat_succ small] at turn
  have seen : pos.toNat ≤ s.queue.dequeuePos.toNat :=
    inv.dequeueCursor.behind t pos (by rw [System.view, here]; rfl)
  have le := inv.dequeueCursor.le
  have last : pos.toNat = s.log.taken.length := by
    by_contra earlier
    obtain ⟨u, consuming⟩ := inv.ring.consumed pos.toNat (by omega) turn
    have other : u ≠ t := by
      rintro rfl
      rw [System.view, here] at consuming
      cases consuming
    obtain ⟨p, working, same⟩ := dequeuing_of_consuming consuming
    obtain rfl : p = pos := UInt64.toNat_inj.mp same
    exact apart u other working
  exact ⟨last, UInt64.toNat_inj.mp (by omega), last ▸ turn⟩

theorem Inv.slow_dequeue (inv : Inv e s) {f} (here : s.pc t = .slowTakeCas f pos)
    (won : s.queue.dequeuePos = pos) (apart : ∀ u, u ≠ t → (s.pc u).dequeuing ≠ some pos) :
    s.queue.dequeuePos.toNat = s.log.taken.length := by
  refine inv.dequeueCursor.counts_all fun u fast => ?_
  have other : u ≠ t := by
    rintro rfl
    rw [System.view, here] at fast
    cases fast
  exact apart u other (won ▸ dequeuing_of_fast fast)

variable [DecidableEq T]

theorem view_update (s : System T M) (t : T) (q : UltraHighPerformanceQueue M)
    (pc : Pc M) (log : Log M) (batches : Nat) (record : Record M) (f : Pc M → α) :
    System.view ⟨q, Function.update s.pc t pc, log, batches, record⟩ f =
      Function.update (s.view f) t (f pc) :=
  funext fun u => Function.apply_update (fun _ => f) s.pc t pc u

theorem Inv.update (inv : Inv e s) (mask : q.mask = s.queue.mask)
    (ring : Protocol e q.buffer log (Function.update (s.view Pc.stake) t pc.stake))
    (enqueueCursor : Cursor q.enqueuePos log.claimed.length
      (Function.update (s.view Pc.fastEnqueuing) t pc.fastEnqueuing)
      (Function.update (s.view Pc.enqueueSeen) t pc.enqueueSeen))
    (dequeueCursor : Cursor q.dequeuePos log.taken.length
      (Function.update (s.view Pc.fastDequeuing) t pc.fastDequeuing)
      (Function.update (s.view Pc.dequeueSeen) t pc.dequeueSeen))
    (books : Books record batches (Function.update (s.view Pc.work) t pc.work))
    (settled : Settled log record (Function.update (s.view Pc.stake) t pc.stake))
    (genuine : ∀ item ∈ log.enqueues, item.isSome) :
    Inv e ⟨q, Function.update s.pc t pc, log, batches, record⟩ where
  shape := inv.shape.congr mask (ring.slots.size.trans inv.shape.size.symm)
  ring := by rw [view_update]; exact ring
  enqueueCursor := by rw [view_update, view_update]; exact enqueueCursor
  dequeueCursor := by rw [view_update, view_update]; exact dequeueCursor
  books := by rw [view_update]; exact books
  settled := by rw [view_update]; exact settled
  genuine := genuine

/-- A store into a slot, or a load from one: the positions stay, and so do the calls. -/
theorem Inv.onSlot (inv : Inv e s) (place : s.pc t = here)
    (ring : Protocol e q.buffer log (Function.update (s.view Pc.stake) t pc.stake))
    (mask : q.mask = s.queue.mask) (enqueuePos : q.enqueuePos = s.queue.enqueuePos)
    (dequeuePos : q.dequeuePos = s.queue.dequeuePos) (claimed : log.claimed = s.log.claimed)
    (taken : log.taken = s.log.taken) (grows : s.log.Grows log)
    (enqueues : log.enqueues = s.log.enqueues)
    (enqueueSame : pc.stake.enqueueCall = here.stake.enqueueCall)
    (dequeueSame : pc.stake.dequeueCall = here.stake.dequeueCall)
    (fastEnqueuing : pc.fastEnqueuing = here.fastEnqueuing)
    (fastDequeuing : pc.fastDequeuing = here.fastDequeuing) (enqueueSeen : pc.enqueueSeen = none)
    (dequeueSeen : pc.dequeueSeen = none) (work : pc.work = here.work) :
    Inv e ⟨q, Function.update s.pc t pc, log, s.batches, s.record⟩ := by
  subst place
  refine inv.update mask ring ?_ ?_ (inv.books.keep work)
    (inv.settled.keep grows enqueueSame dequeueSame claimed taken) (enqueues ▸ inv.genuine)
  · rw [enqueuePos, claimed]
    exact inv.enqueueCursor.keep fastEnqueuing (by simp [enqueueSeen])
  · rw [dequeuePos, taken]
    exact inv.dequeueCursor.keep fastDequeuing (by simp [dequeueSeen])

/-- The call that still looks for a free slot. -/
def Pc.seeksRoom : Pc M → Option (EnqueueFrame M)
  | .enqueueLoad f | .enqueueSequence f _ | .slowLoad f | .slowSequence f _ | .slowCas f _ => some f
  | _ => none

/-- The call that still looks for a message. -/
def Pc.seeksMessage : Pc M → Option (DequeueFrame M)
  | .dequeueLoad f | .dequeueSequence f _ | .slowTakeLoad f | .slowTakeSequence f _ | .slowTakeCas f _ => some f
  | _ => none

structure Pc.Seeking (pc : Pc M) (enqueueCall dequeueCall : Option Nat) (work : Work M) : Prop where
  enqueueCall : pc.stake.enqueueCall = enqueueCall
  dequeueCall : pc.stake.dequeueCall = dequeueCall
  producing : pc.stake.producing = none
  consuming : pc.stake.consuming = none
  fastEnqueuing : pc.fastEnqueuing = none
  fastDequeuing : pc.fastDequeuing = none
  work : pc.work = work

theorem Pc.seeking_room (seeks : pc.seeksRoom = some f) :
    pc.Seeking (some f.call) none (.enqueues f.batch f.enqueued) ∧ pc.dequeueSeen = none := by
  cases pc <;> cases seeks <;> exact ⟨⟨rfl, rfl, rfl, rfl, rfl, rfl, rfl⟩, rfl⟩

theorem Pc.seeking_message {f} (seeks : pc.seeksMessage = some f) :
    pc.Seeking none (some f.call) (.dequeues f.batch f.messages) ∧ pc.enqueueSeen = none := by
  cases pc <;> cases seeks <;> exact ⟨⟨rfl, rfl, rfl, rfl, rfl, rfl, rfl⟩, rfl⟩

section

variable {e : Nat} {s : System T M} {t : T} {pc here : Pc M}

/-- A step that changes only what the caller knows. -/
theorem Inv.seek (inv : Inv e s) (place : s.pc t = here)
    (before : here.Seeking enqueueCall dequeueCall work)
    (after : pc.Seeking enqueueCall dequeueCall work) (own : pc.stake.Ok e s.queue.buffer s.log)
    (enqueueSeen : ∀ pos, pc.enqueueSeen = some pos → pos.toNat ≤ s.queue.enqueuePos.toNat)
    (dequeueSeen : ∀ pos, pc.dequeueSeen = some pos → pos.toNat ≤ s.queue.dequeuePos.toNat) :
    Inv e (s.goto t pc) := by
  subst place
  have enqueueSame := after.enqueueCall.trans before.enqueueCall.symm
  have dequeueSame := after.dequeueCall.trans before.dequeueCall.symm
  refine inv.update rfl ?_
    (inv.enqueueCursor.keep (after.fastEnqueuing.trans before.fastEnqueuing.symm) enqueueSeen)
    (inv.dequeueCursor.keep (after.fastDequeuing.trans before.fastDequeuing.symm) dequeueSeen)
    (inv.books.keep (after.work.trans before.work.symm))
    (inv.settled.keep (.refl _) enqueueSame dequeueSame rfl rfl) inv.genuine
  exact inv.ring.move own (fun _ => enqueueSame ▸ id)
    (fun _ => dequeueSame ▸ id) before.producing before.consuming

theorem Inv.seekRoom (inv : Inv e s) (place : s.pc t = here) (before : here.seeksRoom = some f)
    (after : pc.seeksRoom = some f) (own : pc.stake.Ok e s.queue.buffer s.log)
    (seen : ∀ pos, pc.enqueueSeen = some pos → pos.toNat ≤ s.queue.enqueuePos.toNat) :
    Inv e (s.goto t pc) := by
  obtain ⟨seeking, unseen⟩ := Pc.seeking_room after
  exact inv.seek place (Pc.seeking_room before).1 seeking own seen (by simp [unseen])

theorem Inv.seekMessage (inv : Inv e s) {f} (place : s.pc t = here)
    (before : here.seeksMessage = some f)
    (after : pc.seeksMessage = some f) (own : pc.stake.Ok e s.queue.buffer s.log)
    (seen : ∀ pos, pc.dequeueSeen = some pos → pos.toNat ≤ s.queue.dequeuePos.toNat) :
    Inv e (s.goto t pc) := by
  obtain ⟨seeking, unseen⟩ := Pc.seeking_message after
  exact inv.seek place (Pc.seeking_message before).1 seeking own (by simp [unseen]) seen

variable {q : UltraHighPerformanceQueue M}

/-- The next position is won for the message, on either path. -/
theorem Inv.claims (inv : Inv e s) (place : s.pc t = here) (seeks : here.seeksRoom = some f)
    (waiting : Waiting s.log f.call (some f.message))
    (turn : turnAt e s.queue.buffer s.log.claimed.length = s.log.claimed.length)
    (stake : pc.stake = .claimed f.call (some f.message) s.log.claimed.length)
    (enqueueCursor : Cursor q.enqueuePos (s.log.claimed.length + 1)
      (Function.update (s.view Pc.fastEnqueuing) t pc.fastEnqueuing)
      (Function.update (s.view Pc.enqueueSeen) t none))
    (mask : q.mask = s.queue.mask) (buffer : q.buffer = s.queue.buffer)
    (dequeuePos : q.dequeuePos = s.queue.dequeuePos) (enqueueSeen : pc.enqueueSeen = none)
    (dequeueSeen : pc.dequeueSeen = none) (fastDequeuing : pc.fastDequeuing = none)
    (work : pc.work = .enqueues f.batch f.enqueued) :
    Inv e ⟨q, Function.update s.pc t pc, s.log.claim f.call (some f.message), s.batches,
      s.record⟩ := by
  subst place
  obtain ⟨seeking, -⟩ := Pc.seeking_room seeks
  refine inv.update mask ?_ ?_ ?_ (inv.books.keep (work.trans seeking.work.symm)) ?_ inv.genuine
  · rw [stake, buffer]
    exact inv.ring.claim seeking.enqueueCall waiting turn seeking.producing seeking.consuming
  · rw [enqueueSeen]
    simpa only [Log.claim, List.length_append, List.length_singleton] using enqueueCursor
  · rw [dequeuePos]
    exact inv.dequeueCursor.keep (fastDequeuing.trans seeking.fastDequeuing.symm)
      (by simp [dequeueSeen])
  · exact inv.settled.claim seeking.enqueueCall seeking.dequeueCall (by rw [stake]; rfl)
      (by rw [stake]; rfl)

theorem Inv.takes (inv : Inv e s) {f} (place : s.pc t = here) (seeks : here.seeksMessage = some f)
    (waiting : f.call ∉ s.log.taken)
    (turn : turnAt e s.queue.buffer s.log.taken.length = s.log.taken.length + 1)
    (stake : pc.stake = .taken f.call s.log.taken.length)
    (dequeueCursor : Cursor q.dequeuePos (s.log.taken.length + 1)
      (Function.update (s.view Pc.fastDequeuing) t pc.fastDequeuing)
      (Function.update (s.view Pc.dequeueSeen) t none))
    (mask : q.mask = s.queue.mask) (buffer : q.buffer = s.queue.buffer)
    (enqueuePos : q.enqueuePos = s.queue.enqueuePos) (enqueueSeen : pc.enqueueSeen = none)
    (dequeueSeen : pc.dequeueSeen = none) (fastEnqueuing : pc.fastEnqueuing = none)
    (work : pc.work = .dequeues f.batch f.messages) :
    Inv e ⟨q, Function.update s.pc t pc, s.log.take f.call, s.batches, s.record⟩ := by
  subst place
  obtain ⟨seeking, -⟩ := Pc.seeking_message seeks
  refine inv.update mask ?_ ?_ ?_ (inv.books.keep (work.trans seeking.work.symm)) ?_ inv.genuine
  · rw [stake, buffer]
    exact inv.ring.take seeking.dequeueCall waiting turn seeking.producing seeking.consuming
  · rw [enqueuePos]
    exact inv.enqueueCursor.keep (fastEnqueuing.trans seeking.fastEnqueuing.symm)
      (by simp [enqueueSeen])
  · rw [dequeueSeen]
    simpa only [Log.take, List.length_append, List.length_singleton] using dequeueCursor
  · exact inv.settled.take seeking.dequeueCall seeking.enqueueCall (by rw [stake]; rfl)
      (by rw [stake]; rfl)

/-- A caller with no single call under way goes on to another such place. -/
theorem Inv.between (inv : Inv e s) (place : s.pc t = here)
    (before : here.Seeking none none work) (stake : pc.stake = .none)
    (books : Books record batches (Function.update (s.view Pc.work) t pc.work))
    (counted : record.counted = s.record.counted) (received : record.received = s.record.received)
    (mask : q.mask = s.queue.mask) (buffer : q.buffer = s.queue.buffer)
    (enqueuePos : q.enqueuePos = s.queue.enqueuePos)
    (dequeuePos : q.dequeuePos = s.queue.dequeuePos)
    (fastEnqueuing : pc.fastEnqueuing = none) (fastDequeuing : pc.fastDequeuing = none)
    (enqueueSeen : pc.enqueueSeen = none) (dequeueSeen : pc.dequeueSeen = none) :
    Inv e ⟨q, Function.update s.pc t pc, s.log, batches, record⟩ := by
  subst place
  refine inv.update mask ?_ ?_ ?_ books (Settled.returned ?_ counted received) inv.genuine
  · rw [stake, buffer]
    exact inv.ring.leave before.producing before.consuming
  · rw [enqueuePos]
    exact inv.enqueueCursor.keep (fastEnqueuing.trans before.fastEnqueuing.symm)
      (by simp [enqueueSeen])
  · rw [dequeuePos]
    exact inv.dequeueCursor.keep (fastDequeuing.trans before.fastDequeuing.symm)
      (by simp [dequeueSeen])
  · rw [stake]
    exact inv.settled.keep (.refl _) before.enqueueCall.symm before.dequeueCall.symm rfl rfl

end

/-! ## Between two messages of a batch

Between its single calls a caller stands as if it were about to end its batch. -/

theorem goto_goto (s : System T M) (t : T) (first second : Pc M) :
    (s.goto t first).goto t second = s.goto t second := by
  simp [System.goto]

theorem view_goto (s : System T M) (t : T) (pc : Pc M) (f : Pc M → α) :
    (s.goto t pc).view f t = f pc := by
  simp [System.view, System.goto]

theorem Inv.nextEnqueue (inv : Inv e (s.goto t (.batchCount batch enqueued)))
    (messages : List M) : Inv e (s.nextEnqueue t batch enqueued messages) := by
  cases messages with
  | nil => exact inv
  | cons message rest =>
    have idle : (s.goto t (.batchCount batch enqueued)).view Pc.stake t = .none := by
      rw [view_goto]
      rfl
    rw [System.nextEnqueue, ← goto_goto _ t (.batchCount batch enqueued)]
    refine inv.update rfl (inv.ring.startEnqueue idle (some message))
      (inv.enqueueCursor.keep (by rw [view_goto]; rfl) (by simp [Pc.enqueueSeen]))
      (inv.dequeueCursor.keep (by rw [view_goto]; rfl) (by simp [Pc.dequeueSeen]))
      (inv.books.keep (by rw [view_goto]; rfl))
      (inv.settled.start (.startEnqueue _ _) idle ?_ (by simp [Pc.stake, Stake.dequeueCall]) rfl rfl) ?_
    · intro call own
      obtain rfl : s.log.enqueues.length = call := by simpa [Pc.stake, Stake.enqueueCall] using own
      rintro ⟨k, x, claimed, -⟩
      exact inv.ring.slots.not_claimed (List.mem_map_of_mem (List.mem_of_getElem? claimed))
    · exact forall_mem_concat inv.genuine rfl

theorem Inv.endDequeue (inv : Inv e (s.goto t (.dequeueCount batch messages))) :
    Inv e (s.endDequeue t batch messages) := by
  rw [System.endDequeue]
  split
  · exact inv
  · rw [← goto_goto _ t (.dequeueCount batch messages)]
    exact inv.between (view_goto s t _ id) ⟨rfl, rfl, rfl, rfl, rfl, rfl, rfl⟩ rfl
      (inv.books.endDequeue (by rw [view_goto]; rfl)) rfl rfl rfl rfl rfl rfl rfl rfl rfl rfl

theorem Inv.nextDequeue (inv : Inv e (s.goto t (.dequeueCount batch messages))) (left : Nat) :
    Inv e (s.nextDequeue t batch messages left) := by
  cases left with
  | zero => exact inv.endDequeue
  | succ left =>
    have idle : (s.goto t (.dequeueCount batch messages)).view Pc.stake t = .none := by
      rw [view_goto]
      rfl
    rw [System.nextDequeue, ← goto_goto _ t (.dequeueCount batch messages)]
    refine inv.update rfl (inv.ring.startDequeue idle)
      (inv.enqueueCursor.keep (by rw [view_goto]; rfl) (by simp [Pc.enqueueSeen]))
      (inv.dequeueCursor.keep (by rw [view_goto]; rfl) (by simp [Pc.dequeueSeen]))
      (inv.books.keep (by rw [view_goto]; rfl))
      ?_ inv.genuine
    refine inv.settled.start (.startDequeue _) idle ?_ ?_ rfl rfl
    · simp [Pc.stake, Stake.enqueueCall]
    · intro call own
      obtain rfl : s.log.dequeues = call := by simpa [Pc.stake, Stake.dequeueCall] using own
      exact inv.ring.slots.not_taken

variable {here : Pc M} {s after : System T M}

/-- An enqueue that has returned true: its caller counts it and goes on. -/
theorem Inv.enqueueReturns (inv : Inv e s) (place : s.pc t = here) (mask : q.mask = s.queue.mask)
    (ring : Protocol e q.buffer s.log (Function.update (s.view Pc.stake) t (.published f.call)))
    (mine : here.stake.enqueueCall = some f.call) (dequeue : here.stake.dequeueCall = none)
    (enqueueCursor : Cursor q.enqueuePos s.log.claimed.length
      (Function.update (s.view Pc.fastEnqueuing) t none)
      (Function.update (s.view Pc.enqueueSeen) t none))
    (dequeuePos : q.dequeuePos = s.queue.dequeuePos) (fastDequeuing : here.fastDequeuing = none)
    (work : here.work = .enqueues f.batch f.enqueued) :
    Inv e ({ s with queue := q }.enqueueReturns t f) := by
  subst place
  rw [System.enqueueReturns]
  apply Inv.nextEnqueue
  have accepted : Accepted s.log f.call := by simpa [Stake.Ok] using ring.ok t
  have left : Protocol e q.buffer s.log (Function.update (s.view Pc.stake) t .none) := by
    have moved : Protocol e q.buffer s.log
        (Function.update (Function.update (s.view Pc.stake) t (.published f.call)) t .none) :=
      ring.leave (by simp [Stake.producing]) (by simp [Stake.consuming])
    rwa [Function.update_idem] at moved
  refine inv.update mask left enqueueCursor ?_ (inv.books.count work f.call) ?_ inv.genuine
  · rw [dequeuePos]
    exact inv.dequeueCursor.keep fastDequeuing.symm (by simp [Pc.dequeueSeen])
  · exact inv.settled.count mine dequeue
      (fun u theirs => inv.ring.enqueueOwn u t f.call theirs mine) accepted f.batch

/-- A dequeue that has returned its message: its caller keeps it and goes on. -/
theorem Inv.dequeueReturns {f data} (inv : Inv e s) (place : s.pc t = here)
    (mask : q.mask = s.queue.mask)
    (ring : Protocol e q.buffer s.log (Function.update (s.view Pc.stake) t (.released f.call data)))
    (mine : here.stake.dequeueCall = some f.call) (enqueue : here.stake.enqueueCall = none)
    (dequeueCursor : Cursor q.dequeuePos s.log.taken.length
      (Function.update (s.view Pc.fastDequeuing) t none)
      (Function.update (s.view Pc.dequeueSeen) t none)) (enqueuePos : q.enqueuePos = s.queue.enqueuePos)
    (fastEnqueuing : here.fastEnqueuing = none) (work : here.work = .dequeues f.batch f.messages) :
    Inv e ({ s with queue := q }.dequeueReturns t f data) := by
  subst place
  have delivered : Delivered s.log f.call data := by simpa [Stake.Ok] using ring.ok t
  obtain ⟨message, rfl⟩ : ∃ message, data = some message := by
    obtain ⟨k, producer, -, claimed⟩ := delivered
    have called := inv.ring.slots.called producer data (List.mem_of_getElem? claimed)
    exact Option.isSome_iff_exists.mp (inv.genuine data (List.mem_of_getElem? called))
  rw [System.dequeueReturns]
  apply Inv.nextDequeue
  have left : Protocol e q.buffer s.log (Function.update (s.view Pc.stake) t .none) := by
    have moved : Protocol e q.buffer s.log
        (Function.update (Function.update (s.view Pc.stake) t (.released f.call (some message))) t .none) :=
      ring.leave (by simp [Stake.producing]) (by simp [Stake.consuming])
    rwa [Function.update_idem] at moved
  refine inv.update mask left ?_ dequeueCursor
    (inv.books.receive work f.call message) ?_ inv.genuine
  · rw [enqueuePos]
    exact inv.enqueueCursor.keep fastEnqueuing.symm (by simp [Pc.enqueueSeen])
  · exact inv.settled.receive mine enqueue
      (fun u theirs => inv.ring.dequeueOwn u t f.call theirs mine) delivered f.batch

theorem Inv.giveUp (inv : Inv e s) (place : s.pc t = here) (seeks : here.seeksRoom = some f)
    (waiting : Waiting s.log f.call (some f.message)) :
    Inv e (s.goto t (.batchCount f.batch f.enqueued)) := by
  subst place
  obtain ⟨seeking, -⟩ := Pc.seeking_room seeks
  refine inv.update rfl ?_
    (inv.enqueueCursor.keep seeking.fastEnqueuing.symm (by simp [Pc.enqueueSeen]))
    (inv.dequeueCursor.keep seeking.fastDequeuing.symm (by simp [Pc.dequeueSeen]))
    (inv.books.keep seeking.work.symm)
    (inv.settled.giveUp seeking.enqueueCall waiting seeking.dequeueCall) inv.genuine
  exact inv.ring.leave seeking.producing seeking.consuming

theorem Inv.findNothing {f} (inv : Inv e s) (place : s.pc t = here)
    (seeks : here.seeksMessage = some f)
    (waiting : f.call ∉ s.log.taken) : Inv e (s.dequeueReturns t f none) := by
  subst place
  obtain ⟨seeking, -⟩ := Pc.seeking_message seeks
  rw [System.dequeueReturns]
  apply Inv.endDequeue
  refine inv.update rfl ?_
    (inv.enqueueCursor.keep seeking.fastEnqueuing.symm (by simp [Pc.enqueueSeen]))
    (inv.dequeueCursor.keep seeking.fastDequeuing.symm (by simp [Pc.dequeueSeen]))
    (inv.books.keep seeking.work.symm)
    (inv.settled.findNothing seeking.dequeueCall waiting seeking.enqueueCall) inv.genuine
  exact inv.ring.leave seeking.producing seeking.consuming

theorem Inv.advance (inv : Inv e s) (calls : s.log.enqueues.length < 2 ^ 63) (here : s.pc t = pc)
    (apart : Apart s (.step t)) : Inv e (s.advance t pc) := by
  have small : s.log.claimed.length < 2 ^ 63 := Nat.lt_of_le_of_lt inv.ring.slots.claimed_le calls
  have ordered := inv.ring.slots.ordered
  have enqueueLe := inv.enqueueCursor.le
  have dequeueLe := inv.dequeueCursor.le
  have stake : s.view Pc.stake t = pc.stake := congrArg Pc.stake here
  have ok := inv.ring.ok t
  rw [stake] at ok
  simp only [Apart, here] at apart
  cases pc with
  | idle => exact inv
  | enqueueLoad f | slowLoad f =>
    refine inv.seekRoom here rfl rfl ⟨ok, enqueueLe⟩ ?_
    rintro pos ⟨⟩
    exact le_rfl
  | enqueueSequence f pos =>
    obtain ⟨waiting, bound⟩ := ok
    simp only [System.advance]
    split
    · rename_i ready
      obtain ⟨last, word, turn⟩ := inv.fast_enqueue here ready fun u other => by
        simpa [System.enqueueTakesUp, ready] using (apart u other).1
      refine inv.claims here rfl waiting turn (by rw [Pc.stake, last]) ?_ rfl rfl rfl rfl rfl rfl rfl
      exact inv.enqueueCursor.enter (by rw [word, last]) word
    · split
      · exact inv.giveUp here rfl waiting
      · exact inv.seekRoom here rfl rfl waiting (by simp [Pc.enqueueSeen])
  | slowSequence f pos =>
    obtain ⟨waiting, bound⟩ := ok
    simp only [System.advance]
    split
    · rename_i ready
      refine inv.seekRoom here rfl rfl ⟨waiting, bound, fun _ => inv.turn_of_sequence ready⟩ ?_
      rintro p ⟨⟩
      exact inv.enqueueCursor.behind t pos (by rw [System.view, here]; rfl)
    · split
      · exact inv.giveUp here rfl waiting
      · exact inv.seekRoom here rfl rfl waiting (by simp [Pc.enqueueSeen])
  | slowCas f pos =>
    obtain ⟨waiting, bound, ready⟩ := ok
    simp only [System.advance]
    split
    · rename_i won
      have all := inv.slow_enqueue here won fun u other => by
        simpa [System.enqueueTakesUp, won] using (apart u other).1
      have last : pos.toNat = s.log.claimed.length := by rw [← all, won]
      have turn := ready last
      rw [last] at turn
      refine inv.claims here rfl waiting turn (by rw [Pc.stake, last]) ?_ rfl rfl rfl rfl rfl rfl rfl
      rw [← won]
      exact inv.enqueueCursor.win all (by omega)
    · exact inv.seekRoom here rfl rfl waiting (by simp [Pc.enqueueSeen])
  | fastData f pos | slowData f pos =>
    refine inv.onSlot here ?_ rfl rfl rfl rfl rfl (.write _ _) rfl rfl rfl rfl rfl rfl rfl rfl
    simp only [storeData, inv.shape.index_word pos]
    exact inv.ring.write stake
  | fastPublish f pos =>
    have inside := lt_of_claimed ok.1.claimed
    refine inv.onSlot here ?_ rfl rfl rfl rfl rfl (.refl _) rfl rfl rfl rfl rfl rfl rfl rfl
    simp only [storeSequence, inv.shape.index_word pos]
    exact inv.ring.publish stake (toNat_succ (by omega))
  | fastAdd f pos =>
    refine inv.enqueueReturns here rfl ?_ rfl rfl ?_ rfl rfl rfl
    · have same : Function.update (s.view Pc.stake) t (.published f.call) = s.view Pc.stake := by
        rw [← show s.view Pc.stake t = .published f.call from stake, Function.update_eq_self]
      rw [same]
      exact inv.ring
    · exact inv.enqueueCursor.leave (by rw [System.view, here]; rfl) (by omega)
  | slowPublish f pos =>
    have inside := lt_of_claimed ok.1.claimed
    refine inv.enqueueReturns here rfl ?_ rfl rfl ?_ rfl rfl rfl
    · simp only [storeSequence, inv.shape.index_word pos]
      exact inv.ring.publish stake (toNat_succ (by omega))
    · exact inv.enqueueCursor.keep (by rw [System.view, here]; rfl) (by simp)
  | batchCount batch enqueued =>
    exact inv.between here ⟨rfl, rfl, rfl, rfl, rfl, rfl, rfl⟩ rfl
      (inv.books.keep (by rw [System.view, here]; rfl)) rfl rfl rfl rfl rfl rfl rfl rfl rfl rfl
  | enqueueCount batch enqueued =>
    exact inv.between here ⟨rfl, rfl, rfl, rfl, rfl, rfl, rfl⟩ rfl
      (inv.books.endEnqueue (by rw [System.view, here]; rfl)) rfl rfl rfl rfl rfl rfl rfl rfl rfl rfl
  | dequeueLoad f | slowTakeLoad f =>
    refine inv.seekMessage here rfl rfl ⟨ok, dequeueLe⟩ ?_
    rintro pos ⟨⟩
    exact le_rfl
  | dequeueSequence f pos =>
    obtain ⟨waiting, bound⟩ := ok
    simp only [System.advance]
    split
    · rename_i ready
      obtain ⟨last, word, turn⟩ := inv.fast_dequeue here (by omega) ready fun u other => by
        simpa [System.dequeueTakesUp, ready] using (apart u other).2
      refine inv.takes here rfl waiting turn (by rw [Pc.stake, last]) ?_ rfl rfl rfl rfl rfl rfl rfl
      exact inv.dequeueCursor.enter (by rw [word, last]) word
    · split
      · exact inv.findNothing here rfl waiting
      · exact inv.seekMessage here rfl rfl waiting (by simp [Pc.dequeueSeen])
  | slowTakeSequence f pos =>
    obtain ⟨waiting, bound⟩ := ok
    simp only [System.advance]
    split
    · rename_i ready
      have turn := inv.turn_of_sequence ready
      rw [toNat_succ (by omega)] at turn
      refine inv.seekMessage here rfl rfl ⟨waiting, bound, fun _ => turn⟩ ?_
      rintro p ⟨⟩
      exact inv.dequeueCursor.behind t pos (by rw [System.view, here]; rfl)
    · split
      · exact inv.findNothing here rfl waiting
      · exact inv.seekMessage here rfl rfl waiting (by simp [Pc.dequeueSeen])
  | slowTakeCas f pos =>
    obtain ⟨waiting, bound, ready⟩ := ok
    simp only [System.advance]
    split
    · rename_i won
      have all := inv.slow_dequeue here won fun u other => by
        simpa [System.dequeueTakesUp, won] using (apart u other).2
      have last : pos.toNat = s.log.taken.length := by rw [← all, won]
      have turn := ready last
      rw [last] at turn
      refine inv.takes here rfl waiting turn (by rw [Pc.stake, last]) ?_ rfl rfl rfl rfl rfl rfl rfl
      rw [← won]
      exact inv.dequeueCursor.win all (by omega)
    · exact inv.seekMessage here rfl rfl waiting (by simp [Pc.dequeueSeen])
  | fastTake f pos | slowTake f pos =>
    refine inv.onSlot here ?_ rfl rfl rfl rfl rfl (.load _ _) rfl rfl rfl rfl rfl rfl rfl rfl
    simp only [Pc.stake, data, inv.shape.index_word pos]
    exact inv.ring.load stake
  | fastRelease f pos data =>
    have inside := lt_of_taken ok.1.taken
    refine inv.onSlot here ?_ rfl rfl rfl rfl rfl (.refl _) rfl rfl rfl rfl rfl rfl rfl rfl
    simp only [storeSequence, inv.shape.index_word pos]
    exact inv.ring.release stake (toNat_add_mask inv.shape.fits inv.shape.mask (by omega))
  | fastAdvance f pos data =>
    refine inv.dequeueReturns here rfl ?_ rfl rfl ?_ rfl rfl rfl
    · have same : Function.update (s.view Pc.stake) t (.released f.call data) = s.view Pc.stake := by
        rw [← show s.view Pc.stake t = .released f.call data from stake, Function.update_eq_self]
      rw [same]
      exact inv.ring
    · exact inv.dequeueCursor.leave (by rw [System.view, here]; rfl) (by omega)
  | slowRelease f pos data =>
    have inside := lt_of_taken ok.1.taken
    refine inv.dequeueReturns here rfl ?_ rfl rfl ?_ rfl rfl rfl
    · simp only [storeSequence, inv.shape.index_word pos]
      exact inv.ring.release stake (toNat_add_mask inv.shape.fits inv.shape.mask (by omega))
    · exact inv.dequeueCursor.keep (by rw [System.view, here]; rfl) (by simp)
  | dequeueCount batch messages =>
    exact inv.between here ⟨rfl, rfl, rfl, rfl, rfl, rfl, rfl⟩ rfl
      (inv.books.endDequeue (by rw [System.view, here]; rfl)) rfl rfl rfl rfl rfl rfl rfl rfl rfl rfl

section

variable (s : System T M)

theorem nextDequeue_enqueues (t : T) (batch : Nat) (messages : List M) (left : Nat) :
    (s.nextDequeue t batch messages left).log.enqueues = s.log.enqueues := by
  fun_cases System.nextDequeue s t batch messages left with
  | case1 => fun_cases System.endDequeue s t batch messages <;> rfl
  | case2 => rfl

theorem dequeueReturns_enqueues (t : T) (f : DequeueFrame M) (data : Option M) :
    (s.dequeueReturns t f data).log.enqueues = s.log.enqueues := by
  cases data with
  | none => exact nextDequeue_enqueues s t _ _ 0
  | some message => exact nextDequeue_enqueues _ t _ _ _

theorem nextEnqueue_enqueues (t : T) (batch enqueued : Nat) (messages : List M) :
    (s.nextEnqueue t batch enqueued messages).log.enqueues =
      s.log.enqueues ++ (messages.take 1).map some := by
  cases messages <;> simp [System.nextEnqueue, System.goto]

theorem advance_enqueues (t : T) (pc : Pc M) :
    s.log.enqueues.length ≤ (s.advance t pc).log.enqueues.length := by
  fun_cases System.advance s t pc <;>
    first
      | exact le_rfl
      | simp only [System.enqueueReturns, nextEnqueue_enqueues, dequeueReturns_enqueues,
        List.length_append, le_refl, Nat.le_add_right]

end

/-- The number of enqueues never falls, so a bound on it afterwards held before. -/
theorem Inv.next (inv : s.log.enqueues.length < 2 ^ 63 → Inv e s) (apart : Apart s label)
    (stepped : machine.next s label = some after) (calls : after.log.enqueues.length < 2 ^ 63) :
    Inv e after := by
  cases label with
  | batchEnqueue t messages =>
    simp only [machine] at stepped
    split at stepped
    · rename_i here
      cases stepped
      rw [nextEnqueue_enqueues, List.length_append] at calls
      have inv := inv (Nat.lt_of_le_of_lt (Nat.le_add_right _ _) calls)
      apply Inv.nextEnqueue
      exact inv.between here ⟨rfl, rfl, rfl, rfl, rfl, rfl, rfl⟩ rfl
        (inv.books.start (by rw [System.view, here]; rfl) (.inl rfl)) rfl rfl rfl rfl rfl rfl rfl rfl rfl rfl
    · cases stepped
  | batchDequeue t maxBatch =>
    simp only [machine] at stepped
    split at stepped
    · rename_i here
      cases stepped
      rw [nextDequeue_enqueues] at calls
      have inv := inv calls
      apply Inv.nextDequeue
      exact inv.between here ⟨rfl, rfl, rfl, rfl, rfl, rfl, rfl⟩ rfl
        (inv.books.start (by rw [System.view, here]; rfl) (.inr rfl)) rfl rfl rfl rfl rfl rfl rfl rfl rfl rfl
    · cases stepped
  | step t =>
    simp only [machine] at stepped
    split at stepped
    · cases stepped
    · cases stepped
      have before := Nat.lt_of_le_of_lt (advance_enqueues s t _) calls
      exact (inv before).advance before rfl apart

theorem inv_run [Fintype T] (inv : Inv e s)
    (ran : (machine.restrict Apart).run s labels = some after)
    (calls : after.log.enqueues.length < 2 ^ 63) : Inv e after := by
  refine Machine.run_invariant _ (P := fun s => s.log.enqueues.length < 2 ^ 63 → Inv e s)
    (fun s label after keeps stepped => ?_) (fun _ => inv) ran calls
  obtain ⟨apart, stepped⟩ := (Machine.restrict_next _).mp stepped
  exact Inv.next keeps apart stepped

/-- The messages counted by the batches so far, and those they have received. -/
def System.counted (s : System T M) : List (Option M) :=
  s.record.counted.filterMap fun entry => s.log.enqueues[entry.2]?

def System.received (s : System T M) : List (Option M) :=
  s.record.received.map fun entry => some entry.2.2

/-- Another dequeue would find nothing. -/
def System.Drained (s : System T M) : Prop := s.queue.fastDequeue.map Prod.snd = some none

structure Safe (s : System T M) : Prop where
  /-- `BatchEnqueue` returns how many messages it counted, each of which is stored. -/
  counts : ∀ batch n, (batch, n) ∈ s.record.enqueued → n = s.record.countedBy batch
  stored : ∀ batch call, (batch, call) ∈ s.record.counted → Accepted s.log call
  /-- `BatchDequeue` returns the messages it received. -/
  returns : ∀ batch messages, (batch, messages) ∈ s.record.dequeued →
    messages = s.record.receivedBy batch
  /-- No message is received more often than it was enqueued. -/
  once : s.received.Subperm s.log.enqueues
  /-- A stored message stays in its slot until a dequeue has loaded it. -/
  kept : ∀ (k : Nat) producer item, s.log.claimed[k]? = some (producer, item) → k ∈ s.log.written →
    k ∉ s.log.loaded → s.queue.data (UInt64.ofNat k) = item
  /-- When all callers have finished and the queue is drained, every batch has returned
      and the messages received are exactly the messages counted. -/
  drained : (∀ t, s.pc t = .idle) → s.Drained →
    (∀ batch < s.batches, (∃ n, (batch, n) ∈ s.record.enqueued) ∨
      ∃ messages, (batch, messages) ∈ s.record.dequeued) ∧
    s.received.Perm s.counted

/-- The single dequeues that gave a message, by call. -/
def Record.deliveries (record : Record M) : List (Nat × Option M) :=
  record.received.map fun entry => (entry.2.1, some entry.2.2)

omit [DecidableEq T] in
theorem Inv.deliveries_nodup (inv : Inv e s) : s.record.deliveries.Nodup := by
  refine List.Nodup.of_map Prod.fst ?_
  simpa [Record.deliveries, Function.comp_def] using inv.settled.receivedOnce

omit [DecidableEq T] in
theorem Inv.deliveries_subset (inv : Inv e s) : s.record.deliveries ⊆ s.log.deliveries := by
  intro pair member
  obtain ⟨⟨batch, call, message⟩, received, rfl⟩ := List.mem_map.mp member
  exact Log.mem_deliveries.mpr (inv.settled.received batch call message received).1

omit [DecidableEq T] in
theorem received_eq (s : System T M) : s.received = s.record.deliveries.map Prod.snd := by
  simp [System.received, Record.deliveries, Function.comp_def]

omit [DecidableEq T] in
/-- With all callers idle and nothing to dequeue, every claimed position has been taken. -/
theorem Inv.all_taken (inv : Inv e s) (calls : s.log.enqueues.length < 2 ^ 63)
    (idle : ∀ t, s.pc t = .idle)
    (drained : s.Drained) : s.log.taken.length = s.log.claimed.length := by
  have slots := inv.ring.slots
  have small : s.log.claimed.length < 2 ^ 63 := Nat.lt_of_le_of_lt slots.claimed_le calls
  by_contra different
  have more : s.log.taken.length < s.log.claimed.length := by
    have := slots.ordered
    omega
  have turn := inv.ring.published_of_idle (fun t => by rw [System.view, idle t]; rfl) le_rfl more
  obtain ⟨-, written, unread⟩ := slots.ready turn
  have word : s.queue.dequeuePos.toNat = s.log.taken.length :=
    inv.dequeueCursor.rest fun t => by rw [System.view, idle t]; rfl
  have index : s.queue.index s.queue.dequeuePos = slot e s.log.taken.length := by
    rw [inv.shape.index_word, word]
  have ready : s.queue.sequence s.queue.dequeuePos = s.queue.dequeuePos + 1 := by
    rw [← UInt64.toNat_inj, toNat_succ (by omega), word, ← turn, UltraHighPerformanceQueue.sequence,
      index, turnAt]
  obtain ⟨⟨producer, item⟩, claimed, found⟩ :=
    Option.map_eq_some_iff.mp (slots.live _ written unread).item
  have genuine := inv.genuine item
    (List.mem_of_getElem? (slots.called producer item (List.mem_of_getElem? claimed)))
  have nothing : s.queue.data s.queue.dequeuePos = none := by
    simpa [System.Drained, fastDequeue_of_ready ready] using drained
  rw [data, index, ← found] at nothing
  simp only at nothing
  rw [nothing] at genuine
  cases genuine

omit [DecidableEq T] in
theorem Inv.received_perm (inv : Inv e s) (calls : s.log.enqueues.length < 2 ^ 63)
    (idle : ∀ t, s.pc t = .idle)
    (drained : s.Drained) : s.received.Perm (s.log.claimed.map Prod.snd) := by
  have slots := inv.ring.slots
  have all := inv.all_taken calls idle drained
  have same : s.record.deliveries.Perm s.log.deliveries := by
    refine (List.perm_ext_iff_of_nodup inv.deliveries_nodup slots.deliveries_nodup).mpr ?_
    rintro ⟨call, data⟩
    refine ⟨fun member => inv.deliveries_subset member, fun member => ?_⟩
    obtain ⟨k, producer, taken, claimed⟩ := Log.mem_deliveries.mp member
    rcases inv.settled.taken call (List.mem_of_getElem? taken) with ⟨t, working⟩ | received
    · rw [System.view, idle t] at working
      cases working
    · obtain ⟨⟨batch, c, message⟩, entry, rfl⟩ := List.mem_map.mp received
      obtain ⟨j, other, taken', claimed'⟩ := (inv.settled.received batch c message entry).1
      obtain rfl := slots.index_of_taken taken taken'
      rw [claimed] at claimed'
      obtain ⟨rfl, rfl⟩ := Prod.mk.inj (Option.some.inj claimed')
      exact List.mem_map.mpr ⟨_, entry, rfl⟩
  rw [received_eq]
  refine (same.map Prod.snd).trans ?_
  rw [Log.deliveries_snd, all, List.take_of_length_le (by simp)]

omit [DecidableEq T] in
theorem Inv.counted_perm (inv : Inv e s) (idle : ∀ t, s.pc t = .idle) :
    s.counted.Perm (s.log.claimed.map Prod.snd) := by
  have slots := inv.ring.slots
  have same : (s.record.counted.map Prod.snd).Perm (s.log.claimed.map Prod.fst) := by
    refine (List.perm_ext_iff_of_nodup inv.settled.countedOnce slots.claimedOnce).mpr ?_
    intro call
    constructor
    · intro member
      obtain ⟨⟨batch, c⟩, entry, rfl⟩ := List.mem_map.mp member
      obtain ⟨k, item, claimed, -⟩ := (inv.settled.counted batch c entry).1
      exact List.mem_map.mpr ⟨_, List.mem_of_getElem? claimed, rfl⟩
    · intro member
      obtain ⟨⟨c, item⟩, entry, rfl⟩ := List.mem_map.mp member
      rcases inv.settled.claimed c item entry with ⟨t, working⟩ | counted
      · rw [System.view, idle t] at working
        cases working
      · exact counted
  have items : (s.log.claimed.map Prod.fst).filterMap (fun call => s.log.enqueues[call]?) =
      s.log.claimed.map Prod.snd := by
    rw [List.filterMap_map, ← List.filterMap_eq_map]
    apply List.filterMap_congr
    rintro ⟨call, item⟩ member
    exact slots.called call item member
  have counted : s.counted = (s.record.counted.map Prod.snd).filterMap fun call =>
      s.log.enqueues[call]? := by
    rw [System.counted, List.filterMap_map]
    rfl
  rw [counted, ← items]
  exact same.filterMap _

omit [DecidableEq T] in
theorem Inv.safe (inv : Inv e s) (calls : s.log.enqueues.length < 2 ^ 63) : Safe s where
  counts := fun batch n member => (inv.books.enqueued batch n member).1.symm
  stored := fun batch call member => (inv.settled.counted batch call member).1
  returns := fun batch messages member => (inv.books.dequeued batch messages member).1.symm
  once := by
    have sub := subperm_image Prod.snd
      (List.subperm_of_subset inv.deliveries_nodup inv.deliveries_subset)
    rw [← received_eq, Log.deliveries_snd] at sub
    exact (sub.trans (List.take_sublist _ _).subperm).trans inv.ring.slots.claimed_subperm
  kept := by
    intro k producer item claimed written unread
    have live := (inv.ring.slots.live k written unread).item
    rw [claimed] at live
    rw [data, inv.shape.index k]
    exact (Option.some.inj live).symm
  drained := by
    intro idle drained
    refine ⟨?_, (inv.received_perm calls idle drained).trans (inv.counted_perm idle).symm⟩
    intro batch known
    rcases inv.books.finished batch known with ⟨t, working⟩ | done
    · rw [System.view, idle t] at working
      cases working
    · exact done

/-- Any number of callers, in any interleaving of fewer than `2 ^ 63` single enqueues in
    which no caller takes up a position that another of its kind is working on, lose no
    message and receive none twice. -/
theorem ultraQueue_safe_of_apart [Fintype T] {name : String} {capacity batchSize : Int64}
    {q : UltraHighPerformanceQueue M} (two : 2 ≤ capacity)
    (made : newUltraHighPerformanceQueue name capacity batchSize = some q)
    {labels : List (Label T M)} {s : System T M}
    (ran : (machine.restrict Apart).run (initial q) labels = some s)
    (calls : s.log.enqueues.length < 2 ^ 63) : Safe s := by
  obtain ⟨e, -, shape, buffer, enqueuePos, dequeuePos⟩ := new_fresh two made
  have start : Inv e (initial q : System T M) := inv_initial shape buffer enqueuePos dequeuePos
  exact (inv_run start ran calls).safe calls

/-- A queue of two slots, as `NewUltraHighPerformanceQueue` makes it. -/
def twoSlots : UltraHighPerformanceQueue Nat where
  mask := 1
  buffer := [⟨0, none⟩, ⟨1, none⟩]
  enqueuePos := 0
  dequeuePos := 0
  batchSize := 8
  stats := {}
  name := "ultra"
  capacity := 2

/-- The second producer starts while the first is at work, and waits on its slow path
    until `enqueuePos` has moved. -/
def inTurn : List (Label (Fin 3) Nat) :=
  [.batchEnqueue 0 [7], .batchEnqueue 1 [8], .step 0, .step 1, .step 0, .step 0, .step 0, .step 1,
    .step 0, .step 1, .step 1, .step 1, .step 1, .step 1, .batchDequeue 2 2, .step 2, .step 2]

theorem ultraQueue_safe_of_apart_inTurn :
    ∃ s, newUltraHighPerformanceQueue "ultra" 2 8 = some twoSlots ∧
      (machine.restrict Apart).run (initial twoSlots) inTurn = some s ∧
      s.log.enqueues.length = 2 ∧ Safe s := by
  have made : newUltraHighPerformanceQueue "ultra" 2 8 = some twoSlots := by decide
  have ends : ((machine.restrict Apart).run (initial twoSlots) inTurn).map (·.log.enqueues.length) =
      some 2 := by
    decide +kernel
  obtain ⟨s, ran, count⟩ := Option.map_eq_some_iff.mp ends
  exact ⟨s, made, ran, count, ultraQueue_safe_of_apart (by decide) made ran (by omega)⟩

/-- Both producers find the first slot free before either has written it. -/
def overlap : List (Label (Fin 3) Nat) :=
  [.batchEnqueue 0 [7], .batchEnqueue 1 [8], .step 0, .step 1, .step 0, .step 1] ++
    List.replicate 5 (.step 0) ++ List.replicate 5 (.step 1) ++ [.batchDequeue 2 2] ++
    List.replicate 8 (.step 2)

/-- Both messages are counted, and only the second is ever received. -/
theorem not_safe_overlap :
    ∃ s, newUltraHighPerformanceQueue "ultra" 2 8 = some twoSlots ∧
      machine.run (initial twoSlots) overlap = some s ∧ ¬ Safe s := by
  have ends : (machine.run (initial twoSlots) overlap).map
      (fun s => (decide (∀ t, s.pc t = .idle), s.queue.fastDequeue.map Prod.snd, s.received, s.counted)) =
      some (true, some none, [some 8], [some 7, some 8]) := by
    decide +kernel
  obtain ⟨s, ran, reached⟩ := Option.map_eq_some_iff.mp ends
  simp only [Prod.mk.injEq, decide_eq_true_eq] at reached
  obtain ⟨idle, drained, received, counted⟩ := reached
  refine ⟨s, by decide, ran, fun safe => ?_⟩
  have perm := (safe.drained idle drained).2
  rw [received, counted] at perm
  exact absurd perm.length_eq (by decide)

end Portask.Queue.UltraThreads
