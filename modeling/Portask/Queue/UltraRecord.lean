import Portask.Queue.UltraThreads

/-! # Positions, batches and calls of the ultra queue

Three parts of the invariant of the interleaved queue, each a structure of its own with
the rules that keep it: where the position words stand against the positions in use, what
the batches have counted and received so far, and where each single call has ended.
-/

namespace Portask.Queue.UltraThreads

open Function Lib Lib.Ring

variable {T M : Type}

def Pc.stake : Pc M → Stake M
  | .idle | .batchCount .. | .enqueueCount .. | .dequeueCount .. => .none
  | .enqueueLoad f | .slowLoad f => .seeking f.call (some f.message)
  | .enqueueSequence f pos | .slowSequence f pos => .reached f.call (some f.message) pos.toNat
  | .slowCas f pos => .ready f.call (some f.message) pos.toNat
  | .fastData f pos | .slowData f pos => .claimed f.call (some f.message) pos.toNat
  | .fastPublish f pos | .slowPublish f pos => .written f.call (some f.message) pos.toNat
  | .fastAdd f _ => .published f.call
  | .dequeueLoad f | .slowTakeLoad f => .looking f.call
  | .dequeueSequence f pos | .slowTakeSequence f pos => .approached f.call pos.toNat
  | .slowTakeCas f pos => .sighted f.call pos.toNat
  | .fastTake f pos | .slowTake f pos => .taken f.call pos.toNat
  | .fastRelease f pos data | .slowRelease f pos data => .read f.call pos.toNat data
  | .fastAdvance f _ data => .released f.call data

/-- A position claimed on the fast path that `enqueuePos` does not count yet. -/
def Pc.fastEnqueuing : Pc M → Option UInt64
  | .fastData _ pos | .fastPublish _ pos | .fastAdd _ pos => some pos
  | _ => none

def Pc.fastDequeuing : Pc M → Option UInt64
  | .fastTake _ pos | .fastRelease _ pos _ | .fastAdvance _ pos _ => some pos
  | _ => none

/-- A value of `enqueuePos` loaded earlier. -/
def Pc.enqueueSeen : Pc M → Option UInt64
  | .enqueueSequence _ pos | .slowSequence _ pos | .slowCas _ pos => some pos
  | _ => none

def Pc.dequeueSeen : Pc M → Option UInt64
  | .dequeueSequence _ pos | .slowTakeSequence _ pos | .slowTakeCas _ pos => some pos
  | _ => none

/-- A position word against the number of positions in use: it lags behind by the one
    position, if any, that a caller uses on its fast path. -/
structure Cursor (word : UInt64) (count : Nat) (fast seen : T → Option UInt64) : Prop where
  rest : (∀ t, fast t = none) → word.toNat = count
  pending : ∀ t pos, fast t = some pos → word = pos ∧ count = pos.toNat + 1
  one : ∀ t u, (fast t).isSome → (fast u).isSome → t = u
  behind : ∀ t pos, seen t = some pos → pos.toNat ≤ word.toNat

namespace Cursor

variable {word : UInt64} {count : Nat} {fast seen : T → Option UInt64} {t : T}

theorem le (cursor : Cursor word count fast seen) : word.toNat ≤ count := by
  by_cases none : ∀ t, fast t = none
  · exact (cursor.rest none).le
  · obtain ⟨t, some⟩ := not_forall.mp none
    obtain ⟨pos, here⟩ := Option.ne_none_iff_exists'.mp some
    obtain ⟨same, counted⟩ := cursor.pending t pos here
    rw [same]
    omega

/-- With nobody on the fast path at the word's own position, it counts every position. -/
theorem counts_all (cursor : Cursor word count fast seen) (apart : ∀ u, fast u ≠ some word) :
    word.toNat = count := by
  refine cursor.rest fun u => ?_
  by_contra some
  obtain ⟨pos, here⟩ := Option.ne_none_iff_exists'.mp some
  exact apart u ((cursor.pending u pos here).1 ▸ here)

/-- A word that counts every position leaves nobody on the fast path. -/
theorem clear (cursor : Cursor word count fast seen) (all : word.toNat = count) :
    ∀ t, fast t = none := by
  intro t
  by_contra some
  obtain ⟨pos, here⟩ := Option.ne_none_iff_exists'.mp some
  obtain ⟨same, counted⟩ := cursor.pending t pos here
  rw [same] at all
  omega

variable [DecidableEq T]

variable (cursor : Cursor word count fast seen)
include cursor

theorem behind_update {after : UInt64}
    (advanced : word.toNat ≤ after.toNat) (own : ∀ pos, new = some pos → pos.toNat ≤ after.toNat) :
    ∀ u pos, update seen t new u = some pos → pos.toNat ≤ after.toNat := by
  intro u pos found
  obtain ⟨-, mine⟩ | ⟨-, found⟩ := of_update found
  · exact own pos mine
  · exact (cursor.behind u pos found).trans advanced

theorem keep {f new : Option UInt64} (same : f = fast t)
    (own : ∀ pos, new = some pos → pos.toNat ≤ word.toNat) :
    Cursor word count (update fast t f) (update seen t new) := by
  subst same
  rw [update_eq_self]
  exact ⟨cursor.rest, cursor.pending, cursor.one, cursor.behind_update le_rfl own⟩

theorem enter (all : word.toNat = count) {pos : UInt64} (here : word = pos) :
    Cursor word (count + 1) (update fast t (some pos)) (update seen t none) := by
  have clear := cursor.clear all
  have mine : ∀ u, (update fast t (some pos) u).isSome → u = t := by
    intro u found
    by_contra other
    simp [update_of_ne other, clear u] at found
  refine ⟨?_, ?_, ?_, cursor.behind_update le_rfl (by simp)⟩
  · intro none
    simpa using none t
  · intro u p found
    obtain rfl := mine u (by simp [found])
    obtain rfl : pos = p := by simpa using found
    exact ⟨here, by rw [← all, here]⟩
  · intro u v left right
    exact (mine u left).trans (mine v right).symm

theorem leave {pos : UInt64} (here : fast t = some pos) (small : word.toNat < 2 ^ 63) :
    Cursor (word + 1) count (update fast t none) (update seen t none) := by
  have gone : ∀ u, update fast t none u = none := by
    intro u
    by_cases mine : u = t
    · subst mine
      simp
    · rw [update_of_ne mine]
      by_contra some
      exact mine (cursor.one u t (Option.isSome_iff_ne_none.mpr some) (by simp [here]))
  obtain ⟨same, counted⟩ := cursor.pending t pos here
  refine ⟨?_, ?_, ?_, cursor.behind_update (by rw [toNat_succ small]; omega) (by simp)⟩
  · intro _
    rw [toNat_succ small, counted, same]
  · intro u p found
    rw [gone u] at found
    cases found
  · intro u v found
    rw [gone u] at found
    cases found

theorem win (all : word.toNat = count) (small : word.toNat < 2 ^ 63) :
    Cursor (word + 1) (count + 1) (update fast t none) (update seen t none) := by
  have clear := cursor.clear all
  have none : update fast t none = fast := by
    rw [← clear t, update_eq_self]
  rw [none]
  refine ⟨?_, ?_, cursor.one, cursor.behind_update (by rw [toNat_succ small]; omega) (by simp)⟩
  · intro _
    rw [toNat_succ small, all]
  · intro u p found
    rw [clear u] at found
    cases found

end Cursor

def Record.countedBy (record : Record M) (batch : Nat) : Nat :=
  record.counted.countP fun entry => entry.1 == batch

def Record.receivedBy (record : Record M) (batch : Nat) : List M :=
  (record.received.filter fun entry => entry.1 == batch).map fun entry => entry.2.2

/-- The batch a caller is in, and what it will return if it ends now. -/
inductive Work (M : Type) where
  | none
  | enqueues (batch enqueued : Nat)
  | dequeues (batch : Nat) (messages : List M)

def Work.batch : Work M → Option Nat
  | .none => Option.none
  | .enqueues batch _ | .dequeues batch _ => some batch

def Pc.work : Pc M → Work M
  | .idle => .none
  | .enqueueLoad f | .enqueueSequence f _ | .fastData f _ | .fastPublish f _ | .fastAdd f _
  | .slowLoad f | .slowSequence f _ | .slowCas f _ | .slowData f _ | .slowPublish f _ =>
    .enqueues f.batch f.enqueued
  | .batchCount batch enqueued | .enqueueCount batch enqueued => .enqueues batch enqueued
  | .dequeueLoad f | .dequeueSequence f _ | .fastTake f _ | .fastRelease f _ _ | .fastAdvance f _ _
  | .slowTakeLoad f | .slowTakeSequence f _ | .slowTakeCas f _ | .slowTake f _
    | .slowRelease f _ _ =>
    .dequeues f.batch f.messages
  | .dequeueCount batch messages => .dequeues batch messages

/-- The local counts and slices agree with the record, and so do the results. -/
structure Books (record : Record M) (batches : Nat) (work : T → Work M) : Prop where
  known : ∀ t batch, (work t).batch = some batch → batch < batches
  own : ∀ t u batch, (work t).batch = some batch → (work u).batch = some batch → t = u
  counting : ∀ t batch n, work t = .enqueues batch n → record.countedBy batch = n
  receiving : ∀ t batch messages, work t = .dequeues batch messages →
    record.receivedBy batch = messages
  countedKnown : ∀ batch call, (batch, call) ∈ record.counted → batch < batches
  receivedKnown : ∀ batch call message, (batch, call, message) ∈ record.received → batch < batches
  enqueued : ∀ batch n, (batch, n) ∈ record.enqueued → record.countedBy batch = n ∧
    batch < batches ∧ ∀ t, (work t).batch ≠ some batch
  dequeued : ∀ batch messages, (batch, messages) ∈ record.dequeued →
    record.receivedBy batch = messages ∧ batch < batches ∧ ∀ t, (work t).batch ≠ some batch
  finished : ∀ batch < batches, (∃ t, (work t).batch = some batch) ∨
    (∃ n, (batch, n) ∈ record.enqueued) ∨ ∃ messages, (batch, messages) ∈ record.dequeued

namespace Books

variable {record : Record M} {batches : Nat} {work : T → Work M} {t : T}

variable {batch : Nat}

theorem other_batch (books : Books record batches work) (mine : (work t).batch = some batch)
    (other : u ≠ t) : (work u).batch ≠ some batch :=
  fun theirs => other (books.own u t batch theirs mine)

/-- Nothing stands in the record under the next number. -/
theorem unused (books : Books record batches work) :
    record.countedBy batches = 0 ∧ record.receivedBy batches = [] := by
  constructor
  · simp only [Record.countedBy, List.countP_eq_zero, beq_iff_eq]
    rintro ⟨b, c⟩ member rfl
    exact Nat.lt_irrefl _ (books.countedKnown _ c member)
  · simp only [Record.receivedBy, List.map_eq_nil_iff, List.filter_eq_nil_iff, beq_iff_eq]
    rintro ⟨b, c, m⟩ member rfl
    exact Nat.lt_irrefl _ (books.receivedKnown _ c m member)

variable [DecidableEq T] {new : Work M}

variable (books : Books record batches work)
include books

theorem keep (same : new = work t) : Books record batches (update work t new) := by
  subst same
  rwa [update_eq_self]

/-- A caller works on at the same batch, and the record of that batch only has grown. -/
theorem work_on (mine : (work t).batch = some batch)
    (same : new.batch = some batch)
    (counting : ∀ n, new = .enqueues batch n → after.countedBy batch = n)
    (receiving : ∀ messages, new = .dequeues batch messages → after.receivedBy batch = messages)
    (countedElse : ∀ other, other ≠ batch → after.countedBy other = record.countedBy other)
    (receivedElse : ∀ other, other ≠ batch → after.receivedBy other = record.receivedBy other)
    (counted : ∀ b c, (b, c) ∈ after.counted → (b, c) ∈ record.counted ∨ b = batch)
    (received : ∀ b c m, (b, c, m) ∈ after.received → (b, c, m) ∈ record.received ∨ b = batch)
    (enqueued : after.enqueued = record.enqueued) (dequeued : after.dequeued = record.dequeued) :
    Books after batches (update work t new) := by
  have batchOf : ∀ u, (update work t new u).batch = (work u).batch := by
    intro u
    by_cases here : u = t
    · subst here
      simp [same, mine]
    · rw [update_of_ne here]
  have different : ∀ {u b}, u ≠ t → (work u).batch = some b → b ≠ batch := by
    rintro u b other theirs rfl
    exact books.other_batch mine other theirs
  refine ⟨?known, ?own, ?counting, ?receiving, ?countedKnown, ?receivedKnown, ?enqueued,
    ?dequeued, ?finished⟩
  case known =>
    intro u b found
    exact books.known u b (batchOf u ▸ found)
  case own =>
    intro u v b left right
    exact books.own u v b (batchOf u ▸ left) (batchOf v ▸ right)
  case counting =>
    intro u b n found
    obtain ⟨-, found⟩ | ⟨here, found⟩ := of_update found
    · obtain rfl : batch = b := by simpa [found, Work.batch] using same.symm
      exact counting n found
    · rw [countedElse b (different here (by rw [found]; rfl))]
      exact books.counting u b n found
  case receiving =>
    intro u b messages found
    obtain ⟨-, found⟩ | ⟨here, found⟩ := of_update found
    · obtain rfl : batch = b := by simpa [found, Work.batch] using same.symm
      exact receiving messages found
    · rw [receivedElse b (different here (by rw [found]; rfl))]
      exact books.receiving u b messages found
  case countedKnown =>
    intro b c member
    rcases counted b c member with old | rfl
    · exact books.countedKnown b c old
    · exact books.known t b mine
  case receivedKnown =>
    intro b c m member
    rcases received b c m member with old | rfl
    · exact books.receivedKnown b c m old
    · exact books.known t b mine
  case enqueued =>
    intro b n member
    rw [enqueued] at member
    obtain ⟨result, known, ended⟩ := books.enqueued b n member
    have other : b ≠ batch := by
      rintro rfl
      exact ended t mine
    exact ⟨by rw [countedElse b other, result], known, fun u => by rw [batchOf]; exact ended u⟩
  case dequeued =>
    intro b messages member
    rw [dequeued] at member
    obtain ⟨result, known, ended⟩ := books.dequeued b messages member
    have other : b ≠ batch := by
      rintro rfl
      exact ended t mine
    exact ⟨by rw [receivedElse b other, result], known, fun u => by rw [batchOf]; exact ended u⟩
  case finished =>
    intro b known
    rw [enqueued, dequeued]
    simpa only [batchOf] using books.finished b known

theorem count (here : work t = .enqueues batch n) (call : Nat) :
    Books { record with counted := record.counted ++ [(batch, call)] } batches
      (update work t (.enqueues batch (n + 1))) := by
  have mine : (work t).batch = some batch := by rw [here]; rfl
  apply books.work_on mine rfl
  · rintro _ ⟨⟩
    simp [Record.countedBy, ← books.counting t batch n here]
  · rintro _ ⟨⟩
  · intro other different
    simp [Record.countedBy, Ne.symm different]
  · exact fun _ _ => rfl
  · intro b c member
    simp only [List.mem_append, List.mem_singleton, Prod.mk.injEq] at member
    exact member.imp_right And.left
  · exact fun _ _ _ => .inl
  · rfl
  · rfl

theorem receive (here : work t = .dequeues batch messages) (call : Nat) (message : M) :
    Books { record with received := record.received ++ [(batch, call, message)] } batches
      (update work t (.dequeues batch (messages ++ [message]))) := by
  have mine : (work t).batch = some batch := by rw [here]; rfl
  apply books.work_on mine rfl
  · rintro _ ⟨⟩
  · rintro _ ⟨⟩
    simp [Record.receivedBy, ← books.receiving t batch messages here]
  · exact fun _ _ => rfl
  · intro other different
    simp [Record.receivedBy, Ne.symm different]
  · exact fun _ _ => .inl
  · intro b c m member
    simp only [List.mem_append, List.mem_singleton, Prod.mk.injEq] at member
    exact member.imp_right And.left
  · rfl
  · rfl

/-- A caller starts a batch, under a number nobody has used. -/
theorem start (idle : work t = .none)
    (fresh : new = .enqueues batches 0 ∨ new = .dequeues batches []) :
    Books record (batches + 1) (update work t new) := by
  have batchOf : new.batch = some batches := by
    rcases fresh with rfl | rfl <;> rfl
  have back : ∀ u b, (update work t new u).batch = some b →
      (u = t ∧ b = batches) ∨ (u ≠ t ∧ (work u).batch = some b) := by
    intro u b found
    by_cases here : u = t
    · subst here
      rw [update_self, batchOf] at found
      exact .inl ⟨rfl, (Option.some.inj found).symm⟩
    · rw [update_of_ne here] at found
      exact .inr ⟨here, found⟩
  have old : ∀ {b}, b < batches → (∀ u, (work u).batch ≠ some b) →
      ∀ u, (update work t new u).batch ≠ some b := by
    intro b known ended u found
    rcases back u b found with ⟨-, rfl⟩ | ⟨-, theirs⟩
    · exact Nat.lt_irrefl _ known
    · exact ended u theirs
  refine ⟨?known, ?own, ?counting, ?receiving, ?countedKnown, ?receivedKnown, ?enqueued,
    ?dequeued, ?finished⟩
  case known =>
    intro u b found
    rcases back u b found with ⟨-, rfl⟩ | ⟨-, theirs⟩
    · exact Nat.lt_succ_self _
    · exact Nat.lt_succ_of_lt (books.known u b theirs)
  case own =>
    intro u v b left right
    rcases back u b left with ⟨rfl, rfl⟩ | ⟨-, one⟩ <;>
      rcases back v b right with ⟨rfl, same⟩ | ⟨-, two⟩
    · rfl
    · exact absurd (books.known v _ two) (Nat.lt_irrefl _)
    · exact absurd (same ▸ books.known u b one) (Nat.lt_irrefl _)
    · exact books.own u v b one two
  case counting =>
    intro u b n found
    obtain ⟨-, found⟩ | ⟨-, found⟩ := of_update found
    · rcases fresh with rfl | rfl <;> cases found
      exact books.unused.1
    · exact books.counting u b n found
  case receiving =>
    intro u b messages found
    obtain ⟨-, found⟩ | ⟨-, found⟩ := of_update found
    · rcases fresh with rfl | rfl <;> cases found
      exact books.unused.2
    · exact books.receiving u b messages found
  case countedKnown =>
    exact fun b c member => Nat.lt_succ_of_lt (books.countedKnown b c member)
  case receivedKnown =>
    exact fun b c m member => Nat.lt_succ_of_lt (books.receivedKnown b c m member)
  case enqueued =>
    intro b n member
    obtain ⟨result, known, ended⟩ := books.enqueued b n member
    exact ⟨result, Nat.lt_succ_of_lt known, old known ended⟩
  case dequeued =>
    intro b messages member
    obtain ⟨result, known, ended⟩ := books.dequeued b messages member
    exact ⟨result, Nat.lt_succ_of_lt known, old known ended⟩
  case finished =>
    intro b known
    by_cases last : b = batches
    · exact .inl ⟨t, by rw [update_self, batchOf, last]⟩
    · rcases books.finished b (by omega) with ⟨u, theirs⟩ | done
      · refine .inl ⟨u, ?_⟩
        by_cases here : u = t
        · subst here
          simp [idle, Work.batch] at theirs
        · rw [update_of_ne here]
          exact theirs
      · exact .inr done

/-- A caller ends its batch and its result is recorded. -/
theorem end_ {enqueued dequeued} (mine : (work t).batch = some batch)
    (enqueues : ∀ b n, (b, n) ∈ enqueued → (b, n) ∈ record.enqueued ∨ b = batch ∧
      record.countedBy batch = n)
    (dequeues : ∀ b messages, (b, messages) ∈ dequeued → (b, messages) ∈ record.dequeued ∨
      b = batch ∧ record.receivedBy batch = messages)
    (oldEnqueued : ∀ entry ∈ record.enqueued, entry ∈ enqueued)
    (oldDequeued : ∀ entry ∈ record.dequeued, entry ∈ dequeued)
    (recorded : (∃ n, (batch, n) ∈ enqueued) ∨ ∃ messages, (batch, messages) ∈ dequeued) :
    Books { record with enqueued, dequeued } batches (update work t .none) := by
  have back : ∀ u b, (update work t .none u).batch = some b →
      u ≠ t ∧ (work u).batch = some b := by
    intro u b found
    by_cases here : u = t
    · subst here
      simp [Work.batch] at found
    · rw [update_of_ne here] at found
      exact ⟨here, found⟩
  have gone : ∀ u, (update work t .none u).batch ≠ some batch := by
    intro u found
    obtain ⟨other, theirs⟩ := back u batch found
    exact books.other_batch mine other theirs
  have still : ∀ {u} {w : Work M}, w.batch ≠ Option.none → update work t .none u = w →
      work u = w := by
    intro u w working found
    obtain ⟨-, rfl⟩ | ⟨-, found⟩ := of_update found
    · exact absurd rfl working
    · exact found
  refine ⟨?known, ?own, ?counting, ?receiving, books.countedKnown, books.receivedKnown, ?enqueued,
    ?dequeued, ?finished⟩
  case known =>
    exact fun u b found => books.known u b (back u b found).2
  case own =>
    exact fun u v b left right => books.own u v b (back u b left).2 (back v b right).2
  case counting =>
    exact fun u b n found => books.counting u b n (still (by simp [Work.batch]) found)
  case receiving =>
    exact fun u b messages found =>
      books.receiving u b messages (still (by simp [Work.batch]) found)
  case enqueued =>
    intro b n member
    rcases enqueues b n member with old | ⟨rfl, result⟩
    · obtain ⟨result, known, ended⟩ := books.enqueued b n old
      exact ⟨result, known, fun u found => ended u (back u b found).2⟩
    · exact ⟨result, books.known t b mine, gone⟩
  case dequeued =>
    intro b messages member
    rcases dequeues b messages member with old | ⟨rfl, result⟩
    · obtain ⟨result, known, ended⟩ := books.dequeued b messages old
      exact ⟨result, known, fun u found => ended u (back u b found).2⟩
    · exact ⟨result, books.known t b mine, gone⟩
  case finished =>
    intro b known
    rcases books.finished b known with ⟨u, theirs⟩ | ⟨n, done⟩ | ⟨messages, done⟩
    · by_cases here : u = t
      · subst here
        obtain rfl : batch = b := Option.some.inj (mine.symm.trans theirs)
        exact .inr recorded
      · exact .inl ⟨u, by rw [update_of_ne here]; exact theirs⟩
    · exact .inr (.inl ⟨n, oldEnqueued _ done⟩)
    · exact .inr (.inr ⟨messages, oldDequeued _ done⟩)

theorem endEnqueue {batch n} (here : work t = .enqueues batch n) :
    Books { record with enqueued := record.enqueued ++ [(batch, n)] } batches
      (update work t .none) := by
  have mine : (work t).batch = some batch := by rw [here]; rfl
  apply books.end_ mine
  · intro b m member
    simp only [List.mem_append, List.mem_singleton, Prod.mk.injEq] at member
    exact member.imp_right fun ⟨same, result⟩ => ⟨same, result ▸ books.counting t batch n here⟩
  · exact fun _ _ => .inl
  · exact fun _ => List.mem_append_left _
  · exact fun _ => id
  · exact .inl ⟨n, by simp⟩

theorem endDequeue {messages} (here : work t = .dequeues batch messages) :
    Books { record with dequeued := record.dequeued ++ [(batch, messages)] } batches
      (update work t .none) := by
  have mine : (work t).batch = some batch := by rw [here]; rfl
  apply books.end_ mine
  · exact fun _ _ => .inl
  · intro b m member
    simp only [List.mem_append, List.mem_singleton, Prod.mk.injEq] at member
    exact member.imp_right fun ⟨same, result⟩ =>
      ⟨same, result ▸ books.receiving t batch messages here⟩
  · exact fun _ => id
  · exact fun _ => List.mem_append_left _
  · exact .inr ⟨messages, by simp⟩

end Books

/-- A counted enqueue is stored and a received message was delivered, each once; a call
    that has won a position is either still under way or in the record. -/
structure Settled (log : Log M) (record : Record M) (stake : T → Stake M) : Prop where
  counted : ∀ batch call, (batch, call) ∈ record.counted →
    Accepted log call ∧ ∀ t, (stake t).enqueueCall ≠ some call
  countedOnce : (record.counted.map Prod.snd).Nodup
  claimed : ∀ call item, (call, item) ∈ log.claimed →
    (∃ t, (stake t).enqueueCall = some call) ∨ call ∈ record.counted.map Prod.snd
  received : ∀ batch call message, (batch, call, message) ∈ record.received →
    Delivered log call (some message) ∧ ∀ t, (stake t).dequeueCall ≠ some call
  receivedOnce : (record.received.map fun entry => entry.2.1).Nodup
  taken : ∀ call ∈ log.taken, (∃ t, (stake t).dequeueCall = some call) ∨
    call ∈ record.received.map fun entry => entry.2.1

/-- The same for one kind of calls. -/
structure Ends {κ σ : Type} (entries : List κ) (call : κ → Nat) (done : κ → Prop) (won : Nat → Prop)
    (callOf : σ → Option Nat) (stake : T → σ) : Prop where
  ended : ∀ e ∈ entries, done e ∧ ∀ t, callOf (stake t) ≠ some (call e)
  once : (entries.map call).Nodup
  known : ∀ c, won c → (∃ t, callOf (stake t) = some c) ∨ c ∈ entries.map call

namespace Ends

variable {κ : Type} {entries : List κ} {number : κ → Nat} {done done' : κ → Prop}
  {won won' : Nat → Prop}
  {callOf : Stake M → Option Nat} {stake : T → Stake M} {new : Stake M} {t : T} [DecidableEq T]

variable (ends : Ends entries number done won callOf stake)
include ends

theorem elsewhere (inside : e ∈ entries) (own : callOf new ≠ some (number e)) :
    ∀ u, callOf (update stake t new u) ≠ some (number e) :=
  (forall_update_iff stake fun _ stake => callOf stake ≠ some (number e)).mpr
    ⟨own, fun u _ => (ends.ended e inside).2 u⟩

/-- A step after which no call has ended that had won a position. -/
theorem step (grows : ∀ e, done e → done' e) (own : ∀ e ∈ entries, callOf new ≠ some (number e))
    (wins : ∀ c, won' c → won c ∨ callOf new = some c)
    (stays : ∀ c, won c → callOf (stake t) = some c → callOf new = some c) :
    Ends entries number done' won' callOf (update stake t new) where
  ended e inside := ⟨grows e (ends.ended e inside).1, ends.elsewhere inside (own e inside)⟩
  once := ends.once
  known c found := by
    obtain old | own := wins c found
    · exact (ends.known c old).imp_left fun found => Protocol.exists_update found (stays c old)
    · exact .inl ⟨t, by simpa using own⟩

theorem keep (grows : ∀ e, done e → done' e) (same : callOf new = callOf (stake t))
    (wins : ∀ c, won' c → won c ∨ callOf new = some c) :
    Ends entries number done' won' callOf (update stake t new) := by
  refine ends.step grows (fun e inside own => ?_) wins (fun c _ mine => same.trans mine)
  exact (ends.ended e inside).2 t (same.symm.trans own)

/-- A caller without a call starts one that nobody has made, or one whose call has won no position leaves. -/
theorem turn (grows : ∀ e, done e → done' e) (own : ∀ e ∈ entries, callOf new ≠ some (number e))
    (lost : ∀ c, won c → callOf (stake t) ≠ some c) :
    Ends entries number done' won callOf (update stake t new) :=
  ends.step grows own (fun _ => .inl) fun c old mine => absurd mine (lost c old)

/-- The call of `t` goes from the calls under way to the record. -/
theorem record (mine : callOf (stake t) = some (number e))
    (only : ∀ u, callOf (stake u) = some (number e) → u = t)
    (none : callOf new = none) (finished : done e) :
    Ends (entries ++ [e]) number done won callOf (update stake t new) where
  ended := by
    refine forall_mem_concat (fun old inside => ?_) ⟨finished, ?_⟩
    · exact ⟨(ends.ended old inside).1, ends.elsewhere inside (by simp [none])⟩
    · exact (forall_update_iff stake fun _ stake => callOf stake ≠ some (number e)).mpr
        ⟨by simp [none], fun u other own => other (only u own)⟩
  once := by
    rw [List.map_append]
    refine ends.once.append (List.nodup_singleton _) (List.disjoint_singleton.mpr fun member => ?_)
    obtain ⟨old, inside, same⟩ := List.mem_map.mp member
    exact (ends.ended old inside).2 t (same ▸ mine)
  known c found := by
    rw [List.map_append]
    obtain ⟨u, theirs⟩ | old := ends.known c found
    · by_cases here : u = t
      · subst here
        obtain rfl : number e = c := Option.some.inj (mine.symm.trans theirs)
        exact .inr (List.mem_append_right _ List.mem_cons_self)
      · exact .inl ⟨u, by simpa [update_of_ne here] using theirs⟩
    · exact .inr (List.mem_append_left _ old)

end Ends

namespace Settled

variable {log after : Log M} {record : Record M} {stake : T → Stake M} {t : T}

theorem iff_ends : Settled log record stake ↔
    Ends record.counted Prod.snd (fun e => Accepted log e.2)
    (fun c => ∃ x, (c, x) ∈ log.claimed) Stake.enqueueCall stake ∧
    Ends record.received (·.2.1) (fun e => Delivered log e.2.1 (some e.2.2))
    (· ∈ log.taken) Stake.dequeueCall stake := by
  constructor
  · rintro ⟨counted, countedOnce, claimed, received, receivedOnce, taken⟩
    exact ⟨⟨fun e => counted e.1 e.2, countedOnce, fun c won => won.elim (claimed c)⟩,
      fun e => received e.1 e.2.1 e.2.2, receivedOnce, taken⟩
  · rintro ⟨enqueues, dequeues⟩
    exact ⟨fun b c => enqueues.ended (b, c), enqueues.once, fun c x won =>
      enqueues.known c ⟨x, won⟩,
      fun b c m => dequeues.ended (b, c, m), dequeues.once, dequeues.known⟩

variable (settled : Settled log record stake)
include settled

/-- The results of the batches are no part of it. -/
theorem returned (counted : later.counted = record.counted)
    (received : later.received = record.received) : Settled log later stake := by
  obtain ⟨enqueues, dequeues⟩ := iff_ends.mp settled
  exact iff_ends.mpr ⟨counted ▸ enqueues, received ▸ dequeues⟩

variable [DecidableEq T] {new : Stake M} {call : Nat}

/-- A step that leaves the caller in its calls and the positions as they are. -/
theorem keep (grows : log.Grows after)
    (enqueueSame : new.enqueueCall = (stake t).enqueueCall)
    (dequeueSame : new.dequeueCall = (stake t).dequeueCall)
    (claimed : after.claimed = log.claimed) (taken : after.taken = log.taken) :
    Settled after record (update stake t new) := by
  obtain ⟨enqueues, dequeues⟩ := iff_ends.mp settled
  exact iff_ends.mpr ⟨enqueues.keep (fun _ accepted => accepted.mono grows) enqueueSame fun _ won =>
    .inl (claimed ▸ won),
    dequeues.keep (fun _ delivered => delivered.mono grows) dequeueSame fun _ won =>
      .inl (taken ▸ won)⟩

theorem claim (mine : (stake t).enqueueCall = some call)
    (dequeue : (stake t).dequeueCall = none) (same : new.enqueueCall = some call)
    (none : new.dequeueCall = Option.none) :
    Settled (log.claim call item) record (update stake t new) := by
  obtain ⟨enqueues, dequeues⟩ := iff_ends.mp settled
  refine iff_ends.mpr
    ⟨enqueues.keep (fun _ accepted => accepted.mono (.claim _ _ _)) (same.trans mine.symm) ?_,
    dequeues.keep (fun _ delivered => delivered.mono (.claim _ _ _))
      (none.trans dequeue.symm) fun _ => .inl⟩
  rintro c ⟨x, won⟩
  simp only [Log.claim, List.mem_append, List.mem_singleton, Prod.mk.injEq] at won
  obtain before | ⟨won, -⟩ := won
  · exact .inl ⟨x, before⟩
  · exact .inr (by rw [won, same])

theorem take (mine : (stake t).dequeueCall = some call)
    (enqueue : (stake t).enqueueCall = none) (same : new.dequeueCall = some call)
    (none : new.enqueueCall = Option.none) :
    Settled (log.take call) record (update stake t new) := by
  obtain ⟨enqueues, dequeues⟩ := iff_ends.mp settled
  refine iff_ends.mpr ⟨enqueues.keep (fun _ accepted => accepted.mono (.take _ _)) (none.trans enqueue.symm) fun _ => .inl,
    dequeues.keep (fun _ delivered => delivered.mono (.take _ _))
      (same.trans mine.symm) fun c won => ?_⟩
  simp only [Log.take, List.mem_append, List.mem_singleton] at won
  exact won.imp_right fun won => by rw [won, same]

theorem giveUp (mine : (stake t).enqueueCall = some call)
    (waiting : Waiting log call item) (dequeue : (stake t).dequeueCall = none) :
    Settled log record (update stake t .none) := by
  obtain ⟨enqueues, dequeues⟩ := iff_ends.mp settled
  refine iff_ends.mpr ⟨enqueues.turn (fun _ => id) (by simp [Stake.enqueueCall]) ?_,
    dequeues.keep (fun _ => id) dequeue.symm fun _ => .inl⟩
  rintro c ⟨x, won⟩ own
  obtain rfl : call = c := Option.some.inj (mine.symm.trans own)
  exact waiting.2 (List.mem_map_of_mem won)

theorem findNothing (mine : (stake t).dequeueCall = some call)
    (waiting : call ∉ log.taken) (enqueue : (stake t).enqueueCall = none) :
    Settled log record (update stake t .none) := by
  obtain ⟨enqueues, dequeues⟩ := iff_ends.mp settled
  refine iff_ends.mpr ⟨enqueues.keep (fun _ => id) enqueue.symm fun _ => .inl,
    dequeues.turn (fun _ => id) (by simp [Stake.dequeueCall]) fun c won own => ?_⟩
  obtain rfl : call = c := Option.some.inj (mine.symm.trans own)
  exact waiting won

theorem count (mine : (stake t).enqueueCall = some call)
    (dequeue : (stake t).dequeueCall = none) (own : ∀ u, (stake u).enqueueCall = some call → u = t)
    (accepted : Accepted log call) (batch : Nat) :
    Settled log { record with counted := record.counted ++ [(batch, call)] }
    (update stake t .none) := by
  obtain ⟨enqueues, dequeues⟩ := iff_ends.mp settled
  exact iff_ends.mpr ⟨enqueues.record (e := (batch, call)) mine own rfl accepted,
    dequeues.keep (fun _ => id) dequeue.symm fun _ => .inl⟩

theorem receive (mine : (stake t).dequeueCall = some call)
    (enqueue : (stake t).enqueueCall = none) (own : ∀ u, (stake u).dequeueCall = some call → u = t)
    (delivered : Delivered log call (some message)) (batch : Nat) :
    Settled log { record with received := record.received ++ [(batch, call, message)] }
    (update stake t .none) := by
  obtain ⟨enqueues, dequeues⟩ := iff_ends.mp settled
  exact iff_ends.mpr ⟨enqueues.keep (fun _ => id) enqueue.symm fun _ => .inl,
    dequeues.record (e := (batch, call, message)) mine own rfl delivered⟩

/-- A caller without calls starts one that nobody has made. -/
theorem start (grows : log.Grows after) (idle : stake t = .none)
    (enqueueFresh : ∀ call, new.enqueueCall = some call → ¬ Accepted log call)
    (dequeueFresh : ∀ call, new.dequeueCall = some call → call ∉ log.taken)
    (claimed : after.claimed = log.claimed)
    (taken : after.taken = log.taken) : Settled after record (update stake t new) := by
  obtain ⟨enqueues, dequeues⟩ := iff_ends.mp settled
  refine iff_ends.mpr
    ⟨claimed ▸ enqueues.turn (fun _ accepted => accepted.mono grows) (fun e inside own => ?_) ?_,
    taken ▸ dequeues.turn (fun _ delivered => delivered.mono grows) (fun e inside own => ?_) ?_⟩
  · exact enqueueFresh _ own (enqueues.ended e inside).1
  · simp [idle, Stake.enqueueCall]
  · obtain ⟨k, producer, won, -⟩ := (dequeues.ended e inside).1
    exact dequeueFresh _ own (List.mem_of_getElem? won)
  · simp [idle, Stake.dequeueCall]

end Settled

end Portask.Queue.UltraThreads
