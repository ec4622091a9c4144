import Portask.Storage.WalLog

/-! # Writers that come and go

A history of a directory: writers are opened and closed one after the other, and file writes
may fail after some bytes. The files only grow. A writer counts the size of a segment by
itself, from zero, so the offsets it returns are right as long as that count is the length of
the file.
-/

namespace Portask.Storage

open Function Lib

/-- A directory with the writer that is open, if there is one, and what callers have been told. -/
structure History where
  dir : Directory
  writer : Option WALWriter
  log : List Record

/-- `fails` is about creating the directory or the first segment. -/
inductive Event where
  | opens (maxSegmentSize : Int) (fails : Bool)
  | closes
  | call (call : Call)
  deriving DecidableEq

namespace History

def start : History := ⟨.empty, none, []⟩

def opened (s : History) (maxSegmentSize : Int) : History where
  dir := (WAL.newWALWriter s.dir maxSegmentSize).dir
  writer := some (WAL.newWALWriter s.dir maxSegmentSize).writer
  log := s.log

/-- A call, whose offsets are recorded if it returns them. -/
def called (s : History) (w : WALWriter) (call : Call) : History :=
  match (WAL.mk s.dir w).apply call with
  | (wal, .ok offsets) => ⟨wal.dir, some wal.writer, s.log ++ records wal call offsets⟩
  | (wal, .error _) => ⟨wal.dir, some wal.writer, s.log⟩

def machine : Machine History Event where
  next s event :=
    match event, s.writer with
    | .opens maxSegmentSize fails, none => some (if fails then s else s.opened maxSegmentSize)
    | .closes, some _ => some { s with writer := none }
    | .call call, some w => some (s.called w call)
    | _, _ => none

end History

/-- The writer's count of the current segment is the length of its file, and the ID and the
    entries' sizes fit their formats. -/
structure WAL.Ready (w : WAL) (call : Call) : Prop where
  size : w.writer.currentSegment.size = (w.dir.content w.fileName).length
  id : w.writer.currentSegment.id < 10 ^ 6
  small : ∀ r ∈ call.requests, r.data.length < 2 ^ 32

/-- A call finds the segment ready, once it has made room. -/
def Fits (s : History) : Event → Prop
  | .call call =>
    ∀ w ∈ s.writer, ((WAL.mk s.dir w).makeRoom call).2 = none →
      ((WAL.mk s.dir w).makeRoom call).1.Ready call
  | .opens _ _ | .closes => True

structure Directory.Grows (dir later : Directory) : Prop where
  names : ∀ name ∈ dir.names, name ∈ later.names
  content : ∀ name ∈ dir.names, ∃ more, later.content name = dir.content name ++ more

namespace Directory

theorem Grows.refl (dir : Directory) : dir.Grows dir :=
  ⟨fun _ inside => inside, fun _ _ => ⟨[], (List.append_nil _).symm⟩⟩

theorem Grows.trans {dir middle later : Directory} (first : dir.Grows middle)
    (second : middle.Grows later) : dir.Grows later := by
  refine ⟨fun name inside => second.names name (first.names name inside), fun name inside => ?_⟩
  obtain ⟨more, between⟩ := first.content name inside
  obtain ⟨still, final⟩ := second.content name (first.names name inside)
  exact ⟨more ++ still, by rw [final, between, List.append_assoc]⟩

theorem grows_openFile (dir : Directory) (name : GoString) : dir.Grows (dir.openFile name) := by
  rw [openFile]
  split
  · exact .refl dir
  · next absent =>
      refine ⟨fun _ inside => List.mem_append_left _ inside, fun other inside => ⟨[], ?_⟩⟩
      have different : other ≠ name := fun same => absent (same ▸ inside)
      rw [List.append_nil]
      exact update_of_ne different ..

theorem grows_append (dir : Directory) (name : GoString) (bytes : List UInt8) :
    dir.Grows (dir.append name bytes) := by
  refine ⟨fun _ inside => inside, fun other _ => ?_⟩
  by_cases same : other = name
  · subst same
    exact ⟨bytes, update_self ..⟩
  · exact ⟨[], (update_of_ne same ..).trans (List.append_nil _).symm⟩

theorem mem_openFile (dir : Directory) (name : GoString) : name ∈ (dir.openFile name).names := by
  rw [openFile]
  split
  · next present => exact present
  · exact List.mem_append_right _ (List.mem_singleton.mpr rfl)

theorem Named.openFile {dir : Directory} (named : dir.Named) {id} (small : id < 10 ^ 6) :
    (dir.openFile (segmentName id)).Named := by
  intro name inside
  rw [Directory.openFile] at inside
  split at inside
  · exact named name inside
  · exact forall_mem_concat named ⟨id, small, rfl⟩ name inside

end Directory

namespace WAL

theorem writeEntry_grows (w : WAL) (r : Request) :
    w.dir.Grows (w.writeEntry r).1.dir ∧ (w.writeEntry r).1.dir.names = w.dir.names ∧
      (w.writeEntry r).1.writer.currentSegment.id = w.writer.currentSegment.id := by
  rw [writeEntry]
  split
  · exact ⟨w.dir.grows_append _ _, rfl, rfl⟩
  · split
    · exact ⟨w.dir.grows_append _ _, rfl, rfl⟩
    · exact ⟨w.dir.grows_append _ _, rfl, rfl⟩

theorem writeEntries_grows (w : WAL) (rs : List Request) :
    w.dir.Grows (w.writeEntries rs).1.dir ∧ (w.writeEntries rs).1.dir.names = w.dir.names ∧
      (w.writeEntries rs).1.writer.currentSegment.id = w.writer.currentSegment.id := by
  induction rs generalizing w with
  | nil => exact ⟨.refl _, rfl, rfl⟩
  | cons r rs ih =>
    obtain ⟨grows, names, id⟩ := w.writeEntry_grows r
    rw [writeEntries]
    split
    · next wrote =>
        rw [wrote] at grows names id
        exact ⟨grows, names, id⟩
    · next middle _ wrote =>
        rw [wrote] at grows names id
        obtain ⟨grows', names', id'⟩ := ih middle
        split
        · next rest =>
            rw [rest] at grows' names' id'
            exact ⟨grows.trans grows', names'.trans names, id'.trans id⟩
        · next rest =>
            rw [rest] at grows' names' id'
            exact ⟨grows.trans grows', names'.trans names, id'.trans id⟩

/-- Entries that have all been written met no failure. -/
theorem succeeds_of_writeEntries {w : WAL} (wrote : (w.writeEntries rs).2 = .ok offsets) :
    ∀ r ∈ rs, r.Succeeds := by
  induction rs generalizing w offsets with
  | nil => exact fun _ inside => absurd inside List.not_mem_nil
  | cons r rs ih =>
    rw [writeEntries] at wrote
    split at wrote
    · cases wrote
    · next first =>
        split at wrote
        · cases wrote
        · next middle _ _ _ rest =>
            refine List.forall_mem_cons.mpr ⟨?_, ih (congrArg Prod.snd rest)⟩
            rw [writeEntry] at first
            split at first
            · cases first
            · next header =>
                split at first
                · cases first
                · next data => exact ⟨header, data⟩

/-- Room is there, or a new segment is, or the new segment's file could not be opened. -/
theorem makeRoom_cases (w : WAL) (call : Call) :
    w.makeRoom call = (w, none) ∨ w.makeRoom call = (w.rotated, none) ∨
      ∃ next err, w.makeRoom call = (⟨w.dir, { w.writer with nextSegmentID := next }⟩, some err) := by
  have rotates (fails : Bool) : w.rotateSegment fails = (w.rotated, none) ∨
      ∃ next err, w.rotateSegment fails =
        (⟨w.dir, { w.writer with nextSegmentID := next }⟩, some err) := by
    cases fails with
    | false => exact .inl rfl
    | true => exact .inr ⟨_, _, rfl⟩
  rw [makeRoom.eq_def]
  split
  · cases call with
    | write rotateFails r | writeBatch rotateFails rs => exact .inr (rotates rotateFails)
  · exact .inl rfl

end WAL

/-- The entry of a record stands in its segment's file at its offset. -/
structure Stored (dir : Directory) (record : Record) : Prop where
  id : record.segment < 10 ^ 6
  present : segmentName record.segment ∈ dir.names
  proper : record.entry.Proper
  bytes : ∃ before later, dir.content (segmentName record.segment) = before ++
    (entryBytes record.entry ++ later) ∧
    record.offset = before.length

theorem Stored.grows (stored : Stored dir record) (grows : dir.Grows later) :
    Stored later record := by
  obtain ⟨id, present, proper, before, behind, content, offset⟩ := stored
  obtain ⟨more, grown⟩ := grows.content _ present
  refine ⟨id, grows.names _ present, proper, before, behind ++ more, ?_, offset⟩
  rw [grown, content, List.append_assoc, List.append_assoc]

theorem Stored.reads (stored : Stored dir record) (named : dir.Named) :
    readEntry (loadSegments dir) record.segment record.offset = .ok record.entry := by
  obtain ⟨id, present, proper, before, behind, content, offset⟩ := stored
  rw [readEntry, loadSegments_of_mem named id present, offset, content]
  exact readEntryAt_of_proper proper before behind

/-- Entries that are placed from the end of the file on are stored there. -/
theorem stored_place {dir segment} (id : segment < 10 ^ 6)
    (present : segmentName segment ∈ dir.names) {entries}
    (proper : ∀ entry ∈ entries, entry.Proper) (before : List UInt8)
    (content : dir.content (segmentName segment) = before ++ bytesOf entries) :
    ∀ record ∈ place segment before.length entries, Stored dir record := by
  induction entries generalizing before with
  | nil => exact fun _ inside => absurd inside List.not_mem_nil
  | cons entry entries ih =>
    rw [bytesOf_cons] at content
    refine List.forall_mem_cons.mpr
      ⟨⟨id, present, proper entry List.mem_cons_self, before, _, content, rfl⟩, ?_⟩
    rw [← Int.natCast_add, ← List.length_append]
    exact ih (fun entry inside => proper entry (List.mem_cons_of_mem _ inside))
      (before ++ entryBytes entry)
      (by rw [content, List.append_assoc])

variable {call : Call} {s : History}

/-- What a call that found the segment ready has told its caller is so. -/
theorem WAL.Ready.stored {w : WAL} (ready : w.Ready call) (present : w.fileName ∈ w.dir.names)
    (wrote : (w.writeEntries call.requests).2 = .ok offsets) :
    ∀ record ∈ records (w.writeEntries call.requests).1 call offsets,
      Stored (w.writeEntries call.requests).1.dir record := by
  have spec := w.writeEntries_of_succeeds (WAL.succeeds_of_writeEntries wrote)
  rw [spec] at wrote ⊢
  obtain rfl := Except.ok.inj wrote
  have told : records (w.extend (call.requests.map Request.entry)) call
      ((place w.writer.currentSegment.id w.writer.currentSegment.size
        (call.requests.map Request.entry)).map Record.offset) =
        place w.writer.currentSegment.id w.writer.currentSegment.size (call.requests.map Request.entry) := zipWith_place _ _ _
  have proper : ∀ entry ∈ call.requests.map Request.entry, entry.Proper := by
    intro entry inside
    obtain ⟨r, requested, rfl⟩ := List.mem_map.mp inside
    exact Request.proper (ready.small r requested)
  have content : (w.extend (call.requests.map Request.entry)).dir.content
    (segmentName w.writer.currentSegment.id) =
      w.dir.content w.fileName ++ bytesOf (call.requests.map Request.entry) := update_self ..
  have still : segmentName w.writer.currentSegment.id ∈
    (w.extend (call.requests.map Request.entry)).dir.names := present
  dsimp only
  rw [told, ready.size]
  exact stored_place ready.id still proper _ content

/-- The names are those of segments, the current segment's file is there, and what callers have
    been told is so. -/
structure History.Sound (s : History) : Prop where
  named : s.dir.Named
  current : ∀ w, s.writer = some w → segmentName w.currentSegment.id ∈ s.dir.names
  stored : ∀ record ∈ s.log, Stored s.dir record

theorem History.Sound.opened (sound : s.Sound) (maxSegmentSize : Int) :
    (s.opened maxSegmentSize).Sound where
  named := sound.named.openFile (by decide)
  current w same := by
    obtain rfl := Option.some.inj same
    exact s.dir.mem_openFile _
  stored record inside := (sound.stored record inside).grows (s.dir.grows_openFile _)

/-- Room for a call, and what is true of the directory then. -/
theorem History.Sound.roomy (sound : s.Sound) {w} (isOpen : s.writer = some w) {roomy}
    (room : (WAL.mk s.dir w).makeRoom call = (roomy, none)) (ready : roomy.Ready call) :
    roomy.dir.Named ∧ roomy.fileName ∈ roomy.dir.names ∧ s.dir.Grows roomy.dir := by
  obtain same | rotated | ⟨next, err, failed⟩ := (WAL.mk s.dir w).makeRoom_cases call
  · obtain rfl : roomy = WAL.mk s.dir w := congrArg Prod.fst (room.symm.trans same)
    exact ⟨sound.named, sound.current w isOpen, .refl _⟩
  · obtain rfl : roomy = (WAL.mk s.dir w).rotated := congrArg Prod.fst (room.symm.trans rotated)
    exact ⟨sound.named.openFile ready.id, s.dir.mem_openFile _, s.dir.grows_openFile _⟩
  · exact absurd (congrArg Prod.snd (room.symm.trans failed)) (by simp)

theorem History.Sound.called (sound : s.Sound) {w : WALWriter} (isOpen : s.writer = some w)
    (fits : ((WAL.mk s.dir w).makeRoom call).2 = none →
      ((WAL.mk s.dir w).makeRoom call).1.Ready call) : (s.called w call).Sound := by
  cases room : (WAL.mk s.dir w).makeRoom call with
  | mk roomy error =>
    rw [room] at fits
    rw [History.called, WAL.apply, room]
    cases error with
    | some err =>
      obtain same | rotated | ⟨next, _, failed⟩ := (WAL.mk s.dir w).makeRoom_cases call
      · exact absurd (congrArg Prod.snd (room.symm.trans same)) (by simp)
      · exact absurd (congrArg Prod.snd (room.symm.trans rotated)) (by simp)
      · obtain rfl : roomy = ⟨s.dir, { w with nextSegmentID := next }⟩ := congrArg Prod.fst (room.symm.trans failed)
        refine ⟨sound.named, fun v same => ?_, sound.stored⟩
        obtain rfl := Option.some.inj same
        exact sound.current w isOpen
    | none =>
      have ready := fits rfl
      obtain ⟨named, present, grows⟩ := sound.roomy isOpen room ready
      obtain ⟨grows', names, id⟩ := roomy.writeEntries_grows call.requests
      have told : ∀ offsets, (roomy.writeEntries call.requests).2 = .ok offsets →
          ∀ record ∈ records (roomy.writeEntries call.requests).1 call offsets,
            Stored (roomy.writeEntries call.requests).1.dir record := fun _ wrote => ready.stored present wrote
      dsimp only
      generalize roomy.writeEntries call.requests = result at grows' names id told ⊢
      obtain ⟨wal, answer⟩ := result
      dsimp only at grows' names id told
      have kept : ∀ record ∈ s.log, Stored wal.dir record :=
        fun record inside => (sound.stored record inside).grows (grows.trans grows')
      have named' : wal.dir.Named := fun name inside => named name (names ▸ inside)
      have current : ∀ v, some wal.writer = some v → segmentName v.currentSegment.id ∈ wal.dir.names := by
        intro v same
        obtain rfl := Option.some.inj same
        rw [names, id]
        exact present
      cases answer with
      | error err => exact ⟨named', current, kept⟩
      | ok offsets =>
        refine ⟨named', current, fun record inside => ?_⟩
        obtain old | new := List.mem_append.mp inside
        · exact kept record old
        · exact told offsets rfl record new

theorem History.Sound.next (sound : s.Sound) (fits : Fits s event)
    (moved : machine.next s event = some t) : t.Sound := by
  simp only [machine] at moved
  split at moved
  · obtain rfl := Option.some.inj moved
    split
    · exact sound
    · exact sound.opened _
  · obtain rfl := Option.some.inj moved
    exact ⟨sound.named, fun _ none => (by cases none), sound.stored⟩
  · next isOpen =>
      obtain rfl := Option.some.inj moved
      exact sound.called isOpen (fits _ isOpen)
  · cases moved

instance (w : WAL) (call : Call) : Decidable (w.Ready call) :=
  decidable_of_iff (w.writer.currentSegment.size = (w.dir.content w.fileName).length ∧
    w.writer.currentSegment.id < 10 ^ 6 ∧
    ∀ r ∈ call.requests, r.data.length < 2 ^ 32) ⟨fun h => ⟨h.1, h.2.1, h.2.2⟩, fun h =>
      ⟨h.size, h.id, h.small⟩⟩

instance (s : History) : (event : Event) → Decidable (Fits s event)
  | .call call =>
    inferInstanceAs (Decidable (∀ w ∈ s.writer,
      ((WAL.mk s.dir w).makeRoom call).2 = none → ((WAL.mk s.dir w).makeRoom call).1.Ready call))
  | .opens _ _ | .closes => inferInstanceAs (Decidable True)

/-- Whatever failures there are, and however often the writer is closed and opened: if each call
    finds the writer's count of the current segment to be the length of its file, then every entry
    of a call that returned without error is read from the segment and the offset that its caller
    was given. -/
theorem entries_stay_readable {events : List Event} {s : History}
    (ran : (History.machine.restrict Fits).run .start events = some s) :
    ∀ record ∈ s.log, readEntry (loadSegments s.dir) record.segment record.offset =
      .ok record.entry := by
  have fresh : History.start.Sound := by
    refine ⟨fun name inside => ?_, fun w none => ?_, fun record inside => ?_⟩
    · cases inside
    · cases none
    · cases inside
  have sound : s.Sound := by
    refine Machine.run_invariant _ (fun s event t kept moved => ?_) fresh ran
    obtain ⟨fits, moved⟩ := (Machine.restrict_next _).mp moved
    exact kept.next fits moved
  exact fun record inside => (sound.stored record inside).reads sound.named

/-- An entry, a write that fails at once, and another entry in a new segment. -/
def plainHistory : List Event :=
  [.opens 10 false, .call (.write false ⟨7, [1], none, none⟩),
    .call (.write true ⟨8, [2], none, none⟩),
    .call (.writeBatch false [⟨9, [3], none, none⟩, ⟨10, [], none, none⟩])]

theorem plain_history_readable :
    ∃ s, (History.machine.restrict Fits).run .start plainHistory = some s ∧
      s.log.map Record.segment = [0, 2, 2] ∧
      ∀ record ∈ s.log, readEntry (loadSegments s.dir) record.segment record.offset =
        .ok record.entry := by
  refine exists_of_view (fun s => s.log.map Record.segment) [0, 2, 2]
    (by decide +kernel) fun s ran segments => ?_
  exact ⟨segments, entries_stay_readable ran⟩

/-- One entry, and another one after the writer has been opened again. -/
def reopened : List Event :=
  [.opens 1000 false, .call (.write false ⟨7, [1], none, none⟩), .closes, .opens 1000 false,
    .call (.write false ⟨8, [2], none, none⟩)]

/-- One entry, after half a header of another. -/
def interrupted : List Event :=
  [.opens 1000 false, .call (.write false ⟨7, [1], some 8, none⟩),
    .call (.write false ⟨8, [2], none, none⟩)]

/-- A writer that is opened again gives out an offset of an earlier session, and one that goes on
    after a failed write gives out an offset at which there is no entry. -/
theorem offsets_without_their_entries :
    (∃ s, History.machine.run .start reopened = some s ∧
      s.log = [⟨0, 0, newEntry 7 [1]⟩, ⟨0, 0, newEntry 8 [2]⟩] ∧
      (readEntry (loadSegments s.dir) 0 0).toOption = some (newEntry 7 [1])) ∧
    ∃ s, History.machine.run .start interrupted = some s ∧ s.log = [⟨0, 0, newEntry 8 [2]⟩] ∧
      (readEntry (loadSegments s.dir) 0 0).toOption = none := by
  let view (s : History) := (s.log, (readEntry (loadSegments s.dir) 0 0).toOption)
  constructor
  · exact exists_of_view view ([⟨0, 0, newEntry 7 [1]⟩, ⟨0, 0, newEntry 8 [2]⟩],
      some (newEntry 7 [1]))
      (by decide +kernel) fun s _ seen => Prod.mk.inj seen
  · exact exists_of_view view ([⟨0, 0, newEntry 8 [2]⟩], none) (by decide +kernel) fun s _ seen =>
      Prod.mk.inj seen

end Portask.Storage
