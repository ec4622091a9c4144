import Portask.Lib.Machine
import Portask.Storage.Wal

/-! # A writer without failures

The entries of a writer on an empty directory form groups, one for each segment. The files,
the sizes, the offsets that were returned and what a reader finds are all given by the groups.
-/

namespace Portask.Storage

open Function Lib

def bytesOf (entries : List WALEntry) : List UInt8 := entries.flatMap entryBytes

/-- Where the entries stand, one behind the other. -/
def place (segment : Nat) : (offset : Int) → List WALEntry → List Record
  | _, [] => []
  | offset, entry :: entries =>
    ⟨segment, offset, entry⟩ :: place segment (offset + (entryBytes entry).length) entries

/-- The groups of the segments from `first` on. -/
def layoutFrom : (first : Nat) → List (List WALEntry) → List Record
  | _, [] => []
  | first, group :: groups => place first 0 group ++ layoutFrom (first + 1) groups

theorem bytesOf_cons (entry : WALEntry) (entries : List WALEntry) :
    bytesOf (entry :: entries) = entryBytes entry ++ bytesOf entries :=
  List.flatMap_cons

theorem bytesOf_append (entries later : List WALEntry) :
    bytesOf (entries ++ later) = bytesOf entries ++ bytesOf later :=
  List.flatMap_append

theorem bytesOf_flatten (groups : List (List WALEntry)) :
    bytesOf groups.flatten = (groups.map bytesOf).flatten := by
  induction groups with
  | nil => rfl
  | cons group groups ih =>
    rw [List.flatten_cons, bytesOf_append, ih, List.map_cons, List.flatten_cons]

theorem place_append (segment : Nat) (offset : Int) (entries later : List WALEntry) :
    place segment offset (entries ++ later) =
      place segment offset entries ++ place segment (offset + (bytesOf entries).length) later := by
  induction entries generalizing offset with
  | nil =>
    show _ = [] ++ place segment (offset + 0) later
    rw [Int.add_zero]
    rfl
  | cons entry entries ih =>
    rw [List.cons_append, place, place, List.cons_append, ih, bytesOf_cons, List.length_append,
      Int.natCast_add, Int.add_assoc]

theorem layoutFrom_singleton (first : Nat) (group : List WALEntry) :
    layoutFrom first [group] = place first 0 group :=
  List.append_nil _

theorem layoutFrom_append (first : Nat) (groups later : List (List WALEntry)) :
    layoutFrom first (groups ++ later) =
      layoutFrom first groups ++ layoutFrom (first + groups.length) later := by
  induction groups generalizing first with
  | nil => rfl
  | cons group groups ih =>
    rw [List.cons_append, layoutFrom, layoutFrom, ih, List.append_assoc, List.length_cons,
      Nat.add_assoc, Nat.add_comm 1 groups.length]

structure Request.Succeeds (r : Request) : Prop where
  header : r.headerFault = none
  data : r.dataFault = none

inductive Call.Succeeds : Call → Prop
  | write {r} (succeeds : r.Succeeds) : Succeeds (.write false r)
  | writeBatch {rs} (succeeds : ∀ r ∈ rs, r.Succeeds) : Succeeds (.writeBatch false rs)

def Call.entries (call : Call) : List WALEntry := call.requests.map Request.entry

namespace WAL

section

variable (w : WAL)

def extend (entries : List WALEntry) : WAL where
  dir := w.dir.append w.fileName (bytesOf entries)
  writer :=
    { w.writer with
      currentSegment :=
        ⟨w.writer.currentSegment.id, w.writer.currentSegment.size + (bytesOf entries).length⟩ }

def rotated : WAL where
  dir := w.dir.openFile (segmentName w.writer.nextSegmentID)
  writer :=
    { w.writer with
      currentSegment := ⟨w.writer.nextSegmentID, 0⟩
      older := w.writer.segments
      nextSegmentID := w.writer.nextSegmentID + 1 }

theorem extend_nil : w.extend [] = w := by
  have same : update w.dir.content w.fileName (w.dir.content w.fileName ++ []) = w.dir.content := by
    rw [List.append_nil, update_eq_self]
  simp only [extend, Directory.append, bytesOf, List.flatMap_nil, same, List.length_nil,
    Int.natCast_zero, Int.add_zero]

theorem extend_extend (entries later : List WALEntry) :
    (w.extend entries).extend later = w.extend (entries ++ later) := by
  simp only [extend, Directory.append, fileName, update_self, Function.update_idem, bytesOf_append,
    List.append_assoc, List.length_append, Int.natCast_add, Int.add_assoc]

theorem writeEntry_of_succeeds (succeeds : r.Succeeds) :
    w.writeEntry r = (w.extend [r.entry], .ok w.writer.currentSegment.size) := by
  have bytes : bytesOf [r.entry] = entryBytes r.entry := List.append_nil _
  have data : r.entry.data = r.data := rfl
  rw [writeEntry, succeeds.header, succeeds.data, extend, bytes, length_entryBytes,
    Int.natCast_add, data]
  rfl

theorem writeEntries_of_succeeds (succeeds : ∀ r ∈ rs, r.Succeeds) :
    w.writeEntries rs = (w.extend (rs.map Request.entry),
      .ok ((place w.writer.currentSegment.id w.writer.currentSegment.size
        (rs.map Request.entry)).map Record.offset)) := by
  induction rs generalizing w with
  | nil => rw [writeEntries, List.map_nil, extend_nil, place, List.map_nil]
  | cons r rs ih =>
    have later := ih (w.extend [r.entry]) fun r inside => succeeds r (List.mem_cons_of_mem _ inside)
    have size : (bytesOf [r.entry]).length = (entryBytes r.entry).length :=
      congrArg List.length (List.append_nil _)
    rw [writeEntries, w.writeEntry_of_succeeds (succeeds r List.mem_cons_self)]
    dsimp only
    rw [later, extend_extend]
    dsimp only [extend]
    rw [List.map_cons, place, List.map_cons, size]
    rfl

end

variable {call : Call}

theorem makeRoom_of_succeeds (w : WAL) (succeeds : call.Succeeds) :
    w.makeRoom call = (if w.full call then w.rotated else w, none) := by
  cases succeeds with
  | write | writeBatch =>
    simp only [makeRoom]
    split
    · rfl
    · rfl

theorem requests_succeed (succeeds : call.Succeeds) : ∀ r ∈ call.requests, r.Succeeds := by
  cases succeeds with
  | write succeeds => simpa [Call.requests] using succeeds
  | writeBatch succeeds => exact succeeds

theorem apply_of_succeeds (w : WAL) (succeeds : call.Succeeds) :
    let roomy := if w.full call then w.rotated else w
    w.apply call = (roomy.extend call.entries,
      .ok ((place roomy.writer.currentSegment.id roomy.writer.currentSegment.size call.entries).map
        Record.offset)) := by
  intro roomy
  rw [apply, w.makeRoom_of_succeeds succeeds]
  exact writeEntries_of_succeeds roomy (requests_succeed succeeds)

end WAL

theorem zipWith_place (segment : Nat) (offset : Int) (rs : List Request) :
    List.zipWith (fun r offset => (⟨segment, offset, r.entry⟩ : Record)) rs
      ((place segment offset (rs.map Request.entry)).map Record.offset) =
        place segment offset (rs.map Request.entry) := by
  induction rs generalizing offset with
  | nil => rfl
  | cons r rs ih => rw [List.map_cons, place, List.map_cons, List.zipWith_cons_cons, ih]

/-- A writer, with what its callers have been told. -/
structure Journal where
  wal : WAL
  log : List Record

def Journal.opened (maxSegmentSize : Int) : Journal := ⟨.newWALWriter .empty maxSegmentSize, []⟩

def journal : Object Journal Call (Except WriteError (List Int)) where
  apply j call :=
    match j.wal.apply call with
    | (wal, .ok offsets) => (⟨wal, j.log ++ records wal call offsets⟩, .ok offsets)
    | (wal, .error err) => (⟨wal, j.log⟩, .error err)

/-- The files, the segments and what callers have been told are those of the groups: `current` is
    the current segment's, `earlier` has those of the others. -/
structure Represents (earlier : List (List WALEntry)) (current : List WALEntry) (j : Journal) :
    Prop where
  names : j.wal.dir.names = (List.range (earlier.length + 1)).map segmentName
  content : ∀ (i : Nat) (group : List WALEntry), (earlier ++ [current])[i]? = some group →
    j.wal.dir.content (segmentName i) = bytesOf group
  older : j.wal.writer.older = earlier.mapIdx fun i group => ⟨i, (bytesOf group).length⟩
  currentSegment : j.wal.writer.currentSegment = ⟨earlier.length, (bytesOf current).length⟩
  next : j.wal.writer.nextSegmentID = earlier.length + 1
  log : j.log = layoutFrom 0 (earlier ++ [current])

theorem represents_opened (maxSegmentSize : Int) : Represents [] [] (.opened maxSegmentSize) where
  names := rfl
  content i group found := by
    obtain rfl := List.mem_singleton.mp (List.mem_of_getElem? found)
    show update (fun _ => []) (segmentName 0) [] (segmentName i) = []
    rw [update_apply, ite_self]
  older := rfl
  currentSegment := rfl
  next := rfl
  log := rfl

section

variable {earlier : List (List WALEntry)} {current : List WALEntry} {j : Journal} {call : Call}

section

variable (represents : Represents earlier current j)
include represents

/-- A new segment's name is new as long as there are at most six digits. -/
theorem Represents.fresh (few : earlier.length + 1 < 10 ^ 6) :
    segmentName (earlier.length + 1) ∉ j.wal.dir.names := by
  rw [represents.names, List.mem_map]
  rintro ⟨i, inside, same⟩
  have below := List.mem_range.mp inside
  have := segmentName_inj (by omega) few same
  omega

theorem Represents.rotated (few : earlier.length + 1 < 10 ^ 6) :
    Represents (earlier ++ [current]) [] ⟨j.wal.rotated, j.log⟩ where
  names := by
    have fresh := represents.fresh few
    rw [WAL.rotated, represents.next, Directory.openFile, if_neg fresh, represents.names,
      List.length_append,
      List.length_singleton, List.range_succ (n := earlier.length + 1), List.map_append]
    rfl
  content := by
    intro i group found
    rw [WAL.rotated, represents.next, Directory.openFile, if_neg (represents.fresh few)]
    dsimp only
    obtain ⟨inside, old⟩ | ⟨rfl, rfl⟩ := getElem?_concat_cases found
    · rw [List.length_append, List.length_singleton] at inside
      have other : segmentName i ≠ segmentName (earlier.length + 1) := fun same => by
        have := segmentName_inj (by omega) few same
        omega
      rw [update_of_ne other, represents.content i group old]
    · rw [List.length_append, List.length_singleton, update_self]
      rfl
  older := by
    rw [WAL.rotated, WALWriter.segments, represents.older, represents.currentSegment,
      List.mapIdx_concat]
  currentSegment := by
    rw [WAL.rotated, represents.next, List.length_append]
    rfl
  next := by
    rw [WAL.rotated, represents.next, List.length_append]
    rfl
  log := by
    rw [represents.log, layoutFrom_append _ (earlier ++ [current])]
    exact (List.append_nil _).symm

theorem Represents.extend (few : earlier.length < 10 ^ 6) (entries : List WALEntry) :
    Represents earlier (current ++ entries)
      ⟨j.wal.extend entries, j.log ++ place earlier.length (bytesOf current).length entries⟩ where
  __ := represents
  content := by
    intro i group found
    have name : j.wal.fileName = segmentName earlier.length := by
      rw [WAL.fileName, represents.currentSegment]
    rw [WAL.extend, Directory.append, name]
    dsimp only
    obtain ⟨inside, old⟩ | ⟨rfl, rfl⟩ := getElem?_concat_cases found
    · have other : segmentName i ≠ segmentName earlier.length := fun same => by
        have := segmentName_inj (by omega) few same
        omega
      rw [update_of_ne other, represents.content i group]
      rw [List.getElem?_append_left inside, old]
    · rw [update_self, represents.content _ current List.getElem?_concat_length, bytesOf_append]
  currentSegment := by
    rw [WAL.extend, represents.currentSegment, bytesOf_append, List.length_append, Int.natCast_add]
  log := by
    rw [represents.log, layoutFrom_append, layoutFrom_append, layoutFrom_singleton,
      layoutFrom_singleton, List.append_assoc, place_append, Int.zero_add, Nat.zero_add]

end

theorem journal_of_succeeds (j : Journal) (succeeds : call.Succeeds) :
    let roomy := if j.wal.full call then j.wal.rotated else j.wal
    let placed := place roomy.writer.currentSegment.id roomy.writer.currentSegment.size call.entries
    journal.apply j call =
      (⟨roomy.extend call.entries, j.log ++ placed⟩, .ok (placed.map Record.offset)) := by
  intro roomy placed
  have told : records (roomy.extend call.entries) call (placed.map Record.offset) = placed :=
    zipWith_place _ _ _
  simp only [journal]
  rw [j.wal.apply_of_succeeds succeeds]
  dsimp only
  rw [told]

/-- A call adds its entries to the last group, or to a new one. -/
theorem represents_apply (represents : Represents earlier current j) (succeeds : call.Succeeds)
    (few : (journal.apply j call).1.wal.writer.nextSegmentID ≤ 10 ^ 6) :
    ∃ earlier' current', Represents earlier' current' (journal.apply j call).1 ∧
      (earlier' ++ [current']).flatten = (earlier ++ [current]).flatten ++ call.entries ∧
      ∃ offsets, (journal.apply j call).2 = .ok offsets ∧
        (journal.apply j call).1.log.map Record.offset = j.log.map Record.offset ++ offsets := by
  rw [journal_of_succeeds j succeeds] at few ⊢
  dsimp only at few ⊢
  by_cases full : j.wal.full call
  · rw [if_pos full] at few ⊢
    have room : earlier.length + 1 < 10 ^ 6 := by
      have next : j.wal.rotated.writer.nextSegmentID ≤ 10 ^ 6 := few
      rw [WAL.rotated, represents.next] at next
      exact next
    have rotated := represents.rotated room
    have extended := rotated.extend (by rw [List.length_append]; exact room) call.entries
    rw [rotated.currentSegment]
    refine ⟨_, _, extended, ?_, _, rfl, List.map_append⟩
    simp
  · rw [if_neg full] at few ⊢
    have room : earlier.length < 10 ^ 6 := by
      have next : j.wal.writer.nextSegmentID ≤ 10 ^ 6 := few
      rw [represents.next] at next
      exact next
    have extended := represents.extend room call.entries
    rw [represents.currentSegment]
    refine ⟨_, _, extended, ?_, _, rfl, List.map_append⟩
    simp

theorem nextSegmentID_le_apply (j : Journal) (succeeds : call.Succeeds) :
    j.wal.writer.nextSegmentID ≤ (journal.apply j call).1.wal.writer.nextSegmentID := by
  rw [journal_of_succeeds j succeeds]
  show _ ≤ (if j.wal.full call then j.wal.rotated else j.wal).writer.nextSegmentID
  split
  · exact Nat.le_succ _
  · exact Nat.le_refl _

theorem nextSegmentID_le_run (j : Journal) (succeed : ∀ call ∈ calls, call.Succeeds) :
    j.wal.writer.nextSegmentID ≤ (journal.run j calls).1.wal.writer.nextSegmentID := by
  induction calls generalizing j with
  | nil => exact Nat.le_refl _
  | cons call calls ih =>
    refine Nat.le_trans (nextSegmentID_le_apply j (succeed call List.mem_cons_self)) ?_
    exact ih _ fun call inside => succeed call (List.mem_cons_of_mem _ inside)

def returned : Except WriteError (List Int) → List Int
  | .ok offsets => offsets
  | .error _ => []

theorem represents_run (represents : Represents earlier current j)
    (succeed : ∀ call ∈ calls, call.Succeeds)
    (few : (journal.run j calls).1.wal.writer.nextSegmentID ≤ 10 ^ 6) :
    ∃ earlier' current', Represents earlier' current' (journal.run j calls).1 ∧
      (earlier' ++ [current']).flatten = (earlier ++ [current]).flatten ++
        calls.flatMap Call.entries ∧ (∀ answer ∈ (journal.run j calls).2, answer.isOk = true) ∧
      (journal.run j calls).1.log.map Record.offset =
        j.log.map Record.offset ++ (journal.run j calls).2.flatMap returned := by
  induction calls generalizing earlier current j with
  | nil => exact ⟨earlier, current, represents, by simp, by simp, by simp⟩
  | cons call calls ih =>
    have first := succeed call List.mem_cons_self
    have later : ∀ call ∈ calls, call.Succeeds :=
      fun call inside => succeed call (List.mem_cons_of_mem _ inside)
    rw [Object.run_cons] at few ⊢
    obtain ⟨earlier', current', middle, flatten, offsets, answer, log⟩ :=
      represents_apply represents first (Nat.le_trans (nextSegmentID_le_run _ later) few)
    obtain ⟨earlier'', current'', final, flatten', answers, log'⟩ := ih middle later few
    refine ⟨earlier'', current'', final, ?_, ?_, ?_⟩
    · rw [flatten', flatten, List.flatMap_cons, List.append_assoc]
    · rw [answer]
      exact List.forall_mem_cons.mpr ⟨rfl, answers⟩
    · rw [log', log, answer, List.flatMap_cons, List.append_assoc]
      rfl

end

/-- The entry has the size and the checksum of its data, and the size fits its field. -/
structure WALEntry.Proper (entry : WALEntry) : Prop where
  made : entry = newEntry entry.timestamp entry.data
  small : entry.data.length < 2 ^ 32

theorem WALEntry.Proper.size {entry : WALEntry} (proper : entry.Proper) :
    entry.size.toNat = entry.data.length := by
  rw [proper.made]
  exact UInt32.toNat_ofNat_of_lt' proper.small

theorem readEntryAt_of_proper (proper : entry.Proper) (before later : List UInt8) :
    readEntryAt (before ++ (entryBytes entry ++ later)) before.length = .ok entry := by
  rw [proper.made]
  exact readEntryAt_append proper.small before later

/-- The entries that follow `before` in a segment are read, and then the end of the file. -/
theorem readEntries_of_proper {segments id entries} (proper : ∀ entry ∈ entries, entry.Proper)
    (before : List UInt8) (file : segments id = some (before ++ bytesOf entries)) {fuel}
    (enough : entries.length < fuel) :
    readEntries segments id fuel before.length =
      (entries, ((before ++ bytesOf entries).length : Int), some (.header .eof)) := by
  induction entries generalizing before fuel with
  | nil =>
    obtain ⟨fuel, rfl⟩ : ∃ n, fuel = n + 1 := ⟨fuel - 1, by omega⟩
    rw [bytesOf, List.flatMap_nil, List.append_nil] at file ⊢
    rw [readEntries, readEntry, file]
    dsimp only
    rw [readEntryAt_end]
  | cons entry entries ih =>
    have first := proper entry List.mem_cons_self
    rw [List.length_cons] at enough
    obtain ⟨fuel, rfl⟩ : ∃ n, fuel = n + 1 := ⟨fuel - 1, by omega⟩
    rw [bytesOf_cons] at file ⊢
    have fewer : entries.length < fuel := by omega
    have rest := ih (fun entry inside => proper entry (List.mem_cons_of_mem _ inside)) (before ++ entryBytes entry)
      (by rw [List.append_assoc, file]) fewer
    have next : ((before.length : Int) + (16 + entry.size.toNat)) =
        ((before ++ entryBytes entry).length : Int) := by
      rw [List.length_append, length_entryBytes, first.size]
      push_cast
      rfl
    rw [readEntries, readEntry, file]
    dsimp only
    rw [readEntryAt_of_proper first]
    dsimp only
    rw [next, rest, List.append_assoc]

section

variable {earlier : List (List WALEntry)} {current : List WALEntry} {j : Journal}

variable (represents : Represents earlier current j)
include represents

theorem Represents.segments :
    j.wal.writer.segments = (earlier ++ [current]).mapIdx fun i group =>
      ⟨i, (bytesOf group).length⟩ := by
  rw [WALWriter.segments, represents.older, represents.currentSegment, List.mapIdx_concat]

theorem Represents.size :
    ∀ segment ∈ j.wal.writer.segments, segment.size =
      (j.wal.dir.content (segmentName segment.id)).length := by
  intro segment inside
  rw [represents.segments] at inside
  obtain ⟨i, within, rfl⟩ := List.mem_mapIdx.mp inside
  rw [represents.content i _ (List.getElem?_eq_getElem within)]

/-- The files in the order of the IDs have the entries in the order of the calls. -/
theorem Represents.files :
    (List.range (earlier ++ [current]).length).flatMap
    (fun i => j.wal.dir.content (segmentName i)) = bytesOf (earlier ++ [current]).flatten := by
  have each : (List.range (earlier ++ [current]).length).map
    (fun i => j.wal.dir.content (segmentName i)) =
      (earlier ++ [current]).map bytesOf := by
    refine List.ext_getElem (by simp) fun i within _ => ?_
    rw [List.length_map, List.length_range] at within
    rw [List.getElem_map, List.getElem_range, List.getElem_map,
      represents.content i _ (List.getElem?_eq_getElem within)]
  rw [List.flatMap_def, each, bytesOf_flatten]

theorem Represents.named (few : earlier.length + 1 ≤ 10 ^ 6) : j.wal.dir.Named := by
  intro name inside
  rw [represents.names] at inside
  obtain ⟨i, below, rfl⟩ := List.mem_map.mp inside
  exact ⟨i, Nat.lt_of_lt_of_le (List.mem_range.mp below) few, rfl⟩

theorem Represents.reads (few : earlier.length + 1 ≤ 10 ^ 6)
    (proper : ∀ entry ∈ (earlier ++ [current]).flatten, entry.Proper)
    (found : (earlier ++ [current])[i]? = some group) (enough : group.length < fuel) :
    readEntries (loadSegments j.wal.dir) i fuel 0 =
      (group, ((j.wal.dir.content (segmentName i)).length : Int), some (.header .eof)) := by
  have within : i < earlier.length + 1 := by
    have inside := (List.getElem?_eq_some_iff.mp found).1
    rwa [List.length_append] at inside
  have loaded : loadSegments j.wal.dir i = some ([] ++ bytesOf group) := by
    rw [loadSegments_of_mem (represents.named few) (Nat.lt_of_lt_of_le within few),
      represents.content i group found, List.nil_append]
    rw [represents.names]
    exact List.mem_map_of_mem (List.mem_range.mpr within)
  have entries : ∀ entry ∈ group, entry.Proper := fun entry inside =>
    proper entry (List.mem_flatten.mpr ⟨group, List.mem_of_getElem? found, inside⟩)
  have read := readEntries_of_proper entries [] loaded enough
  rw [represents.content i group found]
  exact read

end

theorem Request.proper {r : Request} (small : r.data.length < 2 ^ 32) : r.entry.Proper :=
  ⟨rfl, small⟩

/-- For every sequence of calls on a writer that was opened on an empty directory, without
    failures: there are groups of entries, one for each segment, that are together the entries
    of all calls in their order. The files and sizes are those of the groups; the segments and
    offsets that callers were given are where the entries stand in the groups; and a reader gets
    each group back, up to the end of the file. -/
theorem log_is_complete (maxSegmentSize : Int) (calls : List Call)
    (succeed : ∀ call ∈ calls, call.Succeeds)
    (small : ∀ call ∈ calls, ∀ r ∈ call.requests, r.data.length < 2 ^ 32)
    (few : (journal.run (.opened maxSegmentSize) calls).1.wal.writer.nextSegmentID ≤ 10 ^ 6) :
    let (j, answers) := journal.run (.opened maxSegmentSize) calls
    ∃ groups : List (List WALEntry),
      groups.flatten = calls.flatMap Call.entries ∧
      j.wal.dir.names = (List.range groups.length).map segmentName ∧
      (List.range groups.length).flatMap (fun i => j.wal.dir.content (segmentName i)) =
        bytesOf (calls.flatMap Call.entries) ∧
      j.wal.writer.segments.map WALSegment.id = List.range groups.length ∧
      (∀ segment ∈ j.wal.writer.segments, segment.size =
        (j.wal.dir.content (segmentName segment.id)).length) ∧
      (∀ answer ∈ answers, answer.isOk = true) ∧ answers.flatMap returned = j.log.map Record.offset ∧
      j.log = layoutFrom 0 groups ∧
      ∀ (i : Nat) (group : List WALEntry), groups[i]? = some group →
        j.wal.dir.content (segmentName i) = bytesOf group ∧
        ∀ fuel > group.length, readEntries (loadSegments j.wal.dir) i fuel 0 =
          (group, ((j.wal.dir.content (segmentName i)).length : Int), some (.header .eof)) := by
  obtain ⟨earlier, current, represents, flatten, succeeded, offsets⟩ :=
    represents_run (represents_opened maxSegmentSize) succeed few
  have proper : ∀ entry ∈ (earlier ++ [current]).flatten, entry.Proper := by
    intro entry inside
    rw [flatten] at inside
    obtain ⟨call, called, among⟩ := List.mem_flatMap.mp inside
    obtain ⟨r, requested, rfl⟩ := List.mem_map.mp among
    exact Request.proper (small call called r requested)
  rw [represents.next] at few
  have count : (earlier ++ [current]).length = earlier.length + 1 := List.length_append
  refine ⟨earlier ++ [current], flatten, ?_, ?_, ?_, represents.size, succeeded, offsets.symm,
    represents.log, ?_⟩
  · rw [count]
    exact represents.names
  · rw [represents.files, flatten]
    rfl
  · rw [represents.segments]
    refine List.ext_getElem (by rw [List.length_map, List.length_mapIdx, List.length_range])
      fun i _ _ => ?_
    rw [List.getElem_map, List.getElem_mapIdx, List.getElem_range]
  · intro i group found
    exact ⟨represents.content i group found, fun fuel enough =>
      represents.reads few proper found enough⟩

/-- A write that fills the first segment, and a batch that goes into the second. -/
def twoCalls : List Call :=
  [.write false ⟨7, [1, 2, 3], none, none⟩,
    .writeBatch false [⟨8, [4], none, none⟩, ⟨9, [], none, none⟩]]

theorem two_calls_complete :
    ∃ groups : List (List WALEntry), groups.flatten =
      [newEntry 7 [1, 2, 3], newEntry 8 [4], newEntry 9 []] ∧
      (journal.run (.opened 19) twoCalls).1.log = layoutFrom 0 groups ∧
      ∀ (i : Nat) (group : List WALEntry), groups[i]? = some group →
        ∀ fuel > group.length,
        readEntries (loadSegments (journal.run (.opened 19) twoCalls).1.wal.dir) i fuel 0 =
          (group, (((journal.run (.opened 19) twoCalls).1.wal.dir.content (segmentName i)).length : Int), some (.header .eof)) := by
  have succeed : ∀ call ∈ twoCalls, call.Succeeds := by
    intro call inside
    obtain rfl | rfl := by simpa [twoCalls] using inside
    · exact .write ⟨rfl, rfl⟩
    · exact .writeBatch (List.forall_mem_cons.mpr ⟨⟨rfl, rfl⟩, List.forall_mem_singleton.mpr ⟨rfl, rfl⟩⟩)
  obtain ⟨groups, flatten, -, -, -, -, -, -, log, reads⟩ :=
    log_is_complete 19 twoCalls succeed (by decide) (by decide +kernel)
  exact ⟨groups, flatten, log, fun i group found => (reads i group found).2⟩

end Portask.Storage
