import Portask.Lib.Crc
import Portask.Lib.GoString
import Portask.Lib.Stream
import Portask.Lib.Wire
import Mathlib.Logic.Function.Basic

/-! # The write-ahead log

`pkg/storage/wal.go`: entries, segment files, the writer's `Write` and `WriteBatch`, and the
reader. A file write may fail after any number of bytes, and so may opening a segment file.
Paths are relative to the base path. Synchronisation has a module of its own.
-/

namespace Portask.Storage

open Function Lib GoString

structure WALEntry where
  timestamp : Int64
  size : UInt32
  checksum : UInt32
  data : List UInt8
  deriving DecidableEq

def crc32Bit (crc : UInt32) : UInt32 := if crc &&& 1 = 1 then (crc >>> 1) ^^^ 0xEDB88320
    else crc >>> 1

def crc32Byte (crc : UInt32) (b : UInt8) : UInt32 := crc32Bit^[8] (crc ^^^ b.toUInt32)

def crc32Checksum (data : List UInt8) : UInt32 := ~~~(data.foldl crc32Byte 0xFFFFFFFF)

def newEntry (now : Int64) (data : List UInt8) : WALEntry where
  timestamp := now
  size := UInt32.ofNat data.length
  checksum := crc32Checksum data
  data := data

section

variable (entry : WALEntry)

def entryHeader : List UInt8 :=
  littleEndian 8 entry.timestamp.toUInt64.toNat ++
    (littleEndian 4 entry.size.toNat ++ littleEndian 4 entry.checksum.toNat)

def entryBytes : List UInt8 := entryHeader entry ++ entry.data

@[simp] theorem length_entryHeader : (entryHeader entry).length = 16 := by simp [entryHeader]

@[simp] theorem length_entryBytes : (entryBytes entry).length = 16 + entry.data.length := by
  simp [entryBytes]

end

theorem toBitVec_crc32Bit (crc : UInt32) :
    (crc32Bit crc).toBitVec = Crc.shift Crc.ieee crc.toBitVec := by
  have low : crc &&& 1 = 1 ↔ crc.toBitVec.getLsbD 0 = true := by
    have one : (1 : UInt32).toBitVec = BitVec.twoPow 32 0 := by decide
    rw [← UInt32.toBitVec_inj, UInt32.toBitVec_and, one, BitVec.and_twoPow]
    split
    · next odd => exact iff_of_true rfl odd
    · next even => exact iff_of_false (by decide) even
  have shifted : (crc >>> 1).toBitVec = crc.toBitVec >>> 1 := rfl
  rw [crc32Bit, Crc.shift]
  by_cases odd : crc.toBitVec.getLsbD 0 = true
  · rw [if_pos odd, if_pos (low.mpr odd), UInt32.toBitVec_xor, shifted]
    rfl
  · rw [if_neg odd, if_neg (mt low.mp odd), shifted]

theorem toBitVec_crc32Byte (crc : UInt32) (b : UInt8) :
    (crc32Byte crc b).toBitVec = Crc.update crc.toBitVec b := by
  have iterates (k : Nat) (c : UInt32) : (crc32Bit^[k] c).toBitVec =
      (Crc.shift Crc.ieee)^[k] c.toBitVec := by
    induction k generalizing c with
    | zero => rfl
    | succ k ih =>
      rw [Function.iterate_succ_apply, Function.iterate_succ_apply, ih, toBitVec_crc32Bit]
  rw [crc32Byte, iterates]
  rfl

/-- The bitwise loop computes the CRC-32 that the native protocol uses as well. -/
theorem crc32Checksum_eq (data : List UInt8) : crc32Checksum data = Crc.checksumIEEE data := by
  have folds (crc : UInt32) : (data.foldl crc32Byte crc).toBitVec =
      data.foldl Crc.update crc.toBitVec := by
    induction data generalizing crc with
    | nil => rfl
    | cons b data ih => rw [List.foldl_cons, List.foldl_cons, ih, toBitVec_crc32Byte]
  refine UInt32.toBitVec_inj.mp ?_
  rw [crc32Checksum, UInt32.toBitVec_not, folds]
  rfl

/-- The files of the directory and what is in them. -/
structure Directory where
  names : List GoString
  content : GoString → List UInt8

namespace Directory

def empty : Directory := ⟨[], fun _ => []⟩

/-- `os.OpenFile` with `O_CREATE` and `O_APPEND`. -/
def openFile (dir : Directory) (name : GoString) : Directory :=
  if name ∈ dir.names then dir
  else { names := dir.names ++ [name], content := update dir.content name [] }

def append (dir : Directory) (name : GoString) (bytes : List UInt8) : Directory :=
  { dir with content := update dir.content name (dir.content name ++ bytes) }

end Directory

/-- The format `segment-%06d.wal`. -/
def segmentName (id : Nat) : GoString :=
  ofAscii "segment-" ++ (padded 6 id ++ ofAscii ".wal")

/-- What is left of a name behind a text it starts with. -/
def behind (text name : GoString) : Option GoString :=
  if name.take text.length = text then some (name.drop text.length) else none

/-- `fmt.Sscanf` with that format, for names without blanks: at most six digits are taken, and
    what follows `.wal` is not looked at. -/
def scanSegmentID (name : GoString) : Option Nat :=
  (behind (ofAscii "segment-") name).bind fun rest =>
    let digits := (rest.take 6).takeWhile isDigit
    if digits = [] then none
    else (behind (ofAscii ".wal") (rest.drop digits.length)).map fun _ => ofDecimal digits

inductive ReadError where
  | segmentNotFound (id : Nat)
  | seek
  | header (err : StreamError)
  | data (err : StreamError)
  | checksum
  deriving DecidableEq

/-- The error's text, before what the operating system has to say. -/
def ReadError.message : ReadError → String
  | .segmentNotFound id => "segment " ++ toString id ++ " not found"
  | .seek => "failed to seek to offset"
  | .header _ => "failed to read entry header"
  | .data _ => "failed to read entry data"
  | .checksum => "checksum mismatch"

/-- One turn of the loop of `loadSegments`. -/
def loadSegment (dir : Directory) (segments : Nat → Option (List UInt8)) (name : GoString) :
    Nat → Option (List UInt8) :=
  match scanSegmentID name with
  | none => segments
  | some id => update segments id (some (dir.content name))

/-- The segments' files, by their IDs. -/
def loadSegments (dir : Directory) : Nat → Option (List UInt8) :=
  dir.names.foldl (loadSegment dir) fun _ => none

def parseEntryHeader (header : List UInt8) : Int64 × UInt32 × UInt32 :=
  ((UInt64.ofNat (ofLittleEndian (header.take 8))).toInt64,
    UInt32.ofNat (ofLittleEndian ((header.drop 8).take 4)),
    UInt32.ofNat (ofLittleEndian ((header.drop 12).take 4)))

/-- `ReadEntry` on the file of its segment. -/
def readEntryAt (file : List UInt8) (offset : Int) : Except ReadError WALEntry :=
  if offset < 0 then .error .seek
  else
    match readFull 16 [] [file.drop offset.toNat] with
    | (.error err, _) => .error (.header err)
    | (.ok header, rest) =>
      let (timestamp, size, checksum) := parseEntryHeader header
      match readFull size.toNat [] rest with
      | (.error err, _) => .error (.data err)
      | (.ok data, _) => if crc32Checksum data ≠ checksum then .error .checksum else .ok ⟨timestamp, size, checksum, data⟩

def readEntry (segments : Nat → Option (List UInt8)) (segmentID : Nat) (offset : Int) :
    Except ReadError WALEntry :=
  match segments segmentID with
  | none => .error (.segmentNotFound segmentID)
  | some file => readEntryAt file offset

/-- Reads on from `offset`, each time 16 plus the entry's size further, until there is an error,
    at most `fuel` times. -/
def readEntries (segments : Nat → Option (List UInt8)) (segmentID : Nat) :
    (fuel : Nat) → (offset : Int) → List WALEntry × Int × Option ReadError
  | 0, offset => ([], offset, none)
  | fuel + 1, offset =>
    match readEntry segments segmentID offset with
    | .error err => ([], offset, some err)
    | .ok entry =>
      let (entries, final, err) := readEntries segments segmentID fuel (offset + (16 + entry.size.toNat))
      (entry :: entries, final, err)

theorem parseEntryHeader_entryHeader (entry : WALEntry) :
    parseEntryHeader (entryHeader entry) = (entry.timestamp, entry.size, entry.checksum) := by
  have timestamp : (entryHeader entry).take 8 = littleEndian 8 entry.timestamp.toUInt64.toNat := rfl
  have size : ((entryHeader entry).drop 8).take 4 = littleEndian 4 entry.size.toNat := rfl
  have checksum : ((entryHeader entry).drop 12).take 4 = littleEndian 4 entry.checksum.toNat := rfl
  rw [parseEntryHeader, timestamp, size, checksum, ofLittleEndian_littleEndian,
    ofLittleEndian_littleEndian, ofLittleEndian_littleEndian]
  simp

theorem littleEndian_uint32 (four : bs.length = 4) :
    littleEndian 4 (UInt32.ofNat (ofLittleEndian bs)).toNat = bs := by
  have small := ofLittleEndian_lt bs
  have bytes := littleEndian_ofLittleEndian bs
  rw [four] at small bytes
  rw [UInt32.toNat_ofNat_of_lt' small, bytes]

theorem littleEndian_uint64 (eight : bs.length = 8) :
    littleEndian 8 (UInt64.ofNat (ofLittleEndian bs)).toNat = bs := by
  have small := ofLittleEndian_lt bs
  have bytes := littleEndian_ofLittleEndian bs
  rw [eight] at small bytes
  rw [UInt64.toNat_ofNat_of_lt' small, bytes]

/-- A header is the one of the entry that is parsed from it. -/
theorem entryHeader_of_parseEntryHeader (length : header.length = 16)
    (parsed : parseEntryHeader header = (entry.timestamp, entry.size, entry.checksum)) :
    entryHeader entry = header := by
  simp only [parseEntryHeader, Prod.mk.injEq] at parsed
  obtain ⟨timestamp, size, checksum⟩ := parsed
  have last : (header.drop 12).take 4 = (header.drop 8).drop 4 := by
    rw [List.drop_drop, List.take_of_length_le (by simp [length])]
  rw [entryHeader, ← timestamp, ← size, ← checksum, UInt64.toUInt64_toInt64,
    littleEndian_uint64 (by simp [length]),
    littleEndian_uint32 (by simp [length]), littleEndian_uint32 (by simp [length]), last,
      List.take_append_drop, List.take_append_drop]

/-- The header of an entry and so many bytes behind it are judged by the checksum. -/
theorem readEntryAt_stored (length : entry.size.toNat = data.length) (before later : List UInt8) :
    readEntryAt (before ++ (entryHeader entry ++ (data ++ later))) before.length =
      if crc32Checksum data ≠ entry.checksum then .error .checksum else .ok { entry with data } := by
  have arrived : [(before ++ (entryHeader entry ++ (data ++ later))).drop before.length].flatten =
      entryHeader entry ++ (data ++ later) := by
    rw [List.drop_left, List.flatten_singleton]
  obtain ⟨middle, header, between⟩ := readFull_append arrived
  obtain ⟨rest, body, -⟩ := readFull_append between
  rw [length_entryHeader] at header
  rw [readEntryAt, if_neg (by omega), Int.toNat_natCast, header]
  dsimp only
  rw [parseEntryHeader_entryHeader, length]
  dsimp only
  rw [body]

/-- An entry that stands in a file is read back from where it starts. -/
theorem readEntryAt_append (small : data.length < 2 ^ 32) (before later : List UInt8) :
    readEntryAt (before ++ (entryBytes (newEntry now data) ++ later)) before.length =
      .ok (newEntry now data) := by
  have length : (newEntry now data).size.toNat = data.length := UInt32.toNat_ofNat_of_lt' small
  rw [entryBytes, List.append_assoc]
  exact (readEntryAt_stored length before later).trans (if_neg (not_not.mpr rfl))

theorem readEntryAt_end (file : List UInt8) :
    readEntryAt file file.length = .error (.header .eof) := by
  rw [readEntryAt, if_neg (by omega), Int.toNat_natCast, List.drop_length]
  rfl

theorem behind_append (text rest : GoString) : behind text (text ++ rest) = some rest := by
  rw [behind, List.take_left, if_pos rfl, List.drop_left]

theorem scanSegmentID_segmentName {id} (small : id < 10 ^ 6) :
    scanSegmentID (segmentName id) = some id := by
  have length : (padded 6 id).length = 6 := length_padded (by decide) small
  have digits : ((padded 6 id ++ ofAscii ".wal").take 6).takeWhile isDigit = padded 6 id := by
    have whole : (padded 6 id ++ []).takeWhile isDigit = padded 6 id ++ [].takeWhile isDigit :=
      List.takeWhile_append_of_pos fun _ inside => isDigit_of_mem_padded inside
    rw [List.append_nil, List.takeWhile_nil, List.append_nil] at whole
    rw [List.take_left' length, whole]
  have nonempty : padded 6 id ≠ [] := by
    intro empty
    rw [empty] at length
    cases length
  rw [scanSegmentID, segmentName, behind_append, Option.bind_some]
  dsimp only
  rw [digits, if_neg nonempty, List.drop_left, behind, ofDecimal_padded]
  rfl

theorem segmentName_inj {i j} (left : i < 10 ^ 6) (right : j < 10 ^ 6)
    (same : segmentName i = segmentName j) : i = j := by
  have scanned := congrArg scanSegmentID same
  rw [scanSegmentID_segmentName left, scanSegmentID_segmentName right] at scanned
  exact Option.some.inj scanned

/-- The names of a directory are those of segments with at most six digits. -/
def Directory.Named (dir : Directory) : Prop :=
  ∀ name ∈ dir.names, ∃ id < 10 ^ 6, name = segmentName id

/-- The reader finds each segment of such a directory. -/
theorem loadSegments_of_mem {dir} (named : dir.Named) {id} (small : id < 10 ^ 6)
    (inside : segmentName id ∈ dir.names) :
    loadSegments dir id = some (dir.content (segmentName id)) := by
  have folds (names : List GoString) (named : ∀ name ∈ names, ∃ id < 10 ^ 6, name = segmentName id)
      (segments : Nat → Option (List UInt8))
      (found : segmentName id ∈ names ∨ segments id = some (dir.content (segmentName id))) :
      names.foldl (loadSegment dir) segments id = some (dir.content (segmentName id)) := by
    induction names generalizing segments with
    | nil => exact found.resolve_left List.not_mem_nil
    | cons name names ih =>
      obtain ⟨k, below, rfl⟩ := named name List.mem_cons_self
      rw [List.foldl_cons, loadSegment, scanSegmentID_segmentName below]
      refine ih (fun name later => named name (List.mem_cons_of_mem _ later)) _ ?_
      dsimp only
      by_cases here : id = k
      · subst here
        exact .inr (update_self ..)
      · rw [update_of_ne here]
        refine found.imp_left fun either => ?_
        obtain same | later := List.mem_cons.mp either
        · exact absurd (segmentName_inj small below same) here
        · exact later
  exact folds dir.names named _ (.inl inside)

structure WALSegment where
  id : Nat
  size : Int
  deriving DecidableEq

/-- `older` has the segments of the map except the current one, in the order of their IDs. -/
structure WALWriter where
  maxSegmentSize : Int
  currentSegment : WALSegment
  older : List WALSegment
  nextSegmentID : Nat
  deriving DecidableEq

def WALWriter.segments (w : WALWriter) : List WALSegment := w.older ++ [w.currentSegment]

structure WAL where
  dir : Directory
  writer : WALWriter

inductive WriteError where
  | rotate
  | header
  | data
  deriving DecidableEq

/-- The error's text, before what the operating system has to say. -/
def WriteError.message : WriteError → String
  | .rotate => "failed to rotate segment: failed to create segment file"
  | .header => "failed to write entry header"
  | .data => "failed to write entry data"

/-- An entry to be written, with the time, and after how many bytes the write of the header or
    the one of the data fails, if it does. -/
structure Request where
  now : Int64
  data : List UInt8
  headerFault : Option Nat := none
  dataFault : Option Nat := none
  deriving DecidableEq

def Request.entry (r : Request) : WALEntry := newEntry r.now r.data

/-- `rotateFails` is about the file that would have to be opened. -/
inductive Call where
  | write (rotateFails : Bool) (r : Request)
  | writeBatch (rotateFails : Bool) (rs : List Request)
  deriving DecidableEq

def Call.requests : Call → List Request
  | .write _ r => [r]
  | .writeBatch _ rs => rs

namespace WAL

/-- The ID is used up also if the file cannot be opened. -/
def rotateSegment (w : WAL) (fails : Bool) : WAL × Option WriteError :=
  let segmentID := w.writer.nextSegmentID
  if fails then
    ({ w with writer := { w.writer with nextSegmentID := segmentID + 1 } }, some .rotate)
  else
    ({ dir := w.dir.openFile (segmentName segmentID)
       writer :=
        { w.writer with
          currentSegment := ⟨segmentID, 0⟩
          older := w.writer.segments
          nextSegmentID := segmentID + 1 } }, none)

/-- The test at the start of `Write` and `WriteBatch`. -/
def full (w : WAL) : Call → Bool
  | .write _ _ => w.writer.currentSegment.size ≥ w.writer.maxSegmentSize
  | .writeBatch _ rs =>
    w.writer.currentSegment.size + ((rs.map fun r => 16 + r.data.length).sum : Nat) ≥
      w.writer.maxSegmentSize

def makeRoom (w : WAL) (call : Call) : WAL × Option WriteError :=
  if w.full call then
    match call with
    | .write rotateFails _ | .writeBatch rotateFails _ => w.rotateSegment rotateFails
  else (w, none)

def fileName (w : WAL) : GoString := segmentName w.writer.currentSegment.id

/-- One entry: the header, the data, and the segment's size. -/
def writeEntry (w : WAL) (r : Request) : WAL × Except WriteError Int :=
  let offset := w.writer.currentSegment.size
  match r.headerFault with
  | some n =>
    ({ w with dir := w.dir.append w.fileName ((entryHeader r.entry).take n) }, .error .header)
  | none =>
    match r.dataFault with
    | some n => ({ w with dir := w.dir.append w.fileName (entryHeader r.entry ++ r.data.take n) }, .error .data)
    | none =>
      ({ dir := w.dir.append w.fileName (entryBytes r.entry)
         writer :=
          { w.writer with
            currentSegment := { w.writer.currentSegment with size := offset + (16 + r.data.length) } } },
        .ok offset)

def writeEntries (w : WAL) : List Request → WAL × Except WriteError (List Int)
  | [] => (w, .ok [])
  | r :: rs =>
    match w.writeEntry r with
    | (w, .error err) => (w, .error err)
    | (w, .ok offset) =>
      match w.writeEntries rs with
      | (w, .error err) => (w, .error err)
      | (w, .ok offsets) => (w, .ok (offset :: offsets))

/-- `Write` and `WriteBatch`, with the offsets they return. They differ in the test for room. -/
def apply (w : WAL) (call : Call) : WAL × Except WriteError (List Int) :=
  match w.makeRoom call with
  | (w, some err) => (w, .error err)
  | (w, none) => w.writeEntries call.requests

/-- `NewWALWriter`. -/
def newWALWriter (dir : Directory) (maxSegmentSize : Int) : WAL where
  dir := dir.openFile (segmentName 0)
  writer := ⟨maxSegmentSize, ⟨0, 0⟩, [], 1⟩

end WAL

/-- What a caller has been told about an entry: the segment that was current, and the offset. -/
structure Record where
  segment : Nat
  offset : Int
  entry : WALEntry
  deriving DecidableEq

/-- What the caller of a call that returned without error has been told. -/
def records (w : WAL) (call : Call) (offsets : List Int) : List Record :=
  List.zipWith (fun r offset => ⟨w.writer.currentSegment.id, offset, r.entry⟩) call.requests offsets

end Portask.Storage
