import Portask.Lib.Machine
import Portask.Storage.WalLog
import Mathlib.Data.Fintype.Defs

/-! # Concurrent readers

Calls of `ReadEntry` on one reader, step by step: the seek, the read of the header and the read
of the data. A segment's file has one position, which all calls share; the lock they hold is a
read lock. The files do not change meanwhile.
-/

namespace Portask.Storage.WalReaders

open Function Lib

/-- A call that has found its segment, set the position, or read the header. -/
inductive Pc where
  | out
  | located (segment : Nat) (offset : Int)
  | seeked (segment : Nat) (offset : Int)
  | headed (segment : Nat) (offset : Int) (timestamp : Int64) (size checksum : UInt32)
  deriving DecidableEq

structure Return where
  segment : Nat
  offset : Int
  result : Except ReadError WALEntry

structure System (T : Type) where
  position : Nat → Nat
  pc : T → Pc
  returned : List Return

inductive Label (T : Type) where
  | call (t : T) (segment : Nat) (offset : Int)
  | seek (t : T)
  | header (t : T)
  | data (t : T)
  deriving DecidableEq

section

variable {T : Type} [DecidableEq T]

namespace System

def start : System T := ⟨fun _ => 0, fun _ => .out, []⟩

variable (s : System T)

def turn (t : T) (pc : Pc) : System T := { s with pc := update s.pc t pc }

def move (segment position : Nat) : System T :=
  { s with position := update s.position segment position }

/-- The call of `t` ends. -/
def finish (t : T) (segment : Nat) (offset : Int) (result : Except ReadError WALEntry) : System T :=
  { s.turn t .out with returned := s.returned ++ [⟨segment, offset, result⟩] }

/-- `io.ReadFull` at the position of a file, which goes behind what has been read. -/
def read (segment : Nat) (file : List UInt8) (n : Nat) :
    System T × Except StreamError (List UInt8) :=
  let bytes := file.drop (s.position segment)
  (s.move segment (s.position segment + min n bytes.length), (readFull n [] [bytes]).1)

end System

def machine (segments : Nat → Option (List UInt8)) : Machine (System T) (Label T) where
  next s label :=
    match label with
    | .call t segment offset =>
      if s.pc t = .out then
        match segments segment with
        | none => some (s.finish t segment offset (.error (.segmentNotFound segment)))
        | some _ => some (s.turn t (.located segment offset))
      else none
    | .seek t =>
      match s.pc t with
      | .located segment offset =>
        some (if offset < 0 then s.finish t segment offset (.error .seek)
          else (s.move segment offset.toNat).turn t (.seeked segment offset))
      | _ => none
    | .header t =>
      match s.pc t with
      | .seeked segment offset =>
        (segments segment).map fun file =>
          match s.read segment file 16 with
          | (s, .error err) => s.finish t segment offset (.error (.header err))
          | (s, .ok header) =>
            let (timestamp, size, checksum) := parseEntryHeader header
            s.turn t (.headed segment offset timestamp size checksum)
      | _ => none
    | .data t =>
      match s.pc t with
      | .headed segment offset timestamp size checksum =>
        (segments segment).map fun file =>
          match s.read segment file size.toNat with
          | (s, .error err) => s.finish t segment offset (.error (.data err))
          | (s, .ok data) =>
            s.finish t segment offset
              (if crc32Checksum data ≠ checksum then .error .checksum else .ok ⟨timestamp, size, checksum, data⟩)
      | _ => none

/-- Between the seek and the read of the data, on this segment. -/
def Pc.Uses (pc : Pc) (segment : Nat) : Prop :=
  match pc with
  | .seeked i _ => i = segment
  | .headed i _ _ _ _ => i = segment
  | _ => False

instance (pc : Pc) (segment : Nat) : Decidable (pc.Uses segment) :=
  match pc with
  | .seeked i _ => inferInstanceAs (Decidable (i = segment))
  | .headed i _ _ _ _ => inferInstanceAs (Decidable (i = segment))
  | .out | .located _ _ => inferInstanceAs (Decidable False)

/-- Nobody sets the position of a segment that another call is reading from. -/
def Alone (s : System T) : Label T → Prop
  | .seek t => ∀ segment offset, s.pc t = .located segment offset → ∀ u, ¬ (s.pc u).Uses segment
  | _ => True

variable {offset : Int}

/-- `ReadEntry` as the read of a header and a read behind it. -/
theorem readEntryAt_eq (inside : 0 ≤ offset) : readEntryAt file offset =
      match (readFull 16 [] [file.drop offset.toNat]).1 with
      | .error err => .error (.header err)
      | .ok header =>
        match (readFull (parseEntryHeader header).2.1.toNat [] [file.drop (offset.toNat + 16)]).1 with
        | .error err => .error (.data err)
        | .ok data =>
          if crc32Checksum data ≠ (parseEntryHeader header).2.2 then .error .checksum
          else .ok ⟨(parseEntryHeader header).1, (parseEntryHeader header).2.1, (parseEntryHeader header).2.2, data⟩ := by
  rw [readEntryAt, if_neg (Int.not_lt.mpr inside)]
  by_cases enough : 16 ≤ [file.drop offset.toNat].flatten.length
  · obtain ⟨rest, read, left⟩ := readFull_ok enough []
    have behind : rest.flatten = [file.drop (offset.toNat + 16)].flatten := by
      rw [left, List.flatten_singleton, List.flatten_singleton, List.drop_drop]
    rw [read]
    dsimp only
    rw [← readFull_congr _ behind]
    cases readFull (parseEntryHeader _).2.1.toNat [] rest with
    | mk result later =>
      cases result with
      | error err => rfl
      | ok data => rfl
  · rw [readFull_error (Nat.not_le.mp enough)]

theorem readFull_singleton_ok (read : (readFull n [] [bytes]).1 = .ok found) :
    n ≤ bytes.length ∧ found = bytes.take n := by
  by_cases enough : n ≤ [bytes].flatten.length
  · obtain ⟨rest, full, -⟩ := readFull_ok enough []
    rw [full] at read
    rw [List.flatten_singleton] at enough read
    exact ⟨enough, (Except.ok.inj read).symm⟩
  · rw [readFull_error (Nat.not_le.mp enough)] at read
    cases read

/-- The bytes of the entry, with its own size and checksum, stand in the segment from this offset on. -/
structure Holds (segments : Nat → Option (List UInt8)) (segment : Nat) (offset : Int)
    (entry : WALEntry) : Prop where
  proper : entry.Proper
  stands : ∃ before later, segments segment = some (before ++ (entryBytes entry ++ later)) ∧
    offset = before.length

variable {entry : WALEntry}

theorem readEntryAt_ok (read : readEntryAt file offset = .ok entry) :
    entry.Proper ∧ ∃ before later, file = before ++ (entryBytes entry ++ later) ∧
      offset = before.length := by
  by_cases inside : 0 ≤ offset
  swap
  · rw [readEntryAt, if_pos (Int.not_le.mp inside)] at read
    cases read
  rw [readEntryAt_eq inside] at read
  split at read
  · cases read
  rename_i header first
  split at read
  · cases read
  rename_i data second
  split at read
  · cases read
  rename_i right
  have found := Except.ok.inj read
  obtain ⟨room, isHeader⟩ := readFull_singleton_ok first
  obtain ⟨more, isData⟩ := readFull_singleton_ok second
  have start : entryHeader entry = header :=
    entryHeader_of_parseEntryHeader (by rw [isHeader, List.length_take_of_le room])
      (by rw [← found])
  have size : data.length = entry.size.toNat := by rw [isData, List.length_take_of_le more, ← found]
  have same : entry.data = data := by rw [← found]
  have checksum : crc32Checksum data = entry.checksum := (not_not.mp right).trans (by rw [← found])
  refine ⟨⟨?_, ?_⟩, file.take offset.toNat,
    (file.drop (offset.toNat + 16)).drop entry.size.toNat, ?_, ?_⟩
  · rw [newEntry, same, size, checksum, UInt32.ofNat_toNat, ← same]
  · rw [same, size]
    exact entry.size.toNat_lt
  · have taken : data = (file.drop (offset.toNat + 16)).take entry.size.toNat := by
      rw [isData, ← found]
    rw [entryBytes, start, same, List.append_assoc, taken, List.take_append_drop, isHeader,
      ← List.drop_drop, List.take_append_drop, List.take_append_drop]
  · rw [List.length_drop] at room
    rw [List.length_take_of_le (by omega), Int.toNat_of_nonneg inside]

theorem readEntry_eq_ok_iff {segments segment} :
    readEntry segments segment offset = .ok entry ↔ Holds segments segment offset entry := by
  constructor
  · intro read
    cases found : segments segment with
    | none =>
      rw [readEntry, found] at read
      cases read
    | some file =>
      rw [readEntry, found] at read
      obtain ⟨proper, before, later, rfl, offset⟩ := readEntryAt_ok read
      exact ⟨proper, before, later, found, offset⟩
  · rintro ⟨proper, before, later, found, rfl⟩
    rw [readEntry, found]
    exact readEntryAt_of_proper proper before later

/-- The position and what has been read are those of a call by itself. -/
def Pc.Matches (segments : Nat → Option (List UInt8)) (position : Nat → Nat) : Pc → Prop
  | .out => True
  | .located segment _ => (segments segment).isSome = true
  | .seeked segment offset =>
    (segments segment).isSome = true ∧ 0 ≤ offset ∧ position segment = offset.toNat
  | .headed segment offset timestamp size checksum =>
    0 ≤ offset ∧ position segment = offset.toNat + 16 ∧
      ∃ file header, segments segment = some file ∧
        (readFull 16 [] [file.drop offset.toNat]).1 = .ok header ∧
        parseEntryHeader header = (timestamp, size, checksum)

structure Sound (segments : Nat → Option (List UInt8)) (s : System T) : Prop where
  pcs : ∀ t, (s.pc t).Matches segments s.position
  alone : ∀ t u segment, (s.pc t).Uses segment → (s.pc u).Uses segment → t = u
  returned : ∀ r ∈ s.returned, r.result = readEntry segments r.segment r.offset

section

variable {segments : Nat → Option (List UInt8)} {s : System T}

omit [DecidableEq T] in
theorem sound_start : Sound segments (System.start : System T) where
  pcs _ := trivial
  alone _ _ _ uses := uses.elim
  returned _ inside := absurd inside List.not_mem_nil

variable {segment : Nat} {position : Nat → Nat}

/-- The position of another segment does not matter. -/
theorem Pc.Matches.move {pc : Pc} (right : pc.Matches segments position)
    (elsewhere : ¬ pc.Uses segment) (p : Nat) :
    pc.Matches segments (update position segment p) := by
  cases pc with
  | out | located => exact right
  | seeked i offset | headed i offset timestamp size checksum =>
    have other : i ≠ segment := elsewhere
    rw [Matches, update_of_ne other]
    exact right

variable {t : T}

/-- A step of `t` that suits the other calls: they match the new positions, and `t` is alone at its segment. -/
theorem Sound.step (sound : Sound segments s)
    (others : ∀ u, u ≠ t → (s.pc u).Matches segments position)
    (right : pc.Matches segments position)
    (alone : ∀ segment, pc.Uses segment → ∀ u, u ≠ t → ¬ (s.pc u).Uses segment) :
    Sound segments (System.turn { s with position := position } t pc) where
  pcs := (forall_update_iff s.pc fun _ pc => pc.Matches segments position).mpr ⟨right, others⟩
  alone u v segment first second := by
    change (update s.pc t pc u).Uses segment at first
    change (update s.pc t pc v).Uses segment at second
    obtain ⟨left, here⟩ | ⟨left, here⟩ := of_update (rfl : update s.pc t pc u = _) <;>
      rw [← here] at first <;>
      obtain ⟨also, there⟩ | ⟨also, there⟩ := of_update (rfl : update s.pc t pc v = _) <;>
        rw [← there] at second
    · exact left.trans also.symm
    · exact absurd second (alone segment first v also)
    · exact absurd first (alone segment second u left)
    · exact sound.alone u v segment first second
  returned := sound.returned

/-- A step that moves the position of a segment which only `t` is reading from. -/
theorem Sound.moved (sound : Sound segments s) (others : ∀ u, u ≠ t → ¬ (s.pc u).Uses segment)
    (right : pc.Matches segments (update s.position segment p))
    (uses : ∀ i, pc.Uses i → i = segment) : Sound segments ((s.move segment p).turn t pc) :=
  sound.step (fun u different => (sound.pcs u).move (others u different) p) right
    fun i used u different => uses i used ▸ others u different

omit [DecidableEq T] in
theorem Sound.report (sound : Sound segments s)
    (right : r.result = readEntry segments r.segment r.offset) :
    Sound segments { s with returned := s.returned ++ [r] } where
  __ := sound
  returned := forall_mem_concat sound.returned right

variable {offset : Int} {result : Except ReadError WALEntry}

theorem Sound.finish (sound : Sound segments s)
    (right : result = readEntry segments segment offset) :
    Sound segments (s.finish t segment offset result) :=
  have left : Sound segments (s.turn t .out) :=
    sound.step (fun u _ => sound.pcs u) trivial fun _ uses => False.elim uses
  left.report (r := ⟨segment, offset, result⟩) right

/-- A call ends with a read at a segment that no other call is reading from. -/
theorem Sound.read (sound : Sound segments s) (others : ∀ u, u ≠ t → ¬ (s.pc u).Uses segment)
    (right : result = readEntry segments segment offset) :
    Sound segments ((s.move segment p).finish t segment offset result) :=
  have left : Sound segments ((s.move segment p).turn t .out) :=
    sound.moved others trivial fun _ uses => False.elim uses
  left.report (r := ⟨segment, offset, result⟩) right

omit [DecidableEq T] in
theorem Sound.others (sound : Sound segments s) (uses : (s.pc t).Uses segment) :
    ∀ u, u ≠ t → ¬ (s.pc u).Uses segment :=
  fun u different also => different (sound.alone u t segment also uses)

variable {later : System T}

section

variable (sound : Sound segments s)
include sound

theorem sound_call
    (moved : (machine segments).next s (.call t segment offset) = some later) :
    Sound segments later := by
  simp only [machine, Option.ite_none_right_eq_some] at moved
  cases found : segments segment with
  | none =>
    rw [found] at moved
    obtain rfl := Option.some.inj moved.2
    exact sound.finish (by rw [readEntry, found])
  | some file =>
    rw [found] at moved
    obtain rfl := Option.some.inj moved.2
    refine sound.step (fun u _ => sound.pcs u) ?_ fun _ uses => False.elim uses
    show (segments segment).isSome = true
    rw [found]
    rfl

theorem sound_seek (alone : Alone s (.seek t))
    (moved : (machine segments).next s (.seek t) = some later) : Sound segments later := by
  simp only [machine] at moved
  split at moved
  · next segment offset located =>
      obtain rfl := Option.some.inj moved
      have known : (segments segment).isSome = true := by
        have right := sound.pcs t
        rw [located] at right
        exact right
      obtain ⟨file, found⟩ := Option.isSome_iff_exists.mp known
      split
      · next negative => exact sound.finish (by rw [readEntry, found]; exact (if_pos negative).symm)
      · next inside =>
          refine sound.moved (fun u _ => alone segment offset located u) ?_ fun i uses => Eq.symm uses
          exact ⟨known, Int.not_lt.mp inside, update_self ..⟩
  · cases moved

theorem sound_header (moved : (machine segments).next s (.header t) = some later) :
    Sound segments later := by
  simp only [machine] at moved
  split at moved
  · next segment offset seeked =>
      obtain ⟨file, found, rfl⟩ := Option.map_eq_some_iff.mp moved
      have right := sound.pcs t
      rw [seeked] at right
      obtain ⟨-, inside, here⟩ := right
      have others : ∀ u, u ≠ t → ¬ (s.pc u).Uses segment := sound.others (by rw [seeked]; rfl)
      rw [System.read, here]
      cases read : (readFull 16 [] [file.drop offset.toNat]).1 with
      | error err => exact sound.read others (by rw [readEntry, found]; dsimp only; rw [readEntryAt_eq inside, read])
      | ok header =>
        refine sound.moved others ⟨inside, ?_, file, header, found, read, rfl⟩ fun i uses => Eq.symm uses
        rw [update_self, Nat.min_eq_left (readFull_singleton_ok read).1]
  · cases moved

theorem sound_data (moved : (machine segments).next s (.data t) = some later) :
    Sound segments later := by
  simp only [machine] at moved
  split at moved
  · next segment offset timestamp size checksum headed =>
      obtain ⟨file, found, rfl⟩ := Option.map_eq_some_iff.mp moved
      have right := sound.pcs t
      rw [headed] at right
      obtain ⟨inside, here, same, header, known, first, parsed⟩ := right
      obtain rfl : file = same := Option.some.inj (found.symm.trans known)
      have others : ∀ u, u ≠ t → ¬ (s.pc u).Uses segment := sound.others (by rw [headed]; rfl)
      have alone : readEntry segments segment offset = readEntryAt file offset := by rw [readEntry, found]
      rw [readEntryAt_eq inside, first] at alone
      dsimp only at alone
      rw [parsed] at alone
      rw [System.read, here]
      cases read : (readFull size.toNat [] [file.drop (offset.toNat + 16)]).1 with
      | error err | ok data =>
        rw [read] at alone
        exact sound.read others alone.symm
  · cases moved

end

theorem sound_next {t label} (sound : Sound segments s) (alone : Alone s label)
    (moved : (machine segments).next s label = some t) : Sound segments t := by
  cases label with
  | call => exact sound_call sound moved
  | seek => exact sound_seek sound alone moved
  | header => exact sound_header sound moved
  | data => exact sound_data sound moved

def Pc.asked : Pc → Option (Nat × Int)
  | .out => none
  | .located segment offset => some (segment, offset)
  | .seeked segment offset => some (segment, offset)
  | .headed segment offset _ _ _ => some (segment, offset)

/-- The call of `t` has returned, and the other calls are where they were. -/
structure Left (s : System T) (t : T) (segment : Nat) (offset : Int) (later : System T) : Prop where
  pc : later.pc = update s.pc t .out
  result : ∃ result, ⟨segment, offset, result⟩ ∈ later.returned

theorem left_read (s : System T) (t : T) (segment p : Nat) (offset : Int)
    (result : Except ReadError WALEntry) :
    Left s t segment offset ((s.move segment p).finish t segment offset result) :=
  ⟨rfl, result, List.mem_append_right _ List.mem_cons_self⟩

theorem data_leaves (sound : Sound segments s)
    (headed : s.pc t = .headed segment offset timestamp size checksum) :
    ∃ later, (machine segments).next s (.data t) = some later ∧ Left s t segment offset later := by
  have right := sound.pcs t
  rw [headed] at right
  obtain ⟨-, -, file, -, found, -, -⟩ := right
  simp only [machine, headed, found, Option.map_some, Option.some.injEq, exists_eq_left']
  rw [System.read]
  cases (readFull size.toNat [] [file.drop (s.position segment)]).1 with
  | error err | ok data => exact left_read ..

theorem header_steps (sound : Sound segments s) (seeked : s.pc t = .seeked segment offset) :
    ∃ later, (machine segments).next s (.header t) = some later ∧
      (Left s t segment offset later ∨
        ∃ timestamp size checksum, later.pc =
          update s.pc t (.headed segment offset timestamp size checksum)) := by
  have right := sound.pcs t
  rw [seeked] at right
  obtain ⟨file, found⟩ := Option.isSome_iff_exists.mp right.1
  simp only [machine, seeked, found, Option.map_some, Option.some.injEq, exists_eq_left']
  rw [System.read]
  cases (readFull 16 [] [file.drop (s.position segment)]).1 with
  | error err => exact .inl (left_read ..)
  | ok header => exact .inr ⟨_, _, _, rfl⟩

section

variable [∀ (s : System T) label, Decidable (Alone s label)]

/-- There is a continuation in which a call for this entry has returned. -/
def CanReturn (segments : Nat → Option (List UInt8)) (s : System T) (segment : Nat)
    (offset : Int) : Prop :=
  ∃ labels later result, ((machine segments).restrict Alone).run s labels = some later ∧
    ⟨segment, offset, result⟩ ∈ later.returned

theorem run_step (moved : (machine segments).next s label = some middle)
    (alone : Alone s label)
    (ran : ((machine segments).restrict Alone).run middle labels = some later) :
    ((machine segments).restrict Alone).run s (label :: labels) = some later :=
  (Machine.run_cons _).mpr ⟨middle, (Machine.restrict_next _).mpr ⟨alone, moved⟩, ran⟩

variable {segment : Nat} {t : T}

/-- A call that has set the position is not held up by the others. -/
theorem leaves (sound : Sound segments s) (uses : (s.pc t).Uses segment) :
    ∃ offset labels later, (s.pc t).asked = some (segment, offset) ∧
      ((machine segments).restrict Alone).run s labels = some later ∧ Sound segments later ∧
        Left s t segment offset later := by
  cases pending : s.pc t with
  | out | located =>
    rw [pending] at uses
    exact False.elim uses
  | headed i offset timestamp size checksum =>
    rw [pending] at uses
    obtain rfl : i = segment := uses
    obtain ⟨later, moved, left⟩ := data_leaves sound pending
    exact ⟨offset, [.data t], later, rfl, run_step moved trivial rfl, sound_data sound moved, left⟩
  | seeked i offset =>
    rw [pending] at uses
    obtain rfl : i = segment := uses
    obtain ⟨middle, moved, next⟩ := header_steps sound pending
    have between := sound_header sound moved
    obtain left | ⟨timestamp, size, checksum, headed⟩ := next
    · exact ⟨offset, [.header t], middle, rfl, run_step moved trivial rfl, between, left⟩
    · have at_ : middle.pc t = .headed i offset timestamp size checksum := by rw [headed, update_self]
      obtain ⟨later, read, left⟩ := data_leaves between at_
      refine ⟨offset, [.header t, .data t], later, rfl, run_step moved trivial (run_step read trivial rfl),
        sound_data between read, ?_, left.result⟩
      rw [left.pc, headed, Function.update_idem]

variable {offset : Int}

theorem returns_of_free (sound : Sound segments s) (located : s.pc t = .located segment offset)
    (free : ∀ u, ¬ (s.pc u).Uses segment) : CanReturn segments s segment offset := by
  have alone : Alone s (.seek t) := by
    intro i o same
    obtain ⟨rfl, rfl⟩ := Pc.located.inj (located.symm.trans same)
    exact free
  by_cases negative : offset < 0
  · have moved : (machine segments).next s (.seek t) =
        some (s.finish t segment offset (.error .seek)) := by
      simp only [machine, located, if_pos negative]
    exact ⟨[.seek t], _, _, run_step moved alone rfl, List.mem_append_right _ List.mem_cons_self⟩
  · have moved : (machine segments).next s (.seek t) =
        some ((s.move segment offset.toNat).turn t (.seeked segment offset)) := by
      simp only [machine, located, if_neg negative]
    have seeked : ((s.move segment offset.toNat).turn t (.seeked segment offset)).pc t =
        .seeked segment offset :=
      update_self ..
    obtain ⟨same, labels, later, asked, ran, -, left⟩ :=
      leaves (sound_seek sound alone moved) (t := t) (by rw [seeked]; rfl)
    rw [seeked] at asked
    obtain ⟨-, rfl⟩ := Prod.mk.inj (Option.some.inj asked)
    obtain ⟨result, inside⟩ := left.result
    exact ⟨.seek t :: labels, later, result, run_step moved alone ran, inside⟩

theorem returns_of_uses (sound : Sound segments s) (asked : (s.pc t).asked = some (segment, offset))
    (uses : (s.pc t).Uses segment) : CanReturn segments s segment offset := by
  obtain ⟨same, labels, later, known, ran, -, left⟩ := leaves sound uses
  obtain ⟨-, rfl⟩ := Prod.mk.inj (Option.some.inj (known.symm.trans asked))
  obtain ⟨result, inside⟩ := left.result
  exact ⟨labels, later, result, ran, inside⟩

omit [∀ (s : System T) label, Decidable (Alone s label)] in
/-- Once the call at a segment has returned, nobody is reading from it. -/
theorem Left.free (sound : Sound segments s) (uses : (s.pc u).Uses segment)
    (left : Left s u segment offset later) : ∀ v, ¬ (later.pc v).Uses segment := by
  intro v also
  rw [left.pc] at also
  by_cases same : v = u
  · rw [same, update_self] at also
    exact also
  · rw [update_of_ne same] at also
    exact same (sound.alone v u segment also uses)

/-- A call that waits at its seek waits for a single call, which leaves first. -/
theorem returns_of_located (sound : Sound segments s) (located : s.pc t = .located segment offset) :
    CanReturn segments s segment offset := by
  by_cases free : ∀ u, ¬ (s.pc u).Uses segment
  · exact returns_of_free sound located free
  · obtain ⟨u, uses⟩ := not_forall_not.mp free
    have different : t ≠ u := by
      rintro rfl
      rw [located] at uses
      exact uses
    obtain ⟨_, first, middle, -, ran, between, left⟩ := leaves sound uses
    have still : middle.pc t = .located segment offset := by
      rw [left.pc, update_of_ne different, located]
    obtain ⟨more, later, result, then_, inside⟩ :=
      returns_of_free between still (left.free sound uses)
    refine ⟨first ++ more, later, result, ?_, inside⟩
    rw [Machine.run_append, ran]
    exact then_

theorem returns (sound : Sound segments s) (asked : (s.pc t).asked = some (segment, offset)) :
    CanReturn segments s segment offset := by
  cases pending : s.pc t with
  | out =>
    rw [pending] at asked
    cases asked
  | located i o =>
    obtain ⟨rfl, rfl⟩ : i = segment ∧ o = offset := by simpa [pending, Pc.asked] using asked
    exact returns_of_located sound pending
  | seeked | headed =>
    refine returns_of_uses sound asked ?_
    simp_all [Pc.asked, Pc.Uses]

/-- For any number of callers, in every run in which no call sets the position of a segment while
    another one is between its own seek and the end of its read there: a call has returned an
    entry if and only if that entry stands at the segment and offset it was asked for, and every
    call that is still pending can return. -/
theorem concurrent_reads_return_their_entries {labels : List (Label T)} {s : System T}
    (ran : ((machine segments).restrict Alone).run .start labels = some s) :
    (∀ r ∈ s.returned, ∀ entry, r.result = .ok entry ↔ Holds segments r.segment r.offset entry) ∧
      ∀ t segment offset, (s.pc t).asked = some (segment, offset) →
        ∃ more later result, ((machine segments).restrict Alone).run s more = some later ∧
          ⟨segment, offset, result⟩ ∈ later.returned := by
  have sound : Sound segments s := by
    refine Machine.run_invariant _ (fun s label t kept moved => ?_) sound_start ran
    obtain ⟨alone, moved⟩ := (Machine.restrict_next _).mp moved
    exact sound_next kept alone moved
  refine ⟨fun r inside entry => ?_, fun t segment offset asked => returns sound asked⟩
  rw [sound.returned r inside]
  exact readEntry_eq_ok_iff

end

end

instance [Fintype T] (s : System T) : (label : Label T) → Decidable (Alone s label)
  | .call .. | .header _ | .data _ => .isTrue trivial
  | .seek t =>
    match at_ : s.pc t with
    | .located segment offset =>
      decidable_of_iff (∀ u, ¬ (s.pc u).Uses segment)
        ⟨fun free i o same => (Pc.located.inj (at_.symm.trans same)).1 ▸ free, fun alone => alone segment offset at_⟩
    | .out | .seeked .. | .headed .. => .isTrue fun _ _ same => by simp [at_] at same

def firstEntry : WALEntry := newEntry 1 [1]

def secondEntry : WALEntry := newEntry 2 [2]

/-- Two entries in one segment, the second at offset 17. -/
def twoEntries : Nat → Option (List UInt8) :=
  fun i => if i = 0 then some (entryBytes firstEntry ++ entryBytes secondEntry) else none

/-- The second caller sets the position between the seek and the reads of the first. -/
def racing : List (Label Bool) :=
  [.call false 0 0, .call true 0 17, .seek false, .seek true, .header false, .data false]

def System.entries (s : System T) : List (Nat × Int × Option WALEntry) :=
  s.returned.map fun r => (r.segment, r.offset, r.result.toOption)

omit [DecidableEq T] in
theorem exists_returned {s : System T} {segment}
    (seen : s.entries = [(segment, offset, some entry)]) :
    ∃ r ∈ s.returned, r.segment = segment ∧ r.offset = offset ∧ r.result = .ok entry := by
  have inside : (segment, offset, some entry) ∈ s.entries := by rw [seen]; exact List.mem_cons_self
  obtain ⟨⟨i, o, result⟩, returned, same⟩ := List.mem_map.mp inside
  simp only [Prod.mk.injEq] at same
  obtain ⟨rfl, rfl, found⟩ := same
  refine ⟨_, returned, rfl, rfl, ?_⟩
  cases result with
  | error err => cases found
  | ok e => exact congrArg Except.ok (Option.some.inj found)

/-- The call for the entry at offset 0 gets the one at offset 17. -/
theorem reader_gets_another_entry :
    ∃ s, (machine twoEntries).run .start racing = some s ∧ Holds twoEntries 0 0 firstEntry ∧
      firstEntry ≠ secondEntry ∧
        ∃ r ∈ s.returned, r.segment = 0 ∧ r.offset = 0 ∧ r.result = .ok secondEntry := by
  refine exists_of_view System.entries [(0, 0, some secondEntry)]
    (by decide +kernel) fun s ran seen => ?_
  have stands : Holds twoEntries 0 0 firstEntry :=
    ⟨⟨rfl, by decide⟩, [], entryBytes secondEntry, rfl, rfl⟩
  exact ⟨stands, by decide +kernel, exists_returned seen⟩

/-- The same two calls, the second seek after the first read. -/
def inTurn : List (Label Bool) :=
  [.call false 0 0, .call true 0 17, .seek false, .header false, .data false,
    .seek true, .header true]

theorem reads_in_turn_return_their_entries :
    ∃ s, ((machine twoEntries).restrict Alone).run .start inTurn = some s ∧
      (∃ r ∈ s.returned, r.result = .ok firstEntry ∧ Holds twoEntries r.segment r.offset firstEntry) ∧
      ∃ more later result, ((machine twoEntries).restrict Alone).run s more = some later ∧
        ⟨0, 17, result⟩ ∈ later.returned := by
  refine exists_of_view (fun s => (s.entries, (s.pc true).asked))
    ([(0, 0, some firstEntry)], some (0, 17))
    (by decide +kernel) fun s ran seen => ?_
  simp only [Prod.mk.injEq] at seen
  obtain ⟨right, pending⟩ := concurrent_reads_return_their_entries ran
  obtain ⟨r, inside, -, -, result⟩ := exists_returned seen.1
  exact ⟨⟨r, inside, result, (right r inside firstEntry).mp result⟩, pending true 0 17 seen.2⟩

end

end Portask.Storage.WalReaders
