import Portask.Amqp.Frames
import Portask.Lib.Stream

/-! # Reading frames from a connection

`handleConnection` reads the head, the payload and the end of a frame with one read each and
gives up when a read returns less than it asked for. What it processes is therefore a first
part of the frames in the stream, up to the first one that the network does not deliver in
one piece for each read.
-/

namespace Portask.Amqp

open Lib

def protocolHeader : List UInt8 := [65, 77, 81, 80, 0, 0, 9, 1]

def maxFrameSize : Nat := 1024 * 1024

/-- One round of the loop; none breaks it. A payload without bytes is not read. -/
def readFrame (d : Delivery) (w : Wire) : Option (Frame × Wire) :=
  (d.readAtOnce w 7).bind fun (head, w) =>
    let size := numberAt head 3 4
    if maxFrameSize < size then none
    else
      (if 0 < size then d.readAtOnce w size else some ([], w)).bind fun (payload, w) =>
        (d.readAtOnce w 1).bind fun (last, w) =>
          if last = [frameEnd] then some (⟨head.getD 0 0, UInt16.ofNat (numberAt head 1 2), payload⟩, w) else none

/-- The frames that are handled in at most so many rounds. An error of a handler does not end
    the loop; a panic would (`contentHeader` with too large a body), and is left out here. -/
def frameLoop (d : Delivery) : Nat → Wire → List Frame
  | 0, _ => []
  | rounds + 1, w =>
    match readFrame d w with
    | none => []
    | some (frame, w) => frame :: frameLoop d rounds w

/-- The frames that are handled for a client that sends `bytes`. Each takes at least a byte. -/
def handleConnection (d : Delivery) (bytes : List UInt8) : List Frame :=
  match d.readAtOnce ⟨bytes, 0⟩ 8 with
  | none => []
  | some (header, w) => if header = protocolHeader then frameLoop d w.rest.length w else []

/-- The first frame in some bytes, and the bytes behind it. -/
def parseFrame (bytes : List UInt8) : Option (Frame × List UInt8) :=
  let size := numberAt bytes 3 4
  if size ≤ maxFrameSize ∧ 8 + size ≤ bytes.length ∧ bytes.getD (7 + size) 0 = frameEnd then
    some (⟨bytes.getD 0 0, UInt16.ofNat (numberAt bytes 1 2), (bytes.drop 7).take size⟩,
      bytes.drop (8 + size))
  else none

def parseFrames : Nat → List UInt8 → List Frame
  | 0, _ => []
  | rounds + 1, bytes =>
    match parseFrame bytes with
    | none => []
    | some (frame, rest) => frame :: parseFrames rounds rest

def streamFrames (bytes : List UInt8) : List Frame :=
  if bytes.take 8 = protocolHeader then parseFrames (bytes.length - 8) (bytes.drop 8) else []

/-- The sizes that the reads of a frame ask for. -/
def Frame.requests (frame : Frame) : List Nat :=
  if frame.payload = [] then [7, 1] else [7, frame.payload.length, 1]

/-- How many frames at the beginning of the stream are delivered in one piece for each read, and
    the protocol header before them. -/
def delivered (d : Delivery) (bytes : List UInt8) : Nat :=
  if 8 ≤ d.size 0 then d.served 1 ((streamFrames bytes).map Frame.requests) else 0

variable {bytes : List UInt8}

theorem numberAt_take (inside : pos + width ≤ n) :
    numberAt (bytes.take n) pos width = numberAt bytes pos width := by
  rw [numberAt, numberAt, List.drop_take, List.take_take, Nat.min_eq_left (by omega)]

theorem take_one_eq (there : 1 ≤ bytes.length) : bytes.take 1 = [b] ↔ bytes.getD 0 0 = b := by
  cases bytes with
  | nil => cases there
  | cons c rest => simp

/-- The end of a frame is read by itself, so that it always arrives at once. -/
theorem readEnd (d : Delivery) (rest : List UInt8) (i : Nat) (frame : Frame) :
    ((d.readAtOnce ⟨rest, i⟩ 1).bind fun (last, w) =>
      if last = [frameEnd] then some (frame, w) else none) =
      if 1 ≤ rest.length ∧ rest.getD 0 0 = frameEnd then some (frame, ⟨rest.drop 1, i + 1⟩) else none := by
  rw [d.readAtOnce_eq rest i Nat.one_pos]
  by_cases there : 1 ≤ rest.length
  · rw [if_pos ⟨there, d.positive i⟩, Option.bind_some]
    dsimp only
    by_cases last : rest.getD 0 0 = frameEnd
    · rw [if_pos ((take_one_eq there).mpr last), if_pos ⟨there, last⟩]
    · rw [if_neg (mt (take_one_eq there).mp last), if_neg fun both => last both.2]
  · rw [if_neg fun both => there both.1, Option.bind_none, if_neg fun both => there both.1]

theorem serves_requests (d : Delivery) (i : Nat) (frame : Frame) :
    d.Serves i frame.requests ↔ 7 ≤ d.size i ∧ frame.payload.length ≤ d.size (i + 1) := by
  rw [Frame.requests]
  split
  · next empty =>
      simp [Delivery.Serves, empty, Nat.one_le_iff_ne_zero, Nat.pos_iff_ne_zero.mp (d.positive _)]
  · simp [Delivery.Serves, Nat.one_le_iff_ne_zero, Nat.pos_iff_ne_zero.mp (d.positive _)]

theorem readRest (d : Delivery) (rest : List UInt8) (i size : Nat) (frameType : UInt8)
    (channelID : UInt16) :
    ((if 0 < size then d.readAtOnce ⟨rest, i⟩ size
      else some ([], ⟨rest, i⟩)).bind fun (payload, w) => (d.readAtOnce w 1).bind fun (last, w) =>
        if last = [frameEnd] then some ((⟨frameType, channelID, payload⟩ : Frame), w) else none) =
      if 1 + size ≤ rest.length ∧ rest.getD size 0 = frameEnd ∧ size ≤ d.size i then
        some (⟨frameType, channelID, rest.take size⟩, ⟨rest.drop (1 + size), if size = 0 then i + 1 else i + 2⟩)
      else none := by
  by_cases empty : size = 0
  · subst empty
    rw [if_neg (Nat.lt_irrefl 0), Option.bind_some]
    refine (readEnd d rest i _).trans ?_
    simp
  · have filled : 0 < size := Nat.pos_of_ne_zero empty
    rw [if_pos filled, d.readAtOnce_eq rest i filled]
    by_cases whole : size ≤ rest.length ∧ size ≤ d.size i
    · rw [if_pos whole, Option.bind_some]
      refine (readEnd d (rest.drop size) (i + 1) _).trans ?_
      have longer : 1 ≤ (rest.drop size).length ↔ 1 + size ≤ rest.length := by
        rw [List.length_drop]
        omega
      have last : (rest.drop size).getD 0 0 = rest.getD size 0 := by simp [List.getD_eq_getElem?_getD]
      simp only [longer, last, List.drop_drop, empty, if_false, whole.2, and_true, Nat.add_comm size 1]
    · rw [if_neg whole, Option.bind_none, if_neg]
      rintro ⟨longer, -, fits⟩
      exact whole ⟨by omega, fits⟩

theorem length_requests (frame : Frame) :
    frame.requests.length = if frame.payload.length = 0 then 2 else 3 := by
  rw [Frame.requests]
  by_cases empty : frame.payload = []
  · rw [if_pos empty, if_pos (List.length_eq_zero_iff.mpr empty)]
    rfl
  · rw [if_neg empty, if_neg (mt List.length_eq_zero_iff.mp empty)]
    rfl

/-- A round gives the next frame of the stream, if its reads give all that they ask for. -/
theorem readFrame_eq (d : Delivery) (bytes : List UInt8) (i : Nat) :
    readFrame d ⟨bytes, i⟩ = (parseFrame bytes).bind fun (frame, rest) =>
      if d.Serves i frame.requests then some (frame, ⟨rest, i + frame.requests.length⟩) else none := by
  rw [readFrame, d.readAtOnce_eq bytes i (by omega), parseFrame]
  by_cases long : 7 ≤ bytes.length
  swap
  · rw [if_neg fun both => long both.1, Option.bind_none, if_neg fun all => long (by omega),
      Option.bind_none]
  by_cases first : 7 ≤ d.size i
  swap
  · rw [if_neg fun both => first both.2, Option.bind_none]
    split
    · rw [Option.bind_some]
      exact (if_neg fun serves => first ((serves_requests ..).mp serves).1).symm
    · rfl
  have start : (bytes.take 7).getD 0 0 = bytes.getD 0 0 := by simp [List.getD_eq_getElem?_getD]
  rw [if_pos ⟨long, first⟩, Option.bind_some]
  dsimp only
  rw [numberAt_take (by omega), numberAt_take (by omega), start]
  generalize numberAt bytes 3 4 = size
  by_cases small : size ≤ maxFrameSize
  swap
  · rw [if_pos (Nat.lt_of_not_le small), if_neg fun all => small all.1, Option.bind_none]
  rw [if_neg (Nat.not_lt.mpr small)]
  refine (readRest d (bytes.drop 7) (i + 1) size _ _).trans ?_
  have longer : 1 + size ≤ (bytes.drop 7).length ↔ 8 + size ≤ bytes.length := by
    rw [List.length_drop]
    omega
  have last : (bytes.drop 7).getD size 0 = bytes.getD (7 + size) 0 := by
    simp [List.getD_eq_getElem?_getD]
  simp only [longer, last, small, true_and]
  by_cases whole : 8 + size ≤ bytes.length ∧ bytes.getD (7 + size) 0 = frameEnd
  swap
  · rw [if_neg fun all => whole ⟨all.1, all.2.1⟩, if_neg whole, Option.bind_none]
  have payload : ((bytes.drop 7).take size).length = size := by
    rw [List.length_take, List.length_drop]
    omega
  rw [if_pos whole, Option.bind_some]
  simp only [serves_requests, length_requests, payload, whole, first, true_and, List.drop_drop]
  have behind : 7 + (1 + size) = 8 + size := by omega
  have reads : (if size = 0 then i + 1 + 1 else i + 1 + 2) = i + if size = 0 then 2 else 3 := by
    split <;> omega
  rw [behind, reads]

theorem frameLoop_eq (d : Delivery) (rounds : Nat) (bytes : List UInt8) (i : Nat) :
    frameLoop d rounds ⟨bytes, i⟩ =
      (parseFrames rounds bytes).take
      (d.served i ((parseFrames rounds bytes).map Frame.requests)) := by
  induction rounds generalizing bytes i with
  | zero => rfl
  | succ rounds ih =>
    rw [frameLoop, readFrame_eq, parseFrames]
    cases parseFrame bytes with
    | none => rfl
    | some result =>
      obtain ⟨frame, rest⟩ := result
      rw [Option.bind_some]
      dsimp only
      rw [List.map_cons, Delivery.served]
      by_cases serves : d.Serves i frame.requests
      · rw [if_pos serves, if_pos serves, List.take_succ_cons]
        dsimp only
        rw [ih]
      · rw [if_neg serves, if_neg serves, List.take_zero]

theorem delivered_le (d : Delivery) (bytes : List UInt8) :
    delivered d bytes ≤ (streamFrames bytes).length := by
  rw [delivered]
  split
  · exact Nat.le_trans (d.served_le _ _) (by rw [List.length_map])
  · exact Nat.zero_le _

theorem handleConnection_eq (d : Delivery) (bytes : List UInt8) :
    handleConnection d bytes = (streamFrames bytes).take (delivered d bytes) := by
  rw [handleConnection, d.readAtOnce_eq bytes 0 (by omega), delivered]
  by_cases header : bytes.take 8 = protocolHeader
  · have long : 8 ≤ bytes.length := by
      have length := congrArg List.length header
      rw [List.length_take] at length
      have eight : protocolHeader.length = 8 := rfl
      omega
    by_cases first : 8 ≤ d.size 0
    · rw [if_pos ⟨long, first⟩, if_pos first]
      dsimp only
      rw [if_pos header, streamFrames, if_pos header, frameLoop_eq, List.length_drop]
    · rw [if_neg fun both => first both.2, if_neg first, List.take_zero]
  · have nothing : streamFrames bytes = [] := if_neg header
    rw [nothing, List.take_nil]
    split
    · rfl
    · next some_ =>
        obtain ⟨-, same⟩ | ⟨-, none⟩ := ite_eq_iff.mp some_
        · obtain ⟨rfl, -⟩ := Prod.mk.inj (Option.some.inj same)
          rw [if_neg header]
        · cases none

/-- Two deliveries of a stream have the same frames handled exactly if they deliver equally many
    frames at its beginning in one piece for each read. -/
theorem same_frames_iff (d₁ d₂ : Delivery) (bytes : List UInt8) :
    handleConnection d₁ bytes = handleConnection d₂ bytes ↔
      delivered d₁ bytes = delivered d₂ bytes := by
  rw [handleConnection_eq, handleConnection_eq]
  constructor
  · intro same
    have lengths := congrArg List.length same
    rwa [List.length_take, List.length_take, Nat.min_eq_left (delivered_le d₁ bytes),
      Nat.min_eq_left (delivered_le d₂ bytes)] at lengths
  · intro same
    rw [same]

/-- Four bytes at a time, after a protocol header that comes whole. -/
def fourBytes : Delivery where
  size i := if i = 0 then 8 else 4
  positive i := by split <;> omega

def wholeReads : Delivery where
  size _ := 8 + maxFrameSize
  positive _ := by decide

/-- A heartbeat whose head comes in two pieces is not handled. -/
theorem split_head_is_dropped :
    handleConnection wholeReads (protocolHeader ++ sendAMQPFrame ⟨frameHeartbeat, 0, []⟩) =
      [⟨frameHeartbeat, 0, []⟩] ∧
    handleConnection fourBytes (protocolHeader ++ sendAMQPFrame ⟨frameHeartbeat, 0, []⟩) = [] :=
  ⟨by decide +kernel, by decide +kernel⟩

end Portask.Amqp
