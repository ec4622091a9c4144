import Mathlib.Algebra.Ring.Nat
import Mathlib.Data.Nat.Notation
import Mathlib.Tactic.TypeStar

/-! # Bytes on the wire

Numbers of a fixed width are sent with the most significant byte first. A codec has an encoder
and an exact decoder that gives back what follows, with the law that decoding undoes encoding;
codecs are put together from those of their parts. A program that reads without looking at
errors follows a codec if it agrees with the decoder wherever that succeeds.
-/

namespace Portask.Lib

/-- The low `width` bytes of a number. -/
def bigEndian : (width v : Nat) → List UInt8
  | 0, _ => []
  | n + 1, v => UInt8.ofNat (v / 256 ^ n) :: bigEndian n v

def ofBigEndian : List UInt8 → Nat
  | [] => 0
  | b :: rest => b.toNat * 256 ^ rest.length + ofBigEndian rest

@[simp] theorem length_bigEndian (width v : Nat) : (bigEndian width v).length = width := by
  induction width with
  | zero => rfl
  | succ n ih => rw [bigEndian, List.length_cons, ih]

theorem ofBigEndian_bigEndian (width v : Nat) :
    ofBigEndian (bigEndian width v) = v % 256 ^ width := by
  induction width with
  | zero => rw [bigEndian, ofBigEndian, Nat.pow_zero, Nat.mod_one]
  | succ n ih =>
    have digit : (UInt8.ofNat (v / 256 ^ n)).toNat = v / 256 ^ n % 256 := UInt8.toNat_ofNat'
    rw [bigEndian, ofBigEndian, length_bigEndian, ih, digit, Nat.mod_pow_succ,
      Nat.add_comm, Nat.mul_comm]

theorem ofBigEndian_lt (bs : List UInt8) : ofBigEndian bs < 256 ^ bs.length := by
  induction bs with
  | nil => exact Nat.one_pos
  | cons b rest ih =>
    have digit : b.toNat + 1 ≤ 256 := b.toNat_lt
    calc ofBigEndian (b :: rest) < b.toNat * 256 ^ rest.length + 256 ^ rest.length :=
      Nat.add_lt_add_left ih _
      _ = (b.toNat + 1) * 256 ^ rest.length := (Nat.succ_mul _ _).symm
      _ ≤ 256 * 256 ^ rest.length := Nat.mul_le_mul_right _ digit
      _ = 256 ^ (rest.length + 1) := (Nat.pow_succ').symm

/-- What is above the low `width` bytes does not matter to them. -/
theorem bigEndian_add_mul (width v k : Nat) :
    bigEndian width (v + k * 256 ^ width) = bigEndian width v := by
  induction width generalizing k with
  | zero => rfl
  | succ n ih =>
    have shifted : k * 256 ^ (n + 1) = k * 256 * 256 ^ n := by rw [Nat.pow_succ', Nat.mul_assoc]
    have digit : UInt8.ofNat (v / 256 ^ n + k * 256) = UInt8.ofNat (v / 256 ^ n) := by
      apply UInt8.toNat_inj.mp
      rw [UInt8.toNat_ofNat', UInt8.toNat_ofNat', Nat.add_mul_mod_self_right]
    rw [bigEndian, bigEndian, shifted, ih,
      Nat.add_mul_div_right _ _ (Nat.pow_pos (by decide)), digit]

theorem bigEndian_ofBigEndian (bs : List UInt8) : bigEndian bs.length (ofBigEndian bs) = bs := by
  induction bs with
  | nil => rfl
  | cons b rest ih =>
    have first : (b.toNat * 256 ^ rest.length + ofBigEndian rest) / 256 ^ rest.length = b.toNat := by
      rw [Nat.add_comm, Nat.add_mul_div_right _ _ (Nat.pow_pos (by decide)),
        Nat.div_eq_of_lt (ofBigEndian_lt rest), Nat.zero_add]
    rw [List.length_cons, ofBigEndian, bigEndian, first, Nat.add_comm, bigEndian_add_mul, ih,
      UInt8.ofNat_toNat]

/-- The low `width` bytes of a number, the least significant first. -/
def littleEndian (width v : Nat) : List UInt8 := (bigEndian width v).reverse

def ofLittleEndian (bs : List UInt8) : Nat := ofBigEndian bs.reverse

@[simp] theorem length_littleEndian (width v : Nat) : (littleEndian width v).length = width := by
  rw [littleEndian, List.length_reverse, length_bigEndian]

theorem ofLittleEndian_littleEndian (width v : Nat) :
    ofLittleEndian (littleEndian width v) = v % 256 ^ width := by
  rw [ofLittleEndian, littleEndian, List.reverse_reverse, ofBigEndian_bigEndian]

theorem ofLittleEndian_lt (bs : List UInt8) : ofLittleEndian bs < 256 ^ bs.length := by
  rw [ofLittleEndian, ← bs.length_reverse]
  exact ofBigEndian_lt bs.reverse

theorem littleEndian_ofLittleEndian (bs : List UInt8) :
    littleEndian bs.length (ofLittleEndian bs) = bs := by
  rw [littleEndian, ofLittleEndian, ← bs.length_reverse, bigEndian_ofBigEndian,
    List.reverse_reverse]

/-- A type of numbers that take a fixed number of bytes. -/
structure Fixed (α : Type*) where
  width : Nat
  toNat : α → Nat
  ofNat : Nat → α
  ofNat_toNat : ∀ a, ofNat (toNat a % 256 ^ width) = a

namespace Fixed

variable {α : Type*} (w : Fixed α)

def encode (a : α) : List UInt8 := bigEndian w.width (w.toNat a)

def decode (bs : List UInt8) : Option (α × List UInt8) :=
  if w.width ≤ bs.length then some (w.ofNat (ofBigEndian (bs.take w.width)), bs.drop w.width)
  else none

@[simp] theorem length_encode (a : α) : (w.encode a).length = w.width := length_bigEndian _ _

theorem decode_encode (a : α) (rest : List UInt8) :
    w.decode (w.encode a ++ rest) = some (a, rest) := by
  have enough : w.width ≤ (w.encode a ++ rest).length := by simp
  rw [decode, if_pos enough, List.take_left' (w.length_encode a),
    List.drop_left' (w.length_encode a), encode, ofBigEndian_bigEndian, w.ofNat_toNat]

end Fixed

variable {n : Nat}

theorem ofNat_toNat_mod (x : BitVec n) : BitVec.ofNat n (x.toNat % 2 ^ n) = x := by
  rw [Nat.mod_eq_of_lt x.isLt, BitVec.ofNat_toNat, BitVec.setWidth_eq]

def int8 : Fixed Int8 where
  width := 1
  toNat a := a.toBitVec.toNat
  ofNat := Int8.ofNat
  ofNat_toNat a := Int8.toBitVec_inj.mp (ofNat_toNat_mod a.toBitVec)

def int16 : Fixed Int16 where
  width := 2
  toNat a := a.toBitVec.toNat
  ofNat := Int16.ofNat
  ofNat_toNat a := Int16.toBitVec_inj.mp (ofNat_toNat_mod a.toBitVec)

def int32 : Fixed Int32 where
  width := 4
  toNat a := a.toBitVec.toNat
  ofNat := Int32.ofNat
  ofNat_toNat a := Int32.toBitVec_inj.mp (ofNat_toNat_mod a.toBitVec)

def int64 : Fixed Int64 where
  width := 8
  toNat a := a.toBitVec.toNat
  ofNat := Int64.ofNat
  ofNat_toNat a := Int64.toBitVec_inj.mp (ofNat_toNat_mod a.toBitVec)

def uint32 : Fixed UInt32 where
  width := 4
  toNat a := a.toNat
  ofNat := UInt32.ofNat
  ofNat_toNat a := by simp

/-- Numbers that count what follows them. A negative one says that there is nothing, not even an
    empty value. -/
structure Length (α : Type*) extends Fixed α where
  toInt : α → Int
  limit : Nat
  toInt_ofNat : ∀ n, n < limit → toInt (ofNat n) = n
  null : α
  null_neg : toInt null < 0

def length16 : Length Int16 where
  toFixed := int16
  toInt := Int16.toInt
  limit := 2 ^ 15
  toInt_ofNat _ small := Int16.toInt_ofNat_of_lt small
  null := -1
  null_neg := by decide

def length32 : Length Int32 where
  toFixed := int32
  toInt := Int32.toInt
  limit := 2 ^ 31
  toInt_ofNat _ small := Int32.toInt_ofNat_of_lt small
  null := -1
  null_neg := by decide

@[simp] theorem limit_length16 : length16.limit = 2 ^ 15 := rfl

@[simp] theorem limit_length32 : length32.limit = 2 ^ 31 := rfl

/-- What is decoded and what follows it. -/
abbrev Decoder (α : Type*) := List UInt8 → Option (α × List UInt8)

def takeBytes (n : Nat) : Decoder (List UInt8) := fun bs =>
  if n ≤ bs.length then some (bs.take n, bs.drop n) else none

theorem takeBytes_append (size : front.length = n) (rest : List UInt8) :
    takeBytes n (front ++ rest) = some (front, rest) := by
  subst size
  simp [takeBytes]

section

variable {α β : Type*}

def decodeMany (d : Decoder α) : Nat → Decoder (List α)
  | 0, bs => some ([], bs)
  | n + 1, bs =>
    (d bs).bind fun first => (decodeMany d n first.2).map fun later => (first.1 :: later.1, later.2)

/-- Decodes until nothing is left, at most `fuel` times. -/
def decodeAll (d : Decoder α) : (fuel : Nat) → List UInt8 → Option (List α)
  | _, [] => some []
  | 0, _ :: _ => none
  | fuel + 1, b :: bs =>
    (d (b :: bs)).bind fun first => (decodeAll d fuel first.2).map (first.1 :: ·)

end

structure Codec (α : Type*) where
  Valid : α → Prop
  encode : α → List UInt8
  decode : Decoder α
  decode_encode : ∀ {a}, Valid a → ∀ rest, decode (encode a ++ rest) = some (a, rest)

namespace Codec

variable {α β : Type*}

theorem decode_whole (c : Codec α) (valid : c.Valid a) : c.decode (c.encode a) = some (a, []) := by
  simpa using c.decode_encode valid []

def fixed (w : Fixed α) : Codec α where
  Valid _ := True
  encode := w.encode
  decode := w.decode
  decode_encode _ rest := w.decode_encode _ rest

def pair (c : Codec α) (d : Codec β) : Codec (α × β) where
  Valid p := c.Valid p.1 ∧ d.Valid p.2
  encode p := c.encode p.1 ++ d.encode p.2
  decode bs := (c.decode bs).bind fun first =>
    (d.decode first.2).map fun second => ((first.1, second.1), second.2)
  decode_encode valid rest := by
    rw [List.append_assoc, c.decode_encode valid.1, Option.bind_some, d.decode_encode valid.2,
      Option.map_some]

/-- Another way to write down the values. -/
def iso (c : Codec α) (pack : α → β) (unpack : β → α)
    (inverse : ∀ b, pack (unpack b) = b) : Codec β where
  Valid b := c.Valid (unpack b)
  encode b := c.encode (unpack b)
  decode bs := (c.decode bs).map fun first => (pack first.1, first.2)
  decode_encode valid rest := by rw [c.decode_encode valid, Option.map_some, inverse]

/-- Bytes behind their number, or nothing. -/
def block (w : Length β) : Codec (Option (List UInt8)) where
  Valid b := ∀ l ∈ b, l.length < w.limit
  encode
    | none => w.encode w.null
    | some l => w.encode (w.ofNat l.length) ++ l
  decode bs := (w.decode bs).bind fun number =>
    if w.toInt number.1 < 0 then some (none, number.2)
    else (takeBytes (w.toInt number.1).toNat number.2).map fun content =>
      (some content.1, content.2)
  decode_encode := by
    intro b valid rest
    cases b with
    | none =>
      dsimp only
      rw [w.decode_encode, Option.bind_some, if_pos w.null_neg]
    | some l =>
      have number := w.toInt_ofNat l.length (valid l rfl)
      dsimp only
      rw [List.append_assoc, w.decode_encode, Option.bind_some, number, if_neg (by omega),
        Int.toNat_natCast, takeBytes_append rfl, Option.map_some]

/-- Bytes behind their number, where nothing is read as no bytes. -/
def text (w : Length β) : Codec (List UInt8) := (block w).iso (·.getD []) some fun _ => rfl

variable {items : List α} {w : Length β} {c : Codec α}

theorem decodeMany_encode (c : Codec α) (valid : ∀ a ∈ items, c.Valid a) (rest : List UInt8) :
    decodeMany c.decode items.length (items.flatMap c.encode ++ rest) = some (items, rest) := by
  induction items with
  | nil => rfl
  | cons a others ih =>
    have first : c.Valid a := valid a List.mem_cons_self
    have later := ih fun b inside => valid b (List.mem_cons_of_mem _ inside)
    rw [List.length_cons, decodeMany, List.flatMap_cons, List.append_assoc, c.decode_encode first,
      Option.bind_some, later, Option.map_some]

theorem decodeAll_encode (c : Codec α) (filled : ∀ a, c.encode a ≠ [])
    (valid : ∀ a ∈ items, c.Valid a) {fuel} (enough : (items.flatMap c.encode).length ≤ fuel) :
    decodeAll c.decode fuel (items.flatMap c.encode) = some items := by
  induction items generalizing fuel with
  | nil =>
    cases fuel with
    | zero | succ => rfl
  | cons a others ih =>
    have first := c.decode_encode (valid a List.mem_cons_self) (others.flatMap c.encode)
    have later (fuel : Nat) := @ih (fun b inside => valid b (List.mem_cons_of_mem _ inside)) fuel
    rw [List.flatMap_cons] at enough ⊢
    rw [List.length_append] at enough
    have some : 0 < (c.encode a).length := List.length_pos_iff.mpr (filled a)
    cases fuel with
    | zero => omega
    | succ fuel =>
      cases bytes : c.encode a ++ others.flatMap c.encode with
      | nil => exact absurd (List.append_eq_nil_iff.mp bytes).1 (filled a)
      | cons b bs =>
        rw [decodeAll, ← bytes, first, Option.bind_some, later fuel (by omega), Option.map_some]

def counted (w : Length β) (c : Codec α) : Codec (List α) where
  Valid items := items.length < w.limit ∧ ∀ a ∈ items, c.Valid a
  encode items := w.encode (w.ofNat items.length) ++ items.flatMap c.encode
  decode bs := (w.decode bs).bind fun number =>
    decodeMany c.decode (w.toInt number.1).toNat number.2
  decode_encode := by
    intro items valid rest
    rw [List.append_assoc, w.decode_encode, Option.bind_some, w.toInt_ofNat _ valid.1,
      Int.toNat_natCast]
    exact c.decodeMany_encode valid.2 rest

/-- Values behind the number of bytes they take together. -/
def packed (w : Length β) (c : Codec α) (filled : ∀ a, c.encode a ≠ []) : Codec (List α) where
  Valid items := (items.flatMap c.encode).length < w.limit ∧ ∀ a ∈ items, c.Valid a
  encode items := w.encode (w.ofNat (items.flatMap c.encode).length) ++ items.flatMap c.encode
  decode bs := (w.decode bs).bind fun number =>
    (takeBytes (w.toInt number.1).toNat number.2).bind fun inner =>
    (decodeAll c.decode inner.1.length inner.1).map fun items => (items, inner.2)
  decode_encode := by
    intro items valid rest
    rw [List.append_assoc, w.decode_encode, Option.bind_some, w.toInt_ofNat _ valid.1,
      Int.toNat_natCast,
      takeBytes_append rfl, Option.bind_some, c.decodeAll_encode filled valid.2 (Nat.le_refl _),
        Option.map_some]

@[simp] theorem encode_fixed (w : Fixed α) (a : α) : (fixed w).encode a = w.encode a := rfl

@[simp] theorem encode_pair (c : Codec α) (d : Codec β) (p : α × β) :
    (pair c d).encode p = c.encode p.1 ++ d.encode p.2 := rfl

@[simp] theorem encode_iso (c : Codec α) (pack : α → β) (unpack : β → α)
    (inverse : ∀ b, pack (unpack b) = b) (b : β) :
    (c.iso pack unpack inverse).encode b = c.encode (unpack b) := rfl

@[simp] theorem encode_packed (w : Length β) (c : Codec α) (filled : ∀ a, c.encode a ≠ [])
    (items : List α) :
    (packed w c filled).encode items = w.encode (w.ofNat (items.flatMap c.encode).length) ++
      items.flatMap c.encode := rfl

@[simp] theorem encode_text (w : Length β) (l : List UInt8) :
    (text w).encode l = w.encode (w.ofNat l.length) ++ l := rfl

@[simp] theorem encode_counted (w : Length β) (c : Codec α) (items : List α) :
    (counted w c).encode items = w.encode (w.ofNat items.length) ++ items.flatMap c.encode := rfl

@[simp] theorem valid_fixed (w : Fixed α) (a : α) : (fixed w).Valid a := trivial

@[simp] theorem valid_pair {p : α × β} : (pair c d).Valid p ↔ c.Valid p.1 ∧ d.Valid p.2 := .rfl

@[simp] theorem valid_iso {b : β} : (c.iso pack unpack inverse).Valid b ↔ c.Valid (unpack b) := .rfl

@[simp] theorem valid_block : (block w).Valid b ↔ ∀ l ∈ b, l.length < w.limit := .rfl

@[simp] theorem valid_text {l : List UInt8} : (text w).Valid l ↔
    l.length < w.limit := by simp [text]

@[simp] theorem valid_counted :
    (counted w c).Valid items ↔ items.length < w.limit ∧ ∀ a ∈ items, c.Valid a := .rfl

end Codec

abbrev Reader (α : Type*) := List UInt8 → α × List UInt8

/-- A number that is cut short leaves the variable as it was, and takes what there is. -/
def Fixed.read {α : Type*} (w : Fixed α) (initial : α) : Reader α :=
  fun bs => (w.decode bs).getD (initial, [])

/-- A buffer of `n` zeros after `bs` has been read into it. -/
def padded (n : Nat) (bs : List UInt8) : List UInt8 := bs.take n ++ List.replicate (n - bs.length) 0

def fill (n : Nat) : Reader (List UInt8) := fun bs => (padded n bs, bs.drop n)

/-- Bytes behind their number. Bytes that are cut short are filled up with zeros, but nothing is
    returned if there are none at all, not even for the number zero. -/
def readBlock {α : Type*} (w : Length α) : Reader (Option (List UInt8)) := fun bs =>
  match w.decode bs with
  | none => (none, [])
  | some (n, rest) =>
    if w.toInt n < 0 then (none, rest)
    else if rest = [] then (none, [])
    else (some (padded (w.toInt n).toNat rest), rest.drop (w.toInt n).toNat)

def readText {α : Type*} (w : Length α) : Reader (List UInt8) := fun bs =>
  ((readBlock w bs).1.getD [], (readBlock w bs).2)

/-- The reader agrees with the decoder wherever that succeeds. -/
def Follows {α : Type*} (r : Reader α) (d : Decoder α) : Prop :=
  ∀ bs a rest, d bs = some (a, rest) → r bs = (a, rest)

variable {α : Type*}

theorem Fixed.read_follows (w : Fixed α) (initial : α) : Follows (w.read initial) w.decode := by
  intro bs a rest decoded
  rw [Fixed.read, decoded, Option.getD_some]

@[simp] theorem Fixed.read_encode (w : Fixed α) (initial a : α) (rest : List UInt8) :
    w.read initial (w.encode a ++ rest) = (a, rest) :=
      w.read_follows initial _ _ _ (w.decode_encode a rest)

theorem padded_of_le (enough : n ≤ bs.length) : padded n bs = bs.take n := by
  rw [padded, Nat.sub_eq_zero_of_le enough, List.replicate_zero, List.append_nil]

theorem fill_append (size : front.length = n) (rest : List UInt8) :
    fill n (front ++ rest) = (front, rest) := by
  rw [fill, padded_of_le (by simp [size]), List.take_left' size, List.drop_left' size]

theorem readText_follows (w : Length α) : Follows (readText w) (Codec.text w).decode := by
  intro bs l rest decoded
  simp only [Codec.text, Codec.iso, Codec.block, Option.map_eq_some_iff,
    Option.bind_eq_some_iff, Prod.exists, Prod.mk.injEq] at decoded
  obtain ⟨b, after, ⟨n, mid, number, content⟩, rfl, rfl⟩ := decoded
  simp only [readText, readBlock, number]
  split at content
  · next negative =>
      obtain ⟨rfl, rfl⟩ : none = b ∧ mid = after := by simpa using content
      rw [if_pos negative]
  · next present =>
      rw [if_neg present]
      obtain ⟨l, rest, taken, rfl, rfl⟩ :
        ∃ l rest, takeBytes (w.toInt n).toNat mid = some (l, rest) ∧ some l = b ∧
          rest = after := by simpa using content
      rw [takeBytes] at taken
      split at taken
      · next enough =>
          obtain ⟨rfl, rfl⟩ : mid.take (w.toInt n).toNat = l ∧ mid.drop (w.toInt n).toNat = rest := by simpa using taken
          split
          · next none =>
              subst none
              simp
          · rw [padded_of_le enough]
      · simp at taken

theorem fill_follows (n : Nat) : Follows (fill n) (takeBytes n) := by
  intro bs l rest taken
  rw [takeBytes] at taken
  split at taken
  · next enough =>
      obtain ⟨rfl, rfl⟩ := Prod.mk.inj (Option.some.inj taken)
      rw [fill, padded_of_le enough]
  · cases taken

def Reader.pair {α β : Type*} (r : Reader α) (r' : Reader β) : Reader (α × β) := fun bs =>
  (((r bs).1, (r' (r bs).2).1), (r' (r bs).2).2)

theorem Follows.pair {c : Codec α} {d : Codec β} (first : Follows r c.decode)
    (second : Follows r' d.decode) : Follows (r.pair r') (Codec.pair c d).decode := by
  intro bs p rest decoded
  simp only [Codec.pair, Option.bind_eq_some_iff, Option.map_eq_some_iff, Prod.exists,
    Prod.mk.injEq] at decoded
  obtain ⟨a, mid, one, b, after, two, rfl, rfl⟩ := decoded
  simp only [Reader.pair, first bs a mid one, second mid b after two]

/-- A value that is not there is read as no bytes. -/
theorem readText_block (w : Length α) (valid : (Codec.block w).Valid b) (rest : List UInt8) :
    readText w ((Codec.block w).encode b ++ rest) = (b.getD [], rest) := by
  refine readText_follows w _ _ _ ?_
  show ((Codec.block w).decode ((Codec.block w).encode b ++ rest)).map _ = _
  rw [(Codec.block w).decode_encode valid, Option.map_some]

theorem readText_encode (w : Length α) (valid : (Codec.text w).Valid l) (rest : List UInt8) :
    readText w ((Codec.text w).encode l ++ rest) = (l, rest) := readText_block w valid rest

end Portask.Lib
