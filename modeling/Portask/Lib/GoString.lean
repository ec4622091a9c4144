import Mathlib.Algebra.Ring.Nat
import Mathlib.Data.Nat.Notation

/-! # Strings as bytes, read by runes

A string is any sequence of bytes. Ranging over one decodes UTF-8; a byte that starts no
valid encoding counts as the replacement rune and is skipped alone.
-/

namespace Portask.Lib

abbrev GoString := List UInt8

namespace GoString

instance : LawfulBEq GoString := inferInstanceAs (LawfulBEq (List UInt8))

def runeError : Nat := 0xFFFD

def continues (low high b : UInt8) : Bool := low ≤ b && b ≤ high

/-- The six payload bits of a continuation byte. -/
def bits (b : UInt8) : Nat := b.toNat % 64

/-- The bounds on the second byte that exclude overlong forms, surrogates and values past
    the last code point. -/
def secondBounds (b : UInt8) : UInt8 × UInt8 :=
  if b = 0xE0 then (0xA0, 0xBF)
  else if b = 0xED then (0x80, 0x9F)
  else if b = 0xF0 then (0x90, 0xBF)
  else if b = 0xF4 then (0x80, 0x8F)
  else (0x80, 0xBF)

/-- The rune that starts with `b`, and how many bytes of `rest` belong to it. -/
def decodeRune (b : UInt8) (rest : GoString) : Nat × Nat :=
  let (low, high) := secondBounds b
  if b < 0x80 then (b.toNat, 0)
  else if 0xC2 ≤ b ∧ b ≤ 0xDF then
    match rest with
    | b₁ :: _ => if continues low high b₁ then (b.toNat % 32 * 64 + bits b₁, 1) else (runeError, 0)
    | _ => (runeError, 0)
  else if 0xE0 ≤ b ∧ b ≤ 0xEF then
    match rest with
    | b₁ :: b₂ :: _ =>
      if continues low high b₁ && continues 0x80 0xBF b₂ then
        ((b.toNat % 16 * 64 + bits b₁) * 64 + bits b₂, 2)
      else (runeError, 0)
    | _ => (runeError, 0)
  else if 0xF0 ≤ b ∧ b ≤ 0xF4 then
    match rest with
    | b₁ :: b₂ :: b₃ :: _ =>
      if continues low high b₁ && continues 0x80 0xBF b₂ && continues 0x80 0xBF b₃ then
        (((b.toNat % 8 * 64 + bits b₁) * 64 + bits b₂) * 64 + bits b₃, 3)
      else (runeError, 0)
    | _ => (runeError, 0)
  else (runeError, 0)

/-- The runes after the first `skip` bytes, which belong to a rune already read. -/
def runesFrom : (skip : Nat) → GoString → List Nat
  | _, [] => []
  | skip + 1, _ :: rest => runesFrom skip rest
  | 0, b :: rest => (decodeRune b rest).1 :: runesFrom (decodeRune b rest).2 rest

/-- The runes of `for _, c := range s`. -/
def runes (s : GoString) : List Nat := runesFrom 0 s

/-- The bytes of the decimal numeral of `n`. -/
def decimal (n : Nat) : GoString := (Nat.toDigits 10 n).map (fun c => UInt8.ofNat c.toNat)

/-- The bytes of the numeral of `n` to base 16. -/
def hexadecimal (n : Nat) : GoString := (Nat.toDigits 16 n).map (fun c => UInt8.ofNat c.toNat)

/-- The bytes of a text of ASCII characters. -/
def ofAscii (s : String) : GoString := s.toList.map (fun c => UInt8.ofNat c.toNat)

/-- `strconv.Itoa` -/
def itoa (n : Int) : GoString := (if n < 0 then ofAscii "-" else []) ++ decimal n.natAbs

/-- The numeral of `n`, filled up with zeros from the left. -/
def padded (width n : Nat) : GoString :=
  List.replicate (width - (decimal n).length) 0x30 ++ decimal n

def isDigit (b : UInt8) : Bool := 0x30 ≤ b && b ≤ 0x39

/-- The number that decimal digits stand for. -/
def ofDecimal (digits : GoString) : Nat :=
  Nat.ofDigitChars 10 (digits.map fun b => Char.ofNat b.toNat) 0

theorem digit_of_mem_toDigits (inside : c ∈ Nat.toDigits 10 n) : 48 ≤ c.toNat ∧ c.toNat ≤ 57 := by
  have digit := Nat.isDigit_of_mem_toDigits (by decide) (by decide) inside
  simp only [Char.isDigit, Bool.and_eq_true, decide_eq_true_eq, ge_iff_le,
    UInt32.le_iff_toNat_le] at digit
  exact digit

theorem toNat_digit (inside : c ∈ Nat.toDigits 10 n) : (UInt8.ofNat c.toNat).toNat = c.toNat := by
  have := digit_of_mem_toDigits inside
  rw [UInt8.toNat_ofNat']
  omega

theorem map_decimal (n : Nat) :
    (decimal n).map (fun b => Char.ofNat b.toNat) = Nat.toDigits 10 n := by
  rw [decimal, List.map_map]
  refine (List.map_congr_left fun c inside => ?_).trans (List.map_id _)
  rw [Function.comp_apply, toNat_digit inside, Char.ofNat_toNat, id]

theorem isDigit_of_mem_decimal (inside : b ∈ decimal n) : isDigit b = true := by
  obtain ⟨c, digit, rfl⟩ := List.mem_map.mp inside
  have bounds := digit_of_mem_toDigits digit
  rw [isDigit, Bool.and_eq_true, decide_eq_true_eq, decide_eq_true_eq, UInt8.le_iff_toNat_le,
    UInt8.le_iff_toNat_le, toNat_digit digit]
  exact bounds

theorem isDigit_of_mem_padded (inside : b ∈ padded width n) : isDigit b = true := by
  obtain zero | digit := List.mem_append.mp inside
  · rw [List.eq_of_mem_replicate zero]
    rfl
  · exact isDigit_of_mem_decimal digit

theorem ofDecimal_padded (width n : Nat) : ofDecimal (padded width n) = n := by
  rw [ofDecimal, padded, List.map_append, List.map_replicate, map_decimal, Nat.ofDigitChars_append]
  show Nat.ofDigitChars 10 _ (Nat.ofDigitChars 10 (List.replicate _ '0') 0) = n
  rw [Nat.ofDigitChars_replicate_zero, Nat.mul_zero]
  exact Nat.ofDigitChars_toDigits (by decide) (by decide)

theorem length_padded (positive : 0 < width) (small : n < 10 ^ width) :
    (padded width n).length = width := by
  have digits : (decimal n).length ≤ width := by
    rw [decimal, List.length_map]
    exact (Nat.length_toDigits_le_iff (by decide) positive).mpr small
  rw [padded, List.length_append, List.length_replicate]
  omega

theorem decimal_injective : Function.Injective decimal := by
  intro m n same
  have chars : Nat.toDigits 10 m = Nat.toDigits 10 n := by rw [← map_decimal m, same, map_decimal n]
  rw [← Nat.ofDigitChars_toDigits (b := 10) (n := m) (by decide) (by decide), chars,
    Nat.ofDigitChars_toDigits (by decide) (by decide)]

/-- Bytes below 128 are their own runes. -/
theorem runes_ascii (ascii : ∀ b ∈ s, b < 0x80) : runes s = s.map UInt8.toNat := by
  unfold runes
  induction s with
  | nil => rfl
  | cons b rest ih =>
    have small := ascii b List.mem_cons_self
    have decoded : decodeRune b rest = (b.toNat, 0) := by simp [decodeRune, small]
    simp only [runesFrom, decoded, List.map_cons]
    rw [ih (fun b' inside => ascii b' (List.mem_cons_of_mem _ inside))]

example : runes [0x61, 0xC3, 0xA9, 0xE2, 0x82, 0xAC, 0xFF, 0xF0, 0x9F, 0x9A, 0x80] =
    [0x61, 0xE9, 0x20AC, 0xFFFD, 0x1F680] := by decide

theorem runes_decimal (n : Nat) : runes (decimal n) = (Nat.toDigits 10 n).map Char.toNat := by
  rw [runes_ascii]
  · rw [decimal, List.map_map]
    exact List.map_congr_left fun c inside => toNat_digit inside
  · intro b inside
    obtain ⟨c, digit, rfl⟩ := List.mem_map.mp inside
    have := digit_of_mem_toDigits digit
    rw [UInt8.lt_iff_toNat_lt, toNat_digit digit]
    show c.toNat < 128
    omega

end GoString

end Portask.Lib
