import Mathlib.Data.Nat.Digits.Defs
import Portask.Lib.GoString

/-! # ULIDs

Six bytes of a time in milliseconds and ten bytes of entropy, as base 32 without padding. The alphabet ascends, so
the strings are in the order of the numbers that the bytes make.
-/

namespace Portask.Types.Ulid

open Lib

/-- The bytes as one number, the first byte being the most significant. -/
def bigEndian (bytes : List UInt8) : Nat := Nat.ofDigits 256 (bytes.reverse.map UInt8.toNat)

def alphabet : GoString := GoString.ofAscii "0123456789ABCDEFGHJKMNPQRSTVWXYZ"

def groups : Nat → Nat → GoString
  | 0, _ => []
  | k + 1, n => alphabet.getD (n / 32 ^ k) 0 :: groups k (n % 32 ^ k)

/-- `EncodeToString` of base 32; zero bits fill the last group. -/
def encodeToString (bytes : List UInt8) : GoString :=
  let chars := (8 * bytes.length + 4) / 5
  groups chars (bigEndian bytes * 2 ^ (5 * chars - 8 * bytes.length))

def timestampBytes (ms : Int) : List UInt8 :=
  [40, 32, 24, 16, 8, 0].map fun shift : Nat => .ofInt (ms >>> shift)

def generateWithTimestamp (ms : Int) (entropy : Vector UInt8 10) : GoString :=
  encodeToString (timestampBytes ms ++ entropy.toList)

theorem length_groups (k n : Nat) : (groups k n).length = k := by
  induction k generalizing n with
  | zero => rfl
  | succ k ih => simp [groups, ih]

theorem alphabet_lt : ∀ b < 32, ∀ a < b, alphabet.getD a 0 < alphabet.getD b 0 := by decide

theorem groups_lt {k m n : Nat} (less : m < n) (fits : n < 32 ^ k) : groups k m < groups k n := by
  induction k generalizing m n with
  | zero => omega
  | succ k ih =>
    unfold groups
    have digit : n / 32 ^ k < 32 := Nat.div_lt_of_lt_mul fits
    rcases (Nat.div_le_div_right (c := 32 ^ k) less.le).lt_or_eq with higher | same
    · exact .rel (alphabet_lt _ digit _ higher)
    · -- the first groups agree, and the rest decides
      rw [same]
      refine .cons (ih ?_ (Nat.mod_lt n (by positivity)))
      have left := Nat.div_add_mod m (32 ^ k)
      have right := Nat.div_add_mod n (32 ^ k)
      rw [same] at left
      omega

theorem groups_inj {k m n : Nat} (left : m < 32 ^ k) (right : n < 32 ^ k)
    (same : groups k m = groups k n) : m = n := by
  rcases Nat.lt_trichotomy m n with lower | equal | higher
  · exact absurd (groups_lt lower right) (same ▸ List.lt_irrefl _)
  · exact equal
  · exact absurd (groups_lt higher left) (same ▸ List.lt_irrefl _)

theorem digit_lt {bytes : List UInt8} : ∀ digit ∈ bytes.reverse.map UInt8.toNat, digit < 256 := by
  intro digit inside
  obtain ⟨byte, -, rfl⟩ := List.mem_map.mp inside
  exact byte.toNat_lt

theorem bigEndian_lt (bytes : List UInt8) : bigEndian bytes < 256 ^ bytes.length := by
  simpa [bigEndian] using Nat.ofDigits_lt_base_pow_length (by decide : 1 < 256) (@digit_lt bytes)

theorem toNat_byte (n k : Nat) : (UInt8.ofInt ((n : Int) >>> k)).toNat = n / 2 ^ k % 256 := by
  have shifted : (n : Int) >>> k = ((n / 2 ^ k : Nat) : Int) := by
    rw [Int.shiftRight_eq_div_pow, Int.natCast_ediv]
  rw [shifted]
  generalize n / 2 ^ k = m
  simp [UInt8.ofInt]
  omega

theorem bigEndian_timestamp {n : Nat} (bounded : n < 2 ^ 48) :
    bigEndian (timestampBytes n) = n := by
  simp only [bigEndian, timestampBytes, List.map_cons, List.map_nil, List.reverse_cons,
    List.reverse_nil, List.nil_append,
    List.cons_append, toNat_byte, Nat.ofDigits_cons, Nat.ofDigits_nil]
  omega

theorem bigEndian_append (front rest : List UInt8) :
    bigEndian (front ++ rest) = bigEndian rest + 256 ^ rest.length * bigEndian front := by
  simp [bigEndian, Nat.ofDigits_append]

theorem bigEndian_inj {left right : List UInt8} (length : left.length = right.length)
    (same : bigEndian left = bigEndian right) : left = right := by
  have digits :=
    Nat.ofDigits_inj_of_len_eq (by decide : 1 < 256) (by simpa using length) digit_lt digit_lt same
  exact List.reverse_inj.mp ((List.map_inj_right fun _ _ => UInt8.toNat_inj.mp).mp digits)

variable (ms : Int) (entropy : Vector UInt8 10)

/-- The number that stands behind a ULID: 26 groups of five bits hold 128 bits and two zeros. -/
def number : Nat := bigEndian (timestampBytes ms ++ entropy.toList) * 4

theorem generateWithTimestamp_eq :
    generateWithTimestamp ms entropy = groups 26 (number ms entropy) := by
  simp [generateWithTimestamp, encodeToString, number, timestampBytes]

theorem number_lt : number ms entropy < 32 ^ 26 := by
  have := bigEndian_lt (timestampBytes ms ++ entropy.toList)
  simp [timestampBytes] at this
  simp [number, timestampBytes]
  omega

/-- ULIDs have 26 characters and are in the order of their times, and each is of one time and one entropy. -/
theorem ulid_order :
    (∀ ms entropy, (generateWithTimestamp ms entropy).length = 26) ∧
    ∀ (a b : Nat) (x y : Vector UInt8 10), a < 2 ^ 48 → b < 2 ^ 48 →
      (a < b → generateWithTimestamp a x < generateWithTimestamp b y) ∧
      (generateWithTimestamp a x = generateWithTimestamp b y → a = b ∧ x = y) := by
  refine ⟨fun ms entropy => by rw [generateWithTimestamp_eq, length_groups],
    fun a b x y inA inB => ?_⟩
  rw [generateWithTimestamp_eq, generateWithTimestamp_eq]
  constructor
  · intro less
    refine groups_lt ?_ (number_lt b y)
    have small := bigEndian_lt x.toList
    simp only [number, bigEndian_append, bigEndian_timestamp inA, bigEndian_timestamp inB,
      Vector.length_toList] at small ⊢
    omega
  · intro same
    have bytes := groups_inj (number_lt a x) (number_lt b y) same
    obtain ⟨time, entropy⟩ := List.append_inj (bigEndian_inj (by simp [timestampBytes])
      (Nat.eq_of_mul_eq_mul_right (by decide) bytes)) rfl
    refine ⟨?_, Vector.toList_inj.mp entropy⟩
    rw [← bigEndian_timestamp inA, time, bigEndian_timestamp inB]

end Portask.Types.Ulid
