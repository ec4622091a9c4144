import Mathlib.Data.Nat.Log
import Mathlib.Data.Nat.Bitwise

/-! # Positions in a ring whose size is a power of two

Positions only grow and are kept in 64-bit words; a slot is found by masking.
All facts are stated about the natural number a word stands for, so that a proof
about a ring never meets a wrapped word: words are compared either for equality,
which needs both numbers below `2 ^ 64`, or by their signed difference, which
needs them less than `2 ^ 63` apart and holds through any number of wraps.
-/

namespace Portask.Lib.Ring

def slot (e p : Nat) : Nat := p % 2 ^ e

theorem slot_lt (e p : Nat) : slot e p < 2 ^ e := Nat.mod_lt _ (Nat.two_pow_pos e)

/-- Two positions of one slot that are less than a turn apart are the same. -/
theorem eq_of_slot_eq (same : slot e a = slot e b) (below : a < b + 2 ^ e) (above : b < a + 2 ^ e) :
    a = b := by
  have ha := Nat.div_add_mod a (2 ^ e)
  have hb := Nat.div_add_mod b (2 ^ e)
  simp only [slot] at same
  rw [same] at ha
  have up : a / 2 ^ e < b / 2 ^ e + 1 := by
    apply Nat.lt_of_mul_lt_mul_left (a := 2 ^ e)
    rw [Nat.mul_add]
    omega
  have down : b / 2 ^ e < a / 2 ^ e + 1 := by
    apply Nat.lt_of_mul_lt_mul_left (a := 2 ^ e)
    rw [Nat.mul_add]
    omega
  have turns : a / 2 ^ e = b / 2 ^ e := by omega
  rw [turns] at ha
  exact ha.symm.trans hb

theorem slot_add_turn (e p : Nat) : slot e (p + 2 ^ e) = slot e p := by
  simp [slot]

variable {e : Nat}

theorem slot_succ_ne (two : 1 ≤ e) (p : Nat) : slot e (p + 1) ≠ slot e p := by
  intro same
  have turn : 2 ^ 1 ≤ 2 ^ e := Nat.pow_le_pow_right (by omega) two
  have := eq_of_slot_eq same (by omega) (by omega)
  omega

theorem toNat_word {p : Nat} (small : p < 2 ^ 64) : (UInt64.ofNat p).toNat = p := by
  simpa using Nat.mod_eq_of_lt small

theorem word_succ (p : Nat) : UInt64.ofNat p + 1 = UInt64.ofNat (p + 1) := by
  simp [UInt64.ofNat_add]

theorem toNat_succ {pos : UInt64} (small : pos.toNat < 2 ^ 63) :
    (pos + 1).toNat = pos.toNat + 1 := by
  rw [UInt64.toNat_add]
  exact Nat.mod_eq_of_lt (by simp; omega)

/-- Masking a position gives its slot, also after the position has wrapped. -/
theorem masked (fits : e ≤ 64) (p : Nat) :
    (UInt64.ofNat p &&& UInt64.ofNat (2 ^ e - 1)).toNat = slot e p := by
  have divides : 2 ^ e ∣ 2 ^ 64 := Nat.pow_dvd_pow 2 fits
  have bound : 2 ^ e ≤ 2 ^ 64 := Nat.pow_le_pow_right (by omega) fits
  have pos := Nat.two_pow_pos e
  rw [UInt64.toNat_and, toNat_word (p := 2 ^ e - 1) (by omega), Nat.and_two_pow_sub_one_eq_mod,
    UInt64.toNat_ofNat', slot]
  exact Nat.mod_mod_of_dvd _ divides

theorem word_add_mask (p : Nat) :
    UInt64.ofNat p + UInt64.ofNat (2 ^ e - 1) + 1 = UInt64.ofNat (p + 2 ^ e) := by
  have pos := Nat.two_pow_pos e
  rw [← UInt64.ofNat_add, word_succ]
  congr 1
  omega

theorem toNat_add_mask (fits : e ≤ 62) (ones : mask = UInt64.ofNat (2 ^ e - 1))
    (small : pos.toNat < 2 ^ 63) : (pos + mask + 1).toNat = pos.toNat + 2 ^ e := by
  have bound : 2 ^ e ≤ 2 ^ 62 := Nat.pow_le_pow_right (by omega) fits
  have word : _ = UInt64.ofNat (pos.toNat + 2 ^ e) := word_add_mask pos.toNat
  rw [UInt64.ofNat_toNat, ← ones] at word
  rw [word]
  exact toNat_word (by omega)

/-- The signed difference of two words, as `int64(a) - int64(b)`. -/
def dif (a b : UInt64) : Int64 := a.toInt64 - b.toInt64

theorem dif_toInt (a b : Nat) (above : a < b + 2 ^ 63) (below : b ≤ a + 2 ^ 63) :
    (dif (UInt64.ofNat a) (UInt64.ofNat b)).toInt = (a : Int) - b := by
  have reduce : ∀ n : Nat, (UInt64.ofNat n).toInt64.toInt = (n : Int).bmod (2 ^ 64) := by
    intro n
    simp
  rw [dif, Int64.toInt_sub, reduce, reduce, Int.sub_bmod_bmod, Int.bmod_sub_bmod]
  apply Int.bmod_eq_of_le <;> omega

theorem dif_eq_zero {a b : Nat} (above : a < b + 2 ^ 63) (below : b ≤ a + 2 ^ 63) :
    dif (UInt64.ofNat a) (UInt64.ofNat b) = 0 ↔ a = b := by
  rw [← Int64.toInt_inj, dif_toInt a b above below]
  simp only [Int64.toInt_zero]
  omega

theorem dif_neg {a b : Nat} (above : a < b + 2 ^ 63) (below : b ≤ a + 2 ^ 63) :
    dif (UInt64.ofNat a) (UInt64.ofNat b) < 0 ↔ a < b := by
  rw [Int64.lt_iff_toInt_lt, dif_toInt a b above below]
  simp only [Int64.toInt_zero]
  omega

/-- A zero difference is equality of the words themselves. -/
theorem dif_eq_zero_iff (a b : UInt64) : dif a b = 0 ↔ a = b := by
  constructor
  · intro zero
    have same : a.toInt64 = b.toInt64 := by
      simpa [dif] using congrArg (· + b.toInt64) zero
    exact congrArg Int64.toUInt64 same
  · intro same
    simp [dif, same]

/-! ## Rounding up to a power of two

Or-ing a word with itself shifted by 1, 2, 4, ... copies its highest set bit to
every lower place. `Covers w m x` says that every bit of `x` has gathered `w`
consecutive bits of `m`. -/

def Covers (w m x : Nat) : Prop := ∀ i, x.testBit i = true ↔ ∃ j < w, m.testBit (i + j) = true

theorem Covers.refl (m : Nat) : Covers 1 m m := by
  intro i
  constructor
  · intro set
    exact ⟨0, by omega, by simpa using set⟩
  · rintro ⟨j, small, set⟩
    obtain rfl : j = 0 := by omega
    simpa using set

theorem Covers.double (covers : Covers w m x) : Covers (w + w) m (x ||| x >>> w) := by
  intro i
  simp only [Nat.testBit_or, Nat.testBit_shiftRight, Bool.or_eq_true, covers i, covers (w + i)]
  constructor
  · rintro (⟨j, small, set⟩ | ⟨j, small, set⟩)
    · exact ⟨j, by omega, set⟩
    · exact ⟨w + j, by omega, by rwa [← Nat.add_assoc, Nat.add_comm i w]⟩
  · rintro ⟨j, small, set⟩
    by_cases low : j < w
    · exact .inl ⟨j, low, set⟩
    · refine .inr ⟨j - w, by omega, ?_⟩
      rwa [show w + i + (j - w) = i + j by omega]

/-- A covered number that fits the window is all ones up to its highest bit. -/
theorem Covers.eq_ones (covers : Covers w m x) (fits : m < 2 ^ w) :
    x + 1 = 2 ^ Nat.clog 2 (m + 1) := by
  have ones : x = 2 ^ Nat.clog 2 (m + 1) - 1 := by
    apply Nat.eq_of_testBit_eq
    intro i
    rw [Bool.eq_iff_iff, covers i, Nat.testBit_two_pow_sub_one, decide_eq_true_iff,
      Nat.lt_clog_iff_pow_lt (by omega)]
    constructor
    · rintro ⟨j, -, set⟩
      have := Nat.ge_two_pow_of_testBit set
      have := Nat.pow_le_pow_right (n := 2) (by omega) (Nat.le_add_right i j)
      omega
    · intro large
      obtain ⟨k, above, set⟩ := Nat.exists_ge_and_testBit_of_ge_two_pow (show m ≥ 2 ^ i by omega)
      have inside : k < w := by
        have := Nat.ge_two_pow_of_testBit set
        exact (Nat.pow_lt_pow_iff_right (by omega : 1 < 2)).mp (by omega)
      exact ⟨k - i, by omega, by rwa [show i + (k - i) = k by omega]⟩
  have pos := Nat.two_pow_pos (Nat.clog 2 (m + 1))
  omega

end Portask.Lib.Ring
