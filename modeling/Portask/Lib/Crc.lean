import Mathlib.Algebra.CharP.Two
import Mathlib.Algebra.Field.ZMod
import Mathlib.Algebra.Polynomial.Div
import Mathlib.Algebra.Polynomial.FieldDivision
import Mathlib.RingTheory.Coprime.Basic

/-! # Cyclic redundancy checks

A register of `w` bits takes a message bit by bit, the least significant bit of each byte
first. Read as a polynomial over the field of two elements, with the lowest bit of the
register for the highest power, the register is the remainder of the message modulo the
generator. Two messages of one length that differ only within `w` consecutive bits leave
different remainders, as long as the generator has a constant term.
-/

namespace Portask.Lib.Crc

open Polynomial

/-- The first bit stands for the highest power. -/
noncomputable def poly : List Bool → (ZMod 2)[X]
  | [] => 0
  | b :: bits => (if b then X ^ bits.length else 0) + poly bits

theorem poly_append (first later : List Bool) :
    poly (first ++ later) = X ^ later.length * poly first + poly later := by
  induction first with
  | nil => rw [List.nil_append, poly, mul_zero, zero_add]
  | cons b bits ih =>
    rw [List.cons_append, poly, poly, ih, List.length_append]
    split
    · rw [pow_add]
      ring
    · ring

theorem poly_map_xor (indices : List ι) (f g : ι → Bool) :
    poly (indices.map fun i => f i ^^ g i) = poly (indices.map f) + poly (indices.map g) := by
  induction indices with
  | nil => rw [List.map_nil, List.map_nil, List.map_nil, poly, add_zero]
  | cons i rest ih =>
    have head : ((if f i ^^ g i then X ^ rest.length else 0 : (ZMod 2)[X])) =
        (if f i then X ^ rest.length else 0) + if g i then X ^ rest.length else 0 := by
      cases f i <;> cases g i <;> simp [CharTwo.add_self_eq_zero]
    rw [List.map_cons, List.map_cons, List.map_cons, poly, poly, poly, ih]
    simp only [List.length_map, head]
    ring

theorem degree_poly_lt (bits : List Bool) : (poly bits).degree < bits.length := by
  induction bits with
  | nil =>
    rw [poly, degree_zero]
    exact WithBot.bot_lt_coe _
  | cons b bits ih =>
    rw [poly, List.length_cons]
    have more : (bits.length : WithBot ℕ) < (bits.length + 1 : ℕ) := by
      exact_mod_cast Nat.lt_succ_self _
    refine lt_of_le_of_lt (degree_add_le _ _) (max_lt ?_ (lt_trans ih more))
    split
    · rwa [degree_X_pow]
    · rw [degree_zero]
      exact WithBot.bot_lt_coe _

theorem coeff_poly_length (bits : List Bool) : (poly bits).coeff bits.length = 0 :=
  coeff_eq_zero_of_degree_lt (degree_poly_lt bits)

/-- Bits of one length are told apart by their polynomials. -/
theorem poly_injective :
    ∀ {first later : List Bool}, first.length = later.length → poly first = poly later →
    first = later
  | [], [], _, _ => rfl
  | b :: first, c :: later, lengths, same => by
      have length : first.length = later.length := Nat.succ.inj lengths
      have lead (b : Bool) (bits : List Bool) : (poly (b :: bits)).coeff bits.length = if b then 1 else 0 := by
        rw [poly, coeff_add, coeff_poly_length]
        split <;> simp
      have heads : b = c := by
        have coefficients : (poly (b :: first)).coeff first.length = (poly (c :: later)).coeff first.length := by rw [same]
        rw [lead, length, lead] at coefficients
        cases b <;> cases c <;> simp at coefficients ⊢
      subst heads
      rw [poly, poly, length] at same
      rw [poly_injective length (add_left_cancel same)]

section

variable {w : ℕ} (g : BitVec w)

/-- One place down. The bit that falls out decides whether the generator is added. -/
def shift (c : BitVec w) : BitVec w := if c.getLsbD 0 then (c >>> 1) ^^^ g else c >>> 1

def absorb (c : BitVec w) (b : Bool) : BitVec w :=
  shift g (c ^^^ BitVec.setWidth w (BitVec.ofBool b))

def feed (c : BitVec w) (bits : List Bool) : BitVec w := bits.foldl (absorb g) c

theorem feed_append (c : BitVec w) (first later : List Bool) :
    feed g c (first ++ later) = feed g (feed g c first) later :=
  List.foldl_append ..

noncomputable def value (c : BitVec w) : (ZMod 2)[X] := poly ((List.range w).map c.getLsbD)

noncomputable def modulus : (ZMod 2)[X] := X ^ w + value g

theorem value_xor (a b : BitVec w) : value (a ^^^ b) = value a + value b := by
  rw [value, value, value, ← poly_map_xor]
  exact congrArg poly (List.map_congr_left fun i _ => BitVec.getLsbD_xor)

theorem degree_value_lt (c : BitVec w) : (value c).degree < w := by
  have below := degree_poly_lt ((List.range w).map c.getLsbD)
  rwa [List.length_map, List.length_range] at below

theorem monic_modulus : (modulus g).Monic := monic_X_pow_add (degree_value_lt g)

theorem degree_modulus : (modulus g).degree = w := by
  rw [modulus, degree_add_eq_left_of_degree_lt, degree_X_pow]
  rw [degree_X_pow]
  exact degree_value_lt g

end

section

variable {n : ℕ} (g : BitVec (n + 1))

theorem X_mul_value (c : BitVec (n + 1)) :
    X * value c = (if c.getLsbD 0 then X ^ (n + 1) else 0) + value (c >>> 1) := by
  have lower : (List.range (n + 1)).map (c >>> 1).getLsbD =
      (List.range n).map (fun i => c.getLsbD (i + 1)) ++ [false] := by
    rw [List.range_succ, List.map_append, List.map_singleton]
    congr 1
    · exact List.map_congr_left fun i _ => by rw [BitVec.getLsbD_ushiftRight, Nat.add_comm 1 i]
    · rw [BitVec.getLsbD_ushiftRight, BitVec.getLsbD_of_ge _ _ (by omega)]
  have upper : (List.range (n + 1)).map c.getLsbD = c.getLsbD 0 :: (List.range n).map fun i =>
      c.getLsbD (i + 1) := by
    rw [List.range_succ_eq_map, List.map_cons, List.map_map]
    rfl
  rw [value, value, lower, upper, poly_append, poly]
  simp only [List.length_map, List.length_range, List.length_singleton, poly,
    Bool.false_eq_true, if_false]
  split
  · ring
  · ring

/-- A shift multiplies by `X`, up to the generator. -/
theorem value_shift (c : BitVec (n + 1)) :
    value (shift g c) = X * value c + if c.getLsbD 0 then modulus g else 0 := by
  rw [X_mul_value, shift]
  by_cases low : c.getLsbD 0
  · simp only [low, if_true]
    rw [value_xor, modulus]
    calc value (c >>> 1) + value g = X ^ (n + 1) + X ^ (n + 1) + (value (c >>> 1) + value g) := by
          rw [CharTwo.add_self_eq_zero, zero_add]
      _ = X ^ (n + 1) + value (c >>> 1) + (X ^ (n + 1) + value g) := by ring
  · simp only [low, if_false, zero_add, add_zero, Bool.false_eq_true]

theorem value_bit (b : Bool) : value (BitVec.setWidth (n + 1) (BitVec.ofBool b)) = if b then X ^ n
    else 0 := by
  have bits : (List.range (n + 1)).map (BitVec.setWidth (n + 1) (BitVec.ofBool b)).getLsbD = b ::
      List.replicate n false := by
    rw [List.range_succ_eq_map, List.map_cons, List.map_map]
    congr 1
    · simp
    · refine List.eq_replicate_iff.mpr ⟨by simp, fun bit inside => ?_⟩
      obtain ⟨i, -, rfl⟩ := List.mem_map.mp inside
      simp
  have zeros (k : ℕ) : poly (List.replicate k false) = 0 := by
    induction k with
    | zero => rfl
    | succ k ih => rw [List.replicate_succ, poly, ih, add_zero, if_neg Bool.false_ne_true]
  rw [value, bits, poly, zeros, add_zero, List.length_replicate]

theorem value_absorb (c : BitVec (n + 1)) (b : Bool) :
    modulus g ∣ value (absorb g c b) + (X * value c + if b then X ^ (n + 1) else 0) := by
  rw [absorb, value_shift, value_xor, value_bit]
  have lead : X * (if b then X ^ n else 0 : (ZMod 2)[X]) = if b then X ^ (n + 1) else 0 := by
    cases b
    · simp
    · simp [pow_succ']
  have twice (a rest : (ZMod 2)[X]) : a + rest + a = rest := by
    rw [add_right_comm, CharTwo.add_self_eq_zero, zero_add]
  rw [mul_add, lead, twice]
  split
  · exact dvd_refl _
  · exact dvd_zero _

/-- The register is congruent to what it was, shifted, and the message behind it. -/
theorem modulus_dvd_feed (c : BitVec (n + 1)) (bits : List Bool) :
    modulus g ∣ value (feed g c bits) + (X ^ bits.length * value c + X ^ (n + 1) * poly bits) := by
  induction bits generalizing c with
  | nil =>
    rw [feed, List.foldl_nil, List.length_nil, pow_zero, one_mul, poly, mul_zero, add_zero,
      CharTwo.add_self_eq_zero]
    exact dvd_zero _
  | cons b bits ih =>
    have later :=
      dvd_add (ih (absorb g c b)) (dvd_mul_of_dvd_right (value_absorb g c b) (X ^ bits.length))
    have collected : value (feed g (absorb g c b) bits) +
          (X ^ bits.length * value (absorb g c b) + X ^ (n + 1) * poly bits) +
          X ^ bits.length * (value (absorb g c b) + (X * value c + if b then X ^ (n + 1) else 0)) =
        value (feed g (absorb g c b) bits) + (X ^ (bits.length + 1) * value c +
            X ^ (n + 1) * ((if b then X ^ bits.length else 0) + poly bits)) +
          (X ^ bits.length * value (absorb g c b) + X ^ bits.length * value (absorb g c b)) := by
      cases b
      · simp only [Bool.false_eq_true, if_false]
        ring
      · simp only [if_true]
        ring
    rw [collected, CharTwo.add_self_eq_zero, add_zero] at later
    exact later

theorem value_feed (c : BitVec (n + 1)) (bits : List Bool) :
    value (feed g c bits) = (X ^ bits.length * value c + X ^ (n + 1) * poly bits) %ₘ modulus g := by
  have reduced : value (feed g c bits) %ₘ modulus g = value (feed g c bits) := by
    rw [modByMonic_eq_self_iff (monic_modulus g), degree_modulus]
    exact degree_value_lt _
  rw [← reduced]
  refine modByMonic_eq_of_dvd_sub (monic_modulus g) ?_
  rw [CharTwo.sub_eq_add]
  exact modulus_dvd_feed g c bits

theorem isCoprime_X_modulus (constant : g.getLsbD n = true) : IsCoprime X (modulus g) := by
  have ends : value g = X * poly ((List.range n).map g.getLsbD) + 1 := by
    rw [value, List.range_succ, List.map_append, List.map_singleton, poly_append, constant]
    simp [poly]
  refine ⟨X ^ n + poly ((List.range n).map g.getLsbD), 1, ?_⟩
  rw [modulus, ends, one_mul]
  calc (X ^ n + poly ((List.range n).map g.getLsbD)) * X +
    (X ^ (n + 1) + (X * poly ((List.range n).map g.getLsbD) + 1))
      = (X ^ n + poly ((List.range n).map g.getLsbD)) * X +
        (X ^ n + poly ((List.range n).map g.getLsbD)) * X + 1 := by ring
    _ = 1 := by rw [CharTwo.add_self_eq_zero, zero_add]

/-- Messages that differ only within as many bits as the register has leave different remainders. -/
theorem eq_of_feed_eq (constant : g.getLsbD n = true)
    (length : middle.length = middle'.length) (short : middle.length ≤ n + 1)
    (same : feed g c (first ++ middle ++ last) = feed g c (first ++ middle' ++ last)) :
    middle = middle' := by
  refine poly_injective length ?_
  have sum := dvd_add (modulus_dvd_feed g c (first ++ middle ++ last)) (modulus_dvd_feed g c (first ++ middle' ++ last))
  have lengths : (first ++ middle' ++ last).length = (first ++ middle ++ last).length := by
    simp [length]
  have difference (v rest : (ZMod 2)[X]) :
      v + (rest + X ^ (n + 1) * poly (first ++ middle ++ last)) +
        (v + (rest + X ^ (n + 1) * poly (first ++ middle' ++ last))) =
      X ^ (n + 1 + last.length) * (poly middle + poly middle') := by
    have parts (m : List Bool) (count : m.length = middle.length) :
        poly (first ++ m ++ last) = X ^ last.length * (X ^ middle.length * poly first + poly m) + poly last := by
      rw [poly_append, poly_append, count]
    rw [parts middle rfl, parts middle' length.symm]
    generalize X ^ middle.length * poly first = front
    calc v + (rest + X ^ (n + 1) * (X ^ last.length * (front + poly middle) + poly last)) +
          (v + (rest + X ^ (n + 1) * (X ^ last.length * (front + poly middle') + poly last)))
        = X ^ (n + 1 + last.length) * (poly middle + poly middle') +
          ((v + rest + X ^ (n + 1) * (X ^ last.length * front + poly last)) +
            (v + rest + X ^ (n + 1) * (X ^ last.length * front + poly last))) := by ring
      _ = X ^ (n + 1 + last.length) * (poly middle + poly middle') := by
        rw [CharTwo.add_self_eq_zero, add_zero]
  rw [same, lengths, difference] at sum
  have divides : modulus g ∣ poly middle + poly middle' :=
    (((isCoprime_X_modulus g constant).pow_left).symm).dvd_of_dvd_mul_left sum
  have small : (poly middle + poly middle').degree < (modulus g).degree := by
    rw [degree_modulus]
    have bound : (middle.length : WithBot ℕ) ≤ (n + 1 : ℕ) := by exact_mod_cast short
    refine lt_of_lt_of_le
      (lt_of_le_of_lt (degree_add_le _ _) (max_lt (degree_poly_lt middle) ?_)) bound
    rw [length]
    exact degree_poly_lt middle'
  have zero := eq_zero_of_dvd_of_degree_lt divides small
  rwa [CharTwo.add_eq_zero] at zero

theorem shift_xor (a b : BitVec (n + 1)) : shift g (a ^^^ b) = shift g a ^^^ shift g b := by
  have cancel (x y : BitVec (n + 1)) : x ^^^ y = x ^^^ g ^^^ (y ^^^ g) := by
    rw [BitVec.xor_comm y g, BitVec.xor_assoc, ← BitVec.xor_assoc (x := g), BitVec.xor_self,
      BitVec.zero_xor]
  simp only [shift, BitVec.getLsbD_xor, BitVec.ushiftRight_xor_distrib]
  cases a.getLsbD 0 <;> cases b.getLsbD 0 <;>
    simp only [Bool.xor_false, Bool.xor_true, Bool.not_false, Bool.not_true, Bool.false_eq_true,
      if_false, if_true]
  · ac_rfl
  · ac_rfl
  · exact cancel _ _

theorem shift_xor_bit (c x : BitVec (n + 1)) :
    shift g (c ^^^ x) = absorb g c (x.getLsbD 0) ^^^ (x >>> 1) := by
  let bit := BitVec.setWidth (n + 1) (BitVec.ofBool (x.getLsbD 0))
  have low : (bit ^^^ x).getLsbD 0 = false := by simp [bit]
  have rest : (bit ^^^ x) >>> 1 = x >>> 1 := by
    have none : bit >>> 1 = 0#(n + 1) := by
      refine BitVec.eq_of_getLsbD_eq fun i _ => ?_
      simp [bit, BitVec.getLsbD_ushiftRight]
    rw [BitVec.ushiftRight_xor_distrib, none, BitVec.zero_xor]
  have split : c ^^^ x = (c ^^^ bit) ^^^ (bit ^^^ x) := by
    rw [BitVec.xor_assoc, ← BitVec.xor_assoc bit bit, BitVec.xor_self, BitVec.zero_xor]
  have down : shift g (bit ^^^ x) = x >>> 1 := by
    rw [shift, low, if_neg Bool.false_ne_true, rest]
  rw [split, shift_xor, down]
  rfl

/-- Several bits that are added at once and shifted out. -/
theorem iterate_shift_xor (k : ℕ) (c x : BitVec (n + 1)) (high : ∀ i, k ≤ i → x.getLsbD i = false) :
    (shift g)^[k] (c ^^^ x) = feed g c ((List.range k).map x.getLsbD) := by
  induction k generalizing c x with
  | zero =>
    have zero : x = 0#(n + 1) := BitVec.eq_of_getLsbD_eq fun i _ => by simp [high i (Nat.zero_le i)]
    rw [zero, BitVec.xor_zero]
    rfl
  | succ k ih =>
    have next : (List.range (k + 1)).map x.getLsbD = x.getLsbD 0 ::
        (List.range k).map (x >>> 1).getLsbD := by
      rw [List.range_succ_eq_map, List.map_cons, List.map_map]
      congr 1
      exact List.map_congr_left fun i _ => by rw [BitVec.getLsbD_ushiftRight, Nat.add_comm 1 i]; rfl
    have shifted (i : ℕ) (above : k ≤ i) : (x >>> 1).getLsbD i = false := by
      rw [BitVec.getLsbD_ushiftRight]
      exact high _ (by omega)
    rw [Function.iterate_succ_apply, shift_xor_bit, ih _ _ shifted, next]
    rfl

end

/-- The generator of IEEE 802.3, with the lowest bit for the highest power. -/
def ieee : BitVec 32 := 0xEDB88320

def bits (data : List UInt8) : List Bool :=
  data.flatMap fun b => (List.range 8).map b.toBitVec.getLsbD

theorem bits_cons (b : UInt8) (data : List UInt8) :
    bits (b :: data) = (List.range 8).map b.toBitVec.getLsbD ++ bits data := List.flatMap_cons ..

/-- A byte is added at the lowest bits and shifted out. -/
def update (c : BitVec 32) (b : UInt8) : BitVec 32 :=
  (shift ieee)^[8] (c ^^^ b.toBitVec.setWidth 32)

def checksumIEEE (data : List UInt8) : UInt32 := ⟨~~~(data.foldl update (~~~0))⟩

theorem foldl_update (c : BitVec 32) (data : List UInt8) :
    data.foldl update c = feed ieee c (bits data) := by
  induction data generalizing c with
  | nil => rfl
  | cons b rest ih =>
    have byte : update c b = feed ieee c ((List.range 8).map b.toBitVec.getLsbD) := by
      have padded : (List.range 8).map (b.toBitVec.setWidth 32).getLsbD = (List.range 8).map b.toBitVec.getLsbD :=
        List.map_congr_left fun i inside => by
          rw [BitVec.getLsbD_setWidth]
          have := List.mem_range.mp inside
          simp
          omega
      rw [update, iterate_shift_xor, padded]
      intro i above
      rw [BitVec.getLsbD_setWidth, BitVec.getLsbD_of_ge _ _ above, Bool.and_false]
    rw [List.foldl_cons, ih, byte, bits_cons, feed_append]

theorem length_bits (data : List UInt8) : (bits data).length = 8 * data.length := by
  induction data with
  | nil => rfl
  | cons b rest ih =>
    rw [bits_cons, List.length_append, ih, List.length_map, List.length_range, List.length_cons]
    omega

theorem bits_injective : ∀ {data data' : List UInt8}, bits data = bits data' → data = data'
  | [], [], _ => rfl
  | [], _ :: _, same => by simpa [length_bits] using congrArg List.length same
  | _ :: _, [], same => by simpa [length_bits] using congrArg List.length same
  | b :: data, b' :: data', same => by
      rw [bits_cons, bits_cons] at same
      obtain ⟨first, later⟩ := List.append_inj same (by simp)
      have byte : b = b' := by
        refine UInt8.toBitVec_inj.mp (BitVec.eq_of_getLsbD_eq fun i inside => ?_)
        exact List.map_inj_left.mp first i (List.mem_range.mpr inside)
      rw [byte, bits_injective later]

/-- `changed` differs from `data`, in bits that lie within `size` consecutive ones. -/
structure Burst (size : ℕ) (data changed : List UInt8) : Prop where
  length : changed.length = data.length
  differs : changed ≠ data
  window : ∃ k, ∀ i, i < k ∨ k + size ≤ i → (bits changed)[i]? = (bits data)[i]?

/-- Bursts of up to 32 bits are detected. -/
theorem checksumIEEE_ne_of_burst (burst : Burst 32 data changed) :
    checksumIEEE changed ≠ checksumIEEE data := by
  intro same
  obtain ⟨k, window⟩ := burst.window
  have parts (l : List Bool) : l = l.take k ++ (l.drop k).take 32 ++ l.drop (k + 32) := by
    rw [List.append_assoc, ← List.drop_drop, List.take_append_drop, List.take_append_drop]
  have before : (bits changed).take k = (bits data).take k := by
    refine List.ext_getElem? fun i => ?_
    rw [List.getElem?_take, List.getElem?_take]
    split
    · next early => exact window i (.inl early)
    · rfl
  have behind : (bits changed).drop (k + 32) = (bits data).drop (k + 32) := by
    refine List.ext_getElem? fun i => ?_
    rw [List.getElem?_drop, List.getElem?_drop]
    exact window _ (.inr (by omega))
  have registers : feed ieee (~~~0) (bits changed) = feed ieee (~~~0) (bits data) := by
    rw [← foldl_update, ← foldl_update]
    exact BitVec.not_inj.mp (congrArg UInt32.toBitVec same)
  rw [parts (bits changed), parts (bits data), before, behind] at registers
  have constant : ieee.getLsbD 31 = true := by decide
  have middle :=
    eq_of_feed_eq ieee constant (by simp [length_bits, burst.length]) (by simp) registers
  refine burst.differs (bits_injective ?_)
  rw [parts (bits changed), parts (bits data), before, behind, middle]

end Portask.Lib.Crc
