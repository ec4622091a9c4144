import Portask.Lib.Machine
import Portask.Lib.Ring

/-! # Sequenced ring buffers

Every slot carries a sequence number beside its datum. A slot whose sequence is
`p` is ready to take position `p`; one whose sequence is `p + 1` holds the datum
of position `p`. `Holds` ties a buffer at rest to the list it stores: nobody is
between claiming a position and publishing it. Its two frame rules, `push` and
`pop`, ask only what the written slot looks like afterwards, so they serve every
order in which an implementation writes a slot.
-/

namespace Portask.Lib.Ring

structure Node (M : Type) where
  sequence : UInt64
  data : Option M
  deriving DecidableEq

variable {M : Type}

section

variable (buffer : List (Node M))

section

variable (i : Nat)

def sequenceAt : UInt64 := (buffer.getD i ⟨0, none⟩).sequence

def dataAt : Option M := (buffer.getD i ⟨0, none⟩).data

def setData (data : Option M) : List (Node M) :=
  buffer.modify i ({ · with data := data })

def setSequence (sequence : UInt64) : List (Node M) :=
  buffer.modify i ({ · with sequence := sequence })

@[simp] theorem setData_length (data : Option M) :
    (setData buffer i data).length = buffer.length := by
  simp [setData]

@[simp] theorem setSequence_length (sequence : UInt64) :
    (setSequence buffer i sequence).length = buffer.length := by
  simp [setSequence]

end

theorem modify_getD (i j : Nat) (f : Node M → Node M) (d : Node M) :
    (buffer.modify i f).getD j d =
      if i = j ∧ j < buffer.length then f (buffer.getD j d) else buffer.getD j d := by
  simp only [List.getD_eq_getElem?_getD, List.getElem?_modify]
  by_cases inside : j < buffer.length
  · by_cases same : i = j <;> simp [inside, same]
  · simp [inside]

@[simp] theorem sequenceAt_setData (i j : Nat) (data : Option M) :
    sequenceAt (setData buffer i data) j = sequenceAt buffer j := by
  simp only [sequenceAt, setData, modify_getD]
  split <;> rfl

@[simp] theorem dataAt_setSequence (i j : Nat) (sequence : UInt64) :
    dataAt (setSequence buffer i sequence) j = dataAt buffer j := by
  simp only [dataAt, setSequence, modify_getD]
  split <;> rfl

theorem sequenceAt_setSequence (j : Nat) (sequence : UInt64) (inside : i < buffer.length) :
    sequenceAt (setSequence buffer i sequence) j =
      if i = j then sequence else sequenceAt buffer j := by
  simp only [sequenceAt, setSequence, modify_getD]
  by_cases same : i = j
  · subst same
    simp [inside]
  · simp [same]

theorem sequenceAt_setSequence_ne (sequence : UInt64) (other : i ≠ j) :
    sequenceAt (setSequence buffer i sequence) j = sequenceAt buffer j := by
  simp [sequenceAt, setSequence, other]

theorem dataAt_setData (j : Nat) (data : Option M) (inside : i < buffer.length) :
    dataAt (setData buffer i data) j = if i = j then data else dataAt buffer j := by
  simp only [dataAt, setData, modify_getD]
  by_cases same : i = j
  · subst same
    simp [inside]
  · simp [same]

end

/-- The buffer of a fresh ring: slot `i` awaits position `i`. -/
def fresh (n : Nat) : List (Node M) := (List.range n).map fun i => ⟨UInt64.ofNat i, none⟩

@[simp] theorem fresh_length (n : Nat) : (fresh n : List (Node M)).length = n := by simp [fresh]

theorem sequenceAt_fresh (inside : i < n) :
    sequenceAt (fresh n : List (Node M)) i = UInt64.ofNat i := by
  simp [sequenceAt, fresh, inside]

/-- A buffer at rest holds `xs` from position `head` on. -/
structure Holds (e head : Nat) (xs : List (Option M)) (buffer : List (Node M)) : Prop where
  size : buffer.length = 2 ^ e
  bounded : xs.length ≤ 2 ^ e
  full : ∀ j x, xs[j]? = some x →
    sequenceAt buffer (slot e (head + j)) = UInt64.ofNat (head + j + 1) ∧
    dataAt buffer (slot e (head + j)) = x
  free : ∀ j, xs.length ≤ j → j < 2 ^ e →
    sequenceAt buffer (slot e (head + j)) = UInt64.ofNat (head + j)

theorem Holds.fresh (e : Nat) : Holds e 0 [] (fresh (2 ^ e) : List (Node M)) where
  size := by simp
  bounded := by simp
  full := by simp
  free := by
    intro j _ inside
    have home : slot e j = j := Nat.mod_eq_of_lt inside
    simp only [Nat.zero_add, home]
    exact sequenceAt_fresh inside

/-- Positions of one turn lie in different slots. -/
theorem slot_ne_of_turn (hi : i < 2 ^ e) (hj : j < 2 ^ e) (other : i ≠ j) :
    slot e (head + i) ≠ slot e (head + j) := by
  intro same
  have := eq_of_slot_eq same (by omega) (by omega)
  omega

variable {xs : List (Option M)} {buffer after : List (Node M)} {e head : Nat}

theorem Holds.push (holds : Holds e head xs buffer) (room : xs.length < 2 ^ e)
    (size : after.length = buffer.length)
    (sequence : sequenceAt after (slot e (head + xs.length)) = UInt64.ofNat (head + xs.length + 1))
    (data : dataAt after (slot e (head + xs.length)) = x)
    (frame : ∀ i, i ≠ slot e (head + xs.length) →
      sequenceAt after i = sequenceAt buffer i ∧ dataAt after i = dataAt buffer i) :
    Holds e head (xs ++ [x]) after where
  size := size.trans holds.size
  bounded := by simpa using Nat.succ_le_of_lt room
  full := by
    intro j y found
    obtain ⟨old, found⟩ | ⟨rfl, rfl⟩ := getElem?_concat_cases found
    · have elsewhere : slot e (head + j) ≠ slot e (head + xs.length) :=
        slot_ne_of_turn (by omega) room (by omega)
      obtain ⟨sameSequence, sameData⟩ := frame _ elsewhere
      rw [sameSequence, sameData]
      exact holds.full j y found
    · exact ⟨sequence, data⟩
  free := by
    intro j beyond inside
    simp only [List.length_append, List.length_singleton] at beyond
    rw [(frame _ (slot_ne_of_turn inside room (by omega))).1]
    exact holds.free j (by omega) inside

theorem Holds.pushed (holds : Holds e head xs buffer) (room : xs.length < 2 ^ e) (x : Option M) :
    Holds e head (xs ++ [x])
    (setSequence (setData buffer (slot e (head + xs.length)) x) (slot e (head + xs.length))
      (UInt64.ofNat (head + xs.length + 1))) := by
  have inside : slot e (head + xs.length) < buffer.length := by
    rw [holds.size]
    exact slot_lt e _
  apply holds.push room
  · simp
  · rw [sequenceAt_setSequence _ _ _ (by simpa using inside), if_pos rfl]
  · rw [dataAt_setSequence, dataAt_setData _ _ _ inside, if_pos rfl]
  · intro i elsewhere
    rw [sequenceAt_setSequence_ne _ _ (Ne.symm elsewhere), sequenceAt_setData, dataAt_setSequence,
      dataAt_setData _ _ _ inside, if_neg (Ne.symm elsewhere)]
    exact ⟨rfl, rfl⟩

theorem Holds.pop (holds : Holds e head (x :: xs) buffer) (size : after.length = buffer.length)
    (sequence : sequenceAt after (slot e head) = UInt64.ofNat (head + 2 ^ e))
    (frame : ∀ i, i ≠ slot e head → sequenceAt after i = sequenceAt buffer i ∧
      dataAt after i = dataAt buffer i) : Holds e (head + 1) xs after := by
  have room : xs.length < 2 ^ e := Nat.lt_of_succ_le (by simpa using holds.bounded)
  have shift : ∀ j, head + 1 + j = head + (j + 1) := by omega
  refine ⟨size.trans holds.size, by omega, ?_, ?_⟩
  · intro j y found
    have inside := (List.getElem?_eq_some_iff.mp found).1
    have elsewhere : slot e (head + (j + 1)) ≠ slot e head :=
      slot_ne_of_turn (j := 0) (by omega) (by omega) (by omega)
    obtain ⟨sameSequence, sameData⟩ := frame _ elsewhere
    rw [shift, sameSequence, sameData]
    exact holds.full (j + 1) y (by simpa using found)
  · intro j beyond inside
    rw [shift]
    by_cases last : j + 1 = 2 ^ e
    · rw [last, slot_add_turn]
      exact sequence
    · have elsewhere : slot e (head + (j + 1)) ≠ slot e head :=
        slot_ne_of_turn (j := 0) (by omega) (by omega) (by omega)
      rw [(frame _ elsewhere).1]
      exact holds.free (j + 1) (by simpa using beyond) (by omega)

end Portask.Lib.Ring
