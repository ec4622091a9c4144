import Mathlib.Data.Nat.Notation

/-! # Streams that arrive in pieces

A connection gives at each read what has arrived, at most as much as asked for. The pieces
stand for the way in which the bytes are split into reads; a piece may be empty. Reading a
given number of bytes does not depend on the pieces.

A program that reads only once and goes on with what it got does depend on them. A delivery
says how much has arrived at each read.
-/

namespace Portask.Lib

inductive StreamError where
  | eof
  | unexpectedEOF
  deriving DecidableEq

/-- Reads until `n` bytes are there, after those that have been read already. -/
def readFull (n : Nat) (already : List UInt8) : List (List UInt8) →
    Except StreamError (List UInt8) × List (List UInt8)
  | [] => if n = 0 then (.ok already, []) else (.error (if already = [] then .eof else .unexpectedEOF), [])
  | piece :: pieces =>
    if n = 0 then (.ok already, piece :: pieces)
    else if piece.length ≤ n then readFull (n - piece.length) (already ++ piece) pieces
    else (.ok (already ++ piece.take n), piece.drop n :: pieces)

variable {pieces : List (List UInt8)}

theorem readFull_ok (enough : n ≤ pieces.flatten.length) (already : List UInt8) :
    ∃ rest, readFull n already pieces = (.ok (already ++ pieces.flatten.take n), rest) ∧
      rest.flatten = pieces.flatten.drop n := by
  induction pieces generalizing n already with
  | nil =>
    obtain rfl : n = 0 := by simpa using enough
    exact ⟨[], by simp [readFull], rfl⟩
  | cons piece pieces ih =>
    rw [readFull]
    split
    · next none => exact ⟨piece :: pieces, by simp [none], by simp [none]⟩
    · split
      · next short =>
          have remaining : n - piece.length ≤ pieces.flatten.length := by
            rw [List.flatten_cons, List.length_append] at enough
            omega
          obtain ⟨rest, read, left⟩ := ih remaining (already ++ piece)
          refine ⟨rest, ?_, ?_⟩
          · rw [read, List.flatten_cons, List.take_append, List.take_of_length_le short, List.append_assoc]
          · rw [left, List.flatten_cons, List.drop_append, List.drop_of_length_le short, List.nil_append]
      · next long =>
          have inside : n ≤ piece.length := by omega
          refine ⟨piece.drop n :: pieces, ?_, ?_⟩
          · rw [List.flatten_cons, List.take_append_of_le_length inside]
          · rw [List.flatten_cons, List.flatten_cons, List.drop_append_of_le_length inside]

theorem readFull_append (arrived : pieces.flatten = bytes ++ later) :
    ∃ rest, readFull bytes.length [] pieces = (.ok bytes, rest) ∧ rest.flatten = later := by
  have enough : bytes.length ≤ pieces.flatten.length := by
    rw [arrived, List.length_append]
    exact Nat.le_add_right _ _
  obtain ⟨rest, read, left⟩ := readFull_ok enough []
  refine ⟨rest, ?_, ?_⟩
  · rw [read, arrived, List.nil_append, List.take_left]
  · rw [left, arrived, List.drop_left]

theorem readFull_error (short : pieces.flatten.length < n) (already : List UInt8) :
    readFull n already pieces =
      (.error (if already ++ pieces.flatten = [] then .eof else .unexpectedEOF), []) := by
  induction pieces generalizing n already with
  | nil =>
    rw [List.flatten_nil, List.length_nil] at short
    rw [readFull, if_neg (by omega), List.flatten_nil, List.append_nil]
  | cons piece pieces ih =>
    rw [List.flatten_cons, List.length_append] at short
    rw [readFull, if_neg (by omega), if_pos (by omega), ih (by omega), List.flatten_cons,
      List.append_assoc]

/-- What is read depends on the bytes alone. -/
theorem readFull_congr (n : Nat) (same : pieces.flatten = others.flatten) :
    (readFull n [] pieces).1 = (readFull n [] others).1 := by
  by_cases enough : n ≤ pieces.flatten.length
  · obtain ⟨rest, read, -⟩ := readFull_ok enough []
    obtain ⟨rest', read', -⟩ := readFull_ok (same ▸ enough) []
    rw [read, read', same]
  · rw [readFull_error (Nat.not_le.mp enough), readFull_error (Nat.not_le.mp (same ▸ enough)), same]

/-- How many bytes have arrived at each read, as long as there are any. -/
structure Delivery where
  size : Nat → Nat
  positive : ∀ i, 0 < size i

/-- The bytes that are still to come and the number of reads so far. -/
structure Wire where
  rest : List UInt8
  reads : Nat
  deriving DecidableEq

namespace Delivery

variable (d : Delivery)

/-- One read of at most `n` bytes; none at the end of the stream. -/
def read (w : Wire) (n : Nat) : Option (List UInt8 × Wire) :=
  if w.rest = [] then none
  else some (w.rest.take (min (d.size w.reads) n),
    ⟨w.rest.drop (min (d.size w.reads) n), w.reads + 1⟩)

/-- One read that has to give all of the `n` bytes. -/
def readAtOnce (w : Wire) (n : Nat) : Option (List UInt8 × Wire) :=
  (d.read w n).bind fun (bytes, later) => if bytes.length = n then some (bytes, later) else none

theorem readAtOnce_eq (rest : List UInt8) (i : Nat) (some_ : 0 < n) :
    d.readAtOnce ⟨rest, i⟩ n =
      if n ≤ rest.length ∧ n ≤ d.size i then some (rest.take n, ⟨rest.drop n, i + 1⟩) else none := by
  rw [readAtOnce, read]
  by_cases empty : rest = []
  · subst empty
    rw [if_pos rfl, Option.bind_none, if_neg]
    rintro ⟨enough, -⟩
    exact absurd enough (Nat.not_le.mpr some_)
  · rw [if_neg empty, Option.bind_some]
    dsimp only
    by_cases whole : n ≤ rest.length ∧ n ≤ d.size i
    · rw [Nat.min_eq_right whole.2, if_pos whole,
        if_pos (by rw [List.length_take, Nat.min_eq_left whole.1])]
    · rw [if_neg whole, if_neg]
      rw [List.length_take]
      omega

/-- The reads from the `i`-th on give all that is asked for. -/
def Serves : Nat → List Nat → Prop
  | _, [] => True
  | i, n :: requests => n ≤ d.size i ∧ Serves (i + 1) requests

instance Serves.decidable : ∀ i requests, Decidable (d.Serves i requests)
  | _, [] => .isTrue trivial
  | i, n :: requests =>
    have := Serves.decidable (i + 1) requests
    inferInstanceAs (Decidable (n ≤ d.size i ∧ _))

/-- How many of the first groups of reads give all that is asked for. -/
def served : Nat → List (List Nat) → Nat
  | _, [] => 0
  | i, requests :: later =>
    if d.Serves i requests then served (i + requests.length) later + 1 else 0

theorem served_le (i : Nat) (groups : List (List Nat)) : d.served i groups ≤ groups.length := by
  induction groups generalizing i with
  | nil => exact Nat.le_refl _
  | cons requests later ih =>
    rw [served, List.length_cons]
    split
    · exact Nat.succ_le_succ (ih _)
    · exact Nat.zero_le _

end Delivery

end Portask.Lib
