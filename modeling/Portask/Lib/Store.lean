import Mathlib.Data.List.Basic
import Mathlib.Tactic.TypeStar

/-! # A store of cells

Cells that are shared by reference: an address is the place of the cell in the order of
allocation, so a new cell's address is none that anybody has. Keys own cells as long as no
two keys have the same one and nobody else has it.
-/

namespace Portask.Lib

structure Store (C : Type*) where
  cells : List C

namespace Store

variable {C : Type*} {store : Store C} {a b : Nat} {c : C} {f : C → C}

def empty : Store C := ⟨[]⟩

section

variable (store : Store C)

def size : Nat := store.cells.length

def read (a : Nat) : Option C := store.cells[a]?

def alloc (c : C) : Store C × Nat := (⟨store.cells ++ [c]⟩, store.size)

def modify (a : Nat) (f : C → C) : Store C := ⟨store.cells.modify a f⟩

end

@[simp] theorem size_alloc : (store.alloc c).1.size = store.size + 1 := by simp [alloc, size]

@[simp] theorem size_modify : (store.modify a f).size = store.size := by simp [modify, size]

theorem exists_read (inside : a < store.size) : ∃ c, store.read a = some c :=
  ⟨store.cells[a], List.getElem?_eq_getElem inside⟩

@[simp] theorem read_alloc_self : (store.alloc c).1.read store.size = some c := by
  simp [alloc, read, size]

theorem read_alloc (inside : a < store.size) : (store.alloc c).1.read a = store.read a :=
  List.getElem?_append_left inside

@[simp] theorem read_modify_self : (store.modify a f).read a = (store.read a).map f := by
  simp [modify, read]

theorem read_modify_ne (other : b ≠ a) : (store.modify a f).read b = store.read b := by
  simp [modify, read, other.symm]

end Store

/-- Every key has a cell of its own, and none that has been handed out. -/
structure Owned {K : Type*} (cell : K → Option Nat) (size : Nat) (handed : List Nat) : Prop where
  below : ∀ {k a}, cell k = some a → a < size
  apart : ∀ {k l a}, cell k = some a → cell l = some a → k = l
  kept : ∀ {k a}, cell k = some a → a ∉ handed
  made : ∀ {a}, a ∈ handed → a < size

namespace Owned

variable {K : Type*} {cell : K → Option Nat} {size : Nat} {handed : List Nat}

theorem renew [DecidableEq K] (owned : Owned cell size handed) (k : K) :
    Owned (fun l => if l = k then some size else cell l) (size + 1) handed where
  below {l a} found := by
    split at found
    · cases found
      exact Nat.lt_succ_self size
    · exact Nat.lt_succ_of_lt (owned.below found)
  apart {l m a} found other := by
    split at found <;> split at other
    · next here there => exact here.trans there.symm
    · cases found
      exact absurd (owned.below other) (Nat.lt_irrefl _)
    · cases other
      exact absurd (owned.below found) (Nat.lt_irrefl _)
    · exact owned.apart found other
  kept {l a} found out := by
    split at found
    · cases found
      exact absurd (owned.made out) (Nat.lt_irrefl _)
    · exact owned.kept found out
  made out := Nat.lt_succ_of_lt (owned.made out)

variable (owned : Owned cell size handed)
include owned

theorem drop (still : ∀ {k a}, fewer k = some a → cell k = some a) :
    Owned fewer size handed where
  below found := owned.below (still found)
  apart found other := owned.apart (still found) (still other)
  kept found := owned.kept (still found)
  made := owned.made

theorem handOut (grows : size ≤ size')
    (isFresh : ∀ a ∈ fresh, size ≤ a ∧ a < size') : Owned cell size' (fresh ++ handed) where
  below found := Nat.lt_of_lt_of_le (owned.below found) grows
  apart := owned.apart
  kept {k a} found out := by
    rcases List.mem_append.mp out with new | old
    · exact absurd (owned.below found) (Nat.not_lt.mpr (isFresh a new).1)
    · exact owned.kept found old
  made {a} out := by
    rcases List.mem_append.mp out with new | old
    · exact (isFresh a new).2
    · exact Nat.lt_of_lt_of_le (owned.made old) grows

theorem handOutOne : Owned cell (size + 1) (size :: handed) := by
  have out : Owned cell (size + 1) ([size] ++ handed) := owned.handOut (Nat.le_succ size) (by simp)
  exact out

end Owned

end Portask.Lib
