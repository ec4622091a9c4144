import Mathlib.Data.List.Basic
import Mathlib.Tactic.TypeStar

/-! # Channels

Buffered channels of pointers. Sending on a closed channel panics; receiving from one gives
what is still buffered and then nil for ever. An unbuffered channel is given one place: its
sender may be one element ahead of the receiver, which adds runs and removes none.
-/

namespace Portask.Lib

structure Chan (α : Type*) where
  capacity : Nat
  items : List α
  closed : Bool

namespace Chan

variable {α : Type*}

inductive Sending (α : Type*) where
  | sends (chan : Chan α)
  | blocks
  | panics

inductive Receiving (α : Type*) where
  | gives (x : α) (chan : Chan α)
  | givesNil
  | blocks

def make (size : Nat) : Chan α := ⟨max 1 size, [], false⟩

def close (chan : Chan α) : Chan α := { chan with closed := true }

def send (chan : Chan α) (x : α) : Sending α :=
  if chan.closed then .panics
  else if chan.items.length < chan.capacity then .sends { chan with items := chan.items ++ [x] }
  else .blocks

def receive (chan : Chan α) : Receiving α :=
  match chan.items with
  | x :: rest => .gives x { chan with items := rest }
  | [] => if chan.closed then .givesNil else .blocks

variable {chan after : Chan α} {x : α}

theorem of_sends (sent : chan.send x = .sends after) :
    chan.closed = false ∧ after = { chan with items := chan.items ++ [x] } := by
  revert sent
  fun_cases send with
  | case2 isOpen room =>
    rintro ⟨⟩
    exact ⟨by simpa using isOpen, rfl⟩
  | _ => simp

theorem of_panics (panicked : chan.send x = .panics) : chan.closed = true := by
  revert panicked
  fun_cases send with
  | case1 closed => exact fun _ => closed
  | _ => simp

/-- A sender that has to wait finds something to receive. -/
theorem of_blocks (capacity : 1 ≤ chan.capacity) (blocked : chan.send x = .blocks) :
    chan.items ≠ [] := by
  revert blocked
  fun_cases send with
  | case3 _ full =>
    rintro - empty
    rw [empty] at full
    exact full capacity
  | _ => simp

theorem of_gives (received : chan.receive = .gives x after) :
    chan.items = x :: after.items ∧ after.capacity = chan.capacity ∧
      after.closed = chan.closed := by
  revert received
  fun_cases receive with
  | case1 first rest items =>
    rintro ⟨⟩
    exact ⟨items, rfl, rfl⟩
  | _ => simp

theorem of_givesNil (received : chan.receive = .givesNil) :
    chan.items = [] ∧ chan.closed = true := by
  revert received
  fun_cases receive with
  | case2 items closed => exact fun _ => ⟨items, closed⟩
  | _ => simp

theorem gives_of_ne_nil (filled : chan.items ≠ []) : ∃ x after, chan.receive = .gives x after := by
  obtain ⟨first, rest, items⟩ := List.exists_cons_of_ne_nil filled
  exact ⟨first, { chan with items := rest }, by simp [receive, items]⟩

end Chan

end Portask.Lib
