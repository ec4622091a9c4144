import Mathlib.Data.List.Basic

/-! # Bounded queues as lists

The oldest message stands first. `offer` refuses what does not fit; `offerNewest`
makes room by giving up the oldest. Batches are described by what they take as a
whole, not by a loop.
-/

namespace Portask.Lib.Fifo

variable {M : Type}

def offer (bound : Nat) (held : List M) (m : M) : List M × Bool :=
  if held.length < bound then (held ++ [m], true) else (held, false)

def offerNewest (bound : Nat) (held : List M) (m : M) : List M :=
  if held.length < bound then held ++ [m] else held.tail ++ [m]

def take (held : List M) : List M × Option M := (held.tail, held.head?)

/-- A batch enters up to the first message that does not fit. -/
def offerAll (bound : Nat) (held batch : List M) : List M × Nat :=
  let fitting := batch.take (bound - held.length)
  (held ++ fitting, fitting.length)

def takeAll (held : List M) (count : Nat) : List M × List M := (held.drop count, held.take count)

end Portask.Lib.Fifo
