import Portask.Types.Message

/-! # Pooled messages

`GetMessage` gives an object that the pool has made or one that `PutMessage` has reset after
any use. The two kinds are not alike: a reset object has the normal priority where a new
one has priority zero, and it keeps its payload's memory, so that its payload is empty and
not nil.
-/

namespace Portask.Types

open Lib

def priorityNormal : UInt8 := 5

def statusPending : UInt8 := 0

/-- The unexported fields of a message. A time is `none` where it is the zero time. -/
structure Internal where
  receivedAt : Option Int := none
  processedAt : Option Int := none
  acknowledgedAt : Option Int := none
  size : Int := 0
  compressedSize : Int := 0
  serializedData : Bytes := none

structure PooledMessage extends PortaskMessage where
  internal : Internal := {}

namespace PooledMessage

/-- What the pool makes when it has no object left. -/
def new : PooledMessage where
  metadata := some (fun _ => none)
  headers := some (fun _ => none)

def reset (m : PooledMessage) : PooledMessage where
  id := []
  topic := []
  payload := m.payload.map (fun _ => [])
  timestamp := 0
  headers := some (fun _ => none)
  metadata := some (fun _ => none)
  priority := priorityNormal
  status := statusPending
  partition := 0
  key := []
  partitionKey := []
  replyTo := []
  expiresAt := 0
  ttl := 0
  offset := 0
  attempts := 0
  maxRetry := 0
  correlationID := []
  traceID := []
  internal := {}

end PooledMessage

/-- What has become of an object before `GetMessage` gives it: nothing, or some use of it that
    left it as `last` when `PutMessage` was called. -/
inductive History where
  | fresh
  | recycled (last : PooledMessage)

namespace History

def getMessage : History → PooledMessage
  | fresh => .new
  | recycled last => last.reset

def Recycled : History → Prop
  | fresh => False
  | recycled _ => True

/-- The object comes with a payload that is not nil. -/
def HasPayload : History → Prop
  | fresh => False
  | recycled last => last.payload ≠ none

theorem priority_eq_iff (h₁ h₂ : History) :
    h₁.getMessage.priority = h₂.getMessage.priority ↔ (h₁.Recycled ↔ h₂.Recycled) := by
  cases h₁ <;> cases h₂ <;>
    simp [getMessage, Recycled, PooledMessage.new, PooledMessage.reset, priorityNormal]

theorem emptied_payload (h : History) :
    h.getMessage.payload.map (fun _ => []) = h.getMessage.payload := by
  cases h with
  | fresh => rfl
  | recycled last => exact Option.map_map _ _ last.payload

theorem payload_eq_iff (h₁ h₂ : History) :
    h₁.getMessage.payload = h₂.getMessage.payload ↔ (h₁.HasPayload ↔ h₂.HasPayload) := by
  have known (h : History) :
      (h.HasPayload ∧ h.getMessage.payload = some []) ∨
        (¬ h.HasPayload ∧ h.getMessage.payload = none) := by
    cases h with
    | fresh => exact .inr ⟨id, rfl⟩
    | recycled last =>
      cases kept : last.payload <;> simp [HasPayload, getMessage, PooledMessage.reset, kept]
  obtain ⟨has₁, payload₁⟩ | ⟨has₁, payload₁⟩ := known h₁ <;>
    obtain ⟨has₂, payload₂⟩ | ⟨has₂, payload₂⟩ := known h₂ <;> simp [has₁, has₂, payload₁, payload₂]

end History

end Portask.Types
