import Portask.Api.BatchPublish
import Portask.Storage.DragonflyRoundTrip
import Mathlib.Data.Int.GCD
import Mathlib.Tactic.Ring

/-! # What becomes of a time to live

The message type declares its time to live in nanoseconds, and `WithTTL` takes it so. The Dragonfly
and DuckDB stores multiply it by a second, and the batch API copies milliseconds into it.
-/

namespace Portask.Types.PortaskMessage

open Lib

/-- `int64(24 * time.Hour)` -/
def defaultTTL : Int := 24 * 3600 * 1000000000

def newMessage (id topic : GoString) (payload : Bytes) (now : Int) : PortaskMessage where
  id := id
  topic := topic
  payload := payload
  timestamp := now
  priority := 5
  headers := some fun _ => none
  ttl := defaultTTL

/-- The sum wraps around. -/
def withTTL (m : PortaskMessage) (ttl : Int) : PortaskMessage :=
  { m with ttl := ttl, expiresAt := (m.timestamp + ttl).bmod (2 ^ 64) }

end Portask.Types.PortaskMessage

namespace Portask.Storage.DuckDB

open Lib Portask.Types

/-- What `Store` and `StoreBatch` pass to the insert statement: the fields of the message, and the
    time at which it expires, in nanoseconds. `time.Time` does not overflow here. -/
structure Row where
  message : PortaskMessage
  expiresAt : Option Int

def row (message : PortaskMessage) : Row where
  message := message
  expiresAt := if 0 < message.ttl then
    some (message.timestamp + (message.ttl * 1000000000).bmod (2 ^ 64)) else none

theorem row_expiresAt (positive : 0 < message.ttl) :
    (row message).expiresAt = some (message.timestamp + (message.ttl * 1000000000).bmod (2 ^ 64)) :=
      if_pos positive

end Portask.Storage.DuckDB

namespace Portask.Storage

open Lib Portask.Types Portask.Storage.Dragonfly

/-- A second more than once is never once, also modulo `2 ^ 64`, because `10 ^ 9 - 1` is odd. -/
theorem seconds_ne (positive : 0 < ttl) (small : ttl < 2 ^ 63) (turns : Int) :
    (ttl * 1000000000).bmod (2 ^ 64) ≠ ttl + 2 ^ 64 * turns := by
  intro same
  have product : (2 ^ 64 : Int) ∣ 999999999 * ttl := by
    have wrapped : (2 ^ 64 : Int) ∣ (ttl * 1000000000).bmod (2 ^ 64) - ttl * 1000000000 :=
      Int.dvd_bmod_sub_self
    rw [same] at wrapped
    obtain ⟨k, multiple⟩ := wrapped
    refine ⟨turns - k, ?_⟩
    rw [Int.mul_sub, ← multiple]
    ring
  have whole : (2 ^ 64 : Int) ∣ ttl := Int.dvd_of_dvd_mul_right_of_gcd_one product rfl
  exact absurd (Int.lt_of_le_of_lt (Int.le_of_dvd positive whole) small) (by decide)

/-- No store turns a time to live into an expiry of so many nanoseconds: not the Dragonfly store in any of
    its calls that set one, nor DuckDB, which does not agree with `WithTTL` either; and the batch API
    does not keep so many milliseconds. -/
theorem no_ttl_becomes_its_expiry {ttl : Int} (positive : 0 < ttl) (small : ttl < 2 ^ 63) :
    (∀ (ε : Type) (d : DragonflyStore ε) (path : Path) (id : Option GoString) (m : PortaskMessage) (write : Write),
      m.ttl = ttl → d.prepareWrite path id m = .ok write → write.expiration ≠ ttl) ∧
    (∀ m : PortaskMessage, m.ttl = ttl → (DuckDB.row m).expiresAt ≠ some (m.timestamp + ttl)) ∧
    (∀ m : PortaskMessage, (DuckDB.row (m.withTTL ttl)).expiresAt ≠
      some (m.withTTL ttl).expiresAt) ∧
    ∀ (req : Api.BatchPublishRequest) (clock : Nat → Api.Readings) (i : Nat) (msg : Api.PublishMessage) (m : PortaskMessage),
      req.messages[i]? = some msg → msg.ttl = some ttl →
        (Api.converted req clock)[i]? = some (.ok m) → m.ttl ≠ ttl * 1000000 := by
  refine ⟨?dragonfly, ?duckDB, ?withTTL, ?batch⟩
  case dragonfly =>
    rintro ε d path id m write rfl prepared
    have expiration : write.expiration = expirationOf m.ttl := by
      obtain ⟨data, -, rfl⟩ := of_map_ok prepared
      rfl
    rw [expiration, expirationOf, if_pos positive]
    have wrong := seconds_ne positive small 0
    rwa [Int.mul_zero, Int.add_zero] at wrong
  case duckDB =>
    rintro m rfl same
    have wrong := seconds_ne positive small 0
    rw [DuckDB.row_expiresAt positive] at same
    exact wrong (by rw [Int.add_left_cancel (Option.some.inj same), Int.mul_zero, Int.add_zero])
  case withTTL =>
    intro m same
    have wrapped : (2 ^ 64 : Int) ∣ (m.timestamp + ttl).bmod (2 ^ 64) - (m.timestamp + ttl) :=
      Int.dvd_bmod_sub_self
    obtain ⟨turns, multiple⟩ := wrapped
    have expires : (DuckDB.row (m.withTTL ttl)).expiresAt =
        some (m.timestamp + (ttl * 1000000000).bmod (2 ^ 64)) :=
      DuckDB.row_expiresAt positive
    have sums : m.timestamp + (ttl * 1000000000).bmod (2 ^ 64) = (m.timestamp + ttl).bmod (2 ^ 64) :=
      Option.some.inj (expires.symm.trans same)
    rw [← sums] at multiple
    refine seconds_ne positive small turns ?_
    rw [← multiple]
    ring
  case batch =>
    intro req clock i msg m here given converted
    rw [Api.converted, List.getElem?_mapIdx, here] at converted
    have kept := Api.ttl_of_convert (Option.some.inj converted)
    rw [given, Option.getD_some] at kept
    omega

/-- The default time to live. -/
theorem default_ttl_not_its_expiry :
    (0 < (PortaskMessage.newMessage [1] [] none 0).ttl ∧
      (PortaskMessage.newMessage [1] [] none 0).ttl < 2 ^ 63) ∧
      (DuckDB.row (PortaskMessage.newMessage [1] [] none 0)).expiresAt ≠
        some ((PortaskMessage.newMessage [1] [] none 0).timestamp + (PortaskMessage.newMessage [1] [] none 0).ttl) :=
  ⟨⟨by decide, by decide⟩, (no_ttl_becomes_its_expiry (by decide) (by decide)).2.1 _ rfl⟩

/-- A store whose serializer writes the ID of any message, and nothing else. -/
def idStore : DragonflyStore Unit :=
  ⟨⟨[], false⟩, ⟨fun m => .ok m.id, fun data => .ok { id := data }⟩, ⟨.ok, .ok⟩⟩

/-- The default of a day becomes a negative expiration; a millisecond becomes eleven days in DuckDB;
    and a second of the batch API is kept as a microsecond. -/
theorem ttl_units_differ :
    (idStore.prepareWrite .store none (PortaskMessage.newMessage [1] [] none 0)).toOption.map
    (·.expiration) = some (-4549241255539769344) ∧
      (PortaskMessage.newMessage [1] [] none 0).ttl = 86400000000000 ∧
      (DuckDB.row (PortaskMessage.withTTL {} 1000000)).expiresAt = some 1000000000000000 ∧
      (PortaskMessage.withTTL {} 1000000).expiresAt = 1000000 ∧
      (Api.convert [] ⟨0, 0⟩ 0 ⟨[0x74], 0, [], .ok [], none, some 1000⟩).toOption.map
      (·.ttl) = some 1000 :=
  ⟨by decide, by decide, by decide, by decide, rfl⟩

end Portask.Storage
