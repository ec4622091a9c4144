import Portask.Lib.GoString

/-! # Messages

The exported fields of `PortaskMessage`. A byte slice is nil or has contents, and a map is
nil or gives a value or nothing for each key.
-/

namespace Portask.Types

open Lib

abbrev Bytes := Option (List UInt8)

abbrev GoMap (V : Type) := Option (GoString → Option V)

/-- The dynamic types a header value is used with. -/
inductive HeaderValue where
  | string (s : GoString)
  | bytes (b : Bytes)
  | int (n : Int)
  | float (bits : UInt64)
  | bool (b : Bool)
  | null
  deriving DecidableEq

def HeaderValue.string? : HeaderValue → Option GoString
  | .string s => some s
  | _ => none

/-- The defaults are the zero values. -/
structure PortaskMessage where
  id : GoString := []
  topic : GoString := []
  payload : Bytes := none
  timestamp : Int := 0
  headers : GoMap HeaderValue := none
  metadata : GoMap GoString := none
  priority : UInt8 := 0
  status : UInt8 := 0
  partition : Int32 := 0
  key : GoString := []
  partitionKey : GoString := []
  replyTo : GoString := []
  expiresAt : Int := 0
  ttl : Int := 0
  offset : Int := 0
  attempts : UInt8 := 0
  maxRetry : UInt8 := 0
  correlationID : GoString := []
  traceID : GoString := []

structure FetchRequest where
  topic : GoString
  partition : Int32
  offset : Int
  limit : Int

end Portask.Types
