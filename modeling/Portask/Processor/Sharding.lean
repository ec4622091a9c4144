import Portask.Lib.GoString

/-! # Shards by topic

The configuration that the two sharded writers share, and how they pick a shard. The
parallel writer hashes the runes of the topic and the asynchronous one its bytes, so the
two agree on topics of plain ASCII only.
-/

namespace Portask.Processor

open Lib

/-- Durations are in milliseconds. -/
structure ParallelBatchWriterConfig where
  numShards : Nat
  flushInterval : Int
  batchSize : Int
  maxRetries : Int
  subBatchSize : Int := 0
  enableParallelWrites : Bool := false
  deriving DecidableEq

/-- The channels of the shards hold twice a batch. -/
def ParallelBatchWriterConfig.channelSize (config : ParallelBatchWriterConfig) : Nat :=
  (config.batchSize * 2).toNat

/-- The asynchronous writer asks for sub-batches, if the storage has them. -/
def ParallelBatchWriterConfig.inSubBatches (config : ParallelBatchWriterConfig) : Bool :=
  config.enableParallelWrites && 0 < config.subBatchSize

theorem shard_lt {n : Nat} (hash : UInt32) (nonzero : UInt32.ofNat n ≠ 0) :
    (hash % UInt32.ofNat n).toNat < n := by
  have positive : 0 < (UInt32.ofNat n).toNat :=
    Nat.pos_of_ne_zero fun zero => nonzero (UInt32.toNat_inj.mp zero)
  calc (hash % UInt32.ofNat n).toNat = hash.toNat % (UInt32.ofNat n).toNat := UInt32.toNat_mod _ _
    _ < (UInt32.ofNat n).toNat := Nat.mod_lt _ positive
    _ = n % 2 ^ 32 := rfl
    _ ≤ n := Nat.mod_le _ _

/-- `hash % uint32(NumShards)`, which panics when the shard count is a multiple of `2^32`. -/
def shardOfHash (n : Nat) (hash : UInt32) : Option (Fin n) :=
  if nonzero : UInt32.ofNat n ≠ 0 then some ⟨(hash % UInt32.ofNat n).toNat, shard_lt hash nonzero⟩
  else none

def nextShard {n : Nat} (i : Fin n) : Fin n :=
  ⟨(i + 1) % n, Nat.mod_lt _ (Nat.zero_lt_of_lt i.isLt)⟩

/-- `getShardID` of the parallel writer. -/
def shardByRunes (n : Nat) (topic : GoString) : Option (Fin n) :=
  shardOfHash n (topic.runes.foldl (fun hash c => hash * 31 + UInt32.ofNat c) 0)

/-- `getShardID` of the asynchronous writer. -/
def shardByBytes (n : Nat) (topic : GoString) : Option (Fin n) :=
  shardOfHash n (topic.foldl (fun hash b => hash * 31 + b.toUInt32) 0)

end Portask.Processor
