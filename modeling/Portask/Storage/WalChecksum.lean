import Portask.Processor.Process
import Portask.Storage.WalReaders

/-! # The checksums of the log and of the processor

Both loops compute the remainder of CRC-32. An entry whose data has been changed within 32 consecutive
bits is not read.
-/

namespace Portask.Storage

open Lib Polynomial Crc

theorem crc32Checksum_eq_standardCRC32 (data : List UInt8) :
    crc32Checksum data = Processor.standardCRC32 data := by
  have step : (fun (crc : UInt32) (b : UInt8) =>
    Nat.repeat Processor.crcBit 8 (crc ^^^ b.toUInt32)) = crc32Byte := rfl
  rw [crc32Checksum, Processor.standardCRC32, step]

theorem modulus_ieee :
    modulus ieee = X ^ 32 + X ^ 26 + X ^ 23 + X ^ 22 + X ^ 16 + X ^ 12 + X ^ 11 + X ^ 10 + X ^ 8 +
      X ^ 7 + X ^ 5 + X ^ 4 + X ^ 2 + X + 1 := by
  have bits : (List.range 32).map ieee.getLsbD =
      [false, false, false, false, false, true, false, false, true, true, false, false, false,
        false, false, true, false, false, false,
        true, true, true, false, true, true, false, true, true, false, true, true, true] := by decide
  rw [modulus, value, bits]
  simp [poly]
  ring

/-- The register at the end is the remainder of the message behind a register of ones. -/
theorem value_crc32Checksum (data : List UInt8) :
    value (~~~(crc32Checksum data).toBitVec) =
      (X ^ (8 * data.length) * value (~~~0 : BitVec 32) + X ^ 32 * poly (bits data)) %ₘ modulus ieee := by
  rw [crc32Checksum_eq, checksumIEEE, BitVec.not_not, foldl_update, value_feed, length_bits]

/-- For every byte string the two loops give the same, which is the complement of the remainder; a burst of up to 32
    bits changes it; and an entry whose data has changed so is not read. -/
theorem checksums_detect_bursts (data : List UInt8) :
    crc32Checksum data = Processor.standardCRC32 data ∧
    value (~~~(crc32Checksum data).toBitVec) =
      (X ^ (8 * data.length) * value (~~~0 : BitVec 32) + X ^ 32 * poly (bits data)) %ₘ
        (X ^ 32 + X ^ 26 + X ^ 23 + X ^ 22 + X ^ 16 + X ^ 12 + X ^ 11 + X ^ 10 + X ^ 8 + X ^ 7 + X ^ 5 + X ^ 4 + X ^ 2 + X + 1) ∧
    ∀ changed, Burst 32 data changed →
      crc32Checksum changed ≠ crc32Checksum data ∧
      ∀ (segments : Nat → Option (List UInt8)) (segmentID : Nat) (file : List UInt8) (offset : Int) (entry : WALEntry),
        segments segmentID = some file → readEntry segments segmentID offset = .ok entry →
          entry.data = data → readEntry (Function.update segments segmentID
            (some (file.take (offset.toNat + 16) ++ (changed ++ file.drop (offset.toNat + 16 + data.length))))) segmentID offset =
          .error .checksum := by
  refine ⟨crc32Checksum_eq_standardCRC32 data,
    by rw [← modulus_ieee]; exact value_crc32Checksum data, fun changed burst => ?_⟩
  have differs : crc32Checksum changed ≠ crc32Checksum data := by
    rw [crc32Checksum_eq, crc32Checksum_eq]
    exact checksumIEEE_ne_of_burst burst
  refine ⟨differs, fun segments segmentID file offset entry there read same => ?_⟩
  rw [readEntry, there] at read
  obtain ⟨proper, before, later, rfl, rfl⟩ := WalReaders.readEntryAt_ok read
  subst same
  have front : (before ++ (entryBytes entry ++ later)).take (before.length + 16) = before ++
      entryHeader entry := by
    rw [entryBytes, List.append_assoc, ← List.append_assoc]
    exact List.take_left' (by simp)
  have back : (before ++ (entryBytes entry ++ later)).drop
      (before.length + 16 + entry.data.length) = later := by
    rw [← List.append_assoc]
    exact List.drop_left' (by simp; omega)
  have checksum : entry.checksum = crc32Checksum entry.data :=
    congrArg WALEntry.checksum proper.made
  rw [readEntry, Function.update_self, Int.toNat_natCast, front, back, List.append_assoc]
  dsimp only
  rw [readEntryAt_stored (proper.size.trans burst.length.symm), if_pos (checksum ▸ differs)]

theorem checksums_detect_bursts_bit : Burst 32 [0] [1] ∧ crc32Checksum [1] ≠ crc32Checksum [0] := by
  have burst : Burst 32 [0] [1] := by
    refine ⟨rfl, by decide, 0, fun i outside => ?_⟩
    rw [List.getElem?_eq_none (by simp [length_bits]; omega),
      List.getElem?_eq_none (by simp [length_bits]; omega)]
  exact ⟨burst, ((checksums_detect_bursts [0]).2.2 [1] burst).1⟩

end Portask.Storage
