import BmsNode.Crc.Detection
import BmsNode.Firmware.Crc8

/-!
# What the CRC-8 finds

`_crc8_ccitt_update` is the register of `Crc.Register` for the polynomial 0x07, fed
one byte at a time. A check byte therefore finds every corruption of the bytes it
covers, or of itself, that `Corruption` lists.
-/

namespace BmsNode

/-- The number of bits in which two sequences of bytes differ. -/
def flippedBits (sent received : List UInt8) : Nat :=
  Crc.flips (Crc.message (sent.map UInt8.toBitVec)) (Crc.message (received.map UInt8.toBitVec))

/-- All the bits in which two sequences of bytes differ lie in one byte. -/
def WithinOneByte (sent received : List UInt8) : Prop :=
  ∃ before a b after, sent = before ++ a :: after ∧ received = before ++ b :: after

/-- The polynomial of the CRC-8, without its leading bit. -/
def crc8Poly : BitVec 8 := 0x07#8

/-- One turn of the bit loop is one turn of the register. -/
theorem toBitVec_crc8Shift (data : UInt8) :
    (crc8Shift data).toBitVec = Crc.shift crc8Poly data.toBitVec := by
  have hmsb : ∀ b : BitVec 8, b &&& 0x80#8 ≠ 0#8 ↔ b.msb = true := by decide
  have hcarry : data &&& 0x80 ≠ 0 ↔ data.toBitVec.msb = true := by
    rw [← hmsb, Ne, ← UInt8.toBitVec_inj]
    rfl
  rw [Crc.shift_eq, crc8Shift]
  simp only [hcarry]
  split_ifs <;> rfl

/-- One update folds a byte into the register. -/
theorem toBitVec_crc8CcittUpdate (inCrc inData : UInt8) :
    (crc8CcittUpdate inCrc inData).toBitVec =
      (Crc.shift crc8Poly)^[8] (inCrc.toBitVec ^^^ inData.toBitVec) := by
  have hsemi : Function.Semiconj UInt8.toBitVec crc8Shift (Crc.shift crc8Poly) :=
    toBitVec_crc8Shift
  exact (hsemi.iterate_right 8).eq (inCrc ^^^ inData)

/-- The CRC-8 of some bytes is the register after their bits. -/
theorem toBitVec_crc8 (bytes : List UInt8) :
    (crc8 bytes).toBitVec =
      Crc.remainder crc8Poly 0#8 (Crc.message (bytes.map UInt8.toBitVec)) := by
  rw [Crc.remainder_message, List.foldl_map]
  exact (List.foldl_hom UInt8.toBitVec fun crc byte =>
    (toBitVec_crc8CcittUpdate crc byte).symm).symm

/-- Bytes with a check byte behind them leave an empty register exactly when the check byte is their
CRC-8. -/
theorem remainder_check_iff (bytes : List UInt8) (check : UInt8) :
    Crc.remainder crc8Poly 0#8 (Crc.message ((bytes ++ [check]).map UInt8.toBitVec)) = 0#8 ↔
      check = crc8 bytes := by
  rw [← toBitVec_crc8, crc8_concat, toBitVec_crc8CcittUpdate,
    Crc.iterate_shift_eq_zero_iff (by decide) (by decide), BitVec.xor_eq_zero_iff,
    UInt8.toBitVec_inj]
  exact eq_comm

/-- The polynomial does not repeat within 127 turns. -/
theorem crc8Poly_order : ∀ d, 0 < d → d < 127 → (Crc.shift crc8Poly)^[d] crc8Poly ≠ crc8Poly := by
  have hturns : ∀ d < 127, 0 < d → (Crc.shift crc8Poly)^[d] crc8Poly ≠ crc8Poly := by
    decide +kernel
  exact fun d hpos hd => hturns d hd hpos

/-- The check byte finds an odd number of flipped bits, flipped bits within one byte, and two
flipped bits among at most 15 bytes, itself included. -/
theorem crc8_detects {bytes received : List UInt8} {check : UInt8}
    (hlength : received.length = bytes.length)
    (h : Odd (flippedBits (bytes ++ [crc8 bytes]) (received ++ [check])) ∨
      (WithinOneByte (bytes ++ [crc8 bytes]) (received ++ [check]) ∧
        received ++ [check] ≠ bytes ++ [crc8 bytes]) ∨
      (bytes.length < 15 ∧ flippedBits (bytes ++ [crc8 bytes]) (received ++ [check]) = 2)) :
    check ≠ crc8 received := by
  rw [Ne, ← remainder_check_iff]
  have hsent := (remainder_check_iff bytes (crc8 bytes)).mpr rfl
  refine Crc.detected (by decide) (by decide) (by decide) crc8Poly_order (by simp [hlength]) hsent ?_
  rcases h with hodd | ⟨⟨before, a, b, after, hs, hr⟩, hne⟩ | ⟨hshort, htwo⟩
  · exact .odd hodd
  · refine .symbol (before.map UInt8.toBitVec) (after.map UInt8.toBitVec) a.toBitVec b.toBitVec
      (fun hab => hne ?_) (by simp [hs]) (by simp [hr])
    rw [hr, hs, UInt8.toBitVec_inj.mp hab]
  · refine .two ?_ htwo
    rw [Crc.length_message, List.length_map, List.length_append, List.length_singleton]
    omega

end BmsNode
