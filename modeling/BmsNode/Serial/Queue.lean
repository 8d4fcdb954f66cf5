import BmsNode.Firmware.Pkt
import Mathlib.Data.Nat.Bitwise

/-!
# How much the transmit ring takes

The copy loop of `ser_write` takes bytes until 31 are queued, so `pkt_send` reports
success exactly when the whole packet fits.
-/

namespace BmsNode

/-- Masking to five bits is the remainder by 32. -/
theorem toNat_and_mask (w : UInt8) : (w &&& 0x1F).toNat = w.toNat % 32 := by
  rw [UInt8.toNat_and]
  exact Nat.and_two_pow_sub_one_eq_mod w.toNat 5

/-- The number of queued bytes is below 32. -/
theorem bufCnt_lt (s : Ser) : (bufCnt s).toNat < 32 := by
  rw [bufCnt, toNat_and_mask]
  omega

/-- Nothing is queued after `ser_flush`. -/
theorem bufCnt_serFlush (s : Ser) : bufCnt (serFlush s) = 0 := by
  simp [bufCnt, serFlush]

/-- The ring takes a byte as long as fewer than 31 are queued. -/
theorem bufNotfull_iff (s : Ser) : bufNotfull s = true ↔ (bufCnt s).toNat < 31 := by
  simp [bufNotfull, UInt8.lt_iff_toNat_lt]

/-- A byte stored is one byte more, unless the ring runs full. -/
theorem bufCnt_serPut {s : Ser} (h : (bufCnt s).toNat < 31) (byte : UInt8) :
    (bufCnt (serPut s byte)).toNat = (bufCnt s).toNat + 1 := by
  have hhead := s.headp.toNat_lt
  have htail := s.tailp.toNat_lt
  simp only [bufCnt, serPut, toNat_and_mask, UInt8.toNat_sub, UInt8.toNat_add] at h ⊢
  simp only [UInt8.reduceToNat, Nat.reducePow] at h ⊢
  omega

/-- The copy loop takes what fits. -/
theorem serCopy_count (bytes : List UInt8) (s : Ser) :
    (serCopy s bytes).1.toNat = min bytes.length (31 - (bufCnt s).toNat) := by
  induction bytes generalizing s with
  | nil => simp [serCopy]
  | cons byte rest ih =>
      by_cases hroom : bufNotfull s = true
      · have hnext := ih (serPut s byte)
        have hcount := (bufNotfull_iff s).mp hroom
        rw [bufCnt_serPut hcount] at hnext
        rw [serCopy, if_pos hroom]
        simp only [UInt8.toNat_add, hnext, List.length_cons]
        simp
        omega
      · -- the ring is full and nothing more is taken
        rw [serCopy, if_neg hroom]
        have hlt := bufCnt_lt s
        rw [bufNotfull_iff] at hroom
        simp
        omega

/-- The length that `pkt_send` computes: preambles, sync, header, payload and CRC. -/
theorem packetLen_toNat {len : UInt8} (hlen : len.toNat ≤ 12) :
    (4 + 1 + 4 + len + 1).toNat = 10 + len.toNat := by
  simp only [UInt8.toNat_add]
  simp
  omega

/-- `pkt_send` hands the bytes of `pktFrame` to `ser_write`. -/
theorem pktSend_eq (t : TxPkt) (s : Ser) (flags addr cmd : UInt8) (payload : List UInt8)
    {len : UInt8} (hlen : len.toNat ≤ 12) :
    pktSend t s flags addr cmd payload len =
      let sent := serWrite s (pktFrame t flags addr cmd payload len) (4 + 1 + 4 + len + 1)
      (decide (sent.1 = 4 + 1 + 4 + len + 1), pktAssemble t flags addr cmd payload len, sent.2) := by
  have htake : serWrite s (pktFrame t flags addr cmd payload len) (4 + 1 + 4 + len + 1) =
      serWrite s (pktAssemble t flags addr cmd payload len).bytes (4 + 1 + 4 + len + 1) := by
    simp only [serWrite, pktFrame, List.take_take, Nat.min_self]
  have hfits : ¬len > pktPayloadLen := by
    rw [gt_pktPayloadLen_iff]
    omega
  simp only [pktSend, if_neg hfits, htake]

/-- `pkt_send` succeeds exactly when the ring has room for the whole packet. -/
theorem pktSend_iff (t : TxPkt) (s : Ser) (flags addr cmd : UInt8) (payload : List UInt8)
    (len : UInt8) (hlen : len.toNat ≤ 12) :
    (pktSend t s flags addr cmd payload len).1 = true ↔
      (bufCnt s).toNat + (10 + len.toNat) ≤ 31 := by
  have hcount := packetLen_toNat hlen
  rw [pktSend_eq t s flags addr cmd payload hlen]
  simp only [serWrite, decide_eq_true_eq, ← UInt8.toNat_inj, serCopy_count, hcount]
  have hlength : ((pktFrame t flags addr cmd payload len).take (10 + len.toNat)).length =
      10 + len.toNat := by
    simp only [pktFrame, hcount, List.take_take, Nat.min_self, List.length_take, TxPkt.bytes]
    simp
    omega
  rw [hlength]
  show min _ (31 - (bufCnt s).toNat) = _ ↔ _
  omega

end BmsNode
