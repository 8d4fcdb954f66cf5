import BmsNode.Firmware.Cmd
import BmsNode.Packet.RoundTrip
import BmsNode.Serial.Fifo

/-!
# Whether a packet is queued as a whole

`pkt_send` learns that a packet does not fit from the count `ser_write` returns, after the
copy loop has queued what did fit. So a packet that does not fit leaves the ring alone
only when it is refused for its length or when the ring is full already.
-/

namespace BmsNode

/-- `pkt_send` of a frame fails and leaves the queue alone, or queues the whole frame behind four
preambles. -/
def SendsWhole (t : TxPkt) (s : Ser) (f : Frame) : Prop :=
  let sent := pktSend t s f.flags f.addr f.cmd f.payload f.len
  (sent.1 = false → sent.2.2.queued = s.queued) ∧
    (sent.1 = true → sent.2.2.queued = s.queued ++ (List.replicate 4 pktPreamble ++ f.wire))

instance (t : TxPkt) (s : Ser) (f : Frame) : Decidable (SendsWhole t s f) :=
  inferInstanceAs (Decidable (_ ∧ _))

/-- The copy loop queues the bytes there is room for. -/
theorem Ser.Indexed.queued_serCopy {s : Ser} (h : s.Indexed) (bytes : List UInt8) :
    (serCopy s bytes).2.queued = s.queued ++ bytes.take (31 - (bufCnt s).toNat) := by
  induction bytes generalizing s with
  | nil => simp [serCopy]
  | cons byte rest ih =>
      rw [serCopy]
      by_cases hroom : bufNotfull s = true
      · have hcount := (bufNotfull_iff s).mp hroom
        have hsucc : 31 - (bufCnt s).toNat = 31 - ((bufCnt s).toNat + 1) + 1 := by omega
        rw [if_pos hroom]
        show (serCopy (BmsNode.serPut s byte) rest).2.queued = _
        rw [ih (h.serPut byte), h.queued_serPut hcount, bufCnt_serPut hcount, hsucc,
          List.take_succ_cons, List.append_assoc, List.singleton_append]
      · have hnone : 31 - (bufCnt s).toNat = 0 := by
          rw [bufNotfull_iff] at hroom
          omega
        rw [if_neg hroom, hnone, List.take_zero, List.append_nil]

/-- `ser_write` queues the bytes there is room for. -/
theorem Ser.Indexed.queued_serWrite {s : Ser} (h : s.Indexed) (buf : List UInt8) (len : UInt8) :
    (serWrite s buf len).2.queued =
      s.queued ++ (buf.take len.toNat).take (31 - (bufCnt s).toNat) :=
  Ser.Indexed.queued_serCopy (s := { s with usart := { s.usart with rxcie := false } })
    ⟨h.headp, h.tailp⟩ (buf.take len.toNat)

/-- `pkt_send` queues the bytes of the frame there is room for. -/
theorem Ser.Indexed.queued_pktSend {s : Ser} (h : s.Indexed) {f : Frame} (hf : f.Fits) (t : TxPkt) :
    (pktSend t s f.flags f.addr f.cmd f.payload f.len).2.2.queued =
      s.queued ++ (List.replicate 4 pktPreamble ++ f.wire).take (31 - (bufCnt s).toNat) := by
  have hwhole : (pktFrame t f.flags f.addr f.cmd f.payload f.len).take
      (4 + 1 + 4 + f.len + 1).toNat = pktFrame t f.flags f.addr f.cmd f.payload f.len := by
    rw [pktFrame, List.take_take, Nat.min_self]
  rw [pktSend_eq t s f.flags f.addr f.cmd f.payload hf.max]
  dsimp only
  rw [h.queued_serWrite, hwhole, pktFrame_eq hf]

/-- `pkt_send` is all or nothing exactly for a payload that is too long for a packet, for a frame
the ring has room for, and with a ring that is full. -/
theorem pktSend_whole_iff (t : TxPkt) {s : Ser} (hs : s.Indexed) {f : Frame}
    (hpayload : f.payload.length = f.len.toNat) :
    SendsWhole t s f ↔
      12 < f.len.toNat ∨ s.queued.length + (10 + f.len.toNat) ≤ 31 ∨ s.queued.length = 31 := by
  by_cases hlong : 12 < f.len.toNat
  · have hrefused : pktSend t s f.flags f.addr f.cmd f.payload f.len = (false, t, s) := by
      rw [pktSend, if_pos ((gt_pktPayloadLen_iff f.len).mpr hlong)]
    refine iff_of_true ?_ (.inl hlong)
    rw [SendsWhole, hrefused]
    exact ⟨fun _ => rfl, fun hsent => by cases hsent⟩
  have hfits : f.Fits := ⟨hpayload, by omega⟩
  have hlength := hfits.sent_length
  have hsent := pktSend_iff t s f.flags f.addr f.cmd f.payload f.len hfits.max
  have hcount := bufCnt_lt s
  rw [SendsWhole, hs.queued_pktSend hfits t, s.length_queued]
  by_cases hroom : (bufCnt s).toNat + (10 + f.len.toNat) ≤ 31
  · -- the frame fits, and the copy loop takes all of it
    refine iff_of_true ⟨fun hfailed => ?_, fun _ => ?_⟩ (.inr (.inl hroom))
    · rw [hsent.mpr hroom] at hfailed
      cases hfailed
    · rw [List.take_of_length_le (by omega)]
  · -- the frame does not fit, and the copy loop takes what does
    have hfailed := Bool.eq_false_iff.mpr fun h => hroom (hsent.mp h)
    constructor
    · rintro ⟨hsame, -⟩
      have hnone := List.append_right_eq_self.mp (hsame hfailed)
      have hempty := congrArg List.length hnone
      rw [List.length_take, hlength, List.length_nil] at hempty
      omega
    · rintro (hcontra | hcontra | hfull)
      · exact absurd hcontra hlong
      · exact absurd hcontra hroom
      · refine ⟨fun _ => ?_, fun h => absurd h (by simp [hfailed])⟩
        rw [hfull, Nat.sub_self, List.take_zero, List.append_nil]

/-- The frame of a STATUS reply. -/
def statusReply : Frame := ⟨pktFlagReply, 1, Cmd.status, 10, List.replicate 10 0⟩

/-- An idle transmitter queues it as a whole. -/
theorem pktSend_whole_idle : SendsWhole TxPkt.init Ser.init statusReply :=
  (pktSend_whole_iff TxPkt.init ⟨by decide, by decide⟩ rfl).mpr (by decide)

/-- Behind a STATUS reply that is still queued a second one does not fit: `pkt_send` reports that,
with eleven of its twenty bytes queued. -/
theorem pktSend_cut :
    let s := (pktSend TxPkt.init Ser.init pktFlagReply 1 Cmd.status (List.replicate 10 0) 10).2.2
    let sent := pktSend TxPkt.init s pktFlagReply 1 Cmd.status (List.replicate 10 0) 10
    s.Indexed ∧ ¬SendsWhole TxPkt.init s statusReply ∧ sent.1 = false ∧
      sent.2.2.queued = s.queued ++ (List.replicate 4 pktPreamble ++ statusReply.wire).take 11 :=
  ⟨⟨by decide +kernel, by decide +kernel⟩, by decide +kernel, by decide +kernel, by decide +kernel⟩

end BmsNode
