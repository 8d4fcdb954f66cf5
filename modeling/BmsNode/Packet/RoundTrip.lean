import BmsNode.Packet.Grammar
import BmsNode.Serial.Queue
import BmsNode.Transition.Run

/-!
# Encoding and decoding a packet

The bytes of `pkt_send` are four preambles and the frame of the packet, whatever the
transmit buffer held before. A parser between frames reads any such frame back, and
has nothing ready before the last byte.
-/

namespace BmsNode

open Transition

/-- The payload of a frame has the length its length byte says, and fits the buffer. -/
structure Frame.Fits (f : Frame) : Prop where
  length : f.payload.length = f.len.toNat
  max : f.len.toNat ≤ 12

/-- The number of header and payload bytes. -/
theorem Frame.Fits.body_length {f : Frame} (h : f.Fits) : f.body.length = 4 + f.len.toNat := by
  simp [Frame.body, h.length]
  omega

/-- The number of bytes a frame takes in the ring. -/
theorem Frame.Fits.sent_length {f : Frame} (hf : f.Fits) :
    (List.replicate 4 pktPreamble ++ f.wire).length = 10 + f.len.toNat := by
  simp [Frame.wire, hf.body_length]
  omega

/-- The frame of a payload that fits, with the length byte `pkt_send` is given for it. -/
theorem Frame.fits_ofNat (flags addr cmd : UInt8) {payload : List UInt8}
    (hpayload : payload.length ≤ 12) :
    Frame.Fits ⟨flags, addr, cmd, UInt8.ofNat payload.length, payload⟩ := by
  have hlen : (UInt8.ofNat payload.length).toNat = payload.length := by
    rw [UInt8.toNat_ofNat']
    omega
  exact ⟨hlen.symm, hlen.symm ▸ hpayload⟩

/-! ## The encoder -/

/-- The header stores fill the first four bytes. -/
theorem TxPkt.take_setHeader (t : TxPkt) (flags addr cmd len : UInt8) :
    (t.setHeader flags addr cmd len).pkt.toList.take 4 = [flags, addr, cmd, len] := by
  apply List.ext_getElem
  · simp
  · intro i hi _
    have hlt : i < 4 := by simpa using hi
    match i, hlt with
    | 0, _ | 1, _ | 2, _ | 3, _ => simp [TxPkt.setHeader]

/-- The payload loop appends its bytes to what the buffer holds and to what the CRC covers. -/
theorem pktCopy_spec (bytes : List UInt8) (idx : Nat) (t : TxPkt) (crc : UInt8)
    (hfit : 4 + idx + bytes.length ≤ 17) :
    (pktCopy idx t crc bytes).1.pkt.toList.take (4 + idx + bytes.length) =
        t.pkt.toList.take (4 + idx) ++ bytes ∧
      (pktCopy idx t crc bytes).2 = bytes.foldl crc8CcittUpdate crc := by
  -- the induction is on the bytes still to copy, with the index and the CRC moving along
  induction bytes generalizing idx t crc with
  | nil => simp [pktCopy]
  | cons byte rest ih =>
      simp only [List.length_cons] at hfit
      obtain ⟨hbytes, hcrc⟩ := ih (idx + 1) (t.setPayload idx byte) (crc8CcittUpdate crc byte)
        (by omega)
      have hstore : (t.setPayload idx byte).pkt.toList.take (4 + (idx + 1)) =
          t.pkt.toList.take (4 + idx) ++ [byte] :=
        BufferPrefix.take_succ_set t.pkt byte (show 4 + idx < 17 by omega)
      refine ⟨?_, hcrc⟩
      rw [show 4 + idx + (byte :: rest).length = 4 + (idx + 1) + rest.length by simp; omega]
      simp only [pktCopy]
      rw [hbytes, hstore, List.append_assoc, List.singleton_append]

/-- The assembled buffer starts with header, payload and CRC. -/
theorem pktAssemble_take {f : Frame} (hf : f.Fits) (t : TxPkt) :
    (pktAssemble t f.flags f.addr f.cmd f.payload f.len).pkt.toList.take (4 + f.len.toNat + 1) =
      f.body ++ [crc8 f.body] := by
  have hheader := t.take_setHeader f.flags f.addr f.cmd f.len
  have hpayload : f.payload.take f.len.toNat = f.payload := by
    rw [← hf.length, List.take_length]
  have hmax := hf.max
  obtain ⟨hcopy, hcrc⟩ := pktCopy_spec f.payload 0 (t.setHeader f.flags f.addr f.cmd f.len)
    (crc8 [f.flags, f.addr, f.cmd, f.len]) (by rw [hf.length]; omega)
  rw [hheader, hf.length] at hcopy
  have hbody : crc8 f.body = f.payload.foldl crc8CcittUpdate
      (crc8 [f.flags, f.addr, f.cmd, f.len]) := by
    simp [crc8, Frame.body]
  simp only [pktAssemble, hheader, hpayload]
  rw [TxPkt.setPayload, BufferPrefix.take_succ_set _ _ (by omega)]
  change List.take (4 + 0 + f.len.toNat) _ ++ _ = _
  rw [show List.foldl crc8CcittUpdate 0 [f.flags, f.addr, f.cmd, f.len] =
    crc8 [f.flags, f.addr, f.cmd, f.len] from rfl, hcopy, hcrc, ← hbody]
  rfl

/-- `pkt_send` hands four preambles and the frame to `ser_write`. -/
theorem pktFrame_eq {f : Frame} (hf : f.Fits) (t : TxPkt) :
    pktFrame t f.flags f.addr f.cmd f.payload f.len = List.replicate 4 pktPreamble ++ f.wire := by
  have hcount : (4 + 1 + 4 + f.len + 1).toNat = 5 + (4 + f.len.toNat + 1) := by
    rw [packetLen_toNat hf.max]
    omega
  have htake := @List.take_length_add_append _
    [pktPreamble, pktPreamble, pktPreamble, pktPreamble, pktSync]
    (pktAssemble t f.flags f.addr f.cmd f.payload f.len).pkt.toList (4 + f.len.toNat + 1)
  rw [pktAssemble_take hf] at htake
  rw [pktFrame, hcount, TxPkt.bytes]
  exact htake

/-- `pkt_send` of a packet hands just these bytes to `ser_write`, and tells whether it took them
all. -/
def HandsOver (t : TxPkt) (f : Frame) (bytes : List UInt8) : Prop :=
  ∀ s : Ser,
    let sent := serWrite s bytes (UInt8.ofNat bytes.length)
    pktSend t s f.flags f.addr f.cmd f.payload f.len =
      (decide (sent.1.toNat = bytes.length), pktAssemble t f.flags f.addr f.cmd f.payload f.len,
        sent.2)

/-- It hands over four preambles and the frame. -/
theorem pktSend_handsOver {f : Frame} (hf : f.Fits) (t : TxPkt) :
    HandsOver t f (pktFrame t f.flags f.addr f.cmd f.payload f.len) := by
  intro s
  have hlength : (pktFrame t f.flags f.addr f.cmd f.payload f.len).length = 10 + f.len.toNat := by
    rw [pktFrame_eq hf, hf.sent_length]
  have hmax := hf.max
  have htotal := packetLen_toNat hmax
  have hcount : UInt8.ofNat (10 + f.len.toNat) = 4 + 1 + 4 + f.len + 1 := by
    rw [← UInt8.toNat_inj, UInt8.toNat_ofNat', htotal]
    omega
  rw [hlength, hcount, pktSend_eq t s f.flags f.addr f.cmd f.payload hmax]
  simp only [← UInt8.toNat_inj, htotal]

/-! ## The decoder -/

/-- Preambles only put a parser between frames into `RX_SYNC`. -/
theorem run_preambles {p : Pkt} (hp : Listening p) (count : Nat) :
    run pktParser p (List.replicate (count + 1) pktPreamble) = { p with state := .sync } := by
  induction count generalizing p with
  | zero => simp [pktParser_listening hp pktPreamble (by simp [pktPreamble, pktSync])]
  | succ count ih =>
      rw [List.replicate_succ, run_cons,
        pktParser_listening hp pktPreamble (by simp [pktPreamble, pktSync]), if_pos rfl,
        ih (.inr rfl)]

/-- Inside a frame that fits, the next byte is stored. -/
theorem InFrame.next {f : Frame} (hf : f.Fits) {p : Pkt} {got : List UInt8} (hp : InFrame p got)
    (byte : UInt8) (rest : List UInt8) (hbody : f.body = got ++ byte :: rest) :
    p.state ≠ .check ∧ (got.length = 3 → byte.toNat ≤ 12) := by
  have hlength := congrArg List.length hbody
  rw [hf.body_length] at hlength
  simp only [List.length_append, List.length_cons] at hlength
  have hlen : lenByte f.body = f.len := rfl
  refine ⟨hp.not_check ?_, fun h3 => ?_⟩
  · -- inside the header no length byte was read yet
    by_cases hheader : got.length < 4
    · omega
    · have hgot : lenByte got = f.len := by
        rw [← hlen, hbody]
        simp [lenByte, List.getElem?_append_left (show 3 < got.length by omega)]
      rw [hgot]
      omega
  · have hbyte : lenByte f.body = byte := by
      rw [hbody]
      simp [lenByte, ← h3]
    rw [← hbyte, hlen]
    exact hf.max

/-- A parser that has read part of a frame's bytes reads on up to any point of the frame, and leaves
the buffer behind that point alone. -/
theorem InFrame.read {f : Frame} (hf : f.Fits) {p : Pkt} {got : List UInt8} (hp : InFrame p got)
    (bytes rest : List UInt8) (hbody : f.body = got ++ bytes ++ rest) :
    InFrame (run pktParser p bytes) (got ++ bytes) ∧
      ∀ i (hi : i < 16), (got ++ bytes).length ≤ i →
        (run pktParser p bytes).rxbuf[i] = p.rxbuf[i] := by
  induction bytes generalizing p got with
  | nil => exact ⟨by simpa using hp, fun i hi _ => rfl⟩
  | cons byte bytes ih =>
      obtain ⟨hnotcheck, hbyte⟩ := hp.next hf byte (bytes ++ rest) (by simpa using hbody)
      obtain ⟨hmore, hkeep⟩ := ih (hp.more hnotcheck byte hbyte) (by simpa using hbody)
      refine ⟨by simpa using hmore, fun i hi hbehind => ?_⟩
      simp only [List.length_append, List.length_cons] at hbehind
      rw [run_cons, hkeep i hi (by simp; omega), hp.more_rxbuf hnotcheck byte,
        Vector.getElem_setIfInBounds, if_neg (by omega)]

/-- A parser that has read all header and payload bytes of a frame expects the CRC byte. -/
theorem InFrame.complete {f : Frame} {p : Pkt} (hp : InFrame p f.body) (hf : f.Fits) :
    p.state = .check ∧ p.rxbuf.frame = f := by
  have hlength := hf.body_length
  have hbytes := hp.bytes
  rw [hlength] at hbytes
  exact ⟨hp.check hlength, RxBuf.frame_of_take hbytes⟩

/-- A parser between frames reads the bytes of a sent packet as a start, the header and payload
bytes, and the CRC byte. -/
theorem run_wire {p : Pkt} (hp : Listening p) (f : Frame) :
    run pktParser p (List.replicate 4 pktPreamble ++ f.wire) =
      pktParser (run pktParser (pktParser { p with state := .sync } pktSync) f.body)
        (crc8 f.body) := by
  rw [Frame.wire, run_append, run_preambles hp 3, List.cons_append, run_cons, run_append, run_cons,
    run_nil]

/-- A parser between frames reads a sent frame: nothing is ready before its last byte, then the
packet is, and the parser searches again. -/
theorem Between.receive {f : Frame} (hf : f.Fits) {p : Pkt} (hp : Between p) :
    let bytes := List.replicate 4 pktPreamble ++ f.wire
    (∀ k < bytes.length, (run pktParser p (bytes.take k)).readyPacket = false) ∧
      (run pktParser p bytes).readyPacket = true ∧
      (run pktParser p bytes).rxbuf.frame = f ∧
      (run pktParser p bytes).state = .search := by
  intro bytes
  have hstart : InFrame (pktParser { p with state := .sync } pktSync) [] :=
    pktParser_start rfl hp.free hp.notReady
  refine ⟨?_, ?_⟩
  · intro k hk
    by_cases hpre : k ≤ 4
    · -- only preambles were read
      have htake : bytes.take k = List.replicate k pktPreamble := by
        rw [List.take_append_of_le_length (by simpa using hpre), List.take_replicate,
          Nat.min_eq_left hpre]
      rw [htake]
      cases k with
      | zero => exact hp.notReady
      | succ k =>
          rw [run_preambles hp.listening k]
          exact hp.notReady
    · -- the parser is inside the frame
      obtain ⟨j, rfl⟩ : ∃ j, k = 4 + (j + 1) := ⟨k - 5, by omega⟩
      have hj : j ≤ f.body.length := by
        simp [bytes, Frame.wire] at hk
        omega
      have htake : bytes.take (4 + (j + 1)) =
          List.replicate 4 pktPreamble ++ pktSync :: f.body.take j := by
        have h := @List.take_length_add_append _ (List.replicate 4 pktPreamble) f.wire (j + 1)
        rw [List.length_replicate] at h
        rw [h, Frame.wire, List.cons_append, List.take_succ_cons,
          List.take_append_of_le_length hj]
      rw [htake, run_append, run_preambles hp.listening 3, run_cons]
      exact (hstart.read hf (f.body.take j) (f.body.drop j) (by simp)).1.notReady
  · have hbody := (hstart.read hf f.body [] (by simp)).1
    rw [List.nil_append] at hbody
    obtain ⟨hs, hframe⟩ := hbody.complete hf
    show (run pktParser p (List.replicate 4 pktPreamble ++ f.wire)).readyPacket = true ∧
      (run pktParser p (List.replicate 4 pktPreamble ++ f.wire)).rxbuf.frame = f ∧
      (run pktParser p (List.replicate 4 pktPreamble ++ f.wire)).state = .search
    rw [run_wire hp.listening, hbody.accept hs]
    exact ⟨rfl, hframe, rfl⟩

/-- Receiving a frame loads its bytes into the buffer, and leaves those behind it alone. -/
theorem Between.receive_load {f : Frame} (hf : f.Fits) {p : Pkt} (hp : Between p) :
    (run pktParser p (List.replicate 4 pktPreamble ++ f.wire)).rxbuf = p.rxbuf.load f := by
  have hstart : InFrame (pktParser { p with state := .sync } pktSync) [] :=
    pktParser_start rfl hp.free hp.notReady
  obtain ⟨hbody, hkeep⟩ := hstart.read hf f.body [] (by simp)
  rw [List.nil_append] at hbody hkeep
  have hfirst : (pktParser { p with state := .sync } pktSync).rxbuf = p.rxbuf := by
    simp [pktParser, pktRxAlloc, hp.free]
  rw [run_wire hp.listening, hbody.accept (hbody.complete hf).1]
  apply Vector.ext
  intro i hi
  simp only [RxBuf.load, Vector.getElem_ofFn]
  -- a byte is one of the frame or lies behind it
  by_cases hlt : i < f.body.length
  · rw [List.getElem?_eq_getElem hlt]
    exact BufferPrefix.getElem_of_take hbody.bytes hlt hi
  · rw [List.getElem?_eq_none (by omega)]
    simpa [hfirst] using hkeep i hi (by omega)

end BmsNode
