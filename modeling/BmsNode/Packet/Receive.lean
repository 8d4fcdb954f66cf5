import BmsNode.Bytes.Prefix
import BmsNode.Bytes.Word
import BmsNode.Firmware.Pkt

/-!
# What the parser does with a byte

`InFrame p got` describes the parser inside a frame whose bytes after the sync byte
were `got`: the buffer, the index, the running CRC and the remaining length are all
functions of them. The lemmas after it say once what each byte does to the parser,
outside a frame and inside one; everything about streams of bytes is derived from
these.
-/

namespace BmsNode

/-- A packet on the bus, without preamble, sync and check byte. -/
structure Frame where
  flags : UInt8
  addr : UInt8
  cmd : UInt8
  len : UInt8
  payload : List UInt8
  deriving DecidableEq, Repr

/-- The header and payload bytes of a packet, the ones its CRC covers. -/
def Frame.body (f : Frame) : List UInt8 := [f.flags, f.addr, f.cmd, f.len] ++ f.payload

/-- The bytes of a frame from the sync byte to the CRC byte. -/
def Frame.wire (f : Frame) : List UInt8 := pktSync :: f.body ++ [crc8 f.body]

/-- The packet in a receive buffer: the header and the first `len` payload bytes. -/
def RxBuf.frame (buf : RxBuf) : Frame :=
  { flags := buf.flags, addr := buf.addr, cmd := buf.cmd, len := buf.len
    payload := (buf.toList.drop 4).take buf.len.toNat }

/-- The buffer after a packet was received into it: the bytes behind the payload stay. -/
def RxBuf.load (buf : RxBuf) (f : Frame) : RxBuf :=
  Vector.ofFn fun i => (f.body[i.val]?).getD buf[i]

/-- The length byte among the bytes of a frame. -/
def lenByte (got : List UInt8) : UInt8 := got.getD 3 0

/-- The parser is outside a frame. -/
def Listening (p : Pkt) : Prop := p.state = .search ∨ p.state = .sync

/-- Which bytes of a frame can have been read in each parser state. -/
def FramePhase (p : Pkt) (got : List UInt8) : Prop :=
  match p.state with
  | .search | .sync => False
  | .header => got.length < 4
  | .data => 4 ≤ got.length ∧ 0 < p.len.toNat ∧
      got.length + p.len.toNat = 4 + (lenByte got).toNat ∧ (lenByte got).toNat ≤ 12
  | .check => got.length = 4 + (lenByte got).toNat ∧ (lenByte got).toNat ≤ 12

/-- The parser is inside a frame and has read the bytes `got` since the sync byte. -/
structure InFrame (p : Pkt) (got : List UInt8) : Prop where
  inuse : p.rxbufInuse = true
  notReady : p.readyPacket = false
  pbuf : p.pbuf = true
  idx : p.idx.toNat = got.length
  crc : p.crc = crc8 got
  bytes : p.rxbuf.toList.take got.length = got
  phase : FramePhase p got

/-! ## Outside a frame -/

/-- A byte that does not start a frame only decides between searching and waiting for sync. -/
theorem pktParser_listening {p : Pkt} (hp : Listening p) (byte : UInt8)
    (hsync : ¬(p.state = .sync ∧ byte = pktSync)) :
    pktParser p byte = { p with state := if byte = pktPreamble then .sync else .search } := by
  obtain ⟨state, inuse, rxbuf, ready, idx, crc, len, pbuf⟩ := p
  rcases hp with rfl | rfl
  · by_cases hpre : byte = pktPreamble <;> simp [pktParser, hpre]
  · have hne : byte ≠ pktSync := fun h => hsync ⟨rfl, h⟩
    by_cases hpre : byte = pktPreamble <;> simp [pktParser, hpre, hne]
    simp [pktPreamble, pktSync]

/-- A sync byte after a preamble starts a frame when the buffer is free. -/
theorem pktParser_start {p : Pkt} (hstate : p.state = .sync) (hfree : p.rxbufInuse = false)
    (hready : p.readyPacket = false) : InFrame (pktParser p pktSync) [] := by
  constructor <;>
    simp [pktParser, hstate, pktRxAlloc, hfree, hready, FramePhase, crc8]

/-- A sync byte after a preamble is ignored while the buffer is in use. -/
theorem pktParser_busy {p : Pkt} (hstate : p.state = .sync) (hbusy : p.rxbufInuse = true) :
    pktParser p pktSync = { p with pbuf := false, state := .search } := by
  simp [pktParser, hstate, pktRxAlloc, hbusy]

/-! ## Inside a frame -/

/-- The parser is inside the frame in one of its three frame states. -/
theorem InFrame.state_cases {p : Pkt} {got : List UInt8} (h : InFrame p got) :
    p.state = .header ∨ p.state = .data ∨ p.state = .check := by
  have hphase := h.phase
  cases hs : p.state <;> simp_all [FramePhase]

/-- With header or payload bytes still missing, the parser does not expect the CRC byte. -/
theorem InFrame.not_check {p : Pkt} {got : List UInt8} (h : InFrame p got)
    (hmissing : got.length < 4 + (lenByte got).toNat) : p.state ≠ .check := by
  intro hs
  have hphase := h.phase
  simp only [FramePhase, hs] at hphase
  omega

/-- With header and payload read, the parser expects the CRC byte. -/
theorem InFrame.check {p : Pkt} {got : List UInt8} (h : InFrame p got)
    (hall : got.length = 4 + (lenByte got).toNat) : p.state = .check := by
  have hphase := h.phase
  rcases h.state_cases with hs | hs | hs
  · simp only [FramePhase, hs] at hphase
    omega
  · simp only [FramePhase, hs] at hphase
    omega
  · exact hs

/-- The store of a header or payload byte extends the bytes read by one. -/
theorem InFrame.store {p : Pkt} {got : List UInt8} (h : InFrame p got) (hlen : got.length < 16)
    (byte : UInt8) :
    (pktStore p byte).idx.toNat = (got ++ [byte]).length ∧
      (pktStore p byte).crc = crc8 (got ++ [byte]) ∧
      (pktStore p byte).rxbuf.toList.take (got ++ [byte]).length = got ++ [byte] := by
  have hidx := h.idx
  refine ⟨?_, ?_, ?_⟩
  · simp only [pktStore, UInt8.toNat_add, hidx, List.length_append]
    simp
    omega
  · simp [pktStore, h.crc]
  · simp only [pktStore, h.pbuf, if_true, hidx, List.length_append, List.length_singleton]
    rw [BufferPrefix.take_succ_set p.rxbuf byte hlen, h.bytes]

/-- Once the header is complete, the length byte stays what it is. -/
theorem lenByte_append {got : List UInt8} (h : 4 ≤ got.length) (byte : UInt8) :
    lenByte (got ++ [byte]) = lenByte got := by
  simp [lenByte, List.getElem?_append_left (show 3 < got.length by omega)]

/-- The fourth byte of a frame is its length byte. -/
theorem lenByte_fourth {got : List UInt8} (h : got.length = 3) (byte : UInt8) :
    lenByte (got ++ [byte]) = byte := by
  simp [lenByte, ← h]

/-- After the store that completes the header, the buffer's `len` field is the byte stored. -/
theorem InFrame.store_len {p : Pkt} {got : List UInt8} (h : InFrame p got) (hlen : got.length = 3)
    (byte : UInt8) : (pktStore p byte).rxbuf.len = byte := by
  obtain ⟨-, -, hbytes⟩ := h.store (by omega) byte
  have hget := BufferPrefix.getElem_of_take hbytes (i := 3) (by simp [hlen]) (by omega)
  rw [RxBuf.len, hget]
  simp [← hlen]

/-- A header byte before the fourth is stored, and nothing else happens. -/
theorem pktParser_header {p : Pkt} {got : List UInt8} (h : InFrame p got)
    (hstate : p.state = .header) (hlen : got.length ≠ 3) (byte : UInt8) :
    pktParser p byte = pktStore p byte := by
  have hshort : got.length < 4 := by simpa [FramePhase, hstate] using h.phase
  obtain ⟨hidx, -, -⟩ := h.store (by omega) byte
  have hne : (pktStore p byte).idx ≠ pktHeaderLen := by
    intro heq
    rw [heq] at hidx
    simp [pktHeaderLen] at hidx
    omega
  simp [pktParser, hstate, hne]

/-- The fourth header byte decides between payload, CRC and giving up. -/
theorem pktParser_length {p : Pkt} {got : List UInt8} (h : InFrame p got)
    (hstate : p.state = .header) (hlen : got.length = 3) (byte : UInt8) :
    pktParser p byte =
      let q := { pktStore p byte with len := byte }
      if byte = 0 then { q with state := .check }
      else if byte > pktPayloadLen then { q with rxbufInuse := false, state := .search }
      else { q with state := .data } := by
  obtain ⟨hidx, -, -⟩ := h.store (by omega) byte
  have heq : (pktStore p byte).idx = pktHeaderLen := by
    rw [← UInt8.toNat_inj, hidx]
    simp [hlen, pktHeaderLen]
  simp [pktParser, hstate, heq, h.store_len hlen byte, pktRxFree]

/-- A payload byte is stored and counted. -/
theorem pktParser_data {p : Pkt} (hstate : p.state = .data) (byte : UInt8) :
    pktParser p byte =
      let q := { pktStore p byte with len := p.len - 1 }
      if p.len - 1 = 0 then { q with state := .check } else q := by
  simp [pktParser, hstate, pktStore]

/-- A header byte before the fourth leaves the parser in the header. -/
theorem InFrame.more_header {p : Pkt} {got : List UInt8} (h : InFrame p got)
    (hs : p.state = .header) (hlen : got.length ≠ 3) (byte : UInt8) :
    InFrame (pktParser p byte) (got ++ [byte]) := by
  have hshort : got.length < 4 := by simpa [FramePhase, hs] using h.phase
  obtain ⟨hidx, hcrc, hbytes⟩ := h.store (by omega) byte
  rw [pktParser_header h hs hlen]
  refine ⟨h.inuse, h.notReady, h.pbuf, hidx, hcrc, hbytes, ?_⟩
  simp [FramePhase, pktStore, hs]
  omega

/-- A length byte within the limit leads to the payload, or straight to the CRC byte. -/
theorem InFrame.more_length {p : Pkt} {got : List UInt8} (h : InFrame p got)
    (hs : p.state = .header) (hlen : got.length = 3) {byte : UInt8} (hle : byte.toNat ≤ 12) :
    InFrame (pktParser p byte) (got ++ [byte]) := by
  obtain ⟨hidx, hcrc, hbytes⟩ := h.store (by omega) byte
  have hnot : ¬ byte > pktPayloadLen := by
    rw [gt_pktPayloadLen_iff]
    exact Nat.not_lt.mpr hle
  rw [pktParser_length h hs hlen]
  by_cases hzero : byte = 0
  · rw [if_pos hzero]
    refine ⟨h.inuse, h.notReady, h.pbuf, hidx, hcrc, hbytes, ?_⟩
    simp [FramePhase, lenByte_fourth hlen, hlen, hzero]
  · rw [if_neg hzero, if_neg hnot]
    refine ⟨h.inuse, h.notReady, h.pbuf, hidx, hcrc, hbytes, ?_⟩
    have hpos : byte.toNat ≠ 0 := fun h0 => hzero (UInt8.toNat_inj.mp h0)
    simp [FramePhase, lenByte_fourth hlen, hlen]
    omega

/-- A payload byte leaves the parser in the payload, the last one leads to the CRC byte. -/
theorem InFrame.more_data {p : Pkt} {got : List UInt8} (h : InFrame p got) (hs : p.state = .data)
    (byte : UInt8) : InFrame (pktParser p byte) (got ++ [byte]) := by
  obtain ⟨hfour, hpos, hsum, hmax⟩ :
      4 ≤ got.length ∧ 0 < p.len.toNat ∧
        got.length + p.len.toNat = 4 + (lenByte got).toNat ∧ (lenByte got).toNat ≤ 12 := by
    simpa [FramePhase, hs] using h.phase
  obtain ⟨hidx, hcrc, hbytes⟩ := h.store (by omega) byte
  have hdec := Word.toNat_sub_one hpos
  rw [pktParser_data hs]
  by_cases hlast : p.len - 1 = 0
  · rw [if_pos hlast]
    refine ⟨h.inuse, h.notReady, h.pbuf, hidx, hcrc, hbytes, ?_⟩
    rw [hlast] at hdec
    simp [FramePhase, lenByte_append hfour] at hdec ⊢
    omega
  · rw [if_neg hlast]
    refine ⟨h.inuse, h.notReady, h.pbuf, hidx, hcrc, hbytes, ?_⟩
    have hne : (p.len - 1).toNat ≠ 0 := fun h0 => hlast (UInt8.toNat_inj.mp h0)
    simp [FramePhase, pktStore, hs, lenByte_append hfour]
    omega

/-- A byte that neither completes a frame nor carries a length above the limit leaves the parser
inside the frame, with the byte added to those read. -/
theorem InFrame.more {p : Pkt} {got : List UInt8} (h : InFrame p got) (hstate : p.state ≠ .check)
    (byte : UInt8) (hbyte : got.length = 3 → byte.toNat ≤ 12) :
    InFrame (pktParser p byte) (got ++ [byte]) := by
  rcases h.state_cases with hs | hs | hs
  · by_cases hlen : got.length = 3
    · exact h.more_length hs hlen (hbyte hlen)
    · exact h.more_header hs hlen byte
  · exact h.more_data hs byte
  · exact absurd hs hstate

/-- A header or payload byte is stored behind those read, and no other byte of the buffer changes.
-/
theorem InFrame.more_rxbuf {p : Pkt} {got : List UInt8} (h : InFrame p got)
    (hstate : p.state ≠ .check) (byte : UInt8) :
    (pktParser p byte).rxbuf = p.rxbuf.setIfInBounds got.length byte := by
  have hstore : (pktStore p byte).rxbuf = p.rxbuf.setIfInBounds got.length byte := by
    simp only [pktStore, h.pbuf, if_true, h.idx]
  rw [← hstore]
  rcases h.state_cases with hs | hs | hs
  · by_cases hlen : got.length = 3
    · rw [pktParser_length h hs hlen]
      dsimp only
      split_ifs <;> rfl
    · rw [pktParser_header h hs hlen]
  · rw [pktParser_data hs]
    dsimp only
    split_ifs <;> rfl
  · exact absurd hs hstate

/-- A length byte above the limit drops the frame and frees the buffer. -/
theorem InFrame.oversize {p : Pkt} {got : List UInt8} (h : InFrame p got) (hlen : got.length = 3)
    {byte : UInt8} (hbyte : 12 < byte.toNat) :
    (pktParser p byte).state = .search ∧ (pktParser p byte).rxbufInuse = false ∧
      (pktParser p byte).readyPacket = false := by
  have hs : p.state = .header := by
    have hphase := h.phase
    rcases h.state_cases with hs | hs | hs
    · exact hs
    · simp [FramePhase, hs, hlen] at hphase
    · simp [FramePhase, hs, hlen] at hphase
      omega
  have hbig := (gt_pktPayloadLen_iff byte).mpr hbyte
  have hzero : byte ≠ 0 := by
    rintro rfl
    simp at hbyte
  rw [pktParser_length h hs hlen]
  simp [hbig, hzero, pktStore, h.notReady]

/-- The right CRC byte accepts the packet. -/
theorem InFrame.accept {p : Pkt} {got : List UInt8} (h : InFrame p got) (hs : p.state = .check) :
    pktParser p (crc8 got) = { p with state := .search, readyPacket := true } := by
  simp [pktParser, hs, h.crc, h.pbuf]

/-- Any other CRC byte drops the packet and frees the buffer. -/
theorem InFrame.reject {p : Pkt} {got : List UInt8} (h : InFrame p got) (hs : p.state = .check)
    {byte : UInt8} (hbyte : byte ≠ crc8 got) :
    pktParser p byte = { p with state := .search, rxbufInuse := false } := by
  simp [pktParser, hs, h.crc, hbyte, pktRxFree]

end BmsNode
