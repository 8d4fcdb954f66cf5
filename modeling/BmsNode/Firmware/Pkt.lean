import BmsNode.Firmware.Crc8
import BmsNode.Firmware.Ser

/-!
# The packet module

A model of `pkt.c`: the receive state machine, the single receive buffer and its
ownership flags, and the assembly of outgoing packets.
-/

namespace BmsNode

/-- `PKT_PREAMBLE`. -/
def pktPreamble : UInt8 := 0x55

/-- `PKT_SYNC`. -/
def pktSync : UInt8 := 0xF0

/-- `PKT_HEADER_LEN`. -/
def pktHeaderLen : UInt8 := 4

/-- `PKT_PAYLOAD_LEN`. -/
def pktPayloadLen : UInt8 := 12

/-- A payload length above the limit, as a number. -/
theorem gt_pktPayloadLen_iff (len : UInt8) : len > pktPayloadLen ↔ 12 < len.toNat :=
  UInt8.lt_iff_toNat_lt

/-- `PKT_FLAG_REPLY`. -/
def pktFlagReply : UInt8 := 0x80

/-- `rx_state_t`. -/
inductive RxState where
  | search
  | sync
  | header
  | data
  | check
  deriving DecidableEq, Repr

/-- The 16 bytes of `rxbuf`, read through `packet_t`. -/
abbrev RxBuf := Vector UInt8 16

namespace RxBuf

/-- The `flags` byte. -/
def flags (buf : RxBuf) : UInt8 := buf[0]

/-- The `addr` byte. -/
def addr (buf : RxBuf) : UInt8 := buf[1]

/-- The `cmd` byte. -/
def cmd (buf : RxBuf) : UInt8 := buf[2]

/-- The `len` byte. -/
def len (buf : RxBuf) : UInt8 := buf[3]

/-- The payload array is not empty, so that literals name its bytes. -/
instance payloadNeZero : @NeZero Nat Zero.ofOfNat0 12 := ⟨by decide⟩

/-- Byte `i` of the payload array. -/
def payload (buf : RxBuf) (i : Fin 12) : UInt8 := buf[4 + i.val]

end RxBuf

/-- The statics of the receive side of `pkt.c`. There is one buffer, so a `packet_t` pointer is
either null or `rxbuf`: `readyPacket` and `pbuf` say which. -/
structure Pkt where
  state : RxState
  rxbufInuse : Bool
  rxbuf : RxBuf
  readyPacket : Bool
  idx : UInt8
  crc : UInt8
  len : UInt8
  pbuf : Bool
  deriving DecidableEq, Repr

/-- The module before its first use. -/
def Pkt.init : Pkt :=
  { state := .search, rxbufInuse := false, rxbuf := Vector.replicate 16 0, readyPacket := false
    idx := 0, crc := 0, len := 0, pbuf := false }

/-- `pkt_is_active`. -/
def pktIsActive (p : Pkt) : Bool :=
  p.rxbufInuse || p.readyPacket || (p.state ≠ .search && p.state ≠ .sync)

/-- `pkt_reset`. -/
def pktReset (p : Pkt) : Pkt :=
  { p with state := .search, rxbufInuse := false, readyPacket := false }

/-- `pkt_rx_free`. -/
def pktRxFree (p : Pkt) : Pkt := { p with rxbufInuse := false }

/-- `pkt_rx_alloc`: whether the buffer was free, and the module with it taken. -/
def pktRxAlloc (p : Pkt) : Bool × Pkt :=
  if !p.rxbufInuse then (true, { p with rxbufInuse := true }) else (false, p)

/-- `pkt_ready`: whether a packet was waiting, and the module with it taken. -/
def pktReady (p : Pkt) : Bool × Pkt :=
  (p.readyPacket, { p with readyPacket := false })

/-- What the header and the data state share: update the running CRC, store the byte through
`pbuf` and advance the index. -/
def pktStore (p : Pkt) (nextbyte : UInt8) : Pkt :=
  { p with
    crc := crc8CcittUpdate p.crc nextbyte
    rxbuf := if p.pbuf then p.rxbuf.setIfInBounds p.idx.toNat nextbyte else p.rxbuf
    idx := p.idx + 1 }

/-- `pkt_parser`: process the next byte of the stream. -/
def pktParser (p : Pkt) (nextbyte : UInt8) : Pkt :=
  match p.state with
  | .search =>
      if nextbyte = pktPreamble then { p with state := .sync } else p
  | .sync =>
      if nextbyte = pktSync then
        let (pbuf, p) := pktRxAlloc p
        if pbuf then { p with pbuf := pbuf, state := .header, idx := 0, crc := 0 }
        else { p with pbuf := pbuf, state := .search }
      else if nextbyte ≠ pktPreamble then { p with state := .search }
      else p
  | .header =>
      let p := pktStore p nextbyte
      if p.idx = pktHeaderLen then
        let p := { p with len := p.rxbuf.len }
        if p.len = 0 then { p with state := .check }
        else if p.len > pktPayloadLen then { pktRxFree p with state := .search }
        else { p with state := .data }
      else p
  | .data =>
      let p := pktStore p nextbyte
      let p := { p with len := p.len - 1 }
      if p.len = 0 then { p with state := .check } else p
  | .check =>
      let p := { p with state := .search }
      if nextbyte = p.crc then { p with readyPacket := p.pbuf } else pktRxFree p

/-- `txpacket_t`: the constant preambles and sync byte are not stored, `pkt` is the `packet_t`
that follows them. -/
structure TxPkt where
  pkt : Vector UInt8 17
  deriving DecidableEq, Repr

/-- The transmit buffer before its first use. -/
def TxPkt.init : TxPkt := ⟨Vector.replicate 17 0⟩

/-- The bytes of the transmit buffer in memory order. -/
def TxPkt.bytes (t : TxPkt) : List UInt8 :=
  [pktPreamble, pktPreamble, pktPreamble, pktPreamble, pktSync] ++ t.pkt.toList

/-- The header stores at the top of `pkt_send`. -/
def TxPkt.setHeader (t : TxPkt) (flags addr cmd len : UInt8) : TxPkt :=
  ⟨(((t.pkt.set 0 flags).set 1 addr).set 2 cmd).set 3 len⟩

/-- The store `txpkt.pkt.payload[idx] = byte`. Index 12 is the `crc` member. -/
def TxPkt.setPayload (t : TxPkt) (idx : Nat) (byte : UInt8) : TxPkt :=
  ⟨t.pkt.setIfInBounds (4 + idx) byte⟩

/-- The payload loop of `pkt_send` from index `idx` on: copy the bytes and extend the CRC. -/
def pktCopy (idx : Nat) (t : TxPkt) (crc : UInt8) : List UInt8 → TxPkt × UInt8
  | [] => (t, crc)
  | byte :: rest => pktCopy (idx + 1) (t.setPayload idx byte) (crc8CcittUpdate crc byte) rest

/-- `pkt_send` up to the call of `ser_write`: the assembled transmit buffer. -/
def pktAssemble (t : TxPkt) (flags addr cmd : UInt8) (payload : List UInt8) (len : UInt8) :
    TxPkt :=
  let t := t.setHeader flags addr cmd len
  let crc := (t.pkt.toList.take 4).foldl crc8CcittUpdate 0
  let (t, crc) := pktCopy 0 t crc (payload.take len.toNat)
  t.setPayload len.toNat crc

/-- The bytes `pkt_send` hands to `ser_write`. -/
def pktFrame (t : TxPkt) (flags addr cmd : UInt8) (payload : List UInt8) (len : UInt8) :
    List UInt8 :=
  (pktAssemble t flags addr cmd payload len).bytes.take (4 + 1 + 4 + len + 1).toNat

/-- `pkt_send`: assemble a packet and queue it for transmission. -/
def pktSend (t : TxPkt) (s : Ser) (flags addr cmd : UInt8) (payload : List UInt8) (len : UInt8) :
    Bool × TxPkt × Ser :=
  if len > pktPayloadLen then (false, t, s)
  else
    let t := pktAssemble t flags addr cmd payload len
    let (idx, s) := serWrite s t.bytes (4 + 1 + 4 + len + 1)
    (idx = 4 + 1 + 4 + len + 1, t, s)

end BmsNode
