import Mathlib.Data.List.Basic

/-!
# The serial module

A model of `ser.c`: the 32-byte transmit ring, the half-duplex switching of
USART0 and its two transmit interrupt handlers. The receive handler hands its
byte to the packet parser and stands with the node, in `Firmware.Node`.
-/

namespace BmsNode

/-- The USART0 registers the firmware uses. `rxdatal` and `txdatal` hold a byte while the RXCIF
flag is set and while the DREIF flag is clear; `shifter` is the byte on the wire. -/
structure Usart where
  rxcie : Bool
  dreie : Bool
  txcie : Bool
  rxen : Bool
  txen : Bool
  txcif : Bool
  rxdatal : Option UInt8
  txdatal : Option UInt8
  shifter : Option UInt8
  deriving DecidableEq, Repr

/-- The statics of `ser.c` and the registers behind them. -/
structure Ser where
  headp : UInt8
  tailp : UInt8
  txbuf : Vector UInt8 32
  usart : Usart
  deriving DecidableEq, Repr

/-- `USART0` as `device_init` leaves it: receiver and transmitter enabled, receive interrupt on. -/
def Usart.init : Usart :=
  { rxcie := true, dreie := false, txcie := false, rxen := true, txen := true, txcif := false
    rxdatal := none, txdatal := none, shifter := none }

/-- The module before its first use. -/
def Ser.init : Ser := { headp := 0, tailp := 0, txbuf := Vector.replicate 32 0, usart := .init }

/-- `BUF_NOTEMPTY`. -/
def bufNotempty (s : Ser) : Bool := s.headp ≠ s.tailp

/-- `BUF_CNT`: the number of queued bytes. -/
def bufCnt (s : Ser) : UInt8 := (s.headp - s.tailp) &&& 0x1F

/-- `BUF_NOTFULL`. -/
def bufNotfull (s : Ser) : Bool := bufCnt s < 31

/-- `TXINT_ENABLE`. -/
def txintEnable (u : Usart) : Usart := { u with dreie := true, txcie := true }

/-- `TXINT_DISABLE`, which leaves the TXC interrupt as it is. -/
def txintDisable (u : Usart) : Usart := { u with dreie := false }

/-- The body of the copy loop: store one byte and advance the head. -/
def serPut (s : Ser) (byte : UInt8) : Ser :=
  { s with
    txbuf := s.txbuf.setIfInBounds s.headp.toNat byte
    headp := (s.headp + 1) &&& 0x1F }

/-- The copy loop of `ser_write` over the bytes still to copy, with the number copied. -/
def serCopy : Ser → List UInt8 → UInt8 × Ser
  | s, [] => (0, s)
  | s, byte :: rest =>
      if bufNotfull s then
        let (cnt, s) := serCopy (serPut s byte) rest
        (cnt + 1, s)
      else (0, s)

/-- `ser_write`: queue what fits of the buffer, then turn the bus around. -/
def serWrite (s : Ser) (buf : List UInt8) (len : UInt8) : UInt8 × Ser :=
  let s := { s with usart := { s.usart with rxcie := false } }
  let (cnt, s) := serCopy s (buf.take len.toNat)
  let u := txintEnable { s.usart with rxen := false, txen := true }
  (cnt, { s with usart := { u with rxcie := true } })

/-- `ser_flush`. -/
def serFlush (s : Ser) : Ser :=
  { s with
    headp := 0
    tailp := 0
    usart := { txintDisable s.usart with txcie := false, rxcie := true } }

/-- `ser_is_active`. -/
def serIsActive (s : Ser) : Bool :=
  bufNotempty s || s.usart.dreie || s.usart.txcie || s.usart.rxdatal.isSome

/-- The `USART0_DRE` handler: move one byte from the ring to the data register. -/
def usart0DreVect (s : Ser) : Ser :=
  if bufNotempty s then
    if s.usart.txdatal.isNone then
      { s with
        usart := { s.usart with txcif := false, txdatal := s.txbuf[s.tailp.toNat]? }
        tailp := (s.tailp + 1) &&& 0x1F }
    else s
  else { s with usart := txintDisable s.usart }

/-- The `USART0_TXC` handler: give the bus back once the ring is empty. -/
def usart0TxcVect (s : Ser) : Ser :=
  if bufNotempty s then { s with usart := txintEnable s.usart }
  else { s with usart := { s.usart with txcie := false, txen := false, rxen := true } }

/-- The transmitter itself: when the shift register runs empty it takes the waiting byte, and
raises TXCIF when there is none. -/
def usartShift (u : Usart) : Usart :=
  match u.txdatal, u.shifter with
  | some byte, _ => { u with shifter := some byte, txdatal := none }
  | none, some _ => { u with shifter := none, txcif := true }
  | none, none => u

end BmsNode
