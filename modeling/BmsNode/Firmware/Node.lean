import BmsNode.Firmware.Pkt
import BmsNode.Firmware.Adc
import BmsNode.Firmware.Testmode
import BmsNode.Firmware.Kissm

/-!
# The node

All statics of the firmware in one record, with the board it runs on. `calls` is not
part of the firmware: it records, in order, the calls by which the command processor
acts on the outside of its own module. `g_board_type` is left out, since nothing reads
it.
-/

namespace BmsNode

/-- What the firmware finds on its board: the production data, the calibration of the MCU
temperature sensor, the version it was built with, the RAM that follows `g_cfg_parms`, and the
result of a division by zero. -/
structure Platform where
  uid : UInt32
  boardType : UInt8
  gVersion : Fin 3 → UInt8
  sigrow : Tempsense
  tail : Nat → UInt8
  divZero : DivZero

/-- A board for closed examples. Its division routines return all ones for a zero divisor. -/
def benchBoard : Platform :=
  { uid := 0x12345678, boardType := 1, gVersion := fun _ => 0, sigrow := ⟨128, 0⟩, tail := fun _ => 0
    divZero := ⟨fun _ => 0xFFFFFFFF, fun _ => 0xFFFF⟩ }

/-- The application states of `main.c`. -/
inductive AppState where
  | powerup
  | idle
  | dfu
  | shunt
  | testmode
  | sleep
  deriving DecidableEq, Repr

/-- A call the command processor makes. -/
inductive Call where
  | pktSend (flags addr cmd : UInt8) (payload : List UInt8)
  | testmodeOn (testfunc val0 val1 : UInt8)
  | testmodeOff
  | reset
  deriving DecidableEq, Repr

/-- The statics of `cmd.c`. -/
structure CmdTimer where
  pktTimeout : UInt16
  pktWaiting : Bool
  deriving DecidableEq, Repr

/-- The state of a node. `swrr` is the software reset request of `RSTCTRL`. -/
structure Node where
  systick : UInt16
  tmrlist : List Tmr
  cfg : Cfg
  pkt : Pkt
  txpkt : TxPkt
  ser : Ser
  cmd : CmdTimer
  adc : Adc
  rig : TestRig
  leds : Leds
  ps : KissmState AppState
  swrr : Bool
  calls : List Call
  deriving DecidableEq

namespace Node

/-- The live configuration. -/
def conf (n : Node) : Config := n.cfg.gCfgParms

/-- `NODEID`. -/
def nodeid (n : Node) : UInt8 := n.conf.addr

/-- The cell voltage the node reads. -/
def cellmv (n : Node) : UInt16 := adcGetCellmv n.conf n.adc

/-- The temperature the node reads on a channel. -/
def tempC (p : Platform) (n : Node) (ch : AdcChannel) : Int16 := adcGetTempC p.sigrow n.adc ch

/-- `pkt_send` from the command processor. -/
def send (n : Node) (flags addr cmd : UInt8) (payload : List UInt8) (len : UInt8) : Bool × Node :=
  let (sent, txpkt, ser) := pktSend n.txpkt n.ser flags addr cmd payload len
  (sent, { n with
    txpkt := txpkt
    ser := ser
    calls := n.calls ++ [.pktSend flags addr cmd (payload.take len.toNat)] })

/-- `testmode_on` from the command processor. -/
def testOn (n : Node) (testfunc val0 val1 : UInt8) : Node :=
  { n with
    rig := testmodeOn n.systick n.conf testfunc val0 val1 n.rig
    calls := n.calls ++ [.testmodeOn testfunc val0 val1] }

/-- `testmode_off` from the command processor. -/
def testOff (n : Node) : Node :=
  { n with rig := testmodeOff n.rig, calls := n.calls ++ [.testmodeOff] }

end Node

/-- The `USART0_RXC` handler: hand the received byte to the parser. -/
def usart0RxcVect (n : Node) : Node :=
  match n.ser.usart.rxdatal with
  | some ch =>
      { n with
        ser := { n.ser with usart := { n.ser.usart with rxdatal := none } }
        pkt := pktParser n.pkt ch }
  | none => n

/-- The `TCB0_INT` handler. -/
def tcb0IntVect (n : Node) : Node := { n with systick := n.systick + 1 }

end BmsNode
