import BmsNode.Firmware.Node

/-!
# The command processor

A model of `cmd.c`: one handler for each command, the dispatch on address and
command, and the timeout that guards a reception. Handlers read the packet through
the receive buffer and return what the source returns: whether the packet goes back
to the main loop.
-/

namespace BmsNode

/-! ## Command codes -/

namespace Cmd

/-- `CMD_PING`. -/
def ping : UInt8 := 1

/-- `CMD_DFU`. -/
def dfu : UInt8 := 2

/-- `CMD_UID`. -/
def uid : UInt8 := 3

/-- `CMD_ADDR`. -/
def addr : UInt8 := 4

/-- `CMD_ADCRAW`. -/
def adcraw : UInt8 := 5

/-- `CMD_STATUS`. -/
def status : UInt8 := 6

/-- `CMD_SHUNTON`. -/
def shunton : UInt8 := 7

/-- `CMD_SHUNTOFF`. -/
def shuntoff : UInt8 := 8

/-- `CMD_SETPARM`. -/
def setparm : UInt8 := 9

/-- `CMD_GETPARM`. -/
def getparm : UInt8 := 10

/-- `CMD_TESTMODE`. -/
def testmode : UInt8 := 11

/-- `CMD_FACTORY`. -/
def factory : UInt8 := 12

end Cmd

/-! ## Handlers -/

/-- The bytes of a 16-bit value, low byte first. -/
def bytes16 (w : UInt16) : List UInt8 := [w.toUInt8, (w >>> 8).toUInt8]

/-- The bytes of a `u32buf_t` holding a 32-bit value, low byte first. -/
def bytes32 (w : UInt32) : List UInt8 :=
  [w.toUInt8, (w >>> 8).toUInt8, (w >>> 16).toUInt8, (w >>> 24).toUInt8]

/-- The 32-bit value of a `u32buf_t` holding four bytes. -/
def le32 (b0 b1 b2 b3 : UInt8) : UInt32 :=
  b0.toUInt32 ||| (b1.toUInt32 <<< 8) ||| (b2.toUInt32 <<< 16) ||| (b3.toUInt32 <<< 24)

/-- `cmd_ack`. -/
def cmdAck (pkt : RxBuf) (n : Node) : Bool × Node :=
  n.send pktFlagReply pkt.addr pkt.cmd [] 0

/-- `cmd_dfu`. The reset does not return to the caller; `swrr` records that it was requested. -/
def cmdDfu (n : Node) : Bool × Node :=
  (false, { n with swrr := true, calls := n.calls ++ [.reset] })

/-- `cmd_uid`. -/
def cmdUid (p : Platform) (n : Node) : Bool × Node :=
  let pld := bytes32 p.uid ++ [p.boardType, p.gVersion 0, p.gVersion 1, p.gVersion 2]
  n.send pktFlagReply n.nodeid Cmd.uid pld 8

/-- `cmd_addr`. -/
def cmdAddr (p : Platform) (pkt : RxBuf) (n : Node) : Bool × Node :=
  let pktuid := le32 (pkt.payload 0) (pkt.payload 1) (pkt.payload 2) (pkt.payload 3)
  if p.uid = pktuid then
    -- the faked SETPARM payload has two bytes; a third one is never read
    let cfg := (cfgSet p.tail n.cfg 2 #v[1, pkt.addr, 0]).2
    let n := { n with cfg := cfgStore p.tail cfg }
    n.send pktFlagReply n.nodeid Cmd.addr
      [pkt.payload 0, pkt.payload 1, pkt.payload 2, pkt.payload 3] 4
  else (false, n)

/-- `cmd_status`. -/
def cmdStatus (p : Platform) (n : Node) : Bool × Node :=
  let mvolts := n.cellmv
  let boardTemp := (n.tempC p .boardTemp).toUInt16
  let (status, shunt) := shuntGetStatus n.systick n.rig.shunt
  let n := { n with rig := { n.rig with shunt := shunt } }
  let extTemp := (n.tempC p .extTemp).toUInt16
  let mcuTemp := (n.tempC p .mcuTemp).toUInt16
  let pld := bytes16 mvolts ++ bytes16 boardTemp ++ [status.code, shuntGetPwm n.rig.shunt]
    ++ bytes16 extTemp ++ bytes16 mcuTemp
  n.send pktFlagReply n.nodeid Cmd.status pld 10

/-- `cmd_adcraw`. -/
def cmdAdcraw (n : Node) : Bool × Node :=
  let pld := (adcGetRaw n.adc).toList.flatMap bytes16
  n.send pktFlagReply n.nodeid Cmd.adcraw pld 8

/-- `cmd_setparm`. The reply is sent whether or not the parameter was accepted. -/
def cmdSetparm (p : Platform) (pkt : RxBuf) (n : Node) : Bool × Node :=
  let cfg := (cfgSet p.tail n.cfg pkt.len #v[pkt.payload 0, pkt.payload 1, pkt.payload 2]).2
  let n := { n with cfg := cfg }
  n.send pktFlagReply n.nodeid Cmd.setparm [pkt.payload 0] 1

/-- `cmd_getparm`. -/
def cmdGetparm (pkt : RxBuf) (n : Node) : Bool × Node :=
  let (len, value) := cfgGet n.cfg 12 (pkt.payload 0)
  let len := if len = 0 then 1 else len
  n.send pktFlagReply n.nodeid Cmd.getparm (pkt.payload 0 :: value) len

/-- `cmd_testmode`. -/
def cmdTestmode (pkt : RxBuf) (n : Node) : Bool × Node :=
  let n :=
    if pkt.payload 0 = 0 then n.testOff
    else if pkt.payload 1 = 0xCA ∧ pkt.payload 2 = 0xFE then
      if pkt.len = 5 then n.testOn (pkt.payload 0) (pkt.payload 3) (pkt.payload 4)
      else n.testOn (pkt.payload 0) 0 0
    else n
  cmdAck pkt n

/-- The FACTORY case of the dispatch. -/
def cmdFactory (p : Platform) (pkt : RxBuf) (n : Node) : Bool × Node :=
  cmdAck pkt { n with cfg := cfgReset p.tail n.cfg }

/-! ## Dispatch -/

/-- The `switch` on the command of a packet addressed to this node. -/
def cmdSwitch (p : Platform) (pkt : RxBuf) (n : Node) : Bool × Node :=
  if pkt.cmd = Cmd.ping then cmdAck pkt n
  else if pkt.cmd = Cmd.dfu then cmdDfu n
  else if pkt.cmd = Cmd.uid then cmdUid p n
  else if pkt.cmd = Cmd.adcraw then cmdAdcraw n
  else if pkt.cmd = Cmd.status then cmdStatus p n
  else if pkt.cmd = Cmd.shunton ∨ pkt.cmd = Cmd.shuntoff then cmdAck pkt n
  else if pkt.cmd = Cmd.getparm then cmdGetparm pkt n
  else if pkt.cmd = Cmd.setparm then cmdSetparm p pkt n
  else if pkt.cmd = Cmd.testmode then cmdTestmode pkt n
  else if pkt.cmd = Cmd.factory then cmdFactory p pkt n
  else (false, n)

/-- The body of `cmd_process` on a packet: whether it is returned to the main loop. -/
def cmdDispatch (p : Platform) (pkt : RxBuf) (n : Node) : Bool × Node :=
  if pkt.cmd = Cmd.addr then cmdAddr p pkt n
  else if n.nodeid = 0 then
    if pkt.addr = 0 ∧ pkt.cmd = Cmd.uid then cmdUid p n else (pkt.cmd = Cmd.dfu, n)
  else if pkt.addr = n.nodeid then cmdSwitch p pkt n
  else (pkt.cmd = Cmd.dfu, n)

/-- The head of `cmd_process`: take a waiting packet and clear the waiting flag. -/
def cmdReady (n : Node) : Bool × Node :=
  let (ready, pkt) := pktReady n.pkt
  if ready then (true, { n with pkt := pkt, cmd := { n.cmd with pktWaiting := false } })
  else (false, { n with pkt := pkt })

/-- The timeout's branch of `cmd_process` that gives up on a reception. -/
def cmdGiveUp (n : Node) : Node :=
  { n with pkt := pktReset n.pkt, cmd := { n.cmd with pktWaiting := false } }

/-- The timeout's branch of `cmd_process` that starts to wait for a reception. -/
def cmdArm (n : Node) : Node :=
  { n with cmd := { pktTimeout := tmrSet n.systick 5000, pktWaiting := true } }

/-- The tail of `cmd_process`, reached without a packet to return. -/
def cmdWait (n : Node) : Node :=
  if n.cmd.pktWaiting then
    if tmrExpired n.systick n.cmd.pktTimeout then cmdGiveUp n else n
  else if pktIsActive n.pkt then cmdArm n
  else n

/-- The release of a packet by `pkt_rx_free`. -/
def Node.rxFree (n : Node) : Node := { n with pkt := pktRxFree n.pkt }

/-- `cmd_process`: whether a packet is returned, which the caller must free. -/
def cmdProcess (p : Platform) (n : Node) : Bool × Node :=
  let (ready, n) := cmdReady n
  if ready then
    let (ret, n) := cmdDispatch p n.pkt.rxbuf n
    -- a packet that is not returned is freed here, and the timeout is looked after
    if ret then (true, n) else (false, cmdWait n.rxFree)
  else (false, cmdWait n)

end BmsNode
