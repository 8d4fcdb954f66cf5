import BmsNode.Firmware.Cmd

/-!
# The application and its main loop

A model of `main.c`: the six state handlers and the main loop as a machine whose
program points are the calls of one pass, those inside `cmd_process` included.
Interrupts are taken between any two program points. The watchdog is modelled apart, in
`Machine.Watchdog`. The sleep instruction has no counterpart: while the MCU sleeps no
program point is passed.
-/

namespace BmsNode

/-! ## State handlers -/

/-- `enum kissm_event_type` and `enum app_event_types`. The packet of a command event is the one in
the receive buffer. -/
inductive Event where
  | none
  | any
  | exit
  | entry
  | tmr
  | timeout
  | cmd
  deriving DecidableEq, Repr

/-- The address of `state_tmr`. -/
def stateTmr : Nat := 0

/-- `STATE_TMR`. -/
def stateTmrId : UInt8 := 1

namespace Node

/-- Start the state timer. -/
def startStateTmr (n : Node) (duration : UInt16) : Node :=
  { n with tmrlist := tmrSchedule n.systick n.tmrlist stateTmr stateTmrId duration false }

/-- Replace the LED instances and the output pins. -/
def withLeds (n : Node) (lg : Leds × Gpio) : Node :=
  { n with leds := lg.1, rig := { n.rig with gpio := lg.2 } }

/-- `led_blink` on the blue LED. -/
def blinkBlue (n : Node) (on off : UInt16) : Node :=
  n.withLeds (ledBlink n.systick .blue on off n.leds n.rig.gpio)

/-- One call of `shunt_run`. -/
def shuntRun (p : Platform) (n : Node) : ShuntStatus × Node :=
  let (sts, shunt) :=
    BmsNode.shuntRun p.divZero n.systick n.conf n.cellmv (n.tempC p .boardTemp) n.rig.shunt
  (sts, { n with rig := { n.rig with shunt := shunt } })

/-- One call of `testmode_run`. -/
def testmodeRun (p : Platform) (n : Node) : UInt8 × Node :=
  let (sts, rig) := BmsNode.testmodeRun n.systick (n.tempC p .boardTemp) n.rig
  (sts, { n with rig := rig })

end Node

/-- The handler of the powerup state. -/
def powerupHandler (event : Event) (n : Node) : Option AppState × Node :=
  match event with
  | .entry => (none, (n.blinkBlue 50 50).startStateTmr 1000)
  | .timeout => (some .idle, n)
  | _ => (none, n)

/-- The command event of the idle state. -/
def idleCmd (n : Node) : Option AppState × Node :=
  let n := n.startStateTmr 1000
  let cmd := n.pkt.rxbuf.cmd
  if cmd = Cmd.dfu then (some .dfu, n)
  else if cmd = Cmd.shunton then (some .shunt, n)
  else if cmd = Cmd.testmode then (some .testmode, n)
  else if cmd = Cmd.ping then
    (none, n.withLeds (ledOneshot n.systick .green 1000 n.leds n.rig.gpio))
  else (none, n)

/-- The handler of the idle state. -/
def idleHandler (event : Event) (n : Node) : Option AppState × Node :=
  match event with
  | .entry => (none, (n.startStateTmr 1000).blinkBlue 200 200)
  | .exit => (none, n)
  | .cmd => idleCmd n
  | .timeout => (some .sleep, n)
  | _ => (none, if pktIsActive n.pkt || serIsActive n.ser then n.startStateTmr 1000 else n)

/-- The handler of the dfu state. -/
def dfuHandler (event : Event) (n : Node) : Option AppState × Node :=
  match event with
  | .entry => (none, (n.startStateTmr 8000).blinkBlue 1000 1000)
  | .timeout => (some .idle, n)
  | _ => (none, n)

/-- The handler of the shunt state. A command event falls through to the exit case. -/
def shuntHandler (p : Platform) (event : Event) (n : Node) : Option AppState × Node :=
  match event with
  | .entry =>
      let n := n.blinkBlue 800 200
      (none, { n with rig := { n.rig with shunt := shuntStart n.systick n.conf n.rig.shunt } })
  | .cmd =>
      if n.pkt.rxbuf.cmd = Cmd.shuntoff then
        (some .idle, { n with rig := { n.rig with shunt := shuntStop n.rig.shunt } })
      else (none, n)
  | .exit => (none, n)
  | _ =>
      let (sts, n) := n.shuntRun p
      (if sts = .off then some .idle else none, n)

/-- The handler of the testmode state. -/
def testmodeHandler (p : Platform) (event : Event) (n : Node) : Option AppState × Node :=
  match event with
  | .entry => (none, n.blinkBlue 200 800)
  | .exit => (none, n)
  | _ =>
      let (testSts, n) := n.testmodeRun p
      (if testSts = TestFunc.off then some .idle else none, n)

/-- The entry action of the sleep state: everything external off. -/
def sleepEntry (n : Node) : Node :=
  let n := { n with adc := adcPowerdown n.adc }
  let n := n.withLeds (ledOff .blue n.leds n.rig.gpio)
  let n := n.withLeds (ledOff .green n.leds n.rig.gpio)
  let gpio := { n.rig.gpio with extio := false, loadon := false, refon := false }
  { n with rig := { n.rig with gpio := gpio } }

/-- The exit action of the sleep state. -/
def sleepExit (n : Node) : Node :=
  let n := n.withLeds (ledOn .blue n.leds n.rig.gpio)
  { n with
    adc := adcPowerup n.systick n.adc
    rig := { n.rig with gpio := { n.rig.gpio with refon := true } } }

/-- The handler of the sleep state. -/
def sleepHandler (event : Event) (n : Node) : Option AppState × Node :=
  match event with
  | .entry => (none, sleepEntry n)
  | .exit => (none, sleepExit n)
  | _ => (some .idle, n)

/-- The handler of an application state. -/
def appHandler (p : Platform) : AppState → Event → Node → Option AppState × Node
  | .powerup => powerupHandler
  | .idle => idleHandler
  | .dfu => dfuHandler
  | .shunt => shuntHandler p
  | .testmode => testmodeHandler p
  | .sleep => sleepHandler

/-- `kissm_run` on the application. -/
def appRun (p : Platform) (event : Event) (n : Node) : Node :=
  let (ps, n) := kissmRun AppState.powerup (appHandler p) .exit .entry n.ps event n
  { n with ps := ps }

/-! ## The main loop -/

/-- The program points of `main_loop`. From `pktReady` to `arm` they are inside `cmd_process`;
`held` says whether the pass holds a returned packet. -/
inductive Control where
  | ledRun
  | adcRun
  | tmrProcess
  | pktReady
  | dispatch
  | rxFree
  | waitCheck
  | giveUp
  | arm
  | kissmRun (event : Event) (held : Bool)
  | loopFree (held : Bool)
  deriving DecidableEq, Repr

/-- A node at a program point of its main loop. -/
structure Machine where
  node : Node
  pc : Control
  deriving DecidableEq

/-- `main_loop` up to its loop, from reset, with the given EEPROM contents. -/
def boot (p : Platform) (eeprom : Config) : Machine :=
  let (leds, gpio) := ledOn .blue Leds.init Gpio.init
  let node : Node :=
    { systick := 0
      tmrlist := []
      cfg := (cfgLoad p.tail { gCfgParms := Vector.replicate 26 0, eeprom := eeprom }).2
      pkt := pktReset Pkt.init
      txpkt := TxPkt.init
      ser := serFlush Ser.init
      cmd := { pktTimeout := 0, pktWaiting := false }
      adc := adcPowerup 0 Adc.init
      rig := { TestRig.init with gpio := { gpio with refon := true } }
      leds := leds
      ps := .initial
      swrr := false
      calls := [] }
  { node := node, pc := .ledRun }

/-- The next program point of the main loop. The four samples are those an `adc_run` at this point
reads. A software reset requested by a handler restarts the firmware at once. -/
def mainStep (p : Platform) (samples : Vector UInt16 4) (m : Machine) : Machine :=
  let n := m.node
  match m.pc with
  | .ledRun => { node := n.withLeds (ledRun n.systick n.leds n.rig.gpio), pc := .adcRun }
  | .adcRun => { node := { n with adc := adcRun n.systick samples n.adc }, pc := .tmrProcess }
  | .tmrProcess =>
      match tmrProcess n.systick n.tmrlist with
      | (some expired, tmrlist) =>
          { node := { n with tmrlist := tmrlist }
            pc := .kissmRun (if expired.id = stateTmrId then .timeout else .none) false }
      | (none, tmrlist) => { node := { n with tmrlist := tmrlist }, pc := .pktReady }
  | .pktReady =>
      let (ready, n) := cmdReady n
      { node := n, pc := if ready then .dispatch else .waitCheck }
  | .dispatch =>
      let (ret, n) := cmdDispatch p n.pkt.rxbuf n
      -- CMD_DFU for this node does not return from its handler
      if n.swrr then boot p n.cfg.eeprom
      else { node := n, pc := if ret then .kissmRun .cmd true else .rxFree }
  | .rxFree => { node := n.rxFree, pc := .waitCheck }
  | .waitCheck =>
      if n.cmd.pktWaiting then
        { m with pc := if tmrExpired n.systick n.cmd.pktTimeout then .giveUp
            else .kissmRun .none false }
      else { m with pc := if pktIsActive n.pkt then .arm else .kissmRun .none false }
  | .giveUp => { node := cmdGiveUp n, pc := .kissmRun .none false }
  | .arm => { node := cmdArm n, pc := .kissmRun .none false }
  | .kissmRun event held => { node := appRun p event n, pc := .loopFree held }
  | .loopFree held => { node := if held then n.rxFree else n, pc := .ledRun }

/-- What can happen next: an interrupt, a step of the transmitter, or a program point of the main
loop. -/
inductive Action where
  | tick
  | rx (byte : UInt8)
  | dre
  | txc
  | shift
  | main (samples : Vector UInt16 4)
  deriving DecidableEq

/-- A number of program points of the main loop, with samples of zero. -/
def mains (count : Nat) : List Action := List.replicate count (.main (Vector.replicate 4 0))

/-- A byte arrives. Its interrupt is disabled only inside `ser_write`, so it is taken at once. -/
def receive (n : Node) (byte : UInt8) : Node :=
  usart0RxcVect
    { n with ser := { n.ser with usart := { n.ser.usart with rxdatal := some byte } } }

/-- One step of the machine. The transmit interrupts are taken only while enabled and pending. -/
def step (p : Platform) (m : Machine) : Action → Machine
  | .tick => { m with node := tcb0IntVect m.node }
  | .rx byte => { m with node := receive m.node byte }
  | .dre =>
      if m.node.ser.usart.dreie && m.node.ser.usart.txdatal.isNone then
        { m with node := { m.node with ser := usart0DreVect m.node.ser } }
      else m
  | .txc =>
      if m.node.ser.usart.txcie && m.node.ser.usart.txcif then
        { m with node := { m.node with ser := usart0TxcVect m.node.ser } }
      else m
  | .shift =>
      { m with node :=
          { m.node with ser := { m.node.ser with usart := usartShift m.node.ser.usart } } }
  | .main samples => mainStep p samples m

end BmsNode
