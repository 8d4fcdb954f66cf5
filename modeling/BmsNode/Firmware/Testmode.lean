import BmsNode.Firmware.Led
import BmsNode.Firmware.Shunt

/-!
# The test mode module

A model of `testmode.c`. A test function drives the shunt timer and the output pins,
so the functions act on a `TestRig` holding the three together.
-/

namespace BmsNode

namespace TestFunc

/-- `TESTMODE_OFF`. -/
def off : UInt8 := 0

/-- `TESTMODE_VREF`. -/
def vref : UInt8 := 1

/-- `TESTMODE_IO`. -/
def io : UInt8 := 2

/-- `TESTMODE_SHUNT`. -/
def shunt : UInt8 := 3

/-- `TESTMODE_BLINK`. -/
def blink : UInt8 := 4

end TestFunc

/-- The statics of `testmode.c`. A `testmode_status_t` comes from a payload byte and can hold any
of its values. -/
structure Testmode where
  testSeconds : UInt16
  testTimeout : UInt16
  testState : UInt8
  blinkSeq : UInt8
  blinkTimeout : UInt16
  deriving DecidableEq, Repr

/-- The module before its first use. -/
def Testmode.init : Testmode :=
  { testSeconds := 0, testTimeout := 0, testState := TestFunc.off, blinkSeq := 0
    blinkTimeout := 0 }

/-- The test mode with the outputs it drives. -/
structure TestRig where
  test : Testmode
  shunt : Shunt
  gpio : Gpio
  deriving DecidableEq, Repr

/-- The rig before first use. -/
def TestRig.init : TestRig := { test := .init, shunt := .init, gpio := .init }

/-- `TCA_SINGLE_CMP1OV_bm`. -/
def cmp1ov : UInt8 := 0x02

/-- The macro `SHUNT_ON` of `testmode.c`: force the PWM pin high. -/
def pinShuntOn (s : Shunt) : Shunt :=
  { s with tca0 := { s.tca0 with ctrlc := s.tca0.ctrlc ||| cmp1ov } }

/-- The macro `SHUNT_OFF` of `testmode.c`: release the PWM pin. -/
def pinShuntOff (s : Shunt) : Shunt :=
  { s with tca0 := { s.tca0 with ctrlc := s.tca0.ctrlc &&& ~~~cmp1ov } }

/-- `testmode_off`. -/
def testmodeOff (r : TestRig) : TestRig :=
  { test := { r.test with testState := TestFunc.off }
    shunt := pinShuntOff (shuntStop r.shunt)
    gpio := { r.gpio with extio := false, green := false, blue := false } }

/-- `testmode_on`. The second value byte is not used by any test function. -/
def testmodeOn (ticks : UInt16) (cfg : Config) (testfunc val0 _val1 : UInt8) (r : TestRig) :
    TestRig :=
  let test := { r.test with
    testSeconds := 0, testTimeout := tmrSet ticks 1000, testState := testfunc }
  let r := { r with test := test }
  if testfunc = TestFunc.vref then { r with gpio := { r.gpio with refon := true } }
  else if testfunc = TestFunc.io then { r with gpio := { r.gpio with extio := true } }
  else if testfunc = TestFunc.shunt then
    { r with shunt := shuntSet val0 (shuntStart ticks cfg r.shunt) }
  else if testfunc = TestFunc.blink then
    { r with test := { r.test with blinkSeq := 3, blinkTimeout := tmrSet ticks 750 } }
  else testmodeOff r

/-- The one-second counter of `testmode_run`: whether the minute is over. -/
def testmodeTick (ticks : UInt16) (t : Testmode) : Bool × Testmode :=
  if tmrExpired ticks t.testTimeout then
    let t := { t with testSeconds := t.testSeconds + 1 }
    if t.testSeconds < 60 then (false, { t with testTimeout := t.testTimeout + 1000 })
    else (true, t)
  else (false, t)

/-- The blink sequence of `testmode_run`. -/
def testmodeBlink (ticks : UInt16) (r : TestRig) : TestRig :=
  if tmrExpired ticks r.test.blinkTimeout then
    let shunt := pinShuntOff r.shunt
    let gpio := { r.gpio with green := false, blue := false }
    let seq := (r.test.blinkSeq + 1) &&& 3
    let advance (dt : UInt16) : Testmode :=
      { r.test with blinkSeq := seq, blinkTimeout := r.test.blinkTimeout + dt }
    if seq = 0 then { test := advance 50, shunt := pinShuntOn shunt, gpio := gpio }
    else if seq = 1 then { test := advance 100, shunt := shunt, gpio := { gpio with green := true } }
    else if seq = 2 then { test := advance 100, shunt := shunt, gpio := { gpio with blue := true } }
    else { test := advance 750, shunt := shunt, gpio := gpio }
  else r

/-- `testmode_run`, given the board temperature it reads. -/
def testmodeRun (ticks : UInt16) (tempC : Int16) (r : TestRig) : UInt8 × TestRig :=
  if r.test.testState = TestFunc.off then (TestFunc.off, testmodeOff r)
  else
    let (timedOut, test) := testmodeTick ticks r.test
    let r := { r with test := test }
    if timedOut then (TestFunc.off, testmodeOff r)
    else if r.test.testState = TestFunc.blink then
      let r := testmodeBlink ticks r
      (r.test.testState, r)
    else if r.test.testState = TestFunc.shunt ∧ tempC.toUInt16 > 60 then
      (TestFunc.off, testmodeOff r)
    else (r.test.testState, r)

end BmsNode
