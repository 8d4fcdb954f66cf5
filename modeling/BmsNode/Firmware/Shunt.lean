import BmsNode.Firmware.Cfg
import BmsNode.Firmware.Tmr

/-!
# The shunt module

A model of `shunt.c`: starting and stopping the shunt PWM and one pass of the
regulator `shunt_run`. Comparisons and products are on the types C gives them on the
target, where `int` has 16 bits: a board temperature is held in a `uint16_t`, so the
`int8_t` limits it is compared with are converted to `unsigned int` first.
-/

namespace BmsNode

/-- `enum shunt_status`. -/
inductive ShuntStatus where
  | off
  | idle
  | on
  | notused
  | limit
  deriving DecidableEq, Repr

/-- The numeric value of a status, as the STATUS reply carries it. -/
def ShuntStatus.code : ShuntStatus → UInt8
  | .off => 0
  | .idle => 1
  | .on => 2
  | .notused => 3
  | .limit => 4

/-- The TCA0 registers the firmware uses. -/
structure Tca0 where
  ctrla : UInt8
  ctrlb : UInt8
  ctrlc : UInt8
  per : UInt16
  cmp1 : UInt16
  deriving DecidableEq, Repr

/-- The statics of `shunt.c` and the PWM timer. -/
structure Shunt where
  shuntTimeout : UInt16
  loopTimeout : UInt16
  shuntStatus : ShuntStatus
  vrange : UInt16
  trange : UInt16
  pwm : UInt8
  tca0 : Tca0
  deriving DecidableEq, Repr

/-- The module before its first use. -/
def Shunt.init : Shunt :=
  { shuntTimeout := 0, loopTimeout := 0, shuntStatus := .off, vrange := 0, trange := 0, pwm := 0
    tca0 := { ctrla := 0, ctrlb := 0, ctrlc := 0, per := 0, cmp1 := 0 } }

/-- What the target's division routines return for a zero divisor. C leaves it undefined. -/
structure DivZero where
  quot32 : UInt32 → UInt32
  quot16 : UInt16 → UInt16

/-- Unsigned 32-bit division on the target. -/
def udiv32 (z : DivZero) (n d : UInt32) : UInt32 := if d = 0 then z.quot32 n else n / d

/-- Unsigned 16-bit division on the target. -/
def udiv16 (z : DivZero) (n d : UInt16) : UInt16 := if d = 0 then z.quot16 n else n / d

/-- An `int8_t` operand of a comparison with a `uint16_t`: promoted to `int`, then converted to
`unsigned int`. -/
def promote (t : Int8) : UInt16 := t.toInt16.toUInt16

/-- `SHUNT_LOOP_TIME`. -/
def shuntLoopTime : UInt16 := 100

/-- `shunt_set`. -/
def shuntSet (newpwm : UInt8) (s : Shunt) : Shunt :=
  { s with pwm := newpwm, tca0 := { s.tca0 with cmp1 := newpwm.toUInt16 } }

/-- `shunt_start`. -/
def shuntStart (ticks : UInt16) (cfg : Config) (s : Shunt) : Shunt :=
  let s := { s with tca0 := { ctrla := 0x0B, ctrlb := 0x23, ctrlc := 0, per := 256, cmp1 := 0 } }
  let s := shuntSet 0 s
  { s with
    shuntTimeout := tmrSet ticks 30000
    loopTimeout := tmrSet ticks 1
    vrange := cfg.shuntmax - cfg.shuntmin
    trange := (cfg.temphi.toInt16 - cfg.templo.toInt16).toUInt16
    shuntStatus := .idle }

/-- `shunt_stop`. -/
def shuntStop (s : Shunt) : Shunt :=
  let s := shuntSet 0 s
  { s with tca0 := { s.tca0 with ctrla := 0, ctrlc := 0 }, shuntStatus := .off }

/-- `shunt_get_status`, which also restarts the idle timeout. -/
def shuntGetStatus (ticks : UInt16) (s : Shunt) : ShuntStatus × Shunt :=
  (s.shuntStatus, { s with shuntTimeout := tmrSet ticks 30000 })

/-- Reading the status changes the idle timeout only. -/
theorem shuntGetStatus_eq (ticks : UInt16) (s : Shunt) :
    ∃ timeout, shuntGetStatus ticks s = (s.shuntStatus, { s with shuntTimeout := timeout }) :=
  ⟨tmrSet ticks 30000, by rw [shuntGetStatus]⟩

/-- `shunt_get_pwm`. -/
def shuntGetPwm (s : Shunt) : UInt8 := s.pwm

/-- The result of one regulation: the computed PWM and status, and the divisors of the divisions
carried out on the way. -/
structure Regulation where
  newpwm : UInt8
  status : ShuntStatus
  divisors : List UInt16
  deriving DecidableEq, Repr

/-- The first half of a regulation: the PWM by cell voltage. -/
def shuntVolts (z : DivZero) (cfg : Config) (vrange cellmv : UInt16) : Regulation :=
  if cellmv ≤ cfg.shuntmin then { newpwm := 0, status := .idle, divisors := [] }
  else if cellmv ≥ cfg.shuntmax then { newpwm := 255, status := .on, divisors := [] }
  else
    let pwmv : UInt32 := (cellmv - cfg.shuntmin).toUInt32
    let pwmv := udiv32 z (pwmv * 256) vrange.toUInt32
    { newpwm := if pwmv > 255 then 255 else pwmv.toUInt8, status := .on, divisors := [vrange] }

/-- The second half: the limit by board temperature on a non-zero PWM. -/
def shuntTemps (z : DivZero) (cfg : Config) (trange tempc : UInt16) (r : Regulation) :
    Regulation :=
  if r.newpwm ≠ 0 then
    if tempc ≥ promote cfg.temphi then { r with newpwm := 0, status := .limit }
    else if tempc ≤ promote cfg.templo then r
    else
      let pwmt : UInt16 := promote cfg.temphi - tempc
      let pwmt := udiv16 z (pwmt * 256) trange
      let r := { r with divisors := r.divisors ++ [trange] }
      if r.newpwm.toUInt16 > pwmt then { r with newpwm := pwmt.toUInt8, status := .limit } else r
  else r

/-- The regulation of one pass from the cell voltage and the board temperature. -/
def shuntRegulate (z : DivZero) (cfg : Config) (s : Shunt) (cellmv : UInt16) (tempC : Int16) :
    Regulation :=
  shuntTemps z cfg s.trange tempC.toUInt16 (shuntVolts z cfg s.vrange cellmv)

/-- A regulation never turns the shunt off. -/
theorem shuntRegulate_status (z : DivZero) (cfg : Config) (s : Shunt) (cellmv : UInt16)
    (tempC : Int16) : (shuntRegulate z cfg s cellmv tempC).status ≠ .off := by
  have hvolts : (shuntVolts z cfg s.vrange cellmv).status ≠ .off := by
    unfold shuntVolts
    split_ifs <;> simp
  unfold shuntRegulate shuntTemps
  dsimp only
  split_ifs
  · simp
  · exact hvolts
  · simp
  · exact hvolts
  · exact hvolts

/-- The smoothing at the end of a pass: one step from the current PWM towards the new one. -/
def shuntAdjust (newpwm pwm : UInt8) : UInt8 :=
  let adjust : Int8 := if newpwm > pwm then 1 else if newpwm < pwm then -1 else 0
  pwm + adjust.toUInt8

/-- Whether a call of `shunt_run` regulates: it is not off and its loop timer has expired. -/
def shuntDue (ticks : UInt16) (s : Shunt) : Bool :=
  s.shuntStatus ≠ .off && tmrExpired ticks s.loopTimeout

/-- `shunt_run`, given the voltage and temperature it reads. -/
def shuntRun (z : DivZero) (ticks : UInt16) (cfg : Config) (cellmv : UInt16) (tempC : Int16)
    (s : Shunt) : ShuntStatus × Shunt :=
  if s.shuntStatus = .off then (.off, shuntStop s)
  else if !tmrExpired ticks s.loopTimeout then (s.shuntStatus, s)
  else
    let s := { s with loopTimeout := s.loopTimeout + shuntLoopTime }
    let r := shuntRegulate z cfg s cellmv tempC
    let s := shuntSet (shuntAdjust r.newpwm s.pwm) { s with shuntStatus := r.status }
    let s := if tmrExpired ticks s.shuntTimeout then shuntStop s else s
    (s.shuntStatus, s)

/-- The divisors a call of `shunt_run` divides by. -/
def shuntDivisors (z : DivZero) (ticks : UInt16) (cfg : Config) (cellmv : UInt16) (tempC : Int16)
    (s : Shunt) : List UInt16 :=
  if shuntDue ticks s then (shuntRegulate z cfg s cellmv tempC).divisors else []

end BmsNode
