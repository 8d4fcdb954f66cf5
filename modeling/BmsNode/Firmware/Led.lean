import BmsNode.Firmware.Tmr

/-!
# The LED module and the output pins

A model of `led.c`, and the GPIO outputs it shares with the test mode and with the
sleep state.
-/

namespace BmsNode

/-- The GPIO outputs of `iomap.h`. -/
structure Gpio where
  green : Bool
  blue : Bool
  extio : Bool
  loadon : Bool
  refon : Bool
  deriving DecidableEq, Repr

/-- All outputs low, as `device_init` leaves them. -/
def Gpio.init : Gpio :=
  { green := false, blue := false, extio := false, loadon := false, refon := false }

/-- `enum led_index`. -/
inductive LedIndex where
  | green
  | blue
  deriving DecidableEq, Repr

/-- Drive the pin of an LED. -/
def Gpio.setLed (g : Gpio) (idx : LedIndex) (level : Bool) : Gpio :=
  match idx with
  | .green => { g with green := level }
  | .blue => { g with blue := level }

/-- `enum led_mode`. -/
inductive LedMode where
  | off
  | on
  | blinkOff
  | blinkOn
  | oneshot
  deriving DecidableEq, Repr

/-- `struct led` without the pin, which its index names. -/
structure Led where
  ton : UInt16
  toff : UInt16
  tmr : UInt16
  mode : LedMode
  deriving DecidableEq, Repr

/-- `led_table`. -/
structure Leds where
  green : Led
  blue : Led
  deriving DecidableEq, Repr

/-- Both instances before first use. -/
def Leds.init : Leds :=
  { green := { ton := 0, toff := 0, tmr := 0, mode := .off }
    blue := { ton := 0, toff := 0, tmr := 0, mode := .off } }

/-- `led_table[idx]`. -/
def Leds.get (l : Leds) : LedIndex → Led
  | .green => l.green
  | .blue => l.blue

/-- Replace one instance. -/
def Leds.set (l : Leds) (idx : LedIndex) (led : Led) : Leds :=
  match idx with
  | .green => { l with green := led }
  | .blue => { l with blue := led }

/-- `led_on`. -/
def ledOn (idx : LedIndex) (l : Leds) (g : Gpio) : Leds × Gpio :=
  (l.set idx { l.get idx with mode := .on }, g.setLed idx true)

/-- `led_off`. -/
def ledOff (idx : LedIndex) (l : Leds) (g : Gpio) : Leds × Gpio :=
  (l.set idx { l.get idx with mode := .off }, g.setLed idx false)

/-- `led_blink`. -/
def ledBlink (ticks : UInt16) (idx : LedIndex) (on off : UInt16) (l : Leds) (g : Gpio) :
    Leds × Gpio :=
  if on = 0 then ledOff idx l g
  else if off = 0 then ledOn idx l g
  else (l.set idx { ton := on, toff := off, tmr := tmrSet ticks on, mode := .blinkOn },
    g.setLed idx true)

/-- `led_oneshot`. -/
def ledOneshot (ticks : UInt16) (idx : LedIndex) (on : UInt16) (l : Leds) (g : Gpio) :
    Leds × Gpio :=
  if on ≠ 0 then
    let (l, g) := ledOn idx l g
    (l.set idx { l.get idx with mode := .oneshot, tmr := tmrSet ticks on }, g)
  else ledOff idx l g

/-- `led_process`: run the blink machine of one LED. -/
def ledProcess (ticks : UInt16) (idx : LedIndex) (l : Leds) (g : Gpio) : Leds × Gpio :=
  let led := l.get idx
  if tmrExpired ticks led.tmr then
    match led.mode with
    | .blinkOff => (l.set idx { led with tmr := led.tmr + led.ton, mode := .blinkOn },
        g.setLed idx true)
    | .blinkOn => (l.set idx { led with tmr := led.tmr + led.toff, mode := .blinkOff },
        g.setLed idx false)
    | .oneshot => (l.set idx { led with mode := .off }, g.setLed idx false)
    | _ => (l, g)
  else (l, g)

/-- `led_run`. -/
def ledRun (ticks : UInt16) (l : Leds) (g : Gpio) : Leds × Gpio :=
  let (l, g) := ledProcess ticks .green l g
  ledProcess ticks .blue l g

end BmsNode
