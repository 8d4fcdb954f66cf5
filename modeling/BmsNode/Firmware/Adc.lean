import BmsNode.Firmware.Cfg
import BmsNode.Firmware.Tmr

/-!
# The ADC module and the thermistor table

A model of `adc.c` and `thermistor_table.c`. The converter results are an input:
`adc_collect` takes the four samples it reads. Products and sums are on the types
C gives them on the target, where `int` has 16 bits.
-/

namespace BmsNode

/-- `enum adc_channel`. -/
inductive AdcChannel where
  | cellv
  | boardTemp
  | extTemp
  | mcuTemp
  deriving DecidableEq, Repr

/-- The index of a channel in `results`. -/
def AdcChannel.index : AdcChannel → Fin 4
  | .cellv => 0
  | .boardTemp => 1
  | .extTemp => 2
  | .mcuTemp => 3

/-- The statics of `adc.c` and the enable bit of the converter. -/
structure Adc where
  enabled : Bool
  results : Vector UInt16 4
  adcTimeout : UInt16
  deriving DecidableEq, Repr

/-- The module before its first use. -/
def Adc.init : Adc := { enabled := false, results := Vector.replicate 4 0, adcTimeout := 0 }

/-- The stored result of a channel. -/
def Adc.result (s : Adc) (ch : AdcChannel) : UInt16 := s.results[ch.index.val]

/-- `adc_powerup`. -/
def adcPowerup (ticks : UInt16) (s : Adc) : Adc :=
  { s with enabled := true, adcTimeout := tmrSet ticks 3 }

/-- `adc_powerdown`. -/
def adcPowerdown (s : Adc) : Adc := { s with enabled := false }

/-- `adc_filter`. -/
def adcFilter (sample smoothed : UInt16) : UInt16 :=
  let smoothed := sample * 8 + smoothed * (32 - 8)
  (smoothed + 16) / 32

/-- `adc_collect`, given the four samples. -/
def adcCollect (samples : Vector UInt16 4) (s : Adc) : Adc :=
  { s with
    results := #v[adcFilter samples[0] s.results[0], adcFilter samples[1] s.results[1],
      adcFilter samples[2] s.results[2], adcFilter samples[3] s.results[3]] }

/-- `adc_run`. -/
def adcRun (ticks : UInt16) (samples : Vector UInt16 4) (s : Adc) : Adc :=
  if s.enabled && tmrExpired ticks s.adcTimeout then
    adcCollect samples { s with adcTimeout := s.adcTimeout + 100 }
  else s

/-- `adc_get_raw`. -/
def adcGetRaw (s : Adc) : Vector UInt16 4 := s.results

/-- `adc_get_cellmv`. -/
def adcGetCellmv (cfg : Config) (s : Adc) : UInt16 :=
  let mv1024 : UInt32 := s.results[0].toUInt32 * cfg.vscale.toUInt32
  let mv1024 := mv1024 / 1024
  let mv1024 := mv1024 + cfg.voffset.toInt32.toUInt32
  mv1024.toUInt16

/-- `therm_table`. -/
def thermTable : List UInt16 :=
  [267, 304, 343, 382, 422, 462, 502, 540, 578, 613, 647, 679, 709, 736, 761, 785, 806, 826, 843,
    859]

/-- `therm_table[idx]` as an `int16_t`. -/
def thermAt (idx : Nat) : Int16 := (thermTable.getD idx 0).toInt16

/-- The search loop of `adc_to_temp`: the first index from `idx` on whose next entry is above
`adc`, looking at no more than `count` entries. -/
def thermSearch (adc : UInt16) : Nat → Nat → Option Nat
  | _, 0 => none
  | idx, count + 1 =>
      if adc < thermTable.getD (idx + 1) 0 then some idx else thermSearch adc (idx + 1) count

/-- `adc_to_temp`: linear interpolation in the table, extrapolating at both ends. A search that
runs off its end leaves the last entries loaded and `temp0` at zero. -/
def adcToTemp (adc : UInt16) : Int16 :=
  let (adc0, adc1, temp0) : Int16 × Int16 × Int16 :=
    if adc < thermTable.getD 0 0 then (thermAt 0, thermAt 1, 0)
    else if adc ≥ thermTable.getD 19 0 then (thermAt 18, thermAt 19, 18 * 4)
    else
      match thermSearch adc 0 19 with
      | some idx => (thermAt idx, thermAt (idx + 1), Int16.ofNat (idx * 4))
      | none => (thermAt 18, thermAt 19, 0)
  let delta := adc.toInt16 - adc0
  let range := adc1 - adc0
  let halfDigit := range >>> 1
  let temp := delta * 4 + halfDigit
  let temp := temp / range
  temp + temp0

/-- The calibration bytes `SIGROW.TEMPSENSE0` and `SIGROW.TEMPSENSE1`. -/
structure Tempsense where
  gain : UInt8
  offset : Int8
  deriving DecidableEq, Repr

/-- `adc_get_tempC`. -/
def adcGetTempC (sigrow : Tempsense) (s : Adc) (ch : AdcChannel) : Int16 :=
  match ch with
  | .mcuTemp =>
      let mcutemp : UInt32 := (s.result ch - sigrow.offset.toInt16.toUInt16).toUInt32
      let mcutemp := mcutemp * sigrow.gain.toUInt32
      let mcutemp := (mcutemp + 0x80) >>> 8
      (mcutemp - 273).toUInt16.toInt16
  | _ => adcToTemp (s.result ch)

end BmsNode
