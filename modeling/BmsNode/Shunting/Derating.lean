import BmsNode.Sampling.Thermistor
import BmsNode.Shunting.Regulation

/-!
# From a board temperature reading to the PWM

The thermistor table is monotone in the reading, and the limit by temperature falls with
the temperature. So with limits that are not negative a hotter board never gets the
higher PWM, as long as it is not freezing. A freezing board gets none, and so does every
board at least as hot as the upper limit.
-/

namespace BmsNode

open Word

/-- A step towards a higher target leads at least as high. -/
theorem towards_mono {a b : Nat} (hle : a ≤ b) (current : Nat) :
    towards a current ≤ towards b current := by
  unfold towards
  split_ifs <;> omega

/-- The limit by temperature falls with the temperature. -/
theorem tempLimit_antitone {cfg : Config} (h : cfg.templo < cfg.temphi) {a b : Int16}
    (hle : a ≤ b) : tempLimit cfg b ≤ tempLimit cfg a := by
  have horder := Int16.le_iff_toInt_le.mp hle
  have hbyte := (tempLimit_bounds h b).1
  by_cases hcool : a.toInt ≤ cfg.templo.toInt
  · rw [(tempLimit_bounds h a).2.1 hcool]
    exact hbyte
  by_cases hhot : cfg.temphi.toInt ≤ b.toInt
  · rw [(tempLimit_bounds h b).2.2.1 hhot]
    exact Nat.zero_le _
  · -- both are between the limits
    unfold tempLimit
    rw [if_neg (by omega), if_neg hhot, if_neg hcool, if_neg (by omega)]
    exact Nat.div_le_div_right (by omega)

/-- The PWM after a pass that reads the board temperature from the converter. -/
def pwmAfter (z : DivZero) (ticks : UInt16) (cfg : Config) (cellmv : UInt16) (sigrow : Tempsense)
    (s : Shunt) (adc : Adc) : Nat :=
  (shuntRun z ticks cfg cellmv (adcGetTempC sigrow adc .boardTemp) s).2.pwm.toNat

/-- Derating by temperature, with a lower limit that is not negative, for every pass that regulates
(with both pairs of limits in order and as they were at the start, and before the idle timeout),
every cell voltage and any two readings of ten bits in order. The temperatures are in order. If
the lower one is not negative, the pass with the higher reading leads to no higher PWM. If the
lower one is negative, or at least the upper limit, its pass moves the PWM towards zero; so does
in the second case the pass with the higher reading. -/
theorem derating (z : DivZero) {ticks : UInt16} {cfg : Config} {s : Shunt}
    (h : Regulating ticks cfg s) (hlow : 0 ≤ cfg.templo) (sigrow : Tempsense) (cellmv : UInt16)
    {cooler hotter : Adc} (hle : cooler.result .boardTemp ≤ hotter.result .boardTemp)
    (hmax : hotter.result .boardTemp ≤ 1023) :
    let temp := fun adc => adcGetTempC sigrow adc .boardTemp
    let pwm := pwmAfter z ticks cfg cellmv sigrow s
    temp cooler ≤ temp hotter ∧
      (0 ≤ temp cooler → pwm hotter ≤ pwm cooler) ∧
      (temp cooler < 0 → pwm cooler = towards 0 s.pwm.toNat) ∧
      (cfg.temphi.toInt16 ≤ temp cooler →
        pwm cooler = towards 0 s.pwm.toNat ∧ pwm hotter = towards 0 s.pwm.toNat) := by
  intro temp pwm
  have hmono : temp cooler ≤ temp hotter := adcToTemp_mono hle hmax
  have hlowInt : 0 ≤ cfg.templo.toInt := Int8.le_iff_toInt_le.mp hlow
  have hhighInt : 0 ≤ cfg.temphi.toInt := by
    have horder := Int8.lt_iff_toInt_lt.mp h.temps
    omega
  have hpwm (adc : Adc) : pwm adc = towards (min (voltTarget cfg cellmv)
      (unsignedLimit z cfg s.trange (temp adc).toUInt16)) s.pwm.toNat := h.pwm z cellmv (temp adc)
  have hoff {adc : Adc} (htemp : (temp adc).toInt < 0 ∨ cfg.temphi.toInt ≤ (temp adc).toInt) :
      pwm adc = towards 0 s.pwm.toNat := by
    rw [hpwm, unsignedLimit_off z cfg s.trange hhighInt htemp, Nat.min_zero]
  refine ⟨hmono, fun hnonneg => ?_, fun hneg => ?_, fun hhot => ?_⟩
  · have hcooler : 0 ≤ (temp cooler).toInt := Int16.le_iff_toInt_le.mp hnonneg
    have hhotter : 0 ≤ (temp hotter).toInt :=
      Int.le_trans hcooler (Int16.le_iff_toInt_le.mp hmono)
    rw [hpwm, hpwm, unsignedLimit_sameSign z h (.inl ⟨hcooler, hlowInt⟩),
      unsignedLimit_sameSign z h (.inl ⟨hhotter, hlowInt⟩)]
    have hlimit := tempLimit_antitone h.temps hmono
    exact towards_mono (by omega) _
  · exact hoff (.inl (Int16.lt_iff_toInt_lt.mp hneg))
  · have hupper : cfg.temphi.toInt ≤ (temp cooler).toInt := by
      rw [Int16.le_iff_toInt_le, Int8.toInt_toInt16] at hhot
      exact hhot
    have hmonoInt := Int16.le_iff_toInt_le.mp hmono
    exact ⟨hoff (.inr hupper), hoff (.inr (by omega))⟩

/-- The converter with a reading of the board temperature. -/
def Adc.board (adc : UInt16) : Adc := { Adc.init with results := #v[0, adc, 0, 0] }

/-- Boards at 35 and at 59 degrees, with a full cell under the default limits. -/
theorem derating_hot :
    let z : DivZero := ⟨fun _ => 0, fun _ => 0⟩
    let pwm := pwmAfter z 1 defaultConfig 4200 ⟨128, 0⟩ startedShunt
    pwm (.board 600) = 11 ∧ pwm (.board 780) = 9 ∧ pwm (.board 780) ≤ pwm (.board 600) := by
  intro z pwm
  exact ⟨by decide +kernel, by decide +kernel,
    (derating z startedShunt_regulating (by decide +kernel) ⟨128, 0⟩ 4200
      (show (Adc.board 600).result .boardTemp ≤ (Adc.board 780).result .boardTemp by decide)
      (by decide)).2.1 (by decide)⟩

end BmsNode
