import BmsNode.Firmware.Adc
import BmsNode.Shunting.Regulation

/-!
# From a cell reading to the PWM

The documented formula for the cell voltage is monotone in the reading, and the PWM
target is monotone in the voltage. `adc_get_cellmv` computes the formula and returns
its low 16 bits, so the order of two readings survives exactly where the formula gives
both in the same window of 65536 millivolts.
-/

namespace BmsNode

open Word

/-- The documented cell voltage for a reading, in millivolts: `((ADC * VSCALE) / 1024) + VOFFSET`.
-/
def formulaMv (cfg : Config) (adc : UInt16) : Int :=
  (adc.toNat * cfg.vscale.toNat / 1024 : Nat) + cfg.voffset.toInt

/-- Both voltages are negative, or both are representable, or both are above 65535. -/
def SameWindow (a b : Int) : Prop := (a < 0 ↔ b < 0) ∧ (a ≤ 65535 ↔ b ≤ 65535)

/-- Whether two voltages lie in the same window can be checked. -/
instance (a b : Int) : Decidable (SameWindow a b) := inferInstanceAs (Decidable (_ ∧ _))

/-! ## The conversion -/

/-- A 16-bit offset as a 32-bit word. -/
theorem toNat_offset (x : Int16) : (x.toInt32.toUInt32.toNat : Int) = x.toInt % 4294967296 := by
  have hword : (x.toInt32.toUInt32.toNat : Int) = x.toInt32.toInt % 4294967296 := by
    have hcond := BitVec.toInt_eq_toNat_cond x.toInt32.toBitVec
    have hlt := x.toInt32.toUInt32.toNat_lt
    have hint : x.toInt32.toInt = x.toInt32.toBitVec.toInt := rfl
    have hnat : x.toInt32.toUInt32.toNat = x.toInt32.toBitVec.toNat := rfl
    rw [hint, hnat] at *
    split at hcond <;> omega
  rw [hword, Int16.toInt_toInt32]

/-- `adc_get_cellmv` returns the low 16 bits of the formula. -/
theorem adcGetCellmv_eq (cfg : Config) (s : Adc) :
    ((adcGetCellmv cfg s).toNat : Int) = formulaMv cfg (s.result .cellv) % 65536 := by
  have hadc := (s.result .cellv).toNat_lt
  have hscale := cfg.vscale.toNat_lt
  have hproduct : (s.result .cellv).toNat * cfg.vscale.toNat ≤ 65535 * 65535 :=
    Nat.mul_le_mul (by omega) (by omega)
  have hoffset := toNat_offset cfg.voffset
  have hmul : ((s.result .cellv).toUInt32 * cfg.vscale.toUInt32).toNat =
      (s.result .cellv).toNat * cfg.vscale.toNat := by
    rw [UInt32.toNat_mul, UInt16.toNat_toUInt32, UInt16.toNat_toUInt32, Nat.mod_eq_of_lt]
    omega
  rw [adcGetCellmv, show s.results[0] = s.result .cellv from rfl, UInt32.toNat_toUInt16,
    UInt32.toNat_add, UInt32.toNat_div, hmul, formulaMv, show (1024 : UInt32).toNat = 1024 from rfl]
  omega

/-- The formula is monotone, and its values for readings of ten bits are less than a window apart.
-/
theorem formulaMv_mono (cfg : Config) {a b : UInt16} (hle : a ≤ b) (hmax : b ≤ 1023) :
    formulaMv cfg a ≤ formulaMv cfg b ∧ formulaMv cfg b < formulaMv cfg a + 65536 ∧
      -65536 ≤ formulaMv cfg a ∧ formulaMv cfg b < 131072 := by
  rw [UInt16.le_iff_toNat_le] at hle hmax
  have hscale := cfg.vscale.toNat_lt
  have hlow := cfg.voffset.le_toInt
  have hhigh := cfg.voffset.toInt_lt
  have hproduct : a.toNat * cfg.vscale.toNat ≤ b.toNat * cfg.vscale.toNat :=
    Nat.mul_le_mul_right _ hle
  have hlast : b.toNat * cfg.vscale.toNat ≤ 1023 * 65535 := Nat.mul_le_mul hmax (by omega)
  unfold formulaMv
  omega

/-- Two readings are converted in order exactly when the formula gives both in the same window. -/
theorem adcGetCellmv_le_iff (cfg : Config) {sa sb : Adc} (hle : sa.result .cellv ≤ sb.result .cellv)
    (hmax : sb.result .cellv ≤ 1023) :
    adcGetCellmv cfg sa ≤ adcGetCellmv cfg sb ↔
      SameWindow (formulaMv cfg (sa.result .cellv)) (formulaMv cfg (sb.result .cellv)) := by
  have ha := adcGetCellmv_eq cfg sa
  have hb := adcGetCellmv_eq cfg sb
  obtain ⟨hmono, hnear, hlow, hhigh⟩ := formulaMv_mono cfg hle hmax
  rw [UInt16.le_iff_toNat_le, SameWindow]
  omega

/-! ## The PWM target -/

/-- The target by voltage is monotone. -/
theorem voltTarget_mono {cfg : Config} (h : cfg.shuntmin < cfg.shuntmax) {a b : UInt16}
    (hle : a ≤ b) : voltTarget cfg a ≤ voltTarget cfg b := by
  have hlimits := UInt16.lt_iff_toNat_lt.mp h
  have hbyte := voltTarget_le h a
  rw [UInt16.le_iff_toNat_le] at hle
  by_cases hlow : a ≤ cfg.shuntmin
  · rw [voltTarget, if_pos hlow]
    exact Nat.zero_le _
  by_cases hhigh : cfg.shuntmax ≤ b
  · have hfull : voltTarget cfg b = 255 := by
      rw [UInt16.le_iff_toNat_le] at hhigh
      rw [voltTarget, if_neg (by rw [UInt16.le_iff_toNat_le]; omega),
        if_pos (UInt16.le_iff_toNat_le.mpr hhigh)]
    rw [hfull]
    exact hbyte
  · -- both are between the limits
    rw [UInt16.le_iff_toNat_le] at hlow hhigh
    simp only [voltTarget, UInt16.le_iff_toNat_le]
    rw [if_neg (by omega), if_neg (by omega), if_neg (by omega), if_neg (by omega)]
    exact Nat.div_le_div_right (by omega)

/-- The target of a pass is monotone in the voltage, at every temperature. -/
theorem shuntRegulate_mono (z : DivZero) {cfg : Config} (h : cfg.shuntmin < cfg.shuntmax)
    {s : Shunt} (hrange : s.vrange = cfg.shuntmax - cfg.shuntmin) (tempC : Int16) {a b : UInt16}
    (hle : a ≤ b) :
    (shuntRegulate z cfg s a tempC).newpwm ≤ (shuntRegulate z cfg s b tempC).newpwm := by
  have hnat : s.vrange.toNat = cfg.shuntmax.toNat - cfg.shuntmin.toNat := by
    rw [hrange, UInt16.toNat_sub_of_le _ _ (UInt16.le_of_lt h)]
  have hmono := voltTarget_mono h hle
  rw [UInt8.le_iff_toNat_le, shuntRegulate, shuntRegulate, shuntTemps_newpwm, shuntTemps_newpwm,
    shuntVolts_newpwm z h hnat, shuntVolts_newpwm z h hnat]
  omega

/-- For every calibration, limits in order and two readings of ten bits in order: the two are
converted in order, and ask for PWMs in order, exactly when the formula gives both voltages in the
same window. -/
theorem cellmv_monotone_iff (z : DivZero) {cfg : Config} (hlimits : cfg.shuntmin < cfg.shuntmax)
    {s : Shunt} (hrange : s.vrange = cfg.shuntmax - cfg.shuntmin) (tempC : Int16) {sa sb : Adc}
    (hle : sa.result .cellv ≤ sb.result .cellv) (hmax : sb.result .cellv ≤ 1023) :
    (adcGetCellmv cfg sa ≤ adcGetCellmv cfg sb ∧
        (shuntRegulate z cfg s (adcGetCellmv cfg sa) tempC).newpwm ≤
          (shuntRegulate z cfg s (adcGetCellmv cfg sb) tempC).newpwm) ↔
      SameWindow (formulaMv cfg (sa.result .cellv)) (formulaMv cfg (sb.result .cellv)) := by
  rw [← adcGetCellmv_le_iff cfg hle hmax]
  exact and_iff_left_of_imp (shuntRegulate_mono z hlimits hrange tempC)

/-- The converter with a reading of the cell. -/
def Adc.reading (adc : UInt16) : Adc := { Adc.init with results := #v[adc, 0, 0, 0] }

/-- The default configuration with an offset of ten millivolts below zero. -/
def offsetConfig : Config := defaultConfig.set16 5 (-10)

/-- Two readings of a charged cell under that offset. -/
theorem cellmv_monotone_charged :
    adcGetCellmv offsetConfig (Adc.reading 950) ≤ adcGetCellmv offsetConfig (Adc.reading 960) :=
  ((cellmv_monotone_iff ⟨fun _ => 0, fun _ => 0⟩ (by decide +kernel) (s := startedShunt)
    (by decide +kernel) 25 (by decide) (by decide)).mpr (by decide +kernel)).1

/-- A reading of zero under that offset is converted to 65526 millivolts, above a reading of 100,
and asks for full PWM. -/
theorem cellmv_wraps :
    offsetConfig.shuntmin < offsetConfig.shuntmax ∧
      adcGetCellmv offsetConfig (Adc.reading 0) = 65526 ∧
      ¬adcGetCellmv offsetConfig (Adc.reading 0) ≤ adcGetCellmv offsetConfig (Adc.reading 100) ∧
      ¬(shuntRegulate ⟨fun _ => 0, fun _ => 0⟩ offsetConfig startedShunt
          (adcGetCellmv offsetConfig (Adc.reading 0)) 25).newpwm ≤
        (shuntRegulate ⟨fun _ => 0, fun _ => 0⟩ offsetConfig startedShunt
          (adcGetCellmv offsetConfig (Adc.reading 100)) 25).newpwm := by
  decide +kernel

end BmsNode
