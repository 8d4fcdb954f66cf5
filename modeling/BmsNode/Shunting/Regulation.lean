import BmsNode.Bytes.Word
import BmsNode.Firmware.Shunt

/-!
# The regulation law

The documented law is on numbers: the PWM moves towards the smaller of a target by
cell voltage and a limit by board temperature, temperatures compared with their sign.
`shunt_run` computes the voltage target exactly. Its temperature is a `uint16_t`, so
its limit follows the signed one only where the conversion to unsigned preserves the
order; `shuntRun_regulates_iff` says where a pass still makes the right step.
-/

namespace BmsNode

open Word

/-! ## The documented law -/

/-- The PWM the cell voltage asks for. -/
def voltTarget (cfg : Config) (cellmv : UInt16) : Nat :=
  if cellmv ≤ cfg.shuntmin then 0
  else if cfg.shuntmax ≤ cellmv then 255
  else 256 * (cellmv.toNat - cfg.shuntmin.toNat) / (cfg.shuntmax.toNat - cfg.shuntmin.toNat)

/-- The highest PWM the board temperature allows. -/
def tempLimit (cfg : Config) (tempC : Int16) : Nat :=
  if tempC.toInt ≤ cfg.templo.toInt then 255
  else if cfg.temphi.toInt ≤ tempC.toInt then 0
  else 256 * (cfg.temphi.toInt - tempC.toInt).toNat / (cfg.temphi.toInt - cfg.templo.toInt).toNat

/-- A regulating pass: proper limits, unchanged since `shunt_start` computed their ranges, the loop
timer expired, not off, and the idle timeout not expired. -/
structure Regulating (ticks : UInt16) (cfg : Config) (s : Shunt) : Prop where
  volts : cfg.shuntmin < cfg.shuntmax
  temps : cfg.templo < cfg.temphi
  started : ∃ ticks₀ s₀, s.vrange = (shuntStart ticks₀ cfg s₀).vrange ∧
    s.trange = (shuntStart ticks₀ cfg s₀).trange
  due : shuntDue ticks s = true
  active : tmrExpired ticks s.shuntTimeout = false

/-- The pass makes the step the law asks for. -/
def Regulates (z : DivZero) (ticks : UInt16) (cfg : Config) (cellmv : UInt16) (tempC : Int16)
    (s : Shunt) : Prop :=
  (shuntRun z ticks cfg cellmv tempC s).2.pwm.toNat =
    towards (min (voltTarget cfg cellmv) (tempLimit cfg tempC)) s.pwm.toNat

instance (z : DivZero) (ticks : UInt16) (cfg : Config) (cellmv : UInt16) (tempC : Int16)
    (s : Shunt) : Decidable (Regulates z ticks cfg cellmv tempC s) :=
  inferInstanceAs (Decidable (_ = _))

/-- A quotient scaled to 256 parts of a proper fraction is a byte. -/
theorem scaled_lt {a b : Nat} (h : a < b) : 256 * a / b < 256 := by
  rw [Nat.div_lt_iff_lt_mul (by omega)]
  omega

/-! ## What the code computes -/

/-- The ranges of `shunt_start` as numbers. -/
theorem Regulating.ranges {ticks : UInt16} {cfg : Config} {s : Shunt} (h : Regulating ticks cfg s) :
    s.vrange.toNat = cfg.shuntmax.toNat - cfg.shuntmin.toNat ∧
      (s.trange.toNat : Int) = cfg.temphi.toInt - cfg.templo.toInt := by
  obtain ⟨ticks₀, s₀, hvrange, htrange⟩ := h.started
  refine ⟨?_, ?_⟩
  · rw [hvrange]
    exact UInt16.toNat_sub_of_le _ _ (UInt16.le_of_lt h.volts)
  · rw [htrange]
    exact toNat_sub_of_lt h.temps

/-- The voltage half of the code computes the voltage target. -/
theorem shuntVolts_newpwm (z : DivZero) {cfg : Config} {vrange : UInt16}
    (hlimits : cfg.shuntmin < cfg.shuntmax)
    (hvrange : vrange.toNat = cfg.shuntmax.toNat - cfg.shuntmin.toNat) (cellmv : UInt16) :
    (shuntVolts z cfg vrange cellmv).newpwm.toNat = voltTarget cfg cellmv := by
  have horder := UInt16.lt_iff_toNat_lt.mp hlimits
  unfold shuntVolts voltTarget
  by_cases hlow : cellmv ≤ cfg.shuntmin
  · rw [if_pos hlow, if_pos hlow]
    rfl
  by_cases hhigh : cellmv ≥ cfg.shuntmax
  · rw [if_neg hlow, if_pos hhigh, if_neg hlow, if_pos hhigh]
    rfl
  · rw [if_neg hlow, if_neg hhigh, if_neg hlow, if_neg hhigh]
    rw [ge_iff_le, UInt16.le_iff_toNat_le] at hhigh
    rw [UInt16.le_iff_toNat_le] at hlow
    have hdiff : (cellmv - cfg.shuntmin).toNat = cellmv.toNat - cfg.shuntmin.toNat :=
      UInt16.toNat_sub_of_le _ _ (by rw [UInt16.le_iff_toNat_le]; omega)
    have hpositive : vrange.toUInt32 ≠ 0 := by
      rw [ne_eq, ← UInt32.toNat_inj]
      simp only [UInt16.toNat_toUInt32, UInt32.toNat_zero]
      omega
    have hbyte := scaled_lt (a := cellmv.toNat - cfg.shuntmin.toNat)
      (b := cfg.shuntmax.toNat - cfg.shuntmin.toNat) (by omega)
    have hquot : (udiv32 z ((cellmv - cfg.shuntmin).toUInt32 * 256) vrange.toUInt32).toNat =
        256 * (cellmv.toNat - cfg.shuntmin.toNat) / (cfg.shuntmax.toNat - cfg.shuntmin.toNat) := by
      have hlt := cellmv.toNat_lt
      rw [udiv32, if_neg hpositive, UInt32.toNat_div, UInt32.toNat_mul, UInt16.toNat_toUInt32,
        UInt16.toNat_toUInt32, hdiff, hvrange, Nat.mul_comm]
      rw [Nat.mod_eq_of_lt]
      · rfl
      · simp
        omega
    dsimp only
    generalize udiv32 z ((cellmv - cfg.shuntmin).toUInt32 * 256) vrange.toUInt32 = quot at hquot ⊢
    have hclip : ¬quot > 255 := by
      rw [gt_iff_lt, UInt32.lt_iff_toNat_lt]
      simp
      omega
    rw [if_neg hclip, UInt32.toNat_toUInt8, hquot]
    omega

/-- The limit the code applies, comparing temperatures as unsigned words. -/
def unsignedLimit (z : DivZero) (cfg : Config) (trange tempc : UInt16) : Nat :=
  if promote cfg.temphi ≤ tempc then 0
  else if tempc ≤ promote cfg.templo then 255
  else (udiv16 z ((promote cfg.temphi - tempc) * 256) trange).toNat

/-- The temperature half of the code applies the unsigned limit. -/
theorem shuntTemps_newpwm (z : DivZero) (cfg : Config) (trange tempc : UInt16) (r : Regulation) :
    (shuntTemps z cfg trange tempc r).newpwm.toNat =
      min r.newpwm.toNat (unsignedLimit z cfg trange tempc) := by
  have hbyte := r.newpwm.toNat_lt
  unfold shuntTemps unsignedLimit
  simp only [ge_iff_le, gt_iff_lt]
  by_cases hzero : r.newpwm = 0
  · simp [hzero]
  rw [if_pos hzero]
  split_ifs with hhigh hlow hlimit
  · simp
  · omega
  · rw [UInt16.lt_iff_toNat_lt, UInt8.toNat_toUInt16] at hlimit
    rw [UInt16.toNat_toUInt8]
    omega
  · rw [UInt16.lt_iff_toNat_lt, UInt8.toNat_toUInt16] at hlimit
    dsimp only
    omega

/-- A regulating pass moves the PWM towards the voltage target under the unsigned limit. -/
theorem Regulating.pwm {ticks : UInt16} {cfg : Config} {s : Shunt} (h : Regulating ticks cfg s)
    (z : DivZero) (cellmv : UInt16) (tempC : Int16) :
    (shuntRun z ticks cfg cellmv tempC s).2.pwm.toNat =
      towards (min (voltTarget cfg cellmv) (unsignedLimit z cfg s.trange tempC.toUInt16))
        s.pwm.toNat := by
  have hdue := h.due
  simp only [shuntDue, Bool.and_eq_true, decide_eq_true_eq] at hdue
  rw [shuntRun, if_neg hdue.1]
  simp only [hdue.2, h.active, shuntSet, shuntRegulate]
  simp only [Bool.not_true, Bool.false_eq_true, if_false]
  rw [shuntAdjust]
  exact (toNat_towards _ _).trans
    (by rw [shuntTemps_newpwm, shuntVolts_newpwm z h.volts h.ranges.1])

/-! ## Where the unsigned limit is the signed one -/

/-- A promoted limit as a number: a negative one appears above the positive ones. -/
theorem toNat_promote (t : Int8) :
    ((promote t).toNat : Int) = if 0 ≤ t.toInt then t.toInt else t.toInt + 65536 := by
  rw [promote, toNat_toUInt16, Int8.toInt_toInt16]

/-- Above zero, with the limits above zero, and below zero, with the limits below zero, the
conversion to unsigned preserves the order. -/
theorem unsignedLimit_sameSign (z : DivZero) {ticks : UInt16} {cfg : Config} {s : Shunt}
    (h : Regulating ticks cfg s) {tempC : Int16}
    (hsign : (0 ≤ tempC.toInt ∧ 0 ≤ cfg.templo.toInt) ∨ (tempC.toInt < 0 ∧ cfg.temphi.toInt < 0)) :
    unsignedLimit z cfg s.trange tempC.toUInt16 = tempLimit cfg tempC := by
  have horder := Int8.lt_iff_toInt_lt.mp h.temps
  have hhi := toNat_promote cfg.temphi
  have hlo := toNat_promote cfg.templo
  have htemp := toNat_toUInt16 tempC
  have hbelow := cfg.temphi.toInt_lt
  have habove := cfg.templo.le_toInt
  have htrange := h.ranges.2
  unfold unsignedLimit tempLimit
  simp only [UInt16.le_iff_toNat_le]
  by_cases hhigh : cfg.temphi.toInt ≤ tempC.toInt
  · rw [if_pos (by split_ifs at hhi htemp <;> omega), if_neg (by omega), if_pos hhigh]
  by_cases hlow : tempC.toInt ≤ cfg.templo.toInt
  · rw [if_neg (by split_ifs at hhi htemp <;> omega),
      if_pos (by split_ifs at hlo htemp <;> omega), if_pos hlow]
  -- both words are on the same side of the sign, so their difference is the signed one
  have hle : tempC.toUInt16.toNat ≤ (promote cfg.temphi).toNat := by
    split_ifs at hhi htemp <;> omega
  have hdiff : (promote cfg.temphi - tempC.toUInt16).toNat =
      (cfg.temphi.toInt - tempC.toInt).toNat := by
    rw [UInt16.toNat_sub_of_le _ _ (UInt16.le_iff_toNat_le.mpr hle)]
    split_ifs at hhi htemp <;> omega
  have hpositive : s.trange ≠ 0 := by
    intro hzero
    rw [hzero] at htrange
    simp at htrange
    omega
  rw [if_neg (by split_ifs at hhi htemp <;> omega), if_neg (by split_ifs at hlo htemp <;> omega),
    if_neg hlow, if_neg hhigh, udiv16, if_neg hpositive, UInt16.toNat_div, UInt16.toNat_mul, hdiff,
    Nat.mod_eq_of_lt, Nat.mul_comm]
  · congr 1
    omega
  · simp
    omega

/-- A negative temperature under an upper limit that is not negative, and a temperature at or above
such a limit, switch the shunt off. -/
theorem unsignedLimit_off (z : DivZero) (cfg : Config) (trange : UInt16) {tempC : Int16}
    (hhi : 0 ≤ cfg.temphi.toInt) (htemp : tempC.toInt < 0 ∨ cfg.temphi.toInt ≤ tempC.toInt) :
    unsignedLimit z cfg trange tempC.toUInt16 = 0 := by
  have hpromote := toNat_promote cfg.temphi
  have hword := toNat_toUInt16 tempC
  have hbelow := cfg.temphi.toInt_lt
  have habove := tempC.le_toInt
  unfold unsignedLimit
  rw [if_pos]
  rw [UInt16.le_iff_toNat_le]
  split_ifs at hpromote hword <;> omega

/-- A temperature that is not negative is not limited below a negative lower limit, unless it is at
or above an upper limit that is not negative. -/
theorem unsignedLimit_full (z : DivZero) {cfg : Config} (horder : cfg.templo < cfg.temphi)
    (trange : UInt16) {tempC : Int16} (htemp : 0 ≤ tempC.toInt) (hlo : cfg.templo.toInt < 0)
    (hhi : cfg.temphi.toInt < 0 ∨ tempC.toInt < cfg.temphi.toInt) :
    unsignedLimit z cfg trange tempC.toUInt16 = 255 := by
  have hlimits := Int8.lt_iff_toInt_lt.mp horder
  have hpromoteHi := toNat_promote cfg.temphi
  have hpromoteLo := toNat_promote cfg.templo
  have hword := toNat_toUInt16 tempC
  have habove := cfg.templo.le_toInt
  have hbelow := tempC.toInt_lt
  unfold unsignedLimit
  simp only [UInt16.le_iff_toNat_le]
  rw [if_neg, if_pos]
  · split_ifs at hpromoteLo hword <;> omega
  · split_ifs at hpromoteHi hword <;> omega

/-- The voltage target is a byte. -/
theorem voltTarget_le {cfg : Config} (h : cfg.shuntmin < cfg.shuntmax) (cellmv : UInt16) :
    voltTarget cfg cellmv ≤ 255 := by
  have horder := UInt16.lt_iff_toNat_lt.mp h
  unfold voltTarget
  split_ifs with hlow hhigh
  · omega
  · omega
  · rw [UInt16.le_iff_toNat_le] at hlow hhigh
    have hbyte := scaled_lt (a := cellmv.toNat - cfg.shuntmin.toNat)
      (b := cfg.shuntmax.toNat - cfg.shuntmin.toNat) (by omega)
    omega

/-- The limit is a byte, full below the lower limit, zero from the upper limit on, and positive
below it. -/
theorem tempLimit_bounds {cfg : Config} (h : cfg.templo < cfg.temphi) (tempC : Int16) :
    tempLimit cfg tempC ≤ 255 ∧ (tempC.toInt ≤ cfg.templo.toInt → tempLimit cfg tempC = 255) ∧
      (cfg.temphi.toInt ≤ tempC.toInt → tempLimit cfg tempC = 0) ∧
      (tempC.toInt < cfg.temphi.toInt → 0 < tempLimit cfg tempC) := by
  have horder := Int8.lt_iff_toInt_lt.mp h
  have hbelow := cfg.temphi.toInt_lt
  have habove := cfg.templo.le_toInt
  unfold tempLimit
  split_ifs with hlow hhigh
  · omega
  · omega
  · have hbyte := scaled_lt (a := (cfg.temphi.toInt - tempC.toInt).toNat)
      (b := (cfg.temphi.toInt - cfg.templo.toInt).toNat) (by omega)
    refine ⟨by omega, fun h => absurd h hlow, fun h => absurd h hhigh, fun _ => ?_⟩
    rw [Nat.div_pos_iff]
    omega

/-! ## The law, and where it holds -/

/-- Where a pass makes the step of the law: the voltage asks for nothing or for less than the
present PWM, or the signs of temperature and limits make the unsigned comparison harmless. -/
def SignsHarmless (cfg : Config) (cellmv : UInt16) (tempC : Int16) (pwm : UInt8) : Prop :=
  let volts := voltTarget cfg cellmv
  let limit := tempLimit cfg tempC
  volts = 0 ∨ volts < pwm.toNat ∨
    (0 ≤ tempC.toInt ∧ 0 ≤ cfg.templo.toInt) ∨
    (tempC.toInt < 0 ∧ cfg.temphi.toInt < 0) ∨
    (tempC.toInt < 0 ∧ 0 ≤ cfg.temphi.toInt ∧ min volts limit < pwm.toNat) ∨
    (0 ≤ tempC.toInt ∧ cfg.templo.toInt < 0 ∧ 0 ≤ cfg.temphi.toInt ∧
      (cfg.temphi.toInt ≤ tempC.toInt ∨ volts ≤ limit ∨ pwm.toNat < limit))

instance (cfg : Config) (cellmv : UInt16) (tempC : Int16) (pwm : UInt8) :
    Decidable (SignsHarmless cfg cellmv tempC pwm) := by
  unfold SignsHarmless
  infer_instance

/-- A regulating pass makes the step of the law exactly where the signs are harmless. -/
theorem shuntRun_regulates_iff (z : DivZero) {ticks : UInt16} {cfg : Config} {s : Shunt}
    (h : Regulating ticks cfg s) (cellmv : UInt16) (tempC : Int16) :
    Regulates z ticks cfg cellmv tempC s ↔ SignsHarmless cfg cellmv tempC s.pwm := by
  have horder := Int8.lt_iff_toInt_lt.mp h.temps
  have hvolts := voltTarget_le h.volts cellmv
  obtain ⟨hmax, hfull, hoff, hpositive⟩ := tempLimit_bounds h.temps tempC
  rw [Regulates, h.pwm z cellmv tempC, towards_eq_iff, SignsHarmless]
  -- the unsigned limit is the signed one, zero, or none at all
  by_cases hsign : (0 ≤ tempC.toInt ∧ 0 ≤ cfg.templo.toInt) ∨
      (tempC.toInt < 0 ∧ cfg.temphi.toInt < 0)
  · rw [unsignedLimit_sameSign z h hsign]
    omega
  by_cases hzero : 0 ≤ cfg.temphi.toInt ∧ (tempC.toInt < 0 ∨ cfg.temphi.toInt ≤ tempC.toInt)
  · rw [unsignedLimit_off z cfg s.trange hzero.1 hzero.2]
    omega
  · rw [unsignedLimit_full z h.temps s.trange (by omega) (by omega) (by omega)]
    omega

/-- The default configuration. -/
def defaultConfig : Config := cfgDefaults (Vector.replicate 26 0)

/-- A shunt running at a PWM of 10 since a start with the default configuration. -/
def startedShunt : Shunt := { shuntStart 0 defaultConfig Shunt.init with pwm := 10 }

/-- A pass of that shunt regulates. -/
theorem startedShunt_regulating : Regulating 1 defaultConfig startedShunt :=
  ⟨by decide +kernel, by decide +kernel, ⟨0, Shunt.init, rfl, rfl⟩, by decide +kernel,
    by decide +kernel⟩

/-- At 45 degrees a pass makes the step of the law. -/
theorem shuntRun_regulates_warm :
    Regulates ⟨fun _ => 0, fun _ => 0⟩ 1 defaultConfig 4200 45 startedShunt :=
  (shuntRun_regulates_iff ⟨fun _ => 0, fun _ => 0⟩ startedShunt_regulating 4200 45).mpr
    (by decide +kernel)

/-- At 5 degrees below zero it does not: the law asks for more and the pass gives less. -/
theorem shuntRun_frost :
    Regulating 1 defaultConfig startedShunt ∧
      ¬Regulates ⟨fun _ => 0, fun _ => 0⟩ 1 defaultConfig 4200 (-5) startedShunt :=
  ⟨startedShunt_regulating, by decide +kernel⟩

end BmsNode
