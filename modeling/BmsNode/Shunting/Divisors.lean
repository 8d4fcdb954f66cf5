import BmsNode.Bytes.Word
import BmsNode.Firmware.Shunt
import BmsNode.Transition.Run

/-!
# The divisors of the regulator

`shunt_start` captures the ranges it divides by, while the range tests that guard the
divisions read the live configuration. `Guarded` says when the tests still protect the
divisions; it is exactly the absence of a division by zero for every reading, every
operation of the module keeps it, and only a change of configuration under a running
shunt can lose it.
-/

namespace BmsNode

open Transition Word

/-! ## The system -/

/-- The shunt module and the configuration it reads. -/
structure ShuntSystem where
  cfg : Cfg
  shunt : Shunt

/-- The shunt module before its first use. -/
def ShuntSystem.init (cfg : Cfg) : ShuntSystem := { cfg := cfg, shunt := Shunt.init }

/-- What can happen to the module or its configuration: a call of the module, a SETPARM command or a
FACTORY command. -/
inductive ShuntAction where
  | start (ticks : UInt16)
  | stop
  | set (newpwm : UInt8)
  | getStatus (ticks : UInt16)
  | run (ticks cellmv : UInt16) (tempC : Int16)
  | setparm (len : UInt8) (value : Vector UInt8 3) (tail : Nat → UInt8)
  | factory (tail : Nat → UInt8)

/-- The effect of an action. -/
def shuntStep (z : DivZero) (s : ShuntSystem) : ShuntAction → ShuntSystem
  | .start ticks => { s with shunt := shuntStart ticks s.cfg.gCfgParms s.shunt }
  | .stop => { s with shunt := shuntStop s.shunt }
  | .set newpwm => { s with shunt := shuntSet newpwm s.shunt }
  | .getStatus ticks => { s with shunt := (shuntGetStatus ticks s.shunt).2 }
  | .run ticks cellmv tempC =>
      { s with shunt := (shuntRun z ticks s.cfg.gCfgParms cellmv tempC s.shunt).2 }
  | .setparm len value tail => { s with cfg := (cfgSet tail s.cfg len value).2 }
  | .factory tail => { s with cfg := cfgReset tail s.cfg }

/-- No reading makes the next pass divide by zero, whenever it comes. -/
def ZeroFree (z : DivZero) (cfg : Config) (s : Shunt) : Prop :=
  ∀ ticks cellmv tempC, 0 ∉ shuntDivisors z ticks cfg cellmv tempC s

/-! ## When a division is reached -/

/-- The voltage half divides strictly between the voltage limits. -/
theorem mem_shuntVolts (z : DivZero) (cfg : Config) (vrange cellmv d : UInt16) :
    d ∈ (shuntVolts z cfg vrange cellmv).divisors ↔
      (cfg.shuntmin < cellmv ∧ cellmv < cfg.shuntmax) ∧ d = vrange := by
  unfold shuntVolts
  by_cases hlow : cellmv ≤ cfg.shuntmin
  · simp [hlow, UInt16.not_lt.mpr hlow]
  by_cases hhigh : cellmv ≥ cfg.shuntmax
  · simp [hlow, hhigh, UInt16.not_lt.mpr hhigh]
  · simp [hlow, hhigh, UInt16.not_le.mp hlow, UInt16.not_le.mp hhigh]

/-- The temperature half divides strictly between the promoted limits, on a PWM that is not zero. -/
theorem mem_shuntTemps (z : DivZero) (cfg : Config) (trange tempc d : UInt16) (r : Regulation) :
    d ∈ (shuntTemps z cfg trange tempc r).divisors ↔
      d ∈ r.divisors ∨
        (r.newpwm ≠ 0 ∧ promote cfg.templo < tempc ∧ tempc < promote cfg.temphi) ∧ d = trange := by
  unfold shuntTemps
  by_cases hzero : r.newpwm = 0
  · simp [hzero]
  by_cases hhigh : tempc ≥ promote cfg.temphi
  · simp [hzero, hhigh, UInt16.not_lt.mpr hhigh]
  by_cases hlow : tempc ≤ promote cfg.templo
  · simp [hzero, hhigh, hlow, UInt16.not_lt.mpr hlow]
  · simp only [ne_eq, hzero, not_false_eq_true, if_true, hhigh, hlow, if_false,
      UInt16.not_le.mp hlow, UInt16.not_le.mp hhigh, and_self, true_and]
    split_ifs <;> simp

/-- The voltage half asks for some PWM only above the lower limit, and always from the upper one
on. -/
theorem shuntVolts_nonzero (z : DivZero) {cfg : Config} (vrange : UInt16) {cellmv : UInt16} :
    ((shuntVolts z cfg vrange cellmv).newpwm ≠ 0 → cfg.shuntmin < cellmv) ∧
      (cfg.shuntmin < cellmv → cfg.shuntmax ≤ cellmv →
        (shuntVolts z cfg vrange cellmv).newpwm ≠ 0) := by
  unfold shuntVolts
  by_cases hlow : cellmv ≤ cfg.shuntmin
  · simp [hlow, UInt16.not_lt.mpr hlow]
  · have habove := UInt16.not_le.mp hlow
    refine ⟨fun _ => habove, fun _ hhigh => ?_⟩
    simp [hlow, hhigh]

/-! ## The invariant -/

/-- A running shunt whose captured range is zero has no reading strictly between the limits that the
range belongs to: no voltage, or no temperature for a cell that asks for some PWM. -/
def Guarded (cfg : Config) (s : Shunt) : Prop :=
  s.shuntStatus ≠ .off →
    (s.vrange = 0 → cfg.shuntmax.toNat ≤ cfg.shuntmin.toNat + 1) ∧
      (s.trange = 0 → cfg.shuntmin = 65535 ∨
        (promote cfg.temphi).toNat ≤ (promote cfg.templo).toNat + 1)

instance (cfg : Config) (s : Shunt) : Decidable (Guarded cfg s) :=
  inferInstanceAs (Decidable (_ → _ ∧ _))

/-- The divisions are guarded exactly when no reading makes a pass divide by zero. -/
theorem zeroFree_iff (z : DivZero) (cfg : Config) (s : Shunt) :
    ZeroFree z cfg s ↔ Guarded cfg s := by
  have hmax (w : UInt16) : w ≤ 65535 := by
    rw [UInt16.le_iff_toNat_le]
    exact Nat.le_of_lt_succ w.toNat_lt
  constructor
  · intro hfree hon
    have hdue : shuntDue s.loopTimeout s = true := by
      simp [shuntDue, hon, tmrExpired]
    refine ⟨fun hzero => ?_, fun hzero => ?_⟩
    · rw [← noneBetween_iff]
      intro cellmv hbetween
      apply hfree s.loopTimeout cellmv 0
      rw [shuntDivisors, if_pos hdue, shuntRegulate, mem_shuntTemps, mem_shuntVolts]
      exact .inl ⟨hbetween, hzero.symm⟩
    · by_cases hnone : cfg.shuntmin = 65535
      · exact .inl hnone
      · right
        rw [← noneBetween_iff]
        intro tempc hbetween
        -- a cell at the highest voltage asks for the full PWM, whatever the upper limit
        apply hfree s.loopTimeout 65535 tempc.toInt16
        rw [shuntDivisors, if_pos hdue, shuntRegulate, mem_shuntTemps, UInt16.toUInt16_toInt16]
        have habove : cfg.shuntmin < 65535 := UInt16.lt_of_le_of_ne (hmax _) hnone
        exact .inr ⟨⟨(shuntVolts_nonzero z s.vrange).2 habove (hmax _), hbetween⟩, hzero.symm⟩
  · intro hguarded ticks cellmv tempC hmem
    rw [shuntDivisors] at hmem
    split_ifs at hmem with hdue
    · have hon : s.shuntStatus ≠ .off := by
        intro hoff
        simp [shuntDue, hoff] at hdue
      obtain ⟨hvolts, htemps⟩ := hguarded hon
      rw [shuntRegulate, mem_shuntTemps, mem_shuntVolts] at hmem
      rcases hmem with ⟨hbetween, hzero⟩ | ⟨⟨hpwm, hbetween⟩, hzero⟩
      · exact (noneBetween_iff _ _).mpr (hvolts hzero.symm) cellmv hbetween
      · rcases htemps hzero.symm with hnone | hclose
        · have habove := (shuntVolts_nonzero z s.vrange).1 hpwm
          rw [hnone] at habove
          exact UInt16.not_lt.mpr (hmax cellmv) habove
        · exact (noneBetween_iff _ _).mpr hclose tempC.toUInt16 hbetween
    · simp at hmem

/-- `shunt_start` captures ranges that agree with the limits it reads. -/
theorem shuntStart_guarded (ticks : UInt16) (cfg : Config) (s : Shunt) :
    Guarded cfg (shuntStart ticks cfg s) := by
  intro _
  refine ⟨fun hzero => ?_, fun hzero => .inr ?_⟩
  · have hequal : cfg.shuntmax = cfg.shuntmin := by
      have hrange : cfg.shuntmax - cfg.shuntmin = 0 := hzero
      rw [← UInt16.sub_add_cancel cfg.shuntmax cfg.shuntmin, hrange, UInt16.zero_add]
    rw [hequal]
    exact Nat.le_succ _
  · have hequal : cfg.temphi.toInt16 = cfg.templo.toInt16 := by
      have hrange : (cfg.temphi.toInt16 - cfg.templo.toInt16).toUInt16 = 0 := hzero
      have hdiff : cfg.temphi.toInt16 - cfg.templo.toInt16 = 0 := by
        rw [← Int16.toInt16_toUInt16 (cfg.temphi.toInt16 - cfg.templo.toInt16), hrange]
        rfl
      rw [← Int16.sub_add_cancel cfg.temphi.toInt16 cfg.templo.toInt16, hdiff, Int16.zero_add]
    have hpromote : promote cfg.temphi = promote cfg.templo := by rw [promote, promote, hequal]
    rw [hpromote]
    exact Nat.le_succ _

/-- A pass leaves the captured ranges alone and does not start the shunt. -/
theorem shuntRun_ranges (z : DivZero) (ticks : UInt16) (cfg : Config) (cellmv : UInt16)
    (tempC : Int16) (s : Shunt) :
    let t := (shuntRun z ticks cfg cellmv tempC s).2
    t.vrange = s.vrange ∧ t.trange = s.trange ∧
      (s.shuntStatus = .off → t.shuntStatus = .off) := by
  unfold shuntRun
  dsimp only
  split_ifs with hoff <;> exact ⟨rfl, rfl, fun h => by first | rfl | exact h | exact absurd h hoff⟩

/-- What is guarded stays guarded when the captured ranges stay and the shunt is not started. -/
theorem Guarded.keep {cfg : Config} {s t : Shunt} (h : Guarded cfg s) (hvrange : t.vrange = s.vrange)
    (htrange : t.trange = s.trange) (hoff : s.shuntStatus = .off → t.shuntStatus = .off) :
    Guarded cfg t := by
  intro hon
  rw [hvrange, htrange]
  exact h fun hs => hon (hoff hs)

/-! ## Runs -/

/-- A change of configuration under a running shunt does not open the interval between two limits
that were equal when it was started. -/
def RangeKept (s : ShuntSystem) : ShuntAction → Prop
  | .setparm len value tail => Guarded (cfgSet tail s.cfg len value).2.gCfgParms s.shunt
  | .factory tail => Guarded (cfgReset tail s.cfg).gCfgParms s.shunt
  | _ => True

/-- Every action that keeps the ranges keeps the divisions guarded. -/
theorem shuntStep_guarded (z : DivZero) {s : ShuntSystem} (h : Guarded s.cfg.gCfgParms s.shunt)
    {action : ShuntAction} (hkept : RangeKept s action) :
    Guarded (shuntStep z s action).cfg.gCfgParms (shuntStep z s action).shunt := by
  cases action with
  | start ticks =>
      rw [shuntStep]
      exact shuntStart_guarded ticks s.cfg.gCfgParms s.shunt
  | stop => exact h.keep rfl rfl fun _ => rfl
  | set newpwm => exact h.keep rfl rfl id
  | getStatus ticks =>
      obtain ⟨timeout, hstatus⟩ := shuntGetStatus_eq ticks s.shunt
      simp only [shuntStep, hstatus]
      exact h.keep rfl rfl id
  | run ticks cellmv tempC =>
      obtain ⟨hvrange, htrange, hoff⟩ :=
        shuntRun_ranges z ticks s.cfg.gCfgParms cellmv tempC s.shunt
      exact h.keep hvrange htrange hoff
  | setparm len value tail => simpa only [shuntStep, RangeKept] using hkept
  | factory tail => simpa only [shuntStep, RangeKept] using hkept

/-- In a run of the shunt module, from any configuration, no state reached can divide by zero on any
reading, exactly when every SETPARM and FACTORY command of the run keeps the ranges. -/
theorem shuntRun_zeroFree_iff (z : DivZero) (cfg : Cfg) (actions : List ShuntAction) :
    (∀ done rest, actions = done ++ rest →
        let s := run (shuntStep z) (ShuntSystem.init cfg) done
        ZeroFree z s.cfg.gCfgParms s.shunt) ↔
      Meets (shuntStep z) RangeKept (ShuntSystem.init cfg) actions := by
  constructor
  · intro hfree
    rw [meets_iff]
    intro done action rest heq
    have hafter := hfree (done ++ [action]) rest (by simp [heq])
    rw [run_concat, zeroFree_iff] at hafter
    cases action with
    | start ticks | stop | set newpwm | getStatus ticks | run ticks cellmv tempC => trivial
    | setparm len value tail => simpa only [shuntStep, RangeKept] using hafter
    | factory tail => simpa only [shuntStep, RangeKept] using hafter
  · intro hmeets done rest heq
    rw [heq, meets_append] at hmeets
    have hinit : Guarded (ShuntSystem.init cfg).cfg.gCfgParms (ShuntSystem.init cfg).shunt :=
      fun hon => absurd rfl hon
    have hguarded := run_invariant
      (P := fun s : ShuntSystem => Guarded s.cfg.gCfgParms s.shunt)
      (fun s action h hkept => shuntStep_guarded z h hkept) hinit hmeets.1
    exact (zeroFree_iff z _ _).mpr hguarded

/-- SHUNTMAX is set to SHUNTMIN, the shunt is started, and SHUNTMAX is set back: a cell between the
limits makes the next pass divide by zero. -/
theorem shuntRun_dividesByZero :
    let s := run (shuntStep ⟨fun _ => 0, fun _ => 0⟩)
      (ShuntSystem.init { gCfgParms := cfgDefaults (Vector.replicate 26 0)
                          eeprom := Vector.replicate 26 0 })
      [.setparm 3 #v[8, 0xA0, 0x0F] (fun _ => 0), .start 0,
        .setparm 3 #v[8, 0x04, 0x10] (fun _ => 0)]
    ¬ZeroFree ⟨fun _ => 0, fun _ => 0⟩ s.cfg.gCfgParms s.shunt := by
  intro s hfree
  exact hfree 1 4050 20 (by decide +kernel)

end BmsNode
