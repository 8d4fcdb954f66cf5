import BmsNode.Bytes.Word
import BmsNode.Firmware.Shunt
import BmsNode.Transition.Run

/-!
# Smooth adjustment of the PWM

A pass of `shunt_run` that regulates moves the PWM one step towards the target it
computes. So over any calls, with whatever they read, the PWM approaches a target that
stays the same by one for each pass that computes it, and stays once it is there.
-/

namespace BmsNode

open Transition Word

/-- A call of the shunt module while it runs: a pass with all it reads, or `shunt_get_status`. -/
inductive ShuntCall where
  | run (ticks : UInt16) (cfg : Config) (cellmv : UInt16) (tempC : Int16)
  | getStatus (ticks : UInt16)
  deriving DecidableEq

/-- The effect of a call. -/
def shuntCall (z : DivZero) (s : Shunt) : ShuntCall → Shunt
  | .run ticks cfg cellmv tempC => (shuntRun z ticks cfg cellmv tempC s).2
  | .getStatus ticks => (shuntGetStatus ticks s).2

/-- The target of a pass that regulates and does not stop the shunt. -/
def shuntTarget (z : DivZero) (s : Shunt) : ShuntCall → Option UInt8
  | .run ticks cfg cellmv tempC =>
      if shuntDue ticks s && !tmrExpired ticks s.shuntTimeout then
        some (shuntRegulate z cfg s cellmv tempC).newpwm
      else none
  | .getStatus _ => none

/-- A call that does not stop the shunt, and that regulates towards `p` if it regulates. -/
def Towards (z : DivZero) (p : UInt8) (s : Shunt) (call : ShuntCall) : Prop :=
  (shuntCall z s call).shuntStatus ≠ .off ∧ ∀ target ∈ shuntTarget z s call, target = p

/-- The passes of some calls that regulate. -/
def regulatingPasses (z : DivZero) (s : Shunt) (calls : List ShuntCall) : List UInt8 :=
  trace (shuntCall z) (fun s call => (shuntTarget z s call).toList) s calls

/-- How far a PWM is from a target. -/
def distance (pwm target : UInt8) : Nat := ((pwm.toNat : Int) - target.toNat).natAbs

/-! ## One pass -/

section Pass

variable (z : DivZero) {ticks : UInt16} (cfg : Config) (cellmv : UInt16) (tempC : Int16) {s : Shunt}

/-- A pass of a shunt that is off stops it again. -/
theorem shuntRun_off (hoff : s.shuntStatus = .off) :
    (shuntRun z ticks cfg cellmv tempC s).2 = shuntStop s := by
  rw [shuntRun, if_pos hoff]

/-- A pass before the loop timer has expired does nothing. -/
theorem shuntRun_waiting (hon : s.shuntStatus ≠ .off)
    (hwait : tmrExpired ticks s.loopTimeout = false) : (shuntRun z ticks cfg cellmv tempC s).2 = s := by
  simp [shuntRun, hwait, hon]

/-- A pass after the idle timeout stops the shunt. -/
theorem shuntRun_idle (hon : s.shuntStatus ≠ .off) (hdue : tmrExpired ticks s.loopTimeout = true)
    (hidle : tmrExpired ticks s.shuntTimeout = true) :
    let t := (shuntRun z ticks cfg cellmv tempC s).2
    t.shuntStatus = .off ∧ t.pwm = 0 := by
  simp [shuntRun, hon, hdue, shuntSet, hidle, shuntStop]

/-- A pass before the idle timeout regulates and advances the loop timer. -/
theorem shuntRun_active (hon : s.shuntStatus ≠ .off) (hdue : tmrExpired ticks s.loopTimeout = true)
    (hactive : tmrExpired ticks s.shuntTimeout = false) :
    (shuntRun z ticks cfg cellmv tempC s).2 =
      shuntSet (shuntAdjust (shuntRegulate z cfg s cellmv tempC).newpwm s.pwm)
        { s with
          loopTimeout := s.loopTimeout + shuntLoopTime
          shuntStatus := (shuntRegulate z cfg s cellmv tempC).status } := by
  rw [shuntRun, if_neg hon]
  simp only [hdue, hactive, shuntSet, Bool.not_true, Bool.false_eq_true, if_false]
  rfl

end Pass

/-! ## One call -/

/-- A pass that regulates and does not stop the shunt adjusts the PWM towards its target. -/
theorem shuntCall_target {z : DivZero} {s : Shunt} {call : ShuntCall} {target : UInt8}
    (h : shuntTarget z s call = some target) :
    (shuntCall z s call).pwm = shuntAdjust target s.pwm := by
  cases call with
  | getStatus ticks => simp [shuntTarget] at h
  | run ticks cfg cellmv tempC =>
      simp only [shuntTarget] at h
      split_ifs at h with hpass
      simp only [shuntDue, Bool.and_eq_true, decide_eq_true_eq, Bool.not_eq_true'] at hpass
      obtain ⟨⟨hon, hdue⟩, hactive⟩ := hpass
      obtain rfl := Option.some.inj h
      rw [shuntCall, shuntRun_active z cfg cellmv tempC hon hdue hactive]
      rfl

/-- Any other call leaves the PWM alone, or leaves the shunt off. -/
theorem shuntCall_none {z : DivZero} {s : Shunt} {call : ShuntCall}
    (h : shuntTarget z s call = none) :
    (shuntCall z s call).pwm = s.pwm ∨ (shuntCall z s call).shuntStatus = .off := by
  cases call with
  | getStatus ticks =>
      obtain ⟨timeout, hstatus⟩ := shuntGetStatus_eq ticks s
      rw [shuntCall, hstatus]
      exact .inl rfl
  | run ticks cfg cellmv tempC =>
      simp only [shuntTarget] at h
      split_ifs at h with hpass
      simp only [shuntDue, Bool.and_eq_true, decide_eq_true_eq, Bool.not_eq_true'] at hpass
      by_cases hoff : s.shuntStatus = .off
      · rw [shuntCall, shuntRun_off z cfg cellmv tempC hoff]
        exact .inr rfl
      cases hdue : tmrExpired ticks s.loopTimeout with
      | false =>
          rw [shuntCall, shuntRun_waiting z cfg cellmv tempC hoff hdue]
          exact .inl rfl
      | true =>
          have hidle : tmrExpired ticks s.shuntTimeout = true := by
            by_contra hactive
            exact hpass ⟨⟨hoff, hdue⟩, by simpa using hactive⟩
          exact .inr (shuntRun_idle z cfg cellmv tempC hoff hdue hidle).1

/-- The register follows the PWM in every call. -/
theorem shuntCall_cmp1 {z : DivZero} {s : Shunt} (h : s.tca0.cmp1 = s.pwm.toUInt16)
    (call : ShuntCall) : (shuntCall z s call).tca0.cmp1 = (shuntCall z s call).pwm.toUInt16 := by
  cases call with
  | getStatus ticks =>
      obtain ⟨timeout, hstatus⟩ := shuntGetStatus_eq ticks s
      rw [shuntCall, hstatus]
      exact h
  | run ticks cfg cellmv tempC =>
      simp only [shuntCall, shuntRun]
      split_ifs
      · rfl
      · exact h
      · rfl
      · rfl

/-- The adjustment is one step of the number towards the target, without wrapping. -/
theorem toNat_shuntAdjust (target pwm : UInt8) :
    (shuntAdjust target pwm).toNat = towards target.toNat pwm.toNat := toNat_towards target pwm

/-- A step towards the target brings the PWM one nearer. -/
theorem distance_shuntAdjust (target pwm : UInt8) :
    distance (shuntAdjust target pwm) target = distance pwm target - 1 := by
  unfold distance
  rw [toNat_shuntAdjust, towards]
  split_ifs <;> omega

/-! ## Runs -/

/-- Over calls towards `p` the distance to it shrinks by one for each pass that regulates. -/
theorem run_distance {z : DivZero} {p : UInt8} {s : Shunt} {calls : List ShuntCall}
    (h : Meets (shuntCall z) (Towards z p) s calls) :
    distance (run (shuntCall z) s calls).pwm p =
      distance s.pwm p - (regulatingPasses z s calls).length := by
  induction calls generalizing s with
  | nil => rfl
  | cons call rest ih =>
      obtain ⟨⟨hon, htarget⟩, hrest⟩ := h
      have hpasses : regulatingPasses z s (call :: rest) =
          (shuntTarget z s call).toList ++ regulatingPasses z (shuntCall z s call) rest := rfl
      rw [run_cons, ih hrest, hpasses, List.length_append]
      cases hcall : shuntTarget z s call with
      | none =>
          have hsame := (shuntCall_none hcall).resolve_right hon
          rw [hsame]
          simp
      | some target =>
          obtain rfl := htarget target hcall
          rw [shuntCall_target hcall, distance_shuntAdjust]
          simp only [Option.toList_some, List.length_singleton]
          omega

/-- Smooth adjustment, in every state reached from a `shunt_start` by any calls with any ticks,
configurations, voltages and temperatures, whatever a division by zero yields: the register is the
reported PWM; a pass that regulates and does not stop the shunt moves the PWM by one towards its
target, or leaves it there; and over calls that keep the shunt on and regulate towards `p` only,
the distance to `p` shrinks by one a regulating pass, so that the PWM is `p` from the 255th on. -/
theorem pwm_smooth (z : DivZero) (ticks : UInt16) (cfg : Config) (s₀ : Shunt)
    (before : List ShuntCall) :
    let s := run (shuntCall z) (shuntStart ticks cfg s₀) before
    s.tca0.cmp1 = (shuntGetPwm s).toUInt16 ∧
      (∀ call target, shuntTarget z s call = some target →
        let next := (shuntCall z s call).pwm.toNat
        (s.pwm.toNat < target.toNat → next = s.pwm.toNat + 1) ∧
          (target.toNat < s.pwm.toNat → next + 1 = s.pwm.toNat) ∧
          (s.pwm = target → next = target.toNat)) ∧
      ∀ p calls, Meets (shuntCall z) (Towards z p) s calls →
        let t := run (shuntCall z) s calls
        distance t.pwm p = distance s.pwm p - (regulatingPasses z s calls).length ∧
          (255 ≤ (regulatingPasses z s calls).length → t.pwm = p) := by
  intro s
  have hregister : s.tca0.cmp1 = s.pwm.toUInt16 :=
    run_invariant_always (P := fun s : Shunt => s.tca0.cmp1 = s.pwm.toUInt16)
      (fun s call h => shuntCall_cmp1 h call) before rfl
  refine ⟨hregister, fun call target htarget => ?_, fun p calls hmeets => ?_⟩
  · rw [shuntCall_target htarget]
    dsimp only
    rw [toNat_shuntAdjust, towards]
    refine ⟨fun hup => if_pos hup, fun hdown => ?_, fun hthere => ?_⟩
    · rw [if_neg (by omega), if_pos hdown]
      omega
    · rw [hthere, if_neg (by omega), if_neg (by omega)]
  · have hdistance := run_distance hmeets
    refine ⟨hdistance, fun hmany => ?_⟩
    rw [← UInt8.toNat_inj]
    have hfirst : distance s.pwm p ≤ 255 := by
      have hpwm := s.pwm.toNat_lt
      have htarget := p.toNat_lt
      unfold distance
      omega
    have hzero : distance (run (shuntCall z) s calls).pwm p = 0 := by omega
    unfold distance at hzero
    omega

/-- The condition can be checked. -/
instance (z : DivZero) (p : UInt8) (s : Shunt) : ∀ call, Decidable (Towards z p s call) :=
  fun _ => inferInstanceAs (Decidable (_ ∧ _))

/-- Passes 100 ticks apart that read 4200 mV and 25 degrees. -/
def warmPasses (count : Nat) : List ShuntCall :=
  (List.range count).map fun k => .run (UInt16.ofNat (100 * k + 1))
    (cfgDefaults (Vector.replicate 26 0)) 4200 25

/-- From a standing start 40 passes towards 255 come within 215 of it, and 255 passes get there. -/
theorem pwm_smooth_settles :
    let z : DivZero := ⟨fun _ => 0, fun _ => 0⟩
    let s := shuntStart 0 (cfgDefaults (Vector.replicate 26 0)) Shunt.init
    distance (run (shuntCall z) s (warmPasses 40)).pwm 255 = 215 ∧
      (run (shuntCall z) s (warmPasses 255)).pwm = 255 := by
  intro z s
  obtain ⟨-, -, hsettles⟩ := pwm_smooth z 0 (cfgDefaults (Vector.replicate 26 0)) Shunt.init []
  exact ⟨(hsettles 255 (warmPasses 40) (by decide +kernel)).1.trans (by decide +kernel),
    (hsettles 255 (warmPasses 255) (by decide +kernel)).2 (by decide +kernel)⟩

end BmsNode
