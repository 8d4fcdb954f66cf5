import BmsNode.Shunting.Regulation
import BmsNode.Shunting.Smoothing
import BmsNode.Timers.Operations
import BmsNode.Transition.Schedule
import Mathlib.Data.Nat.Dist

/-!
# The regulator in real time

`shunt_run` is called in every pass of the main loop and regulates once in 100 ticks.
`Regulator` runs the shunt with an unbounded clock and with the schedule of these
regulations, which begins one tick after the start. Calls no further apart than 100 ticks
keep to that schedule. Each regulation moves the PWM by one at most, so the PWM changes
between two moments by no more than the number of deadlines between them.
-/

namespace BmsNode

open Transition

/-- What happens to a started shunt: the tick interrupt, a pass with the configuration, the voltage
and the temperature it reads, and a request for the status. -/
inductive RegulatorEvent where
  | tick
  | run (cfg : Config) (cellmv : UInt16) (tempC : Int16)
  | getStatus
  deriving DecidableEq

/-- The shunt with its clock: the ticks counted, the tick of the last pass, and the schedule of the
regulations. -/
structure Regulator where
  shunt : Shunt
  now : Nat
  polled : Nat
  schedule : Schedule
  deriving DecidableEq

namespace Regulator

/-- The shunt is started at a tick. -/
def start (cfg : Config) (start : Nat) (s : Shunt) : Regulator :=
  { shunt := shuntStart (UInt16.ofNat start) cfg s
    now := start
    polled := start
    schedule := { first := start + 1, period := 100, taken := 0 } }

/-- One event. The functions read the low 16 bits of the clock. -/
def step (z : DivZero) (r : Regulator) : RegulatorEvent → Regulator
  | .tick => { r with now := r.now + 1 }
  | .run cfg cellmv tempC =>
      { shunt := shuntCall z r.shunt (.run (UInt16.ofNat r.now) cfg cellmv tempC)
        now := r.now
        polled := r.now
        schedule := r.schedule.poll r.now }
  | .getStatus => { r with shunt := shuntCall z r.shunt (.getStatus (UInt16.ofNat r.now)) }

/-- No more than 100 ticks come between two passes. -/
def Prompt (r : Regulator) : RegulatorEvent → Prop
  | .tick => r.now < r.polled + 100
  | .run _ _ _ | .getStatus => True

/-- The condition can be checked. -/
instance (r : Regulator) : ∀ event, Decidable (r.Prompt event)
  | .tick => inferInstanceAs (Decidable (_ < _))
  | .run _ _ _ | .getStatus => isTrue trivial

/-! ## The invariant -/

/-- The deadlines of a start up to the last pass have been met, and while the shunt is on its loop
timer holds the next one. -/
structure OnTime (first : Nat) (r : Regulator) : Prop where
  polls : r.polled ≤ r.now ∧ r.now ≤ r.polled + 100
  schedule : r.schedule.first = first ∧ r.schedule.period = 100
  upTo : r.schedule.UpTo r.polled
  near : r.schedule.due ≤ r.polled + 100
  loop : r.shunt.shuntStatus ≠ .off → r.shunt.loopTimeout = UInt16.ofNat r.schedule.due

/-- A shunt that has just been started. -/
theorem start_onTime (cfg : Config) (tick : Nat) (s : Shunt) :
    OnTime (tick + 1) (start cfg tick s) := by
  have hdue : (start cfg tick s).schedule.due = tick + 1 := by simp [start, Schedule.due]
  refine ⟨⟨Nat.le_refl tick, Nat.le_add_right tick 100⟩, ⟨rfl, rfl⟩,
    .begin (by simp [start]) 100, ?_, fun _ => ?_⟩
  · rw [hdue]
    exact Nat.add_le_add_left (by decide) tick
  · rw [hdue]
    exact tmrSet_ofNat tick 1

/-- A pass regulates exactly when the shunt is on and a deadline has been reached. -/
theorem OnTime.due_iff {first : Nat} {r : Regulator} (h : OnTime first r) :
    shuntDue (UInt16.ofNat r.now) r.shunt = true ↔
      r.shunt.shuntStatus ≠ .off ∧ r.schedule.due ≤ r.now := by
  rw [shuntDue, Bool.and_eq_true, decide_eq_true_eq]
  refine and_congr_right fun hon => ?_
  have hpolls := h.polls
  have hnear := h.near
  have hahead := h.upTo.ahead
  rw [h.loop hon]
  exact tmrExpired_ofNat (by omega) (by omega)

/-- The shunt after a regulation: the PWM has moved towards the target of the pass, and the loop
timer to the next deadline. -/
def regulated (z : DivZero) (cfg : Config) (cellmv : UInt16) (tempC : Int16) (s : Shunt) : Shunt :=
  shuntSet (shuntAdjust (shuntRegulate z cfg s cellmv tempC).newpwm s.pwm)
    { s with
      loopTimeout := s.loopTimeout + shuntLoopTime
      shuntStatus := (shuntRegulate z cfg s cellmv tempC).status }

/-- The effect of a pass: a shunt that is off is stopped again, and one that is on regulates when a
deadline has been reached, to be stopped if nobody has asked for its status in time. -/
theorem OnTime.run_effect {first : Nat} {r : Regulator} (h : OnTime first r) (z : DivZero)
    (cfg : Config) (cellmv : UInt16) (tempC : Int16) :
    (r.step z (.run cfg cellmv tempC)).shunt =
      if r.shunt.shuntStatus = .off then shuntStop r.shunt
      else if r.schedule.due ≤ r.now then
        if tmrExpired (UInt16.ofNat r.now) r.shunt.shuntTimeout then
          shuntStop (regulated z cfg cellmv tempC r.shunt)
        else regulated z cfg cellmv tempC r.shunt
      else r.shunt := by
  show (shuntRun z (UInt16.ofNat r.now) cfg cellmv tempC r.shunt).2 = _
  by_cases hoff : r.shunt.shuntStatus = .off
  · rw [if_pos hoff, shuntRun_off z cfg cellmv tempC hoff]
  · have hdue : tmrExpired (UInt16.ofNat r.now) r.shunt.loopTimeout = true ↔
        r.schedule.due ≤ r.now := by
      have hboth := h.due_iff
      simpa [shuntDue, hoff] using hboth
    rw [if_neg hoff]
    by_cases hreached : r.schedule.due ≤ r.now
    · have hexpired := hdue.mpr hreached
      rw [if_pos hreached, shuntRun, if_neg hoff]
      simp only [hexpired, Bool.not_true, Bool.false_eq_true, if_false]
      rfl
    · have hwait : tmrExpired (UInt16.ofNat r.now) r.shunt.loopTimeout = false := by
        rw [← Bool.not_eq_true]
        exact fun hexpired => hreached (hdue.mp hexpired)
      rw [if_neg hreached, shuntRun_waiting z cfg cellmv tempC hoff hwait]

/-- A pass moves the PWM by one at most if it regulates, and not at all otherwise, unless it stops
the shunt. It advances the loop timer when it regulates. -/
theorem shuntCall_run (z : DivZero) (s : Shunt) (ticks : UInt16) (cfg : Config) (cellmv : UInt16)
    (tempC : Int16) :
    let t := shuntCall z s (.run ticks cfg cellmv tempC)
    t.shuntStatus ≠ .off →
      s.shuntStatus ≠ .off ∧
        if shuntDue ticks s then
          Nat.dist t.pwm.toNat s.pwm.toNat ≤ 1 ∧ t.loopTimeout = s.loopTimeout + 100
        else t = s := by
  intro t hon
  by_cases hoff : s.shuntStatus = .off
  · have hstop : t = shuntStop s := shuntRun_off z cfg cellmv tempC hoff
    rw [hstop] at hon
    exact absurd rfl hon
  · refine ⟨hoff, ?_⟩
    cases hexpired : tmrExpired ticks s.loopTimeout with
    | false =>
        rw [if_neg (by simp [shuntDue, hexpired])]
        exact shuntRun_waiting z cfg cellmv tempC hoff hexpired
    | true =>
        rw [if_pos (by simp [shuntDue, hexpired, hoff])]
        cases hidle : tmrExpired ticks s.shuntTimeout with
        | true => exact absurd (shuntRun_idle z cfg cellmv tempC hoff hexpired hidle).1 hon
        | false =>
            have hactive : t = _ := shuntRun_active z cfg cellmv tempC hoff hexpired hidle
            rw [hactive]
            refine ⟨?_, rfl⟩
            show Nat.dist (shuntAdjust _ s.pwm).toNat s.pwm.toNat ≤ 1
            rw [toNat_shuntAdjust, Word.towards, Nat.dist]
            split_ifs <;> omega

/-- A request for the status changes the idle timeout only. -/
theorem step_getStatus (z : DivZero) (r : Regulator) : ∃ timeout,
    r.step z .getStatus = { r with shunt := { r.shunt with shuntTimeout := timeout } } := by
  obtain ⟨timeout, hstatus⟩ := shuntGetStatus_eq (UInt16.ofNat r.now) r.shunt
  exact ⟨timeout, by rw [step, shuntCall, hstatus]⟩

/-- Every prompt event keeps the schedule. -/
theorem OnTime.step {z : DivZero} {first : Nat} {r : Regulator} (h : OnTime first r)
    (event : RegulatorEvent) (hprompt : r.Prompt event) : OnTime first (r.step z event) := by
  have hpolls := h.polls
  cases event with
  | tick =>
      have hroom : r.now < r.polled + 100 := hprompt
      exact ⟨⟨Nat.le_succ_of_le hpolls.1, hroom⟩, h.schedule, h.upTo, h.near, h.loop⟩
  | getStatus =>
      obtain ⟨timeout, hstep⟩ := r.step_getStatus z
      rw [hstep]
      exact ⟨h.polls, h.schedule, h.upTo, h.near, h.loop⟩
  | run cfg cellmv tempC =>
      have hperiod := h.schedule.2
      have hframe := r.schedule.poll_frame r.now
      have hgap : r.now ≤ r.polled + r.schedule.period := by omega
      refine ⟨⟨Nat.le_refl r.now, Nat.le_add_right r.now 100⟩,
        ⟨hframe.1.trans h.schedule.1, hframe.2.trans hperiod⟩, h.upTo.poll hpolls.1 hgap, ?_, ?_⟩
      · show (r.schedule.poll r.now).due ≤ r.now + 100
        have hnear := h.near
        unfold Schedule.poll
        split_ifs with hdue
        · rw [Schedule.due_taken]
          omega
        · omega
      · intro hon
        obtain ⟨hbefore, hpass⟩ :=
          shuntCall_run z r.shunt (UInt16.ofNat r.now) cfg cellmv tempC hon
        have hdue := h.due_iff
        show (shuntCall z r.shunt _).loopTimeout = UInt16.ofNat (r.schedule.poll r.now).due
        unfold Schedule.poll
        by_cases hreached : r.schedule.due ≤ r.now
        · rw [if_pos (hdue.mpr ⟨hbefore, hreached⟩)] at hpass
          rw [if_pos hreached, hpass.2, h.loop hbefore, Schedule.due_taken, hperiod,
            UInt16.ofNat_add]
          rfl
        · rw [if_neg fun hyes => hreached (hdue.mp hyes).2] at hpass
          rw [if_neg hreached, hpass, h.loop hbefore]

/-- The number of regulations is the number of deadlines up to the last pass. -/
theorem OnTime.taken_eq {tick : Nat} {r : Regulator} (h : OnTime (tick + 1) r) :
    r.schedule.taken = Schedule.count r.polled ⟨tick + 1, 100, 0⟩ := by
  have hperiod := h.schedule.2
  rw [h.upTo.taken_eq (by omega), Schedule.count, Schedule.count, h.schedule.1, hperiod]

/-! ## The slew rate -/

/-- Since an earlier moment the PWM has changed by no more than the number of regulations, unless
the shunt was turned off. -/
def Slewed (before r : Regulator) : Prop :=
  r.shunt.shuntStatus = .off ∨
    Nat.dist r.shunt.pwm.toNat before.shunt.pwm.toNat + before.schedule.taken ≤ r.schedule.taken

/-- Every event keeps the slew rate. -/
theorem Slewed.step {z : DivZero} {first : Nat} {before r : Regulator} (h : Slewed before r)
    (hontime : OnTime first r) (event : RegulatorEvent) : Slewed before (r.step z event) := by
  cases event with
  | tick => exact h
  | getStatus =>
      obtain ⟨timeout, hstep⟩ := r.step_getStatus z
      rw [hstep]
      exact h
  | run cfg cellmv tempC =>
      by_cases hoff : (r.step z (.run cfg cellmv tempC)).shunt.shuntStatus = .off
      · exact .inl hoff
      · obtain ⟨hbefore, hpass⟩ :=
          shuntCall_run z r.shunt (UInt16.ofNat r.now) cfg cellmv tempC hoff
        have hslewed := h.resolve_left hbefore
        have hdue := hontime.due_iff
        right
        show Nat.dist (shuntCall z r.shunt _).pwm.toNat before.shunt.pwm.toNat +
          before.schedule.taken ≤ (r.schedule.poll r.now).taken
        unfold Schedule.poll
        by_cases hreached : r.schedule.due ≤ r.now
        · rw [if_pos (hdue.mpr ⟨hbefore, hreached⟩)] at hpass
          rw [if_pos hreached]
          have htriangle := Nat.dist.triangle_inequality
            (shuntCall z r.shunt (.run (UInt16.ofNat r.now) cfg cellmv tempC)).pwm.toNat
            r.shunt.pwm.toNat before.shunt.pwm.toNat
          have hone := hpass.1
          show _ ≤ r.schedule.taken + 1
          omega
        · rw [if_neg fun hyes => hreached (hdue.mp hyes).2] at hpass
          rw [if_neg hreached, hpass]
          exact hslewed

end Regulator

/-- The regulator in real time, from any start on, with passes no more than 100 ticks apart that
read any configurations, voltages and temperatures, and any requests for the status. A pass
regulates exactly when the shunt is on and one of the deadlines 1, 101, 201, ... ticks after the
start has been reached: it then moves the PWM towards its target, or stops the shunt at the end of
the idle timeout; before that it leaves a shunt that is on alone. While the shunt is on, its PWM
differs from that of any earlier moment by no more than the number of deadlines between the last
passes before the two moments. -/
theorem shunt_slew (z : DivZero) (cfg : Config) (tick : Nat) (s : Shunt)
    (before after : List RegulatorEvent)
    (hprompt : Meets (Regulator.step z) Regulator.Prompt (.start cfg tick s) (before ++ after)) :
    let r := run (Regulator.step z) (.start cfg tick s) before
    let t := run (Regulator.step z) r after
    let deadlines := fun polled => Schedule.count polled ⟨tick + 1, 100, 0⟩
    (shuntDue (UInt16.ofNat t.now) t.shunt = true ↔
        t.shunt.shuntStatus ≠ .off ∧ t.schedule.due ≤ t.now) ∧
      (∀ cfg cellmv tempC, (t.step z (.run cfg cellmv tempC)).shunt =
        if t.shunt.shuntStatus = .off then shuntStop t.shunt
        else if t.schedule.due ≤ t.now then
          if tmrExpired (UInt16.ofNat t.now) t.shunt.shuntTimeout then
            shuntStop (Regulator.regulated z cfg cellmv tempC t.shunt)
          else Regulator.regulated z cfg cellmv tempC t.shunt
        else t.shunt) ∧
      t.schedule.taken = deadlines t.polled ∧
      (t.shunt.shuntStatus ≠ .off →
        Nat.dist t.shunt.pwm.toNat r.shunt.pwm.toNat ≤
          deadlines t.polled - deadlines r.polled) := by
  intro r t deadlines
  obtain ⟨hbefore, hafter⟩ := (meets_append _ before after).mp hprompt
  have hr : Regulator.OnTime (tick + 1) r :=
    run_invariant (fun _ event h hprompt => h.step event hprompt)
      (Regulator.start_onTime cfg tick s) hbefore
  obtain ⟨ht, hslewed⟩ : Regulator.OnTime (tick + 1) t ∧ Regulator.Slewed r t :=
    run_invariant (P := fun t => Regulator.OnTime (tick + 1) t ∧ Regulator.Slewed r t)
      (fun _ event h hprompt => ⟨h.1.step event hprompt, h.2.step h.1 event⟩)
      ⟨hr, .inr (by simp)⟩ hafter
  refine ⟨ht.due_iff, fun cfg cellmv tempC => ht.run_effect z cfg cellmv tempC, ht.taken_eq,
    fun hon => ?_⟩
  have hdist := hslewed.resolve_left hon
  rw [hr.taken_eq, ht.taken_eq] at hdist
  exact Nat.le_sub_of_add_le hdist

/-- A pass with a full, cold cell. -/
def fullCell : RegulatorEvent := .run defaultConfig 65535 0

/-- From two ticks after the start to 102 ticks after it, over the wrap-around of the counter,
there is one deadline, and the PWM of a full cell goes from one to two. -/
theorem shunt_slew_second :
    let z : DivZero := ⟨fun _ => 0, fun _ => 0⟩
    let r := run (Regulator.step z) (.start defaultConfig 65500 Shunt.init) [.tick, .tick, fullCell]
    let t := run (Regulator.step z) r (List.replicate 100 .tick ++ [fullCell])
    t.shunt.pwm = 2 ∧ Nat.dist t.shunt.pwm.toNat r.shunt.pwm.toNat ≤ 1 := by
  intro z r t
  have hslew := shunt_slew z defaultConfig 65500 Shunt.init [.tick, .tick, fullCell]
    (List.replicate 100 .tick ++ [fullCell]) (by decide +kernel)
  exact ⟨by decide +kernel, Nat.le_trans (hslew.2.2.2 (by decide +kernel)) (by decide +kernel)⟩

end BmsNode
