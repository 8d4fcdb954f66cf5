import BmsNode.Shunting.Regulation
import BmsNode.Shunting.Smoothing
import BmsNode.Timers.Operations

/-!
# The dead-man timer of the shunt

A shunt that runs is turned off when nobody asks for its status for 30000 ticks. The
passes look at this timeout only when the loop timer lets them, once in 100 ticks.
`ShuntClock` runs the shunt with an unbounded clock, and its invariant gives the two
16-bit timeouts as numbers of that clock.
-/

namespace BmsNode

open Transition

/-- What happens to a started shunt: the tick interrupt, a pass with the voltage and temperature it
reads, and a request for the status. -/
inductive ShuntEvent where
  | tick
  | run (cellmv : UInt16) (tempC : Int16)
  | getStatus
  deriving DecidableEq, Repr

/-- The shunt with its clock: the ticks counted, the tick of the last request or else of the start,
and whether a pass was made in this tick. -/
structure ShuntClock where
  shunt : Shunt
  now : Nat
  asked : Nat
  passed : Bool
  deriving DecidableEq

/-- The shunt is started at a tick, which needs no pass. -/
def ShuntClock.start (cfg : Config) (start : Nat) (s : Shunt) : ShuntClock :=
  { shunt := shuntStart (UInt16.ofNat start) cfg s, now := start, asked := start, passed := true }

/-- One event. The functions read the low 16 bits of the clock. -/
def ShuntClock.step (z : DivZero) (cfg : Config) (c : ShuntClock) : ShuntEvent → ShuntClock
  | .tick => { c with now := c.now + 1, passed := false }
  | .run cellmv tempC =>
      { c with
        shunt := shuntCall z c.shunt (.run (UInt16.ofNat c.now) cfg cellmv tempC)
        passed := true }
  | .getStatus =>
      { c with shunt := shuntCall z c.shunt (.getStatus (UInt16.ofNat c.now)), asked := c.now }

/-- No tick ends without a pass, and a request comes less than 30000 ticks after the last. -/
def ShuntClock.Timely (c : ShuntClock) : ShuntEvent → Prop
  | .tick => c.passed = true
  | .run _ _ => True
  | .getStatus => c.now < c.asked + 30000

instance : ∀ c event, Decidable (ShuntClock.Timely c event)
  | c, .tick => inferInstanceAs (Decidable (c.passed = true))
  | _, .run _ _ => isTrue trivial
  | c, .getStatus => inferInstanceAs (Decidable (c.now < c.asked + 30000))

/-- A shunt that is on, with the clock's value at which the loop timer lets the next pass. -/
structure ShuntClock.Armed (c : ShuntClock) (next : Nat) : Prop where
  on : c.shunt.shuntStatus ≠ .off
  idle : c.shunt.shuntTimeout = UInt16.ofNat (c.asked + 30000)
  loop : c.shunt.loopTimeout = UInt16.ofNat next
  ahead : c.now ≤ next ∧ next ≤ c.now + 100
  passed : c.passed = true → c.now < next
  late : next < c.asked + 30100

/-- A shunt that was turned off by the timeout. -/
structure ShuntClock.Released (c : ShuntClock) : Prop where
  off : c.shunt.shuntStatus = .off
  pwm : c.shunt.pwm = 0
  idle : c.asked + 30000 ≤ c.now

/-- The invariant of a run. -/
def ShuntClock.Watched (c : ShuntClock) : Prop :=
  c.asked ≤ c.now ∧ ((∃ next, c.Armed next) ∨ c.Released)

/-! ## One event -/

section Event

variable {z : DivZero} {cfg : Config} {c : ShuntClock} {next : Nat}

/-- A started shunt is armed for the next tick. -/
theorem ShuntClock.start_armed (cfg : Config) (start : Nat) (s : Shunt) :
    (ShuntClock.start cfg start s).Armed (start + 1) where
  on := by simp [ShuntClock.start, shuntStart]
  idle := tmrSet_ofNat start 30000
  loop := tmrSet_ofNat start 1
  ahead := by
    simp only [ShuntClock.start]
    omega
  passed := fun _ => Nat.lt_succ_self start
  late := by
    simp only [ShuntClock.start]
    omega

/-- A tick ends after its pass, so the next pass is still ahead. -/
theorem ShuntClock.Armed.tick (h : c.Armed next) (hpassed : c.passed = true) :
    (c.step z cfg .tick).Armed next := by
  have hahead := h.ahead
  have hlater := h.passed hpassed
  refine ⟨h.on, h.idle, h.loop, ?_, fun hnone => ?_, h.late⟩
  · show c.now + 1 ≤ next ∧ next ≤ c.now + 1 + 100
    omega
  · cases hnone

/-- A request restarts the idle timeout, and changes nothing else of the shunt. -/
theorem ShuntClock.step_getStatus (z : DivZero) (cfg : Config) (c : ShuntClock) :
    ∃ timeout, timeout = UInt16.ofNat (c.now + 30000) ∧
      c.step z cfg .getStatus =
        { c with shunt := { c.shunt with shuntTimeout := timeout }, asked := c.now } :=
  ⟨tmrSet (UInt16.ofNat c.now) 30000, tmrSet_ofNat c.now 30000, by
    rw [ShuntClock.step, shuntCall, shuntGetStatus]⟩

/-- A request keeps the shunt armed. -/
theorem ShuntClock.Armed.getStatus (h : c.Armed next) (hasked : c.asked ≤ c.now) :
    (c.step z cfg .getStatus).Armed next := by
  have hlate := h.late
  obtain ⟨timeout, htimeout, hstep⟩ := c.step_getStatus z cfg
  rw [hstep]
  refine ⟨h.on, htimeout, h.loop, h.ahead, h.passed, ?_⟩
  show next < c.now + 30100
  omega

/-- Both timeouts are close enough to the clock to be read as numbers. -/
theorem ShuntClock.Armed.timeouts (h : c.Armed next) (hasked : c.asked ≤ c.now) :
    (tmrExpired (UInt16.ofNat c.now) c.shunt.loopTimeout = true ↔ next ≤ c.now) ∧
      (tmrExpired (UInt16.ofNat c.now) c.shunt.shuntTimeout = true ↔
        c.asked + 30000 ≤ c.now) := by
  have hahead := h.ahead
  have hlate := h.late
  rw [h.loop, h.idle]
  exact ⟨tmrExpired_ofNat (by omega) (by omega), tmrExpired_ofNat (by omega) (by omega)⟩

/-- A pass ahead of the loop timer changes nothing. -/
theorem ShuntClock.Armed.run_waiting (h : c.Armed next) (hasked : c.asked ≤ c.now)
    (hwait : c.now < next) (cellmv : UInt16) (tempC : Int16) :
    (c.step z cfg (.run cellmv tempC)).Armed next := by
  have hrunning : tmrExpired (UInt16.ofNat c.now) c.shunt.loopTimeout = false := by
    rw [Bool.eq_false_iff, ne_eq, (h.timeouts hasked).1]
    omega
  have hkeep : (c.step z cfg (.run cellmv tempC)).shunt = c.shunt :=
    shuntRun_waiting z cfg cellmv tempC h.on hrunning
  refine ⟨?_, ?_, ?_, h.ahead, fun _ => hwait, h.late⟩
  · rw [hkeep]
    exact h.on
  · rw [hkeep]
    exact h.idle
  · rw [hkeep]
    exact h.loop

/-- A pass before the idle timeout keeps the shunt on, and the next one comes 100 ticks later. -/
theorem ShuntClock.Armed.run_active (h : c.Armed next) (hasked : c.asked ≤ c.now)
    (hdue : next ≤ c.now) (hactive : c.now < c.asked + 30000) (cellmv : UInt16) (tempC : Int16) :
    (c.step z cfg (.run cellmv tempC)).Armed (next + 100) := by
  have hahead := h.ahead
  have hrunning : tmrExpired (UInt16.ofNat c.now) c.shunt.shuntTimeout = false := by
    rw [Bool.eq_false_iff, ne_eq, (h.timeouts hasked).2]
    omega
  have hpass : (c.step z cfg (.run cellmv tempC)).shunt = _ :=
    shuntRun_active z cfg cellmv tempC h.on ((h.timeouts hasked).1.mpr hdue) hrunning
  refine ⟨?_, ?_, ?_, ?_, fun _ => ?_, ?_⟩
  · rw [hpass]
    exact shuntRegulate_status z cfg c.shunt cellmv tempC
  · rw [hpass]
    exact h.idle
  · rw [hpass, UInt16.ofNat_add, ← h.loop]
    rfl
  · show c.now ≤ next + 100 ∧ next + 100 ≤ c.now + 100
    omega
  · show c.now < next + 100
    omega
  · show next + 100 < c.asked + 30100
    omega

/-- A pass after the idle timeout turns the shunt off. -/
theorem ShuntClock.Armed.run_idle (h : c.Armed next) (hasked : c.asked ≤ c.now)
    (hdue : next ≤ c.now) (hidle : c.asked + 30000 ≤ c.now) (cellmv : UInt16) (tempC : Int16) :
    (c.step z cfg (.run cellmv tempC)).Released := by
  obtain ⟨hoff, hpwm⟩ := shuntRun_idle z cfg cellmv tempC h.on ((h.timeouts hasked).1.mpr hdue)
    ((h.timeouts hasked).2.mpr hidle)
  exact ⟨hoff, hpwm, hidle⟩

/-- A pass leaves the shunt armed, or turns it off for good. -/
theorem ShuntClock.Armed.run (h : c.Armed next) (hasked : c.asked ≤ c.now) (cellmv : UInt16)
    (tempC : Int16) :
    (∃ later, (c.step z cfg (.run cellmv tempC)).Armed later) ∨
      (c.step z cfg (.run cellmv tempC)).Released := by
  by_cases hwait : c.now < next
  · exact .inl ⟨next, h.run_waiting hasked hwait cellmv tempC⟩
  have hdue := Nat.not_lt.mp hwait
  by_cases hactive : c.now < c.asked + 30000
  · exact .inl ⟨next + 100, h.run_active hasked hdue hactive cellmv tempC⟩
  · exact .inr (h.run_idle hasked hdue (Nat.not_lt.mp hactive) cellmv tempC)

/-- A shunt that was turned off stays off. -/
theorem ShuntClock.Released.step (h : c.Released) {event : ShuntEvent} (htimely : c.Timely event) :
    (c.step z cfg event).Released := by
  have hidle := h.idle
  cases event with
  | tick => exact ⟨h.off, h.pwm, Nat.le_succ_of_le hidle⟩
  | run cellmv tempC =>
      have hstop : (c.step z cfg (.run cellmv tempC)).shunt = shuntStop c.shunt :=
        shuntRun_off z cfg cellmv tempC h.off
      refine ⟨?_, ?_, hidle⟩
      · rw [hstop]
        rfl
      · rw [hstop]
        rfl
  | getStatus =>
      have hsoon : c.now < c.asked + 30000 := htimely
      omega

/-- The last request does not lie ahead of the clock. -/
theorem ShuntClock.asked_le (h : c.asked ≤ c.now) (event : ShuntEvent) :
    (c.step z cfg event).asked ≤ (c.step z cfg event).now := by
  cases event with
  | tick => exact Nat.le_succ_of_le h
  | run cellmv tempC => exact h
  | getStatus =>
      obtain ⟨timeout, -, hstep⟩ := c.step_getStatus z cfg
      simp only [hstep, Nat.le_refl]

/-- Every timely event preserves the invariant. -/
theorem ShuntClock.Watched.step (h : c.Watched) {event : ShuntEvent} (htimely : c.Timely event) :
    (c.step z cfg event).Watched := by
  obtain ⟨hasked, hstate⟩ := h
  refine ⟨ShuntClock.asked_le hasked event, ?_⟩
  rcases hstate with ⟨next, harmed⟩ | hreleased
  · cases event with
    | tick => exact .inl ⟨next, harmed.tick htimely⟩
    | run cellmv tempC => exact harmed.run hasked cellmv tempC
    | getStatus => exact .inl ⟨next, harmed.getStatus hasked⟩
  · exact .inr (hreleased.step htimely)

end Event

/-! ## Runs -/

/-- The dead-man timer, in every state of a run from a `shunt_start` at any tick in which each
tick has its pass and each request comes less than 30000 ticks after the last, whatever the passes
read: the shunt is not off less than 30000 ticks after the last request, and is off with PWM 0
from 30100 ticks after it on. -/
theorem dead_man (z : DivZero) (cfg : Config) (start : Nat) (s : Shunt) (events : List ShuntEvent)
    (htimely : Meets (ShuntClock.step z cfg) ShuntClock.Timely (.start cfg start s) events) :
    let c := run (ShuntClock.step z cfg) (.start cfg start s) events
    (c.now < c.asked + 30000 → c.shunt.shuntStatus ≠ .off) ∧
      (c.asked + 30100 ≤ c.now → c.shunt.shuntStatus = .off ∧ shuntGetPwm c.shunt = 0) := by
  intro c
  have hstart : (ShuntClock.start cfg start s).Watched :=
    ⟨Nat.le_refl start, .inl ⟨start + 1, ShuntClock.start_armed cfg start s⟩⟩
  have hwatched : c.Watched :=
    run_invariant (P := ShuntClock.Watched) (fun _ _ hbefore hcond => hbefore.step hcond) hstart htimely
  obtain ⟨hasked, ⟨next, harmed⟩ | hreleased⟩ := hwatched
  · refine ⟨fun _ => harmed.on, fun hlong => ?_⟩
    have hahead := harmed.ahead
    have hlate := harmed.late
    omega
  · refine ⟨fun hshort => ?_, fun _ => ⟨hreleased.off, hreleased.pwm⟩⟩
    have hidle := hreleased.idle
    omega

/-- A number of ticks with a pass at 4.2 V and 25 °C in each and no request. -/
def silence : Nat → List ShuntEvent
  | 0 => []
  | ticks + 1 => .tick :: .run 4200 25 :: silence ticks

/-- Silence is timely and only moves the clock. -/
theorem silence_timely (z : DivZero) (cfg : Config) (ticks : Nat) {c : ShuntClock}
    (hpassed : c.passed = true) :
    Meets (ShuntClock.step z cfg) ShuntClock.Timely c (silence ticks) ∧
      (run (ShuntClock.step z cfg) c (silence ticks)).now = c.now + ticks ∧
      (run (ShuntClock.step z cfg) c (silence ticks)).asked = c.asked := by
  induction ticks generalizing c with
  | zero => exact ⟨trivial, rfl, rfl⟩
  | succ ticks ih =>
      let ticked := c.step z cfg .tick
      obtain ⟨hmeets, hnow, hasked⟩ := ih (c := ticked.step z cfg (.run 4200 25)) rfl
      refine ⟨⟨hpassed, trivial, hmeets⟩, hnow.trans ?_, hasked⟩
      show c.now + 1 + ticks = c.now + (ticks + 1)
      omega

/-- A shunt started at tick 65530 is off after 30100 ticks of silence, at tick 95630. -/
theorem dead_man_silence :
    let c := run (ShuntClock.step ⟨fun _ => 0, fun _ => 0⟩ defaultConfig)
      (.start defaultConfig 65530 Shunt.init) (silence 30100)
    c.now = 65530 + 30100 ∧ c.shunt.shuntStatus = .off ∧ shuntGetPwm c.shunt = 0 := by
  obtain ⟨htimely, hnow, hasked⟩ := silence_timely ⟨fun _ => 0, fun _ => 0⟩ defaultConfig 30100
    (c := .start defaultConfig 65530 Shunt.init) (by rw [ShuntClock.start])
  have hdead := dead_man ⟨fun _ => 0, fun _ => 0⟩ defaultConfig 65530 Shunt.init (silence 30100)
    htimely
  dsimp only at hdead ⊢
  rw [hnow, hasked] at hdead
  rw [hnow]
  exact ⟨by rw [ShuntClock.start], hdead.2 (Nat.le_refl _)⟩

end BmsNode
