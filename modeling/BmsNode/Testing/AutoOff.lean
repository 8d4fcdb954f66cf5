import BmsNode.Testing.Exclusive
import BmsNode.Timers.Operations
import BmsNode.Transition.Clock

/-!
# The test mode turns itself off

`testmode_run` counts seconds with a timeout it re-arms 59 times, and turns everything
off when the minute is over. `Counting` gives its counter and its 16-bit timeout as
numbers of an unbounded clock: no second is lost or gained, however often the tick
counter wraps.
-/

namespace BmsNode

open Transition

/-! ## The second counter -/

/-- A test function that has run for a number of seconds. -/
structure Counting (start : Nat) (testfunc : UInt8) (r : TestRig) (seconds : Nat) : Prop where
  state : r.test.testState = testfunc
  count : r.test.testSeconds = UInt16.ofNat seconds
  timeout : r.test.testTimeout = UInt16.ofNat (start + 1000 * (seconds + 1))
  minute : seconds < 60

/-- Everything that a test function switches on is off. -/
structure AllOff (r : TestRig) : Prop where
  state : r.test.testState = TestFunc.off
  pwm : r.shunt.pwm = 0
  extio : r.gpio.extio = false

/-- `testmode_off` turns everything off. -/
theorem testmodeOff_allOff (r : TestRig) : AllOff (testmodeOff r) := ⟨rfl, rfl, rfl⟩

/-- A function that is started has run for no second. -/
theorem testmodeOn_counting (start : Nat) (cfg : Config) {testfunc : UInt8} (val0 val1 : UInt8)
    (r : TestRig) (h : StartsFunction testfunc) :
    Counting start testfunc (testmodeOn (UInt16.ofNat start) cfg testfunc val0 val1 r) 0 := by
  have htimeout := tmrSet_ofNat start 1000
  rcases h with rfl | rfl | rfl | rfl
  · exact ⟨rfl, rfl, htimeout, by omega⟩
  · exact ⟨rfl, rfl, htimeout, by omega⟩
  · exact ⟨rfl, rfl, htimeout, by omega⟩
  · exact ⟨rfl, rfl, htimeout, by omega⟩

section Pass

variable {start now seconds : Nat} {testfunc : UInt8} {r : TestRig} {tempC : Int16}

/-- The timeout of the second is close enough to the clock to be read as a number. -/
theorem Counting.expired_iff (h : Counting start testfunc r seconds)
    (hlow : start + 1000 * seconds ≤ now) (hhigh : now ≤ start + 1000 * (seconds + 1)) :
    tmrExpired (UInt16.ofNat now) r.test.testTimeout = true ↔
      start + 1000 * (seconds + 1) ≤ now := by
  rw [h.timeout]
  exact tmrExpired_ofNat (by omega) (by omega)

/-- Within a second nothing is counted. -/
theorem Counting.tick_waiting (h : Counting start testfunc r seconds)
    (hlow : start + 1000 * seconds ≤ now) (hhigh : now < start + 1000 * (seconds + 1)) :
    testmodeTick (UInt16.ofNat now) r.test = (false, r.test) := by
  have hrunning : ¬tmrExpired (UInt16.ofNat now) r.test.testTimeout = true := by
    rw [h.expired_iff hlow (Nat.le_of_lt hhigh)]
    omega
  rw [testmodeTick, if_neg hrunning]

/-- At the end of a second the counter advances, and the minute is over after the last. -/
theorem Counting.tick_second (h : Counting start testfunc r seconds)
    (hend : now = start + 1000 * (seconds + 1)) :
    let next := testmodeTick (UInt16.ofNat now) r.test
    (next.1 = true ∧ seconds + 1 = 60) ∨
      (next.1 = false ∧ Counting start testfunc { r with test := next.2 } (seconds + 1)) := by
  intro next
  have hminute := h.minute
  have hexpired : tmrExpired (UInt16.ofNat now) r.test.testTimeout = true := by
    rw [h.expired_iff (by omega) (by omega)]
    omega
  have hseconds : r.test.testSeconds + 1 = UInt16.ofNat (seconds + 1) := by
    rw [h.count, UInt16.ofNat_add]
    rfl
  have hless : UInt16.ofNat (seconds + 1) < 60 ↔ seconds + 1 < 60 := by
    rw [UInt16.lt_iff_toNat_lt, UInt16.toNat_ofNat']
    show _ < 60 ↔ _
    omega
  have htimeout : r.test.testTimeout + 1000 =
      UInt16.ofNat (start + 1000 * (seconds + 1 + 1)) := by
    rw [h.timeout, Nat.mul_succ 1000 (seconds + 1), ← Nat.add_assoc, UInt16.ofNat_add _ 1000]
    rfl
  by_cases hlast : seconds + 1 < 60
  · have hnext : next = (false, { r.test with
        testSeconds := UInt16.ofNat (seconds + 1)
        testTimeout := UInt16.ofNat (start + 1000 * (seconds + 1 + 1)) }) := by
      simp only [next, testmodeTick, hexpired, if_true, hseconds, hless, hlast, htimeout]
    rw [hnext]
    exact .inr ⟨rfl, h.state, rfl, rfl, hlast⟩
  · refine .inl ⟨?_, by omega⟩
    simp only [next, testmodeTick, hexpired, if_true, hseconds, hless, hlast, if_false]

/-- When the minute is over a pass turns everything off. -/
theorem testmodeRun_timedOut (ticks : UInt16) (tempC : Int16)
    (h : (testmodeTick ticks r.test).1 = true) : AllOff (testmodeRun ticks tempC r).2 := by
  simp only [testmodeRun, h, if_true]
  split_ifs
  · exact testmodeOff_allOff r
  · exact testmodeOff_allOff _

/-- Blinking leaves the second counter alone. -/
theorem testmodeBlink_counting (ticks : UInt16) (h : Counting start testfunc r seconds) :
    Counting start testfunc (testmodeBlink ticks r) seconds := by
  simp only [testmodeBlink]
  split_ifs
  · exact ⟨h.state, h.count, h.timeout, h.minute⟩
  · exact ⟨h.state, h.count, h.timeout, h.minute⟩
  · exact ⟨h.state, h.count, h.timeout, h.minute⟩
  · exact ⟨h.state, h.count, h.timeout, h.minute⟩
  · exact h

/-- A board temperature between 0 and 60 degrees is not too hot. -/
theorem not_hot (hcold : 0 ≤ tempC) (hhot : tempC ≤ 60) : ¬tempC.toUInt16 > 60 := by
  have hword := Word.toNat_toUInt16 tempC
  have hcold' : 0 ≤ tempC.toInt := Int16.le_iff_toInt_le.mp hcold
  have hhot' : tempC.toInt ≤ 60 := Int16.le_iff_toInt_le.mp hhot
  rw [if_pos hcold'] at hword
  show ¬60 < tempC.toUInt16
  rw [UInt16.lt_iff_toNat_lt]
  show ¬60 < _
  omega

/-- Before the minute is over, and while the board is not too hot, a pass only counts. -/
theorem testmodeRun_counting (ticks : UInt16) (hstarts : StartsFunction testfunc)
    (hcold : 0 ≤ tempC) (hhot : tempC ≤ 60) (hstate : r.test.testState = testfunc)
    (htick : (testmodeTick ticks r.test).1 = false)
    (h : Counting start testfunc { r with test := (testmodeTick ticks r.test).2 } seconds) :
    Counting start testfunc (testmodeRun ticks tempC r).2 seconds := by
  have hon : r.test.testState ≠ TestFunc.off := by
    rw [hstate]
    rcases hstarts with rfl | rfl | rfl | rfl <;> decide
  simp only [testmodeRun, if_neg hon, htick, not_hot hcold hhot, and_false, if_false,
    Bool.false_eq_true]
  split_ifs
  · exact testmodeBlink_counting ticks h
  · exact h

end Pass

/-! ## Runs -/

/-- After the pass of a tick, the function is within the seconds counted, or turned off. -/
def AfterPass (start : Nat) (testfunc : UInt8) (now : Nat) (r : TestRig) : Prop :=
  (∃ seconds, Counting start testfunc r seconds ∧ start + 1000 * seconds ≤ now ∧
    now < start + 1000 * (seconds + 1)) ∨ (AllOff r ∧ start + 60000 ≤ now)

/-- Before the pass of a tick, the end of a second may not have been counted. -/
def BeforePass (start : Nat) (testfunc : UInt8) (now : Nat) (r : TestRig) : Prop :=
  (∃ seconds, Counting start testfunc r seconds ∧ start + 1000 * seconds ≤ now ∧
    now ≤ start + 1000 * (seconds + 1)) ∨ (AllOff r ∧ start + 60000 < now)

/-- A pass counts the second that has ended, if any. -/
theorem BeforePass.run {start now : Nat} {testfunc : UInt8} {r : TestRig} {tempC : Int16}
    (h : BeforePass start testfunc now r) (hstarts : StartsFunction testfunc) (hcold : 0 ≤ tempC)
    (hhot : tempC ≤ 60) :
    AfterPass start testfunc now (testmodeRun (UInt16.ofNat now) tempC r).2 := by
  rcases h with ⟨seconds, hcounting, hlow, hhigh⟩ | ⟨hoff, hover⟩
  · by_cases hend : now = start + 1000 * (seconds + 1)
    · rcases hcounting.tick_second hend with ⟨htick, hminute⟩ | ⟨htick, hnext⟩
      · exact .inr ⟨testmodeRun_timedOut _ tempC htick, by omega⟩
      · exact .inl ⟨seconds + 1,
          testmodeRun_counting _ hstarts hcold hhot hcounting.state htick hnext, by omega, by omega⟩
    · have hwait := hcounting.tick_waiting hlow (by omega)
      refine .inl ⟨seconds, ?_, hlow, by omega⟩
      refine testmodeRun_counting _ hstarts hcold hhot hcounting.state ?_ ?_
      · rw [hwait]
      · rw [hwait]
        exact hcounting
  · refine .inr ⟨?_, Nat.le_of_lt hover⟩
    rw [testmodeRun, if_pos hoff.state]
    exact testmodeOff_allOff r

/-- What holds after the pass of a tick could hold before it. -/
theorem AfterPass.before {start now : Nat} {testfunc : UInt8} {r : TestRig}
    (h : AfterPass start testfunc now r) : BeforePass start testfunc (now + 1) r := by
  rcases h with ⟨seconds, hcounting, hlow, hhigh⟩ | ⟨hoff, hover⟩
  · exact .inl ⟨seconds, hcounting, by omega, by omega⟩
  · exact .inr ⟨hoff, by omega⟩

/-- A further pass in the same tick changes nothing of it. -/
theorem AfterPass.run {start now : Nat} {testfunc : UInt8} {r : TestRig} {tempC : Int16}
    (h : AfterPass start testfunc now r) (hstarts : StartsFunction testfunc) (hcold : 0 ≤ tempC)
    (hhot : tempC ≤ 60) :
    AfterPass start testfunc now (testmodeRun (UInt16.ofNat now) tempC r).2 := by
  rcases h with ⟨seconds, hcounting, hlow, hhigh⟩ | ⟨hoff, hover⟩
  · exact BeforePass.run (.inl ⟨seconds, hcounting, hlow, Nat.le_of_lt hhigh⟩) hstarts hcold hhot
  · refine .inr ⟨?_, hover⟩
    rw [testmodeRun, if_pos hoff.state]
    exact testmodeOff_allOff r

/-- `testmode_run` as the pass of a clocked system, given the board temperature it reads. -/
def testmodePass (now : Nat) (r : TestRig) (tempC : Int16) : TestRig :=
  (testmodeRun (UInt16.ofNat now) tempC r).2

/-- The automatic end of a test function, started at any tick with any values and in any state, in
every state of a run that makes a pass in each later tick at a board temperature from 0 to 60
degrees: the test state is the function's less than 60000 ticks after the start, and from the pass
of tick 60000 on the test mode is off, with PWM 0 and the external output off. -/
theorem testmode_auto_off (r : TestRig) (start : Nat) (cfg : Config) {testfunc : UInt8}
    (val0 val1 : UInt8) (hstarts : StartsFunction testfunc) (events : List (ClockEvent Int16))
    (htimely : Meets (Clocked.step testmodePass fun _ => true)
      (Clocked.Timely fun tempC => 0 ≤ tempC ∧ tempC ≤ 60)
      (.start start (testmodeOn (UInt16.ofNat start) cfg testfunc val0 val1 r)) events) :
    let c := run (Clocked.step testmodePass fun _ => true)
      (.start start (testmodeOn (UInt16.ofNat start) cfg testfunc val0 val1 r)) events
    (c.now < start + 60000 → c.state.test.testState = testfunc) ∧
      (start + 60000 < c.now ∨ start + 60000 = c.now ∧ c.passed = true →
        c.state.test.testState = TestFunc.off ∧ c.state.shunt.pwm = 0 ∧
          c.state.gpio.extio = false) := by
  intro c
  have hinit : (Clocked.start start
      (testmodeOn (UInt16.ofNat start) cfg testfunc val0 val1 r)).Within
        (BeforePass start testfunc) (AfterPass start testfunc) :=
    Clocked.start_within
      (.inl ⟨0, testmodeOn_counting start cfg val0 val1 r hstarts, by omega, by omega⟩)
  have hwithin : c.Within (BeforePass start testfunc) (AfterPass start testfunc) :=
    Clocked.run_within (fun _ _ h => h.before)
      (fun _ _ _ hallowed _ h => h.run hstarts hallowed.1 hallowed.2)
      (fun _ _ _ _ hnone _ => by cases hnone)
      (fun _ _ _ hallowed h => h.run hstarts hallowed.1 hallowed.2) hinit htimely
  rw [Clocked.Within] at hwithin
  split_ifs at hwithin with hpassed
  · rcases hwithin with ⟨seconds, hcounting, hlow, hhigh⟩ | ⟨hoff, hover⟩
    · have hminute := hcounting.minute
      exact ⟨fun _ => hcounting.state, fun hlong => by omega⟩
    · exact ⟨fun hshort => by omega, fun _ => ⟨hoff.state, hoff.pwm, hoff.extio⟩⟩
  · rcases hwithin with ⟨seconds, hcounting, hlow, hhigh⟩ | ⟨hoff, hover⟩
    · have hminute := hcounting.minute
      refine ⟨fun _ => hcounting.state, fun hlong => ?_⟩
      rcases hlong with hlong | ⟨-, hcontra⟩
      · omega
      · exact absurd hcontra hpassed
    · exact ⟨fun hshort => by omega, fun _ => ⟨hoff.state, hoff.pwm, hoff.extio⟩⟩

/-- The shunt function at full PWM, started 6 ticks before the tick counter wraps, at 25 degrees. -/
theorem testmode_auto_off_shunt :
    let on := Clocked.start 65530 (testmodeOn (UInt16.ofNat (65530 : Nat)) (Vector.replicate 26 0)
      TestFunc.shunt 255 0 TestRig.init)
    let c := run (Clocked.step testmodePass fun _ => true) on (Clocked.everyTick 25 60000)
    c.now = 65530 + 60000 ∧ c.state.test.testState = TestFunc.off ∧ c.state.shunt.pwm = 0 ∧
      c.state.gpio.extio = false := by
  obtain ⟨htimely, hnow, hpassed⟩ := @Clocked.everyTick_timely TestRig Int16 testmodePass
    (fun _ => true) (fun tempC => 0 ≤ tempC ∧ tempC ≤ 60) 25 (by decide) rfl 60000
    (.start 65530 (testmodeOn (UInt16.ofNat (65530 : Nat)) (Vector.replicate 26 0)
      TestFunc.shunt 255 0 TestRig.init)) rfl
  have hshunt : StartsFunction TestFunc.shunt := .inr (.inr (.inl rfl))
  have hauto := testmode_auto_off TestRig.init 65530 (Vector.replicate 26 0) 255 0 hshunt
    (Clocked.everyTick 25 60000) htimely
  dsimp only at hauto ⊢
  rw [Clocked.start] at hnow hpassed hauto ⊢
  rw [hnow] at hauto ⊢
  exact ⟨rfl, hauto.2 (.inr ⟨rfl, hpassed⟩)⟩

end BmsNode
