import BmsNode.Firmware.Testmode
import BmsNode.Transition.Run

/-!
# One test function at a time

Each test function switches its outputs on, and only `testmode_off` switches any off.
So a function started over another leaves that one's outputs on under the new test
state. `testmode_exclusive_iff` says that this is the only way to get there.
-/

namespace BmsNode

open Transition

/-- A call of the test mode module, with the tick and what else it reads. -/
inductive TestCall where
  | on (ticks : UInt16) (cfg : Config) (testfunc val0 val1 : UInt8)
  | off
  | run (ticks : UInt16) (tempC : Int16)
  deriving DecidableEq

/-- The effect of a call. -/
def testStep (r : TestRig) : TestCall → TestRig
  | .on ticks cfg testfunc val0 val1 => testmodeOn ticks cfg testfunc val0 val1 r
  | .off => testmodeOff r
  | .run ticks tempC => (testmodeRun ticks tempC r).2

/-- The PWM and the external output are on only under the test function they belong to. -/
structure Exclusive (r : TestRig) : Prop where
  load : r.shunt.pwm ≠ 0 → r.test.testState = TestFunc.shunt
  extio : r.gpio.extio = true → r.test.testState = TestFunc.io

/-- The codes that start a test function. All others turn the test mode off. -/
def StartsFunction (testfunc : UInt8) : Prop :=
  testfunc = TestFunc.vref ∨ testfunc = TestFunc.io ∨ testfunc = TestFunc.shunt ∨
    testfunc = TestFunc.blink

/-- A call that starts no function while the output of another one is on. -/
def StartsClean (r : TestRig) : TestCall → Prop
  | .on _ _ testfunc _ _ => StartsFunction testfunc →
      (r.shunt.pwm ≠ 0 → testfunc = TestFunc.shunt) ∧
        (r.gpio.extio = true → testfunc = TestFunc.io)
  | .off | .run _ _ => True

/-- Whether a code starts a function can be checked. -/
instance (testfunc : UInt8) : Decidable (StartsFunction testfunc) :=
  inferInstanceAs (Decidable (_ ∨ _ ∨ _ ∨ _))

/-- Whether a call starts clean can be checked. -/
instance (r : TestRig) (call : TestCall) : Decidable (StartsClean r call) :=
  match call with
  | .on _ _ testfunc _ _ => inferInstanceAs (Decidable (StartsFunction testfunc →
      (r.shunt.pwm ≠ 0 → testfunc = TestFunc.shunt) ∧
        (r.gpio.extio = true → testfunc = TestFunc.io)))
  | .off | .run _ _ => inferInstanceAs (Decidable True)

/-! ## One call -/

/-- With everything off no output is on. -/
theorem testmodeOff_exclusive (r : TestRig) : Exclusive (testmodeOff r) :=
  ⟨fun hload => absurd rfl hload, fun hextio => absurd hextio Bool.false_ne_true⟩

/-- What `testmode_on` does to the outputs and the state, when it starts a function. -/
theorem testmodeOn_outputs (ticks : UInt16) (cfg : Config) {testfunc : UInt8} (val0 val1 : UInt8)
    (r : TestRig) (h : StartsFunction testfunc) :
    let r' := testmodeOn ticks cfg testfunc val0 val1 r
    r'.test.testState = testfunc ∧
      (r'.shunt.pwm = if testfunc = TestFunc.shunt then val0 else r.shunt.pwm) ∧
      (r'.gpio.extio = if testfunc = TestFunc.io then true else r.gpio.extio) := by
  rcases h with rfl | rfl | rfl | rfl
  · exact ⟨rfl, rfl, rfl⟩
  · exact ⟨rfl, rfl, rfl⟩
  · exact ⟨rfl, rfl, rfl⟩
  · exact ⟨rfl, rfl, rfl⟩

/-- Any other code turns everything off. -/
theorem testmodeOn_off (ticks : UInt16) (cfg : Config) {testfunc : UInt8} (val0 val1 : UInt8)
    (r : TestRig) (h : ¬StartsFunction testfunc) :
    Exclusive (testmodeOn ticks cfg testfunc val0 val1 r) := by
  simp only [StartsFunction, not_or] at h
  obtain ⟨hvref, hio, hshunt, hblink⟩ := h
  rw [testmodeOn, if_neg hvref, if_neg hio, if_neg hshunt, if_neg hblink]
  exact testmodeOff_exclusive _

/-- Starting a function leaves the outputs exclusive exactly when it starts clean. -/
theorem testmodeOn_exclusive_iff (r : TestRig) (ticks : UInt16) (cfg : Config)
    (testfunc val0 val1 : UInt8) :
    Exclusive (testmodeOn ticks cfg testfunc val0 val1 r) ↔
      StartsClean r (.on ticks cfg testfunc val0 val1) := by
  by_cases hstarts : StartsFunction testfunc
  · obtain ⟨hstate, hpwm, hextio⟩ := testmodeOn_outputs ticks cfg val0 val1 r hstarts
    -- an output that the started function does not switch on itself was on before
    have hbefore : ((if testfunc = TestFunc.shunt then val0 else r.shunt.pwm) ≠ 0 →
        testfunc = TestFunc.shunt) ↔ (r.shunt.pwm ≠ 0 → testfunc = TestFunc.shunt) := by
      split_ifs with hshunt
      · exact iff_of_true (fun _ => hshunt) (fun _ => hshunt)
      · exact Iff.rfl
    have hbeforeIo : ((if testfunc = TestFunc.io then true else r.gpio.extio) = true →
        testfunc = TestFunc.io) ↔ (r.gpio.extio = true → testfunc = TestFunc.io) := by
      split_ifs with hio
      · exact iff_of_true (fun _ => hio) (fun _ => hio)
      · exact Iff.rfl
    constructor
    · rintro ⟨hload, hextio'⟩ -
      rw [hpwm, hstate] at hload
      rw [hextio, hstate] at hextio'
      exact ⟨hbefore.mp hload, hbeforeIo.mp hextio'⟩
    · intro hclean
      obtain ⟨hload, hio⟩ := hclean hstarts
      refine ⟨?_, ?_⟩
      · rw [hpwm, hstate]
        exact hbefore.mpr hload
      · rw [hextio, hstate]
        exact hbeforeIo.mpr hio
  · exact iff_of_true (testmodeOn_off ticks cfg val0 val1 r hstarts)
      fun hcontra => absurd hcontra hstarts

/-- The second counter does not touch the state. -/
theorem testmodeTick_state (ticks : UInt16) (t : Testmode) :
    (testmodeTick ticks t).2.testState = t.testState := by
  unfold testmodeTick
  dsimp only
  split_ifs <;> rfl

/-- Blinking touches neither the PWM nor the external output. -/
theorem testmodeBlink_outputs (ticks : UInt16) (r : TestRig) :
    (testmodeBlink ticks r).test.testState = r.test.testState ∧
      (testmodeBlink ticks r).shunt.pwm = r.shunt.pwm ∧
      (testmodeBlink ticks r).gpio.extio = r.gpio.extio := by
  unfold testmodeBlink
  dsimp only
  split_ifs <;> exact ⟨rfl, rfl, rfl⟩

/-- Running the test mode starts nothing. -/
theorem testmodeRun_exclusive (ticks : UInt16) (tempC : Int16) {r : TestRig} (h : Exclusive r) :
    Exclusive (testmodeRun ticks tempC r).2 := by
  have hstate := testmodeTick_state ticks r.test
  unfold testmodeRun
  generalize testmodeTick ticks r.test = ticked at hstate ⊢
  obtain ⟨timedOut, test⟩ := ticked
  have hticked : Exclusive { r with test := test } := by
    refine ⟨fun hload => ?_, fun hextio => ?_⟩
    · exact hstate.trans (h.load hload)
    · exact hstate.trans (h.extio hextio)
  dsimp only
  split_ifs
  · exact testmodeOff_exclusive r
  · exact testmodeOff_exclusive _
  · obtain ⟨hsame, hpwm, hextio⟩ := testmodeBlink_outputs ticks { r with test := test }
    refine ⟨fun hload => ?_, fun hon => ?_⟩
    · rw [hpwm] at hload
      exact hsame.trans (hticked.load hload)
    · rw [hextio] at hon
      exact hsame.trans (hticked.extio hon)
  · exact testmodeOff_exclusive _
  · exact hticked

/-- The board temperature matters to `testmode_run` under the shunt function only. -/
theorem testmodeRun_temperature (ticks : UInt16) (tempC tempC' : Int16) {r : TestRig}
    (h : r.test.testState ≠ TestFunc.shunt) :
    testmodeRun ticks tempC r = testmodeRun ticks tempC' r := by
  have hstate := testmodeTick_state ticks r.test
  unfold testmodeRun
  generalize testmodeTick ticks r.test = ticked at hstate ⊢
  obtain ⟨timedOut, test⟩ := ticked
  have hother : test.testState ≠ TestFunc.shunt := fun hshunt => h (hstate.symm.trans hshunt)
  dsimp only
  simp only [hother, false_and, if_false]

/-! ## Runs -/

/-- A call leaves the outputs exclusive exactly when it starts clean. -/
theorem testStep_exclusive_iff {r : TestRig} (h : Exclusive r) (call : TestCall) :
    Exclusive (testStep r call) ↔ StartsClean r call := by
  cases call with
  | on ticks cfg testfunc val0 val1 => exact testmodeOn_exclusive_iff r ticks cfg testfunc val0 val1
  | off => exact iff_of_true (testmodeOff_exclusive r) trivial
  | run ticks tempC => exact iff_of_true (testmodeRun_exclusive ticks tempC h) trivial

/-- The outputs are exclusive all along a run exactly when every call of it starts clean. -/
theorem exclusive_iff_meets {r : TestRig} (h : Exclusive r) (calls : List TestCall) :
    (∀ k, Exclusive (run testStep r (calls.take k))) ↔ Meets testStep StartsClean r calls := by
  induction calls generalizing r with
  | nil => simpa [Meets] using h
  | cons call rest ih =>
      constructor
      · intro hall
        have hfirst : Exclusive (testStep r call) := hall 1
        exact ⟨(testStep_exclusive_iff h call).mp hfirst,
          (ih hfirst).mp fun k => hall (k + 1)⟩
      · rintro ⟨hclean, hrest⟩ k
        have hfirst := (testStep_exclusive_iff h call).mpr hclean
        cases k with
        | zero => exact h
        | succ k => exact (ih hfirst).mpr hrest k

/-- In every sequence of calls from everything off, with any codes, values, ticks, configurations
and temperatures: the PWM is non-zero only under the shunt function and the external output on
only under the IO function, in every state reached, exactly when no call starts a function while
the output of another one is on. And only under the shunt function does a call of `testmode_run`
depend on the temperature. -/
theorem testmode_exclusive_iff (calls : List TestCall) :
    ((∀ k, Exclusive (run testStep TestRig.init (calls.take k))) ↔
        Meets testStep StartsClean TestRig.init calls) ∧
      ∀ k ticks tempC tempC',
        let r := run testStep TestRig.init (calls.take k)
        r.test.testState ≠ TestFunc.shunt →
          testmodeRun ticks tempC r = testmodeRun ticks tempC' r := by
  refine ⟨exclusive_iff_meets ⟨fun hload => absurd rfl hload, fun hextio => ?_⟩ calls, ?_⟩
  · exact absurd hextio Bool.false_ne_true
  · intro k ticks tempC tempC' r hother
    exact testmodeRun_temperature ticks tempC tempC' hother

/-- The voltage reference function is started over the shunt function: the load stays on at full
PWM, and no board temperature turns it off. -/
theorem testmode_overlap :
    let start := [.on 0 (Vector.replicate 26 0) TestFunc.shunt 255 0,
      .on 10 (Vector.replicate 26 0) TestFunc.vref 0 0, .run 20 100]
    ¬(∀ k, Exclusive (run testStep TestRig.init (start.take k))) ∧
      (run testStep TestRig.init start).shunt.pwm = 255 := by
  intro start
  refine ⟨fun hall => ?_, by decide +kernel⟩
  have hload := (hall 3).load
  revert hload
  decide +kernel

end BmsNode
