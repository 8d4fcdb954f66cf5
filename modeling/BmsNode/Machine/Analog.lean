import BmsNode.Machine.Rig
import BmsNode.Timers.Operations
import BmsNode.Transition.Schedule

/-!
# The analog supply and its samples

The converter and the supply of the resistor dividers are on in every state but sleep.
`Sampled` runs the machine with an unbounded clock and with the schedule of the samples
since the converter was powered up: the first one three ticks later, then one every 100
ticks. As long as `adc_run` is called once in every 100 ticks, the wrapping timeout of
`adc.c` follows that schedule, with no drift.
-/

namespace BmsNode

open Transition

/-! ## A pass of the state machine -/

section Pass

variable {p : Platform} {event : Event} {n : Node}

/-- What every state but sleep keeps, a pass between two such states keeps. -/
theorem appRun_awake {P : Node → Prop}
    (hhandler : ∀ state, state ≠ AppState.sleep → ∀ event data, P data →
      P (appHandler p state event data).2)
    (hstate : ∀ data ps, P data → P { data with ps := ps }) (hps : n.ps ≠ .app .sleep)
    (hnext : (appRun p event n).ps ≠ .app .sleep) (h : P n) : P (appRun p event n) := by
  have hkissm (ps : KissmState AppState) (hps : ps ≠ .app .sleep) (event : Event) (data : Node)
      (hdata : P data) : P (kissmHandler .powerup (appHandler p) ps event data).2 := by
    cases ps with
    | initial => exact hdata
    | app state =>
        refine hhandler state ?_ event data hdata
        rintro rfl
        exact hps rfl
  have hcases := kissmRun_cases AppState.powerup (appHandler p) .exit .entry n.ps event n
  unfold appRun at hnext ⊢
  generalize kissmRun AppState.powerup (appHandler p) .exit .entry n.ps event n = result at *
  refine hstate result.2 result.1 ?_
  rcases hcases with ⟨rfl, -⟩ | ⟨ns, -, -, rfl⟩
  · exact hkissm n.ps hps event n h
  · exact hkissm ns hnext .entry _ (hkissm n.ps hps .exit _ (hkissm n.ps hps event n h))

/-- A pass between two states other than sleep leaves the converter alone. -/
theorem appRun_adc (hps : n.ps ≠ .app .sleep) (hnext : (appRun p event n).ps ≠ .app .sleep) :
    (appRun p event n).adc = n.adc := by
  refine appRun_awake (P := fun n' => n'.adc = n.adc) (fun state hstate event data hdata => ?_)
    (fun _ _ h => h) hps hnext rfl
  rw [← hdata]
  cases state with
  | sleep => exact absurd rfl hstate
  | powerup | dfu => cases event <;> rfl
  | idle =>
      cases event with
      | cmd =>
          simp only [appHandler, idleHandler, idleCmd]
          split_ifs <;> rfl
      | entry | exit | timeout => rfl
      | none | any | tmr =>
          simp only [appHandler, idleHandler]
          split_ifs <;> rfl
  | shunt =>
      obtain ⟨leds, rig, hshunt⟩ := shuntHandler_eq p event data
      show (shuntHandler p event data).2.adc = data.adc
      rw [hshunt]
  | testmode =>
      obtain ⟨leds, rig, htest⟩ := testmodeHandler_eq p event data
      show (testmodeHandler p event data).2.adc = data.adc
      rw [htest]

/-- A pass between two states other than sleep does to the rig what their handlers do. -/
theorem appRun_rig (hps : n.ps ≠ .app .sleep) (hnext : (appRun p event n).ps ≠ .app .sleep) :
    RigPath n.rig (appRun p event n).rig :=
  appRun_awake (P := fun n' => RigPath n.rig n'.rig)
    (fun _ hstate event data hdata => hdata.trans (appHandler_rig p hstate event data))
    (fun _ _ h => h) hps hnext .refl

/-- The pass that goes to sleep. -/
theorem appRun_asleep (hevent : event.FromLoop) (hps : n.ps ≠ .app .sleep)
    (hnext : (appRun p event n).ps = .app .sleep) :
    appRun p event n = { sleepEntry n with ps := .app .sleep } := by
  obtain ⟨armed, hmove, -⟩ := appRun_moves p hevent (n := n)
  rw [hnext] at hmove
  obtain ⟨rfl, hidle⟩ := hmove.asleep hps
  have hhandler : appHandler p .idle .timeout n = (some .sleep, n) := rfl
  exact appRun_move hidle hhandler (by simp)

/-- The pass after waking up. -/
theorem appRun_awaken (hevent : event.FromLoop) (hps : n.ps = .app .sleep) :
    appRun p event n = { (idleHandler .entry (sleepExit n)).2 with ps := .app .idle } := by
  have hhandler : appHandler p .sleep event n = (some .idle, n) := by
    rcases hevent with rfl | rfl | rfl <;> rfl
  exact appRun_move hps hhandler (by simp)

end Pass

/-! ## The supply of the dividers -/

/-- No handler but that of the sleep state turns the supply off. -/
theorem RigStep.refon {r r' : TestRig} (h : RigStep r r') (hon : r.gpio.refon = true) :
    r'.gpio.refon = true := by
  cases h with
  | leds gpio hleds => exact hleds.refon.trans hon
  | status | start | stop | run => exact hon
  | testOn ticks cfg testfunc val0 val1 =>
      simp only [testmodeOn]
      generalize tmrSet ticks 1000 = timeout
      generalize tmrSet ticks 750 = blinkTimeout
      split_ifs
      · rfl
      · exact hon
      · exact hon
      · exact hon
      · exact hon
  | testOff => exact hon
  | testRun ticks tempC =>
      have hblink (r : TestRig) : (testmodeBlink ticks r).gpio.refon = r.gpio.refon := by
        unfold testmodeBlink
        dsimp only
        split_ifs <;> rfl
      unfold testmodeRun
      dsimp only
      split_ifs
      · exact hon
      · exact hon
      · exact (hblink _).trans hon
      · exact hon
      · exact hon

/-- Any number of steps leaves the supply on. -/
theorem RigPath.refon {r r' : TestRig} (h : RigPath r r') (hon : r.gpio.refon = true) :
    r'.gpio.refon = true := by
  induction h with
  | refl => exact hon
  | tail _ hstep ih => exact hstep.refon ih

/-- The clock and the converter are as before, and the rig is as the handlers leave it. -/
structure AnalogFrame (n n' : Node) : Prop where
  systick : n'.systick = n.systick
  adc : n'.adc = n.adc
  rig : RigPath n.rig n'.rig

/-- Only `adc_run`, the state machine and a restart touch the converter and turn off the supply. -/
theorem mainStep_analog {p : Platform} {m : Machine} (samples : Vector UInt16 4)
    (hadc : m.pc ≠ .adcRun) (hkissm : ∀ event held, m.pc ≠ .kissmRun event held)
    (hrestart : restarts p m = false) : AnalogFrame m.node (mainStep p samples m).node := by
  have hstep := mainStep_loopStep p samples m
  generalize mainStep p samples m = m' at hstep ⊢
  cases hstep with
  | ledRun n => exact ⟨rfl, rfl, n.withLeds_rig _ (ledRun_ledsOnly ..)⟩
  | adcRun => exact absurd rfl hadc
  | restart n hswrr =>
      have hcontra : (cmdDispatch p n.pkt.rxbuf n).2.swrr = false := hrestart
      rw [hswrr] at hcontra
      cases hcontra
  | returned n | handled n =>
      have hframe := cmdDispatch_frame p n.pkt.rxbuf n
      exact ⟨hframe.systick, hframe.adc, cmdDispatch_rig p n.pkt.rxbuf n⟩
  | kissmRun n event held => exact absurd rfl (hkissm event held)
  | expired | unexpired | ready | notReady | rxFree | overdue | waiting | active | inactive
  | giveUp | arm | freed | loop => exact ⟨rfl, rfl, .refl⟩

/-! ## Runs with a clock -/

/-- A running node with the ticks since its start: the present one and that of the last `adc_run`.
While the converter is powered up, `schedule` is that of its samples. -/
structure Sampled where
  machine : Machine
  now : Nat
  polled : Nat
  schedule : Option Schedule

namespace Sampled

/-- The samples of a converter powered up at a tick. -/
def powerup (now : Nat) : Schedule := { first := now + 3, period := 100, taken := 0 }

/-- A node that starts, or starts again. -/
def start (machine : Machine) : Sampled :=
  { machine := machine, now := 0, polled := 0, schedule := some (powerup 0) }

/-- A pass of the state machine that goes to sleep or wakes up. -/
def passed (g : Sampled) (machine : Machine) : Sampled :=
  if machine.node.ps = .app .sleep then { g with machine := machine, schedule := none }
  else if g.machine.node.ps = .app .sleep then
    { machine := machine, now := g.now, polled := g.now, schedule := some (powerup g.now) }
  else { g with machine := machine }

/-- One step of the machine, with the schedule polled by `adc_run`. -/
def step (p : Platform) (g : Sampled) (action : Action) : Sampled :=
  let machine := BmsNode.step p g.machine action
  match action with
  | .tick => { g with machine := machine, now := g.now + 1 }
  | .main _ =>
      match g.machine.pc with
      | .adcRun =>
          { machine := machine
            now := g.now
            polled := g.now
            schedule := g.schedule.map (Schedule.poll g.now) }
      | .kissmRun _ _ => g.passed machine
      | _ => if restarts p g.machine then start machine else { g with machine := machine }
  | _ => { g with machine := machine }

/-- While the converter is powered up, no more than 100 ticks come between two calls of
`adc_run`. -/
def Prompt (g : Sampled) : Action → Prop
  | .tick => g.schedule = none ∨ g.now < g.polled + 100
  | _ => True

/-- The condition can be checked. -/
instance (g : Sampled) : ∀ action, Decidable (g.Prompt action)
  | .tick => inferInstanceAs (Decidable (_ ∨ _))
  | .rx _ | .dre | .txc | .shift | .main _ => isTrue trivial

/-- The machine takes its own steps. -/
theorem step_machine (p : Platform) (g : Sampled) (action : Action) :
    (g.step p action).machine = BmsNode.step p g.machine action := by
  cases action with
  | tick | rx | dre | txc | shift => rfl
  | main samples =>
      simp only [Sampled.step]
      split
      · rfl
      · unfold passed
        split_ifs <;> rfl
      · split_ifs <;> rfl

/-! ## The invariant -/

/-- The invariant: the converter follows its schedule, whose deadlines up to the last `adc_run` have
been met, and the supply is on with it. -/
structure Follows (g : Sampled) : Prop where
  looping : Looping g.machine
  systick : g.machine.node.systick = UInt16.ofNat g.now
  polls : g.polled ≤ g.now
  gap : g.schedule ≠ none → g.now ≤ g.polled + 100
  enabled : g.machine.node.adc.enabled = g.schedule.isSome
  awake : g.schedule = none ↔ g.machine.node.ps = .app .sleep
  supply : g.schedule ≠ none → g.machine.node.rig.gpio.refon = true
  timeout : ∀ s, g.schedule = some s → g.machine.node.adc.adcTimeout = UInt16.ofNat s.due ∧
    s.period = 100 ∧ s.UpTo g.polled ∧ s.due ≤ g.polled + 100

/-- A converter just powered up. -/
theorem powerup_follows (now : Nat) (n : Adc) :
    (adcPowerup (UInt16.ofNat now) n).adcTimeout = UInt16.ofNat (powerup now).due ∧
      (powerup now).period = 100 ∧ (powerup now).UpTo now ∧ (powerup now).due ≤ now + 100 := by
  have hdue : (powerup now).due = now + 3 := by simp [powerup, Schedule.due]
  refine ⟨?_, rfl, .begin (by omega) 100, ?_⟩
  · rw [hdue]
    exact tmrSet_ofNat now 3
  · rw [hdue]
    omega

/-- The firmware starts with the converter powered up. -/
theorem boot_follows (p : Platform) (eeprom : Config) : Follows (start (boot p eeprom)) := by
  refine ⟨boot_looping p eeprom, rfl, Nat.le_refl 0, fun _ => Nat.zero_le _, rfl, ?_,
    fun _ => rfl, ?_⟩
  · simp [start, boot]
  · intro s hs
    cases hs
    exact powerup_follows 0 Adc.init

/-- A deadline of the schedule has been reached. -/
def Due (g : Sampled) : Prop := ∃ s, g.schedule = some s ∧ s.due ≤ g.now

/-- Whether a deadline has been reached can be checked. -/
instance (g : Sampled) : Decidable g.Due :=
  decidable_of_iff (g.schedule.any (fun s => decide (s.due ≤ g.now)) = true)
    (by unfold Due; cases g.schedule <;> simp)

/-- `adc_run` collects a sample exactly when a deadline has been reached. -/
theorem Follows.collects {g : Sampled} (h : Follows g) :
    (g.machine.node.adc.enabled && tmrExpired g.machine.node.systick g.machine.node.adc.adcTimeout)
      = true ↔ g.Due := by
  cases hschedule : g.schedule with
  | none =>
      have henabled : g.machine.node.adc.enabled = false := by rw [h.enabled, hschedule]; rfl
      simp [henabled, Due, hschedule]
  | some s =>
      have henabled : g.machine.node.adc.enabled = true := by rw [h.enabled, hschedule]; rfl
      obtain ⟨htimeout, -, hupto, hnear⟩ := h.timeout s hschedule
      have hgap := h.gap (by simp [hschedule])
      have hpolls := h.polls
      have hahead := hupto.ahead
      rw [henabled, Bool.true_and, htimeout, h.systick, tmrExpired_ofNat (by omega) (by omega)]
      simp [Due, hschedule]

/-- An action that leaves the converter, the supply and the state of the application alone. -/
theorem Follows.carry {g g' : Sampled} (h : Follows g) (hlooping : Looping g'.machine)
    (hsystick : g'.machine.node.systick = UInt16.ofNat g'.now) (hnow : g.now ≤ g'.now)
    (hgap : g.schedule ≠ none → g'.now ≤ g.polled + 100) (hpolled : g'.polled = g.polled)
    (hschedule : g'.schedule = g.schedule) (hadc : g'.machine.node.adc = g.machine.node.adc)
    (hps : g'.machine.node.ps = .app .sleep ↔ g.machine.node.ps = .app .sleep)
    (hrefon : g.machine.node.rig.gpio.refon = true → g'.machine.node.rig.gpio.refon = true) :
    Follows g' := by
  refine ⟨hlooping, hsystick, ?_, ?_, ?_, ?_, ?_, ?_⟩
  · rw [hpolled]
    exact Nat.le_trans h.polls hnow
  · rw [hschedule, hpolled]
    exact hgap
  · rw [hadc, hschedule]
    exact h.enabled
  · rw [hschedule, hps]
    exact h.awake
  · rw [hschedule]
    exact fun hsome => hrefon (h.supply hsome)
  · rw [hschedule, hadc, hpolled]
    exact h.timeout

/-- A call of `adc_run`. -/
theorem Follows.adcRun {p : Platform} {n : Node} {now polled : Nat} {schedule : Option Schedule}
    (h : Follows ⟨⟨n, .adcRun⟩, now, polled, schedule⟩) (samples : Vector UInt16 4) :
    Follows ⟨mainStep p samples ⟨n, .adcRun⟩, now, now, schedule.map (Schedule.poll now)⟩ := by
  have hlooping : Looping (mainStep p samples ⟨n, .adcRun⟩) := h.looping.main samples
  have hcollects := h.collects
  have hnone : schedule.map (Schedule.poll now) = none ↔ schedule = none := by simp
  refine ⟨hlooping, h.systick, Nat.le_refl now, fun _ => Nat.le_add_right now 100, ?_,
    hnone.trans h.awake, fun hsome => h.supply (mt hnone.mpr hsome), ?_⟩
  · have henabled : n.adc.enabled = schedule.isSome := h.enabled
    show (BmsNode.adcRun n.systick samples n.adc).enabled =
      (schedule.map (Schedule.poll now)).isSome
    rw [Option.isSome_map, ← henabled]
    unfold BmsNode.adcRun
    split_ifs <;> rfl
  · intro polledSchedule hsome
    obtain ⟨s, rfl, rfl⟩ := Option.map_eq_some_iff.mp hsome
    obtain ⟨htimeout, hperiod, hupto, hnear⟩ := h.timeout s rfl
    have hgap : now ≤ polled + s.period := by
      rw [hperiod]
      exact h.gap (by simp)
    have hpolls : polled ≤ now := h.polls
    have hdue : Due ⟨⟨n, .adcRun⟩, now, polled, some s⟩ ↔ s.due ≤ now := by simp [Due]
    rw [hdue] at hcollects
    have hframe := (s.poll_frame now).2
    refine ⟨?_, hframe.trans hperiod, hupto.poll hpolls hgap, ?_⟩
    · show (BmsNode.adcRun n.systick samples n.adc).adcTimeout = UInt16.ofNat (s.poll now).due
      have htimeout : n.adc.adcTimeout = UInt16.ofNat s.due := htimeout
      unfold BmsNode.adcRun Schedule.poll
      by_cases hreached : s.due ≤ now
      · rw [if_pos (hcollects.mpr hreached), if_pos hreached, Schedule.due_taken, hperiod]
        show n.adc.adcTimeout + 100 = UInt16.ofNat (s.due + 100)
        rw [htimeout, UInt16.ofNat_add]
        rfl
      · rw [if_neg (mt hcollects.mp hreached), if_neg hreached, htimeout]
    · unfold Schedule.poll
      split_ifs with hreached
      · rw [Schedule.due_taken, hperiod]
        exact Nat.add_le_add_right hreached 100
      · exact Nat.le_trans hnear (Nat.add_le_add_right hpolls 100)

/-- A pass of the state machine. -/
theorem Follows.pass {p : Platform} {n : Node} {event : Event} {held : Bool} {now polled : Nat}
    {schedule : Option Schedule}
    (h : Follows ⟨⟨n, .kissmRun event held⟩, now, polled, schedule⟩) :
    Follows (passed ⟨⟨n, .kissmRun event held⟩, now, polled, schedule⟩
      ⟨appRun p event n, .loopFree held⟩) := by
  have hevent : event.FromLoop := h.looping.event event held rfl
  have hlooping : Looping ⟨appRun p event n, .loopFree held⟩ :=
    h.looping.main (Vector.replicate 4 0)
  have hsystick : (appRun p event n).systick = UInt16.ofNat now :=
    (appRun_frame p event n).systick.trans h.systick
  unfold passed
  by_cases hasleep : (appRun p event n).ps = .app .sleep
  · rw [if_pos hasleep]
    have hps : n.ps ≠ .app .sleep := by
      intro hps
      rw [appRun_awaken hevent hps] at hasleep
      cases hasleep
    have hadc : (appRun p event n).adc.enabled = false := by
      rw [appRun_asleep hevent hps hasleep]
      rfl
    exact ⟨hlooping, hsystick, h.polls, by simp, hadc, by simp [hasleep], by simp, by simp⟩
  · rw [if_neg hasleep]
    by_cases hps : n.ps = .app .sleep
    · rw [if_pos hps]
      have hrun := appRun_awaken (p := p) hevent hps
      have hadc : (appRun p event n).adc = adcPowerup (UInt16.ofNat now) n.adc := by
        have hticks : n.systick = UInt16.ofNat now := h.systick
        rw [hrun, ← hticks]
        rfl
      have hrefon : (appRun p event n).rig.gpio.refon = true := by
        rw [hrun]
        exact (ledBlink_ledsOnly ..).refon
      refine ⟨hlooping, hsystick, Nat.le_refl now, fun _ => Nat.le_add_right now 100, ?_,
        by simpa using hasleep, fun _ => hrefon, ?_⟩
      · show (appRun p event n).adc.enabled = true
        rw [hadc]
        rfl
      · intro s hs
        cases hs
        show (appRun p event n).adc.adcTimeout = _ ∧ _
        rw [hadc]
        exact powerup_follows now n.adc
    · rw [if_neg hps]
      exact h.carry hlooping hsystick (Nat.le_refl now) h.gap rfl rfl (appRun_adc hps hasleep)
        (iff_of_false hasleep hps) (appRun_rig hps hasleep).refon

/-- The other program points. -/
theorem Follows.other {p : Platform} {g : Sampled} (h : Follows g) (samples : Vector UInt16 4)
    (hadc : g.machine.pc ≠ .adcRun) (hkissm : ∀ event held, g.machine.pc ≠ .kissmRun event held)
    (hrestart : restarts p g.machine = false) :
    Follows { g with machine := mainStep p samples g.machine } := by
  have hframe := mainStep_analog samples hadc hkissm hrestart
  have hps := mainStep_ps samples hkissm hrestart
  exact h.carry (h.looping.main samples) (hframe.systick.trans h.systick) (Nat.le_refl g.now) h.gap
    rfl rfl hframe.adc (by rw [hps]) hframe.rig.refon

/-- Every prompt action keeps the invariant. -/
theorem Follows.step {p : Platform} {g : Sampled} (h : Follows g) (action : Action)
    (hprompt : g.Prompt action) : Follows (g.step p action) := by
  have hlooping := h.looping.step (p := p) action
  cases action with
  | tick =>
      refine h.carry hlooping ?_ (Nat.le_succ g.now) (fun hsome => ?_) rfl rfl rfl Iff.rfl id
      · show g.machine.node.systick + 1 = UInt16.ofNat (g.now + 1)
        rw [h.systick, UInt16.ofNat_add]
        rfl
      · have hroom : g.now < g.polled + 100 := hprompt.resolve_left hsome
        exact hroom
  | rx | shift => exact h.carry hlooping h.systick (Nat.le_refl g.now) h.gap rfl rfl rfl Iff.rfl id
  | dre | txc =>
      refine h.carry hlooping ?_ (Nat.le_refl g.now) h.gap rfl rfl ?_ ?_ ?_
      all_goals
        simp only [Sampled.step, BmsNode.step]
        split_ifs
      · exact h.systick
      · exact h.systick
      · rfl
      · rfl
      · rfl
      · rfl
      · exact id
      · exact id
  | main samples =>
      obtain ⟨⟨n, pc⟩, now, polled, schedule⟩ := g
      cases hrestart : restarts p ⟨n, pc⟩ with
      | true =>
          obtain ⟨eeprom, hboot⟩ := mainStep_restart samples hrestart
          cases pc with
          | dispatch =>
              have hstep : Sampled.step p ⟨⟨n, .dispatch⟩, now, polled, schedule⟩ (.main samples) =
                  start (mainStep p samples ⟨n, .dispatch⟩) := by
                simp [Sampled.step, BmsNode.step, hrestart]
              rw [hstep, hboot]
              exact boot_follows p eeprom
          | _ => cases hrestart
      | false =>
          cases pc with
          | adcRun => exact h.adcRun (p := p) samples
          | kissmRun event held => exact h.pass
          | dispatch =>
              have hstep : Sampled.step p ⟨⟨n, .dispatch⟩, now, polled, schedule⟩ (.main samples) =
                  ⟨mainStep p samples ⟨n, .dispatch⟩, now, polled, schedule⟩ := by
                simp [Sampled.step, BmsNode.step, hrestart]
              rw [hstep]
              exact h.other samples (by simp) (by simp) hrestart
          | _ => exact h.other samples (by simp) (by simp) hrestart

end Sampled

/-- The analog side of every run in which, while the node is awake, no more than 100 ticks come
between two calls of `adc_run`. The converter is enabled exactly outside the sleep state, and then
the dividers are supplied. A call of `adc_run` collects samples exactly when a deadline of the
schedule has been reached, which is 3, 103, 203, ... ticks after the converter was powered up, and
the number of samples collected since then is the number of these deadlines up to the last call.
The machine is the one without the schedule. -/
theorem adc_on_schedule (p : Platform) (eeprom : Config) (actions : List Action)
    (hprompt : Meets (Sampled.step p) Sampled.Prompt (.start (boot p eeprom)) actions) :
    let g := run (Sampled.step p) (.start (boot p eeprom)) actions
    let n := g.machine.node
    g.machine = run (step p) (boot p eeprom) actions ∧
      (n.adc.enabled = true ↔ n.ps ≠ .app .sleep) ∧
      (n.adc.enabled = true → n.rig.gpio.refon = true) ∧
      (n.adc.enabled = true ↔ g.schedule ≠ none) ∧
      (∀ samples, adcRun n.systick samples n.adc =
        if g.Due then adcCollect samples { n.adc with adcTimeout := n.adc.adcTimeout + 100 }
        else n.adc) ∧
      ∀ s, g.schedule = some s → s.taken = s.count g.polled := by
  intro g n
  have h : Sampled.Follows g :=
    run_invariant (fun g action h hprompt => h.step action hprompt)
      (Sampled.boot_follows p eeprom) hprompt
  have hpowered : n.adc.enabled = true ↔ g.schedule ≠ none := by
    rw [h.enabled, Option.isSome_iff_ne_none]
  refine ⟨run_map (Sampled.step_machine p) _ actions, hpowered.trans (not_congr h.awake),
    fun henabled => h.supply (hpowered.mp henabled), hpowered, fun samples => ?_, fun s hs => ?_⟩
  · unfold adcRun
    exact if_congr h.collects rfl rfl
  · obtain ⟨-, hperiod, hupto, -⟩ := h.timeout s hs
    exact hupto.taken_eq (by omega)

/-- Four ticks, and a pass up to `adc_run`. -/
def firstSample : List Action :=
  [.tick, .tick, .tick, .tick, .main (Vector.replicate 4 0), .main (Vector.replicate 4 0)]

/-- The first sample is collected at the fourth tick, and the second one is due at tick 103. -/
theorem adc_on_schedule_first :
    let g := run (Sampled.step benchBoard)
      (.start (boot benchBoard (Vector.replicate 26 0xFF))) firstSample
    g.schedule = some ⟨3, 100, 1⟩ ∧ 1 = Schedule.count g.polled ⟨3, 100, 1⟩ := by
  intro g
  have hschedule : g.schedule = some ⟨3, 100, 1⟩ := by decide +kernel
  exact ⟨hschedule, (adc_on_schedule benchBoard (Vector.replicate 26 0xFF) firstSample
    (by decide +kernel)).2.2.2.2.2 ⟨3, 100, 1⟩ hschedule⟩

end BmsNode
