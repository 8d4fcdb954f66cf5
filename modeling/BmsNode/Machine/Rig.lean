import BmsNode.Machine.Moves
import BmsNode.Transition.Run
import Mathlib.Logic.Relation

/-!
# What a node does to its outputs

The shunt timer, the test mode and the output pins form the rig. `RigStep` lists what the
handlers of commands and of states do to it, and every pass of the main loop is a path of
such steps. An invariant of the rig is then one case for each kind of step, and
`RigRule.step` carries it over to the whole node.
-/

namespace BmsNode

open Transition

/-! ## The steps -/

/-- Only LED pins differ. -/
structure Gpio.LedsOnly (g g' : Gpio) : Prop where
  extio : g'.extio = g.extio
  loadon : g'.loadon = g.loadon
  refon : g'.refon = g.refon

/-- What a handler does to the rig. -/
inductive RigStep (r : TestRig) : TestRig → Prop where
  | leds (gpio : Gpio) (h : r.gpio.LedsOnly gpio) : RigStep r { r with gpio := gpio }
  | status (ticks : UInt16) : RigStep r { r with shunt := (shuntGetStatus ticks r.shunt).2 }
  | start (ticks : UInt16) (cfg : Config) :
      RigStep r { r with shunt := shuntStart ticks cfg r.shunt }
  | stop : RigStep r { r with shunt := shuntStop r.shunt }
  | run (z : DivZero) (ticks : UInt16) (cfg : Config) (cellmv : UInt16) (tempC : Int16) :
      RigStep r { r with shunt := (shuntRun z ticks cfg cellmv tempC r.shunt).2 }
  | testOn (ticks : UInt16) (cfg : Config) (testfunc val0 val1 : UInt8) :
      RigStep r (testmodeOn ticks cfg testfunc val0 val1 r)
  | testOff : RigStep r (testmodeOff r)
  | testRun (ticks : UInt16) (tempC : Int16) : RigStep r (testmodeRun ticks tempC r).2

/-- Any number of steps. -/
abbrev RigPath : TestRig → TestRig → Prop := Relation.ReflTransGen RigStep

/-! ## LEDs -/

/-- An LED pin is none of the others. -/
theorem Gpio.setLed_ledsOnly (g : Gpio) (idx : LedIndex) (level : Bool) :
    g.LedsOnly (g.setLed idx level) := by
  cases idx <;> exact ⟨rfl, rfl, rfl⟩

/-- Nothing done. -/
theorem Gpio.LedsOnly.refl (g : Gpio) : g.LedsOnly g := ⟨rfl, rfl, rfl⟩

/-- Two changes of LED pins. -/
theorem Gpio.LedsOnly.trans {g g' g'' : Gpio} (h : g.LedsOnly g') (h' : g'.LedsOnly g'') :
    g.LedsOnly g'' :=
  ⟨h'.extio.trans h.extio, h'.loadon.trans h.loadon, h'.refon.trans h.refon⟩

/-- `led_blink` drives an LED pin. -/
theorem ledBlink_ledsOnly (ticks : UInt16) (idx : LedIndex) (on off : UInt16) (l : Leds)
    (g : Gpio) : g.LedsOnly (ledBlink ticks idx on off l g).2 := by
  unfold ledBlink
  split_ifs
  · exact g.setLed_ledsOnly idx false
  · exact g.setLed_ledsOnly idx true
  · exact g.setLed_ledsOnly idx true

/-- `led_oneshot` drives an LED pin. -/
theorem ledOneshot_ledsOnly (ticks : UInt16) (idx : LedIndex) (on : UInt16) (l : Leds) (g : Gpio) :
    g.LedsOnly (ledOneshot ticks idx on l g).2 := by
  unfold ledOneshot
  split_ifs
  · exact g.setLed_ledsOnly idx true
  · exact g.setLed_ledsOnly idx false

/-- `led_process` drives an LED pin. -/
theorem ledProcess_ledsOnly (ticks : UInt16) (idx : LedIndex) (l : Leds) (g : Gpio) :
    g.LedsOnly (ledProcess ticks idx l g).2 := by
  unfold ledProcess
  dsimp only
  split_ifs
  · split
    · exact g.setLed_ledsOnly idx true
    · exact g.setLed_ledsOnly idx false
    · exact g.setLed_ledsOnly idx false
    · exact .refl g
  · exact .refl g

/-- `led_run` drives LED pins. -/
theorem ledRun_ledsOnly (ticks : UInt16) (l : Leds) (g : Gpio) :
    g.LedsOnly (ledRun ticks l g).2 :=
  (ledProcess_ledsOnly ticks .green l g).trans (ledProcess_ledsOnly ticks .blue _ _)

/-- Driving LED pins is one step. -/
theorem Node.withLeds_rig (n : Node) (lg : Leds × Gpio) (h : n.rig.gpio.LedsOnly lg.2) :
    RigPath n.rig (n.withLeds lg).rig := .single (.leds lg.2 h)

/-- Blinking the blue LED is one step. -/
theorem Node.blinkBlue_rig (n : Node) (on off : UInt16) : RigPath n.rig (n.blinkBlue on off).rig :=
  n.withLeds_rig _ (ledBlink_ledsOnly ..)

/-! ## Command handlers -/

/-- Sending leaves the rig alone. -/
theorem Node.send_rig (n : Node) (flags addr cmd : UInt8) (payload : List UInt8) (len : UInt8) :
    (n.send flags addr cmd payload len).2.rig = n.rig := rfl

/-- The rig after TESTMODE. -/
theorem cmdTestmode_rig (pkt : RxBuf) (n : Node) : RigPath n.rig (cmdTestmode pkt n).2.rig := by
  simp only [cmdTestmode, cmdAck, Node.send_rig]
  split_ifs
  · exact .single .testOff
  · exact .single (.testOn n.systick n.conf (pkt.payload 0) (pkt.payload 3) (pkt.payload 4))
  · exact .single (.testOn n.systick n.conf (pkt.payload 0) 0 0)
  · exact .refl

/-- The rig after a packet. -/
theorem cmdDispatch_rig (p : Platform) (pkt : RxBuf) (n : Node) :
    RigPath n.rig (cmdDispatch p pkt n).2.rig := by
  have hsend (flags addr cmd : UInt8) (payload : List UInt8) (len : UInt8) :
      RigPath n.rig (n.send flags addr cmd payload len).2.rig := by
    rw [Node.send_rig]
  unfold cmdDispatch
  split_ifs
  · simp only [cmdAddr]
    split_ifs
    · rw [Node.send_rig]
    · exact .refl
  · exact hsend ..
  · exact .refl
  · refine cmdSwitch_rule (P := fun handler => RigPath n.rig (handler n).2.rig) p pkt
      (fun _ => hsend ..) (fun _ => .refl) (fun _ => hsend ..) (fun _ => hsend ..) (fun _ => ?_)
      (fun _ => ?_) (fun _ => ?_) (fun _ => cmdTestmode_rig pkt n) (fun _ => ?_) .refl
    · simp only [cmdStatus, Node.send_rig]
      exact .single (.status n.systick)
    · simp only [cmdGetparm, Node.send_rig]
      exact .refl
    · simp only [cmdSetparm, Node.send_rig]
      exact .refl
    · simp only [cmdFactory, cmdAck, Node.send_rig]
      exact .refl
  · exact .refl

/-! ## State handlers -/

/-- The rig after a handler of a state other than sleep. -/
theorem appHandler_rig (p : Platform) {state : AppState} (hstate : state ≠ .sleep) (event : Event)
    (n : Node) : RigPath n.rig (appHandler p state event n).2.rig := by
  cases state with
  | sleep => exact absurd rfl hstate
  | powerup | dfu =>
      cases event with
      | entry => exact Node.blinkBlue_rig ..
      | none | any | exit | tmr | timeout | cmd => exact .refl
  | idle =>
      cases event with
      | entry => exact Node.blinkBlue_rig ..
      | exit | timeout => exact .refl
      | cmd =>
          simp only [appHandler, idleHandler, idleCmd]
          split_ifs
          · exact .refl
          · exact .refl
          · exact .refl
          · exact Node.withLeds_rig (n.startStateTmr 1000) _ (ledOneshot_ledsOnly ..)
          · exact .refl
      | none | any | tmr =>
          simp only [appHandler, idleHandler]
          split_ifs
          · exact .refl
          · exact .refl
  | shunt =>
      cases event with
      | entry => exact (Node.blinkBlue_rig ..).tail (.start n.systick n.conf)
      | exit => exact .refl
      | cmd =>
          simp only [appHandler, shuntHandler]
          split_ifs
          · exact .single .stop
          · exact .refl
      | none | any | tmr | timeout => exact .single (.run ..)
  | testmode =>
      cases event with
      | entry => exact Node.blinkBlue_rig ..
      | exit => exact .refl
      | none | any | tmr | timeout | cmd => exact .single (.testRun ..)

/-- The sleep state drives pins only. -/
theorem sleepHandler_rig (event : Event) (n : Node) :
    ∃ gpio, (sleepHandler event n).2.rig = { n.rig with gpio := gpio } := by
  cases event <;> exact ⟨_, rfl⟩

/-! ## Invariants of the rig in whole runs -/

/-- An invariant of the rig: every step keeps it, and it says nothing about the pins. -/
structure RigRule (P : TestRig → Prop) : Prop where
  step : ∀ r r', RigStep r r' → P r → P r'
  pins : ∀ r gpio, P r → P { r with gpio := gpio }

section Rule

variable {P : TestRig → Prop} (rule : RigRule P)

include rule

/-- Any number of steps keeps the invariant. -/
theorem RigRule.path {r r' : TestRig} (hpath : RigPath r r') (h : P r) : P r' := by
  induction hpath with
  | refl => exact h
  | tail _ hstep ih => exact rule.step _ _ hstep ih

/-- Every state handler keeps the invariant. -/
theorem RigRule.appHandler (p : Platform) (state : AppState) (event : Event) (n : Node)
    (h : P n.rig) : P (BmsNode.appHandler p state event n).2.rig := by
  by_cases hsleep : state = .sleep
  · subst hsleep
    obtain ⟨gpio, hrig⟩ := sleepHandler_rig event n
    rw [show (BmsNode.appHandler p .sleep event n).2.rig = _ from hrig]
    exact rule.pins n.rig gpio h
  · exact rule.path (appHandler_rig p hsleep event n) h

/-- A pass of the state machine keeps the invariant. -/
theorem RigRule.appRun (p : Platform) (event : Event) (n : Node) (h : P n.rig) :
    P (BmsNode.appRun p event n).rig :=
  kissmRun_preserves AppState.powerup (BmsNode.appHandler p) .exit .entry (P := fun n' => P n'.rig)
    (fun state event data hdata => rule.appHandler p state event data hdata) n.ps event h

/-- Every action of the node keeps the invariant, if it holds of the rig before first use. -/
theorem RigRule.machine {p : Platform} {m : Machine} (hinit : P TestRig.init) (h : P m.node.rig)
    (action : Action) : P (BmsNode.step p m action).node.rig := by
  by_cases hmain : action.isMain = true
  · cases action with
    | tick | rx | dre | txc | shift => cases hmain
    | main samples =>
        have hstep := mainStep_loopStep p samples m
        show P (mainStep p samples m).node.rig
        generalize mainStep p samples m = m' at hstep ⊢
        cases hstep with
        | ledRun n => exact rule.pins n.rig _ h
        | restart n hswrr => exact rule.pins TestRig.init _ hinit
        | returned n | handled n => exact rule.path (cmdDispatch_rig p n.pkt.rxbuf n) h
        | kissmRun n event held => exact rule.appRun p event n h
        | adcRun | expired | unexpired | ready | notReady | rxFree | overdue | waiting | active
        | inactive | giveUp | arm | freed | loop => exact h
  · rw [(interrupt_app (by simpa using hmain)).2.1]
    exact h

/-- The invariant holds in every run. -/
theorem RigRule.run (p : Platform) (eeprom : Config) (hinit : P TestRig.init)
    (actions : List Action) :
    P (Transition.run (BmsNode.step p) (boot p eeprom) actions).node.rig :=
  run_invariant_always (P := fun m : Machine => P m.node.rig)
    (fun _ action h => rule.machine hinit h action) actions (rule.pins TestRig.init _ hinit)

end Rule

/-! ## The shunt timer -/

/-- The timer does what the module says: it compares with the PWM value, and it runs, with a period
of 256, exactly while the shunt is not off. -/
structure Shunt.Agrees (s : Shunt) : Prop where
  compare : s.tca0.cmp1 = s.pwm.toUInt16
  off : s.shuntStatus = .off → s.tca0.ctrla = 0 ∧ s.pwm = 0
  on : s.shuntStatus ≠ .off → s.tca0.ctrla = 0x0B ∧ s.tca0.ctrlb = 0x23 ∧ s.tca0.per = 256

/-- Starting the shunt. -/
theorem shuntStart_agrees (ticks : UInt16) (cfg : Config) (s : Shunt) :
    (shuntStart ticks cfg s).Agrees :=
  ⟨rfl, fun hoff => (by cases hoff), fun _ => ⟨rfl, rfl, rfl⟩⟩

/-- A shunt that is not off can have any PWM value. -/
theorem Shunt.Agrees.set {s : Shunt} (h : s.Agrees) (hon : s.shuntStatus ≠ .off) (pwm : UInt8) :
    (shuntSet pwm s).Agrees :=
  ⟨rfl, fun hoff => absurd hoff hon, fun _ => h.on hon⟩

/-- Stopping the shunt. -/
theorem shuntStop_agrees (s : Shunt) : (shuntStop s).Agrees :=
  ⟨rfl, fun _ => ⟨rfl, rfl⟩, fun hon => absurd rfl hon⟩

/-- Forcing or releasing the output pin leaves the timer as it is. -/
theorem Shunt.Agrees.ctrlc {s : Shunt} (h : s.Agrees) (ctrlc : UInt8) :
    Shunt.Agrees { s with tca0 := { s.tca0 with ctrlc := ctrlc } } :=
  ⟨h.compare, h.off, h.on⟩

/-- A pass of the shunt. -/
theorem Shunt.Agrees.run {s : Shunt} (h : s.Agrees) (z : DivZero) (ticks : UInt16) (cfg : Config)
    (cellmv : UInt16) (tempC : Int16) : (shuntRun z ticks cfg cellmv tempC s).2.Agrees := by
  unfold shuntRun
  dsimp only
  split_ifs with hoff hwait hexpired
  · exact shuntStop_agrees s
  · exact h
  · exact shuntStop_agrees _
  · have hstatus := shuntRegulate_status z cfg
      { s with loopTimeout := s.loopTimeout + shuntLoopTime } cellmv tempC
    exact ⟨rfl, fun heq => absurd heq hstatus, fun _ => h.on hoff⟩

/-- The blink sequence forces and releases the output pin. -/
theorem testmodeBlink_agrees (ticks : UInt16) (r : TestRig) (h : r.shunt.Agrees) :
    (testmodeBlink ticks r).shunt.Agrees := by
  have hoff : (pinShuntOff r.shunt).Agrees := h.ctrlc _
  unfold testmodeBlink
  dsimp only
  split_ifs
  · exact hoff.ctrlc _
  · exact hoff
  · exact hoff
  · exact hoff
  · exact h

/-- Turning the test mode off stops the shunt. -/
theorem testmodeOff_agrees (r : TestRig) : (testmodeOff r).shunt.Agrees :=
  (shuntStop_agrees r.shunt).ctrlc _

/-- The agreement is an invariant of the rig. -/
theorem agrees_rule : RigRule fun r => r.shunt.Agrees := by
  refine ⟨fun r r' hstep h => ?_, fun r gpio h => h⟩
  cases hstep with
  | leds => exact h
  | status ticks =>
      obtain ⟨timeout, hstatus⟩ := shuntGetStatus_eq ticks r.shunt
      rw [hstatus]
      exact ⟨h.compare, h.off, h.on⟩
  | start ticks cfg => exact shuntStart_agrees ticks cfg r.shunt
  | stop => exact shuntStop_agrees r.shunt
  | run z ticks cfg cellmv tempC => exact h.run z ticks cfg cellmv tempC
  | testOff => exact testmodeOff_agrees r
  | testOn ticks cfg testfunc val0 val1 =>
      have hstart := (shuntStart_agrees ticks cfg r.shunt).set (by simp [shuntStart]) val0
      simp only [testmodeOn]
      generalize tmrSet ticks 1000 = timeout
      generalize tmrSet ticks 750 = blinkTimeout
      generalize shuntStart ticks cfg r.shunt = started at hstart ⊢
      split_ifs
      · exact h
      · exact h
      · exact hstart
      · exact h
      · exact testmodeOff_agrees _
  | testRun ticks tempC =>
      unfold testmodeRun
      dsimp only
      split_ifs
      · exact testmodeOff_agrees r
      · exact testmodeOff_agrees _
      · exact testmodeBlink_agrees ticks _ h
      · exact testmodeOff_agrees _
      · exact h

/-- The timer runs exactly while the module reports the shunt on. -/
theorem Shunt.Agrees.running_iff {s : Shunt} (h : s.Agrees) :
    s.tca0.ctrla = 0 ↔ s.shuntStatus.code = 0 := by
  by_cases hoff : s.shuntStatus = .off
  · exact iff_of_true (h.off hoff).1 (by rw [hoff]; rfl)
  · refine iff_of_false ?_ ?_
    · rw [(h.on hoff).1]
      decide
    · cases hstatus : s.shuntStatus with
      | off => exact absurd hstatus hoff
      | idle | on | notused | limit => decide

/-- The packet a STATUS command is answered with carries the status and the PWM value. -/
theorem cmdStatus_calls (p : Platform) (n : Node) : ∃ pld : List UInt8,
    (cmdStatus p n).2.calls = n.calls ++ [.pktSend pktFlagReply n.nodeid Cmd.status pld] ∧
      pld[4]? = some n.rig.shunt.shuntStatus.code ∧ pld[5]? = some n.rig.shunt.pwm := by
  obtain ⟨timeout, hstatus⟩ := shuntGetStatus_eq n.systick n.rig.shunt
  simp only [cmdStatus, hstatus]
  generalize n.cellmv = mvolts
  generalize (n.tempC p .boardTemp).toUInt16 = boardTemp
  exact ⟨_, rfl, rfl, rfl⟩

/-- The PWM timer agrees with the shunt module in every state of every run, whatever commands
start and stop the shunt and the test functions: it compares with the module's PWM value, and it
runs, with a period of 256, exactly while the module is not off, which it never is with a PWM
value other than zero. So the answer to a STATUS packet says whether the timer runs, and with
which value it compares. -/
theorem shunt_agrees (p : Platform) (eeprom : Config) (actions : List Action) :
    let n := (run (step p) (boot p eeprom) actions).node
    n.rig.shunt.Agrees ∧ ∃ pld : List UInt8,
      (cmdStatus p n).2.calls = n.calls ++ [.pktSend pktFlagReply n.nodeid Cmd.status pld] ∧
        (pld[4]? = some 0 ↔ n.rig.shunt.tca0.ctrla = 0) ∧
        pld[5]?.map UInt8.toUInt16 = some n.rig.shunt.tca0.cmp1 := by
  intro n
  have hagrees : n.rig.shunt.Agrees :=
    agrees_rule.run p eeprom
      ⟨rfl, fun _ => ⟨rfl, rfl⟩, fun hon => absurd rfl hon⟩ actions
  obtain ⟨pld, hcalls, hcode, hpwm⟩ := cmdStatus_calls p n
  refine ⟨hagrees, pld, hcalls, ?_, ?_⟩
  · rw [hcode, hagrees.running_iff]
    simp
  · rw [hpwm, hagrees.compare]
    rfl

end BmsNode
