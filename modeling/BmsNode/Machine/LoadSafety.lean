import BmsNode.Command.Addressing
import BmsNode.Machine.Ownership
import BmsNode.Serial.Queue
import BmsNode.Testing.Exclusive

/-!
# The shunt load is driven under supervision

The load is switched on by the shunt state and by the TESTMODE command, and watched by
the handlers of the shunt state and of the testmode state only. A TESTMODE packet is
handled in every state, though, and nothing but the idle state follows it into the
testmode state. `load_monitored` says that the load is never driven unwatched in a run
in which every packet that starts it finds the node in a state that watches it, or in
the idle state with room for the acknowledgement.
-/

namespace BmsNode

open Transition

/-- The shunt PWM value. -/
def Node.pwm (n : Node) : UInt8 := shuntGetPwm n.rig.shunt

/-- The present state is one whose handler watches the load. -/
def Monitored (ps : KissmState AppState) : Prop := ps = .app .shunt ∨ ps = .app .testmode

instance (ps : KissmState AppState) : Decidable (Monitored ps) :=
  inferInstanceAs (Decidable (_ ∨ _))

/-- The packet makes this node drive the load: TESTMODE with the shunt function, the key and a
non-zero PWM value. -/
def StartsLoad (n : Node) (buf : RxBuf) : Prop :=
  n.nodeid ≠ 0 ∧ buf.addr = n.nodeid ∧ buf.cmd = Cmd.testmode ∧ buf.payload 0 = TestFunc.shunt ∧
    buf.payload 1 = 0xCA ∧ buf.payload 2 = 0xFE ∧ buf.len = 5 ∧ buf.payload 3 ≠ 0

instance (n : Node) (buf : RxBuf) : Decidable (StartsLoad n buf) := by
  unfold StartsLoad
  infer_instance

/-- A node that goes on to watch a load that is started now: it does already, or it is idle and can
acknowledge the packet. -/
def ReadyForLoad (n : Node) : Prop :=
  Monitored n.ps ∨ (n.ps = .app .idle ∧ (bufCnt n.ser).toNat + 10 ≤ 31)

instance (n : Node) : Decidable (ReadyForLoad n) := inferInstanceAs (Decidable (_ ∨ _))

/-- Only a node that is ready for it is made to drive the load. -/
def LoadStartsReady (m : Machine) : Action → Prop
  | .main _ => m.pc = .dispatch → StartsLoad m.node m.node.pkt.rxbuf → ReadyForLoad m.node
  | _ => True

instance (m : Machine) (action : Action) : Decidable (LoadStartsReady m action) := by
  cases action <;> unfold LoadStartsReady <;> infer_instance

/-! ## Command handlers -/

/-- Sending leaves the load alone. -/
theorem Node.send_pwm (n : Node) (flags addr cmd : UInt8) (payload : List UInt8) (len : UInt8) :
    (n.send flags addr cmd payload len).2.pwm = n.pwm := rfl

/-- `testmode_on` drives the load only by the shunt function, with the value it is given. -/
theorem testmodeOn_pwm (ticks : UInt16) (cfg : Config) (testfunc val0 val1 : UInt8) (r : TestRig) :
    (testmodeOn ticks cfg testfunc val0 val1 r).shunt.pwm = r.shunt.pwm ∨
      (testmodeOn ticks cfg testfunc val0 val1 r).shunt.pwm = 0 ∨
      (testfunc = TestFunc.shunt ∧
        (testmodeOn ticks cfg testfunc val0 val1 r).shunt.pwm = val0) := by
  simp only [testmodeOn]
  generalize tmrSet ticks 1000 = timeout
  generalize tmrSet ticks 750 = blinkTimeout
  generalize shuntStart ticks cfg r.shunt = started
  split_ifs with hvref hio hshunt hblink
  · exact .inl rfl
  · exact .inl rfl
  · exact .inr (.inr ⟨hshunt, rfl⟩)
  · exact .inl rfl
  · exact .inr (.inl rfl)

/-- `cmd_testmode` leaves the load as it is or off, unless the packet starts it. -/
theorem cmdTestmode_pwm {buf : RxBuf} {n : Node} (hzero : n.nodeid ≠ 0) (haddr : buf.addr = n.nodeid)
    (hcmd : buf.cmd = Cmd.testmode) :
    (cmdTestmode buf n).2.pwm = n.pwm ∨ (cmdTestmode buf n).2.pwm = 0 ∨ StartsLoad n buf := by
  simp only [cmdTestmode, cmdAck, Node.send_pwm]
  split_ifs with hoff hkey hlen
  · exact .inr (.inl rfl)
  · obtain hkeep | hoff | ⟨hfunc, hval⟩ :=
      testmodeOn_pwm n.systick n.conf (buf.payload 0) (buf.payload 3) (buf.payload 4) n.rig
    · exact .inl hkeep
    · exact .inr (.inl hoff)
    · by_cases hnone : buf.payload 3 = 0
      · exact .inr (.inl (hval.trans hnone))
      · exact .inr (.inr ⟨hzero, haddr, hcmd, hfunc, hkey.1, hkey.2, hlen, hnone⟩)
  · rcases testmodeOn_pwm n.systick n.conf (buf.payload 0) 0 0 n.rig with hkeep | hoff | ⟨-, hval⟩
    · exact .inl hkeep
    · exact .inr (.inl hoff)
    · exact .inr (.inl hval)
  · exact .inl rfl

/-- A command leaves the load as it is or off, unless the packet starts it. -/
theorem cmdDispatch_pwm (p : Platform) (buf : RxBuf) (n : Node) :
    (cmdDispatch p buf n).2.pwm = n.pwm ∨ (cmdDispatch p buf n).2.pwm = 0 ∨ StartsLoad n buf := by
  unfold cmdDispatch
  split_ifs with haddrCmd hzero huid haddr
  · simp only [cmdAddr]
    generalize cfgStore p.tail _ = cfg
    split_ifs
    · exact .inl (Node.send_pwm { n with cfg := cfg } _ _ _ _ _)
    · exact .inl rfl
  · exact .inl (n.send_pwm _ _ _ _ _)
  · exact .inl rfl
  · refine cmdSwitch_rule (P := fun handler => (handler n).2.pwm = n.pwm ∨
      (handler n).2.pwm = 0 ∨ StartsLoad n buf) p buf (fun _ => .inl (n.send_pwm _ _ _ _ _))
      (fun _ => .inl rfl) (fun _ => .inl (n.send_pwm _ _ _ _ _))
      (fun _ => .inl (n.send_pwm _ _ _ _ _)) (fun _ => ?_) (fun _ => ?_) (fun _ => ?_)
      (fun hcmd => cmdTestmode_pwm hzero haddr hcmd) (fun _ => ?_) (.inl rfl)
    · obtain ⟨timeout, pld, -, hstatus⟩ := cmdStatus_eq p n
      rw [hstatus]
      exact .inl rfl
    · simp only [cmdGetparm]
      exact .inl (n.send_pwm _ _ _ _ _)
    · simp only [cmdSetparm]
      generalize (cfgSet p.tail n.cfg _ _).2 = cfg
      exact .inl (Node.send_pwm { n with cfg := cfg } _ _ _ _ _)
    · simp only [cmdFactory]
      generalize cfgReset p.tail n.cfg = cfg
      exact .inl (Node.send_pwm { n with cfg := cfg } _ _ _ _ _)
  · exact .inl rfl

/-- The packet that starts the load is handed on to the main loop if there is room for its
acknowledgement. -/
theorem StartsLoad.returned {p : Platform} {n : Node} {buf : RxBuf} (h : StartsLoad n buf)
    (hroom : (bufCnt n.ser).toNat + 10 ≤ 31) : (cmdDispatch p buf n).1 = true := by
  obtain ⟨hzero, haddr, hcmd, -⟩ := h
  rw [cmdDispatch_testmode hzero haddr hcmd]
  have hack (n' : Node) (hser : n'.ser = n.ser) : (cmdAck buf n').1 = true := by
    rw [cmdAck, Node.send]
    refine (pktSend_iff n'.txpkt n'.ser pktFlagReply buf.addr buf.cmd [] 0 (by decide)).mpr ?_
    rw [hser]
    exact hroom
  simp only [cmdTestmode]
  split_ifs <;> exact hack _ rfl

/-! ## State handlers -/

/-- `shunt_run` reports the shunt off only with the load off. -/
theorem Node.shuntRun_off (p : Platform) (n : Node) (h : (n.shuntRun p).1 = .off) :
    (n.shuntRun p).2.pwm = 0 := by
  simp only [Node.shuntRun, Node.pwm, shuntGetPwm, BmsNode.shuntRun] at h ⊢
  split_ifs at h ⊢ with hoff hwait hexpired
  · rfl
  · exact absurd h hoff
  · rfl
  · exact absurd h (shuntRegulate_status p.divZero n.conf _ n.cellmv (n.tempC p .boardTemp))

/-- `testmode_run` reports test mode off only when it turns it off. -/
theorem testmodeRun_ended {ticks : UInt16} {tempC : Int16} {r : TestRig}
    (h : (testmodeRun ticks tempC r).1 = TestFunc.off) :
    ∃ r', (testmodeRun ticks tempC r).2 = testmodeOff r' := by
  rw [testmodeRun] at h ⊢
  by_cases hoff : r.test.testState = TestFunc.off
  · rw [if_pos hoff]
    exact ⟨r, rfl⟩
  rw [if_neg hoff] at h ⊢
  dsimp only at h ⊢
  split_ifs at h ⊢ with hminute hmode hhot
  · exact ⟨_, rfl⟩
  · rw [(testmodeBlink_outputs ticks _).1, testmodeTick_state] at h
    exact absurd h hoff
  · exact ⟨_, rfl⟩
  · rw [testmodeTick_state] at h
    exact absurd h hoff

/-- The load is then off. -/
theorem Node.testmodeRun_off (p : Platform) (n : Node) (h : (n.testmodeRun p).1 = TestFunc.off) :
    (n.testmodeRun p).2.pwm = 0 := by
  obtain ⟨r, hended⟩ := testmodeRun_ended h
  show (BmsNode.testmodeRun n.systick (n.tempC p .boardTemp) n.rig).2.shunt.pwm = 0
  rw [hended]
  rfl

/-- Leaving a state does not touch the load. -/
theorem appHandler_exit_pwm (p : Platform) (state : AppState) (n : Node) :
    (appHandler p state .exit n).2.pwm = n.pwm := by
  cases state <;> rfl

/-- A state that does not watch the load does not touch it. -/
theorem appHandler_unmonitored {state : AppState} (h : ¬Monitored (.app state)) (p : Platform)
    (event : Event) (n : Node) : (appHandler p state event n).2.pwm = n.pwm := by
  cases state with
  | powerup | dfu | sleep => cases event <;> rfl
  | idle =>
      cases event with
      | cmd =>
          simp only [appHandler, idleHandler, idleCmd]
          split_ifs <;> rfl
      | entry | exit | timeout => rfl
      | none | any | tmr =>
          simp only [appHandler, idleHandler]
          split_ifs <;> rfl
  | shunt => exact absurd (.inl rfl) h
  | testmode => exact absurd (.inr rfl) h

/-- A state that watches the load goes to another state only with the load off. -/
theorem appHandler_monitored {state : AppState} (h : Monitored (.app state)) (p : Platform)
    (event : Event) (n : Node) {next : AppState}
    (hnext : (appHandler p state event n).1 = some next) :
    (appHandler p state event n).2.pwm = 0 := by
  have hshunt (hnext : (if (n.shuntRun p).1 = .off then some AppState.idle else none) = some next) :
      (n.shuntRun p).2.pwm = 0 := by
    split_ifs at hnext with hoff
    exact n.shuntRun_off p hoff
  have htest (hnext : (if (n.testmodeRun p).1 = TestFunc.off then some AppState.idle else none) =
      some next) : (n.testmodeRun p).2.pwm = 0 := by
    split_ifs at hnext with hoff
    exact n.testmodeRun_off p hoff
  cases state with
  | powerup | idle | dfu | sleep => exact absurd h (by decide)
  | shunt =>
      cases event with
      | entry | exit => cases hnext
      | cmd =>
          simp only [appHandler, shuntHandler] at hnext ⊢
          split_ifs at hnext ⊢
          rfl
      | timeout | none | any | tmr => exact hshunt hnext
  | testmode =>
      cases event with
      | entry | exit => cases hnext
      | cmd | timeout | none | any | tmr => exact htest hnext

/-! ## A pass of the state machine -/

/-- The machine's state is safe: the load is driven only in a state that watches it, or on the way
from the idle state into the testmode state. -/
def LoadSafe (m : Machine) : Prop :=
  m.node.pwm ≠ 0 → Monitored m.node.ps ∨
    (m.pc = .kissmRun .cmd true ∧ m.node.ps = .app .idle ∧ m.node.pkt.rxbuf.cmd = Cmd.testmode)

section Pass

variable {p : Platform} {ps : KissmState AppState} {event : Event} {n : Node}

/-- The handler of a present state that does not watch the load. -/
theorem kissmHandler_unmonitored (h : ¬Monitored ps) :
    (kissmHandler AppState.powerup (appHandler p) ps event n).2.pwm = n.pwm := by
  cases ps with
  | initial => rfl
  | app state => exact appHandler_unmonitored h p event n

/-- The handler of a present state that watches the load. -/
theorem kissmHandler_monitored (h : Monitored ps) {ns : KissmState AppState}
    (hnext : (kissmHandler AppState.powerup (appHandler p) ps event n).1 = some ns) :
    (kissmHandler AppState.powerup (appHandler p) ps event n).2.pwm = 0 := by
  cases ps with
  | initial => exact absurd h (by decide)
  | app state =>
      obtain ⟨next, hstate, -⟩ := Option.map_eq_some_iff.mp hnext
      exact appHandler_monitored h p event n hstate

/-- The exit action of a present state. -/
theorem kissmHandler_exit_pwm :
    (kissmHandler AppState.powerup (appHandler p) ps .exit n).2.pwm = n.pwm := by
  cases ps with
  | initial => rfl
  | app state => exact appHandler_exit_pwm p state n

/-- The idle state hands a TESTMODE packet on to the testmode state. -/
theorem kissmHandler_testmode (hps : ps = .app .idle) (hcmd : n.pkt.rxbuf.cmd = Cmd.testmode) :
    (kissmHandler AppState.powerup (appHandler p) ps .cmd n).1 = some (.app .testmode) := by
  have hbuf : (n.startStateTmr 1000).pkt.rxbuf.cmd = Cmd.testmode := hcmd
  rw [hps]
  simp only [kissmHandler, appHandler, idleHandler, idleCmd, hbuf]
  rfl

/-- A pass of the state machine leaves the load driven only in a state that watches it. -/
theorem appRun_loadSafe {held : Bool} (h : LoadSafe { node := n, pc := .kissmRun event held })
    (hpwm : (appRun p event n).pwm ≠ 0) : Monitored (appRun p event n).ps := by
  -- a driven load in a state that does not watch it is on its way into the testmode state
  have hpending (hmon : ¬Monitored n.ps) (hdriven : n.pwm ≠ 0) :
      (kissmHandler AppState.powerup (appHandler p) n.ps event n).1 = some (.app .testmode) ∧
        n.ps = .app .idle := by
    rcases h hdriven with hmon' | ⟨hpc, hidle, hcmd⟩
    · exact absurd hmon' hmon
    · obtain ⟨rfl, -⟩ : event = .cmd ∧ held = true := by simpa using hpc
      exact ⟨kissmHandler_testmode hidle hcmd, hidle⟩
  have hps : (appRun p event n).ps =
      (kissmRun AppState.powerup (appHandler p) .exit .entry n.ps event n).1 := rfl
  have hload : (appRun p event n).pwm =
      (kissmRun AppState.powerup (appHandler p) .exit .entry n.ps event n).2.pwm := rfl
  rw [hload] at hpwm
  rw [hps]
  obtain ⟨heq, hstay⟩ | ⟨ns, hns, -, heq⟩ := kissmRun_cases AppState.powerup
    (appHandler p) .exit .entry n.ps event n
  · -- no change of state: a pending load would have changed it
    rw [heq] at hpwm ⊢
    by_contra hmon
    obtain ⟨hnext, hidle⟩ := hpending hmon (by rwa [← kissmHandler_unmonitored hmon])
    rw [hnext, hidle] at hstay
    simp at hstay
  · rw [heq] at hpwm ⊢
    by_contra hmon
    rw [kissmHandler_unmonitored hmon, kissmHandler_exit_pwm] at hpwm
    -- neither the exit nor the entry action drives the load, so it was driven before them
    by_cases hfrom : Monitored n.ps
    · exact hpwm (kissmHandler_monitored hfrom hns)
    · rw [kissmHandler_unmonitored hfrom] at hpwm
      obtain ⟨hnext, -⟩ := hpending hfrom hpwm
      rw [hnext, Option.some.injEq] at hns
      rw [← hns] at hmon
      exact hmon (.inr rfl)

end Pass

/-! ## Runs -/

/-- A step that touches neither the load nor the state, from or to a program point outside the state
machine. -/
theorem LoadSafe.keep {m m' : Machine} (h : LoadSafe m)
    (hshunt : m'.node.rig.shunt = m.node.rig.shunt) (hps : m'.node.ps = m.node.ps)
    (hpc : m.pc ≠ .kissmRun .cmd true) : LoadSafe m' := by
  have hpwm : m'.node.pwm = m.node.pwm := congrArg shuntGetPwm hshunt
  intro hdriven
  rcases h (by rwa [← hpwm]) with hmon | ⟨hpending, -⟩
  · exact .inl (by rwa [hps])
  · exact absurd hpending hpc

/-- A load that is driven after the dispatch was watched before, or an idle node has just
acknowledged the packet. -/
theorem LoadSafe.driven {p : Platform} {n : Node} (h : LoadSafe { node := n, pc := .dispatch })
    (hready : StartsLoad n n.pkt.rxbuf → ReadyForLoad n)
    (hdriven : (cmdDispatch p n.pkt.rxbuf n).2.pwm ≠ 0) :
    Monitored n.ps ∨ ((cmdDispatch p n.pkt.rxbuf n).1 = true ∧ n.ps = .app .idle ∧
      n.pkt.rxbuf.cmd = Cmd.testmode) := by
  rcases cmdDispatch_pwm p n.pkt.rxbuf n with hkeep | hoff | hstart
  · rcases h (by rwa [← hkeep]) with hmon | ⟨hpc, -⟩
    · exact .inl hmon
    · cases hpc
  · exact absurd hoff hdriven
  · rcases hready hstart with hmon | ⟨hidle, hroom⟩
    · exact .inl hmon
    · exact .inr ⟨hstart.returned hroom, hidle, hstart.2.2.1⟩

/-- A program point of the main loop keeps the load safe, when it dispatches a packet that starts
the load only on a node that is ready. -/
theorem mainStep_loadSafe {p : Platform} {m : Machine} (h : LoadSafe m)
    (hready : m.pc = .dispatch → StartsLoad m.node m.node.pkt.rxbuf → ReadyForLoad m.node)
    (samples : Vector UInt16 4) : LoadSafe (mainStep p samples m) := by
  have hstep := mainStep_loopStep p samples m
  generalize mainStep p samples m = m' at hstep ⊢
  cases hstep with
  | ledRun | adcRun | expired | unexpired | ready | notReady | rxFree | overdue | waiting | active
  | inactive | giveUp | arm | freed | loop => exact h.keep rfl rfl (by simp)
  | restart => exact fun hdriven => absurd rfl hdriven
  | returned n =>
      have hframe := cmdDispatch_frame p n.pkt.rxbuf n
      intro hdriven
      rcases h.driven (hready rfl) hdriven with hmon | ⟨-, hidle, hcmd⟩
      · exact .inl (by rwa [hframe.ps])
      · exact .inr ⟨rfl, hframe.ps.trans hidle, by rw [hframe.pkt]; exact hcmd⟩
  | handled n hswrr hret =>
      have hframe := cmdDispatch_frame p n.pkt.rxbuf n
      intro hdriven
      rcases h.driven (hready rfl) hdriven with hmon | ⟨hcontra, -⟩
      · exact .inl (by rwa [hframe.ps])
      · rw [hret] at hcontra
        cases hcontra
  | kissmRun n event held => exact fun hdriven => .inl (appRun_loadSafe h hdriven)

/-- An interrupt, which leaves the load, the state and a packet held alone. -/
theorem LoadSafe.interrupt {m m' : Machine} (h : LoadSafe m)
    (hshunt : m'.node.rig.shunt = m.node.rig.shunt) (hps : m'.node.ps = m.node.ps)
    (hpc : m'.pc = m.pc) (hbuf : m.pc.held = true → m'.node.pkt.rxbuf = m.node.pkt.rxbuf) :
    LoadSafe m' := by
  have hpwm : m'.node.pwm = m.node.pwm := congrArg shuntGetPwm hshunt
  intro hdriven
  rcases h (by rwa [← hpwm]) with hmon | ⟨hpending, hidle, hcmd⟩
  · exact .inl (by rwa [hps])
  · refine .inr ⟨hpc.trans hpending, hps.trans hidle, ?_⟩
    rw [hbuf (by rw [hpending]; rfl)]
    exact hcmd

/-- Every action keeps the load safe. -/
theorem step_loadSafe {p : Platform} {m : Machine} {owner : Owner} (howned : Owned m owner)
    (h : LoadSafe m) {action : Action} (hready : LoadStartsReady m action) :
    LoadSafe (step p m action) := by
  cases action with
  | tick | shift => exact h.interrupt rfl rfl rfl fun _ => rfl
  | dre | txc =>
      simp only [step]
      split_ifs <;> exact h.interrupt rfl rfl rfl fun _ => rfl
  | rx byte =>
      refine h.interrupt rfl rfl rfl fun hheld => ?_
      have hclient := howned.client hheld
      subst hclient
      obtain ⟨⟨hlisten, hinuse, -, -⟩, -⟩ := howned
      exact (pktParser_listening_inuse hlisten hinuse byte).2.2.2
  | main samples => exact mainStep_loadSafe h hready samples

/-- In every run in which only nodes that are ready for it are made to drive the load, a driven load
is watched at the end of every pass: the present state is the shunt state or the testmode state. -/
theorem load_monitored (p : Platform) (eeprom : Config) (actions : List Action)
    (hready : Meets (step p) LoadStartsReady (boot p eeprom) actions)
    (hpass : (run (step p) (boot p eeprom) actions).pc = .ledRun)
    (hdriven : (run (step p) (boot p eeprom) actions).node.pwm ≠ 0) :
    Monitored (run (step p) (boot p eeprom) actions).node.ps := by
  have hinv := run_invariant (P := fun m => (∃ owner, Owned m owner) ∧ LoadSafe m) (by
    rintro m action ⟨⟨owner, howned⟩, hsafe⟩ hcond
    obtain ⟨next, -, hnext⟩ := step_owned howned action
    exact ⟨⟨next, hnext⟩, step_loadSafe howned hsafe hcond⟩)
    ⟨⟨.none, boot_owned p eeprom⟩, fun hdriven => absurd rfl hdriven⟩ hready
  rcases hinv.2 hdriven with hmon | ⟨hpending, -⟩
  · exact hmon
  · rw [hpass] at hpending
    cases hpending

/-- The EEPROM contents of a node at address 1. -/
def nodeOneImage : Config := (freshNode benchBoard 1).cfg.eeprom

/-- The bytes of a TESTMODE packet that starts the load of the node at address 1. -/
def startLoadBytes : List UInt8 :=
  pktPreamble :: (Frame.mk 0 1 Cmd.testmode 5 [TestFunc.shunt, 0xCA, 0xFE, 100, 0]).wire

/-- The powerup state, one second, the idle state, the packet and the pass that handles it. -/
def idleStart : List Action :=
  mains 7 ++ List.replicate 1000 .tick ++ mains 5 ++ startLoadBytes.map .rx ++ mains 7

/-- An idle node goes on to watch the load that a TESTMODE packet starts. -/
theorem load_monitored_idle :
    Monitored (run (step benchBoard) (boot benchBoard nodeOneImage) idleStart).node.ps :=
  load_monitored benchBoard nodeOneImage idleStart (by decide +kernel) (by decide +kernel)
    (by decide +kernel)

/-- The packet starts the load of a node in the powerup state too, which does not watch it. -/
theorem load_unwatched :
    let m := run (step benchBoard) (boot benchBoard nodeOneImage)
      (mains 7 ++ startLoadBytes.map .rx ++ mains 7)
    m.pc = .ledRun ∧ m.node.pwm = 100 ∧ m.node.ps = .app .powerup := by
  decide +kernel

end BmsNode
