import BmsNode.Firmware.Main

/-!
# What the handlers leave alone

A command handler can change the configuration, the shunt and test mode, and what is
sent. A state handler can change the timers, the LEDs, the converter and the shunt and
test mode. Neither touches the packet module, which belongs to the receive interrupt
and to the main loop itself.
-/

namespace BmsNode

/-! ## Command handlers -/

/-- What holds of the handler of every command holds of the `switch`. -/
theorem cmdSwitch_rule {P : (Node → Bool × Node) → Prop} (p : Platform) (pkt : RxBuf)
    (hack : pkt.cmd = Cmd.ping ∨ pkt.cmd = Cmd.shunton ∨ pkt.cmd = Cmd.shuntoff → P (cmdAck pkt))
    (hdfu : pkt.cmd = Cmd.dfu → P cmdDfu) (huid : pkt.cmd = Cmd.uid → P (cmdUid p))
    (hadcraw : pkt.cmd = Cmd.adcraw → P cmdAdcraw) (hstatus : pkt.cmd = Cmd.status → P (cmdStatus p))
    (hgetparm : pkt.cmd = Cmd.getparm → P (cmdGetparm pkt))
    (hsetparm : pkt.cmd = Cmd.setparm → P (cmdSetparm p pkt))
    (htestmode : pkt.cmd = Cmd.testmode → P (cmdTestmode pkt))
    (hfactory : pkt.cmd = Cmd.factory → P (cmdFactory p pkt))
    (hnone : P fun n => (false, n)) : P (cmdSwitch p pkt) := by
  unfold cmdSwitch
  by_cases hcmd : pkt.cmd = Cmd.ping
  · simp only [if_pos hcmd]
    exact hack (.inl hcmd)
  simp only [if_neg hcmd]
  by_cases hcmd : pkt.cmd = Cmd.dfu
  · simp only [if_pos hcmd]
    exact hdfu hcmd
  simp only [if_neg hcmd]
  by_cases hcmd : pkt.cmd = Cmd.uid
  · simp only [if_pos hcmd]
    exact huid hcmd
  simp only [if_neg hcmd]
  by_cases hcmd : pkt.cmd = Cmd.adcraw
  · simp only [if_pos hcmd]
    exact hadcraw hcmd
  simp only [if_neg hcmd]
  by_cases hcmd : pkt.cmd = Cmd.status
  · simp only [if_pos hcmd]
    exact hstatus hcmd
  simp only [if_neg hcmd]
  by_cases hcmd : pkt.cmd = Cmd.shunton ∨ pkt.cmd = Cmd.shuntoff
  · simp only [if_pos hcmd]
    exact hack (.inr hcmd)
  simp only [if_neg hcmd]
  by_cases hcmd : pkt.cmd = Cmd.getparm
  · simp only [if_pos hcmd]
    exact hgetparm hcmd
  simp only [if_neg hcmd]
  by_cases hcmd : pkt.cmd = Cmd.setparm
  · simp only [if_pos hcmd]
    exact hsetparm hcmd
  simp only [if_neg hcmd]
  by_cases hcmd : pkt.cmd = Cmd.testmode
  · simp only [if_pos hcmd]
    exact htestmode hcmd
  simp only [if_neg hcmd]
  by_cases hcmd : pkt.cmd = Cmd.factory
  · simp only [if_pos hcmd]
    exact hfactory hcmd
  simp only [if_neg hcmd]
  exact hnone

/-- What a command handler can change: the configuration, the shunt and test mode, and what is sent
and called. It can request a restart. -/
def CmdEffect (n n' : Node) : Prop := ∃ cfg txpkt ser rig swrr calls,
  n' = { n with cfg := cfg, txpkt := txpkt, ser := ser, rig := rig, swrr := swrr, calls := calls }

/-- Nothing done is no effect. -/
theorem CmdEffect.refl (n : Node) : CmdEffect n n := ⟨_, _, _, _, _, _, rfl⟩

/-- A packet can be sent in addition. -/
theorem CmdEffect.send {n n' : Node} (h : CmdEffect n n') (flags addr cmd : UInt8)
    (payload : List UInt8) (len : UInt8) :
    CmdEffect n (n'.send flags addr cmd payload len).2 := by
  obtain ⟨cfg, txpkt, ser, rig, swrr, calls, rfl⟩ := h
  unfold Node.send
  generalize pktSend _ _ _ _ _ _ _ = result
  exact ⟨_, _, _, _, _, _, rfl⟩

/-- `cmd_ack` only sends. -/
theorem CmdEffect.ack {n n' : Node} (h : CmdEffect n n') (pkt : RxBuf) :
    CmdEffect n (cmdAck pkt n').2 := h.send _ _ _ _ _

/-- `cmd_status` restarts the idle timeout of the shunt and sends ten bytes. -/
theorem cmdStatus_eq (p : Platform) (n : Node) : ∃ timeout pld, pld.length = 10 ∧
    cmdStatus p n = Node.send
      { n with rig := { n.rig with shunt := { n.rig.shunt with shuntTimeout := timeout } } }
      pktFlagReply n.nodeid Cmd.status pld 10 := by
  obtain ⟨timeout, hstatus⟩ := shuntGetStatus_eq n.systick n.rig.shunt
  simp only [cmdStatus, hstatus]
  exact ⟨timeout, _, rfl, rfl⟩

/-- The effect of `cmd_status`. -/
theorem cmdStatus_effect (p : Platform) (n : Node) : CmdEffect n (cmdStatus p n).2 := by
  obtain ⟨timeout, pld, -, hstatus⟩ := cmdStatus_eq p n
  rw [hstatus]
  apply CmdEffect.send
  exact ⟨_, _, _, _, _, _, rfl⟩

/-- The effect of `cmd_setparm`. -/
theorem cmdSetparm_effect (p : Platform) (pkt : RxBuf) (n : Node) :
    CmdEffect n (cmdSetparm p pkt n).2 := by
  simp only [cmdSetparm]
  apply CmdEffect.send
  exact ⟨_, _, _, _, _, _, rfl⟩

/-- The effect of `cmd_testmode`. -/
theorem cmdTestmode_effect (pkt : RxBuf) (n : Node) : CmdEffect n (cmdTestmode pkt n).2 := by
  simp only [cmdTestmode]
  apply CmdEffect.ack
  split_ifs
  all_goals exact ⟨_, _, _, _, _, _, rfl⟩

/-- The effect of the FACTORY case. -/
theorem cmdFactory_effect (p : Platform) (pkt : RxBuf) (n : Node) :
    CmdEffect n (cmdFactory p pkt n).2 := by
  simp only [cmdFactory]
  apply CmdEffect.ack
  exact ⟨_, _, _, _, _, _, rfl⟩

/-- The effect of `cmd_addr`. -/
theorem cmdAddr_effect (p : Platform) (pkt : RxBuf) (n : Node) :
    CmdEffect n (cmdAddr p pkt n).2 := by
  simp only [cmdAddr]
  split_ifs
  · apply CmdEffect.send
    exact ⟨_, _, _, _, _, _, rfl⟩
  · exact CmdEffect.refl n

/-- The effect of every command handler. -/
theorem cmdSwitch_effect (p : Platform) (pkt : RxBuf) (n : Node) :
    CmdEffect n (cmdSwitch p pkt n).2 := by
  have hrefl := CmdEffect.refl n
  refine cmdSwitch_rule (P := fun handler => CmdEffect n (handler n).2) p pkt
    (fun _ => hrefl.ack pkt) (fun _ => ?_) (fun _ => hrefl.send _ _ _ _ _)
    (fun _ => hrefl.send _ _ _ _ _) (fun _ => cmdStatus_effect p n)
    (fun _ => hrefl.send _ _ _ _ _) (fun _ => cmdSetparm_effect p pkt n)
    (fun _ => cmdTestmode_effect pkt n) (fun _ => cmdFactory_effect p pkt n) hrefl
  exact ⟨_, _, _, _, _, _, rfl⟩

/-- The effect of the dispatch. -/
theorem cmdDispatch_effect (p : Platform) (pkt : RxBuf) (n : Node) :
    CmdEffect n (cmdDispatch p pkt n).2 := by
  have hrefl := CmdEffect.refl n
  unfold cmdDispatch
  split_ifs
  · exact cmdAddr_effect p pkt n
  · exact hrefl.send _ _ _ _ _
  · exact hrefl
  · exact cmdSwitch_effect p pkt n
  · exact hrefl

/-- What a command handler leaves alone. -/
structure CmdFrame (n n' : Node) : Prop where
  systick : n'.systick = n.systick
  pkt : n'.pkt = n.pkt
  cmd : n'.cmd = n.cmd
  adc : n'.adc = n.adc
  ps : n'.ps = n.ps

/-- The frame of the dispatch. -/
theorem cmdDispatch_frame (p : Platform) (pkt : RxBuf) (n : Node) :
    CmdFrame n (cmdDispatch p pkt n).2 := by
  obtain ⟨cfg, txpkt, ser, rig, swrr, calls, heffect⟩ := cmdDispatch_effect p pkt n
  rw [heffect]
  exact ⟨rfl, rfl, rfl, rfl, rfl⟩

/-- A command handler leaves the timers alone. -/
theorem cmdDispatch_tmrlist (p : Platform) (pkt : RxBuf) (n : Node) :
    (cmdDispatch p pkt n).2.tmrlist = n.tmrlist := by
  obtain ⟨cfg, txpkt, ser, rig, swrr, calls, heffect⟩ := cmdDispatch_effect p pkt n
  rw [heffect]

/-! ## State handlers -/

/-- What a state handler leaves alone. -/
structure AppFrame (n n' : Node) : Prop where
  systick : n'.systick = n.systick
  cfg : n'.cfg = n.cfg
  pkt : n'.pkt = n.pkt
  txpkt : n'.txpkt = n.txpkt
  ser : n'.ser = n.ser
  cmd : n'.cmd = n.cmd
  calls : n'.calls = n.calls

/-- Nothing done leaves everything alone. -/
theorem AppFrame.refl (n : Node) : AppFrame n n := ⟨rfl, rfl, rfl, rfl, rfl, rfl, rfl⟩

/-- The frames of two handlers in a row. -/
theorem AppFrame.trans {n n' n'' : Node} (h : AppFrame n n') (h' : AppFrame n' n'') :
    AppFrame n n'' :=
  ⟨h'.systick.trans h.systick, h'.cfg.trans h.cfg, h'.pkt.trans h.pkt, h'.txpkt.trans h.txpkt,
    h'.ser.trans h.ser, h'.cmd.trans h.cmd, h'.calls.trans h.calls⟩

/-- One call of `shunt_run` changes the shunt. -/
theorem Node.shuntRun_eq (p : Platform) (n : Node) :
    ∃ shunt, (n.shuntRun p).2 = { n with rig := { n.rig with shunt := shunt } } := by
  unfold Node.shuntRun
  generalize BmsNode.shuntRun _ _ _ _ _ _ = result
  exact ⟨result.2, rfl⟩

/-- One call of `testmode_run` changes the shunt and the outputs. -/
theorem Node.testmodeRun_eq (p : Platform) (n : Node) :
    ∃ rig, (n.testmodeRun p).2 = { n with rig := rig } := by
  unfold Node.testmodeRun
  generalize BmsNode.testmodeRun _ _ _ = result
  exact ⟨result.2, rfl⟩

/-- The idle state's command event starts the timer and may light an LED. -/
theorem idleCmd_eq (n : Node) : ∃ tmrlist leds rig,
    (idleCmd n).2 = { n with tmrlist := tmrlist, leds := leds, rig := rig } := by
  unfold idleCmd
  dsimp only
  split_ifs
  all_goals exact ⟨_, _, _, rfl⟩

/-- A handler of the shunt state changes the LEDs and the rig. -/
theorem shuntHandler_eq (p : Platform) (event : Event) (n : Node) : ∃ leds rig,
    (shuntHandler p event n).2 = { n with leds := leds, rig := rig } := by
  obtain ⟨shunt, hrun⟩ := n.shuntRun_eq p
  cases event with
  | entry =>
      simp only [shuntHandler]
      generalize shuntStart _ _ _ = shunt
      exact ⟨_, _, rfl⟩
  | exit => exact ⟨_, _, rfl⟩
  | cmd =>
      simp only [shuntHandler]
      split_ifs
      · exact ⟨_, _, rfl⟩
      · exact ⟨_, _, rfl⟩
  | timeout | none | any | tmr => exact ⟨_, _, hrun⟩

/-- A handler of the testmode state changes the LEDs and the rig. -/
theorem testmodeHandler_eq (p : Platform) (event : Event) (n : Node) : ∃ leds rig,
    (testmodeHandler p event n).2 = { n with leds := leds, rig := rig } := by
  obtain ⟨rig, hrun⟩ := n.testmodeRun_eq p
  cases event with
  | entry | exit => exact ⟨_, _, rfl⟩
  | cmd | timeout | none | any | tmr => exact ⟨_, _, hrun⟩

/-- A state handler changes the timers, the converter, the LEDs and the rig, and nothing else. -/
theorem appHandler_eq (p : Platform) (state : AppState) (event : Event) (n : Node) :
    ∃ tmrlist adc leds rig, (appHandler p state event n).2 =
      { n with tmrlist := tmrlist, adc := adc, leds := leds, rig := rig } := by
  cases state with
  | powerup | dfu | sleep =>
      cases event
      all_goals exact ⟨_, _, _, _, rfl⟩
  | idle =>
      cases event with
      | cmd =>
          obtain ⟨tmrlist, leds, rig, hcmd⟩ := idleCmd_eq n
          exact ⟨_, _, _, _, hcmd⟩
      | entry | exit | timeout => exact ⟨_, _, _, _, rfl⟩
      | none | any | tmr =>
          simp only [appHandler, idleHandler]
          split_ifs
          · exact ⟨_, _, _, _, rfl⟩
          · exact ⟨_, _, _, _, rfl⟩
  | shunt =>
      obtain ⟨leds, rig, hshunt⟩ := shuntHandler_eq p event n
      exact ⟨_, _, _, _, hshunt⟩
  | testmode =>
      obtain ⟨leds, rig, htest⟩ := testmodeHandler_eq p event n
      exact ⟨_, _, _, _, htest⟩

/-- The frame of every state handler. -/
theorem appHandler_frame (p : Platform) (state : AppState) (event : Event) (n : Node) :
    AppFrame n (appHandler p state event n).2 := by
  obtain ⟨tmrlist, adc, leds, rig, hhandler⟩ := appHandler_eq p state event n
  rw [hhandler]
  exact ⟨rfl, rfl, rfl, rfl, rfl, rfl, rfl⟩

/-- The frame of a pass of the state machine. -/
theorem appRun_frame (p : Platform) (event : Event) (n : Node) : AppFrame n (appRun p event n) := by
  have hrun := kissmRun_preserves AppState.powerup (appHandler p)
    .exit .entry (P := AppFrame n)
    (fun state event data hdata => hdata.trans (appHandler_frame p state event data))
    n.ps event (AppFrame.refl n)
  exact ⟨hrun.systick, hrun.cfg, hrun.pkt, hrun.txpkt, hrun.ser, hrun.cmd, hrun.calls⟩

end BmsNode
