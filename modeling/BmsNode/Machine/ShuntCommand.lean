import BmsNode.Command.Addressing
import BmsNode.Machine.Moves
import BmsNode.Machine.Reception

/-!
# SHUNTON and its acknowledgement

`cmd_process` acknowledges a SHUNTON packet in every state, while only the handler of
the idle state starts the shunt. A pass that has answered one is followed to its end,
with interrupts at any point: shunting is on then exactly when the node was idle, or
was shunting already.
-/

namespace BmsNode

open Transition

/-- The shunt state is present and its module is not off. -/
def Shunting (n : Node) : Prop := n.ps = .app .shunt ∧ n.rig.shunt.shuntStatus ≠ .off

/-- Whether shunting can be checked. -/
instance (n : Node) : Decidable (Shunting n) := inferInstanceAs (Decidable (_ ∧ _))

/-! ## The state machine -/

/-- Starting the shunt leaves it on. -/
theorem shuntStart_status (ticks : UInt16) (cfg : Config) (s : Shunt) :
    (shuntStart ticks cfg s).shuntStatus = .idle := by
  simp only [shuntStart]

/-- The idle state goes on to the shunt state. -/
theorem appRun_shunton_idle {p : Platform} {n : Node} (hps : n.ps = .app .idle)
    (hcmd : n.pkt.rxbuf.cmd = Cmd.shunton) : Shunting (appRun p .cmd n) := by
  have hhandler : appHandler p .idle .cmd n = (some .shunt, n.startStateTmr 1000) := by
    have hdfu : Cmd.shunton ≠ Cmd.dfu := by decide
    have hbuf : (n.startStateTmr 1000).pkt = n.pkt := rfl
    simp only [appHandler, idleHandler, idleCmd, hbuf, hcmd, if_neg hdfu, if_true]
  rw [appRun_move hps hhandler (by simp)]
  refine ⟨rfl, ?_⟩
  simp only [appHandler, shuntHandler, shuntStart_status]
  simp

/-- What a pass of the state machine makes of a SHUNTON packet. -/
theorem appRun_shunton {p : Platform} {n : Node} (hcmd : n.pkt.rxbuf.cmd = Cmd.shunton)
    (htest : n.ps ≠ .app .testmode) :
    Shunting (appRun p .cmd n) ↔ n.ps = .app .idle ∨ Shunting n := by
  have hother (hidle : n.ps ≠ .app .idle) (hshunt : n.ps ≠ .app .shunt)
      (hnext : (appRun p .cmd n).ps ≠ .app .shunt) :
      Shunting (appRun p .cmd n) ↔ n.ps = .app .idle ∨ Shunting n := by
    simp [Shunting, hidle, hshunt, hnext]
  cases hps : n.ps with
  | initial =>
      rw [← hps]
      refine hother (by simp [hps]) (by simp [hps]) ?_
      rw [appRun_initial hps]
      simp
  | app state =>
      rw [← hps]
      cases state with
      | idle => exact iff_of_true (appRun_shunton_idle hps hcmd) (.inl hps)
      | powerup =>
          refine hother (by simp [hps]) (by simp [hps]) ?_
          rw [appRun_stay hps rfl]
          simp
      | dfu =>
          refine hother (by simp [hps]) (by simp [hps]) ?_
          rw [appRun_stay hps rfl]
          simp
      | sleep =>
          refine hother (by simp [hps]) (by simp [hps]) ?_
          rw [appRun_move hps rfl (by simp)]
          simp
      | testmode => exact absurd hps htest
      | shunt =>
          have hoff : ¬n.pkt.rxbuf.cmd = Cmd.shuntoff := by
            rw [hcmd]
            decide
          have hhandler : appHandler p .shunt .cmd n = (none, n) := if_neg hoff
          rw [appRun_stay hps hhandler]
          simp [Shunting, hps]

/-! ## The rest of the pass -/

/-- The rest of a pass that has answered a SHUNTON packet, with the number of program points left.
The packet takes effect or not. -/
inductive Answered (effective : Prop) : Nat → Machine → Prop where
  | answered (n : Node) (hcmd : n.pkt.rxbuf.cmd = Cmd.shunton) (htest : n.ps ≠ .app .testmode)
      (heffect : n.ps = .app .idle ∨ Shunting n ↔ effective) :
      Answered effective 2 ⟨n, .kissmRun .cmd true⟩
  | passed (n : Node) (heffect : Shunting n ↔ effective) :
      Answered effective 1 ⟨n, .loopFree true⟩
  | ended (n : Node) (heffect : Shunting n ↔ effective) : Answered effective 0 ⟨n, .ledRun⟩

/-- An interrupt while the main loop holds a packet. -/
theorem held_interrupt {p : Platform} {m : Machine} {owner : Owner} (h : Owned m owner)
    (hheld : m.pc.held = true) {action : Action} (hmain : action.isMain = false) :
    (step p m action).node.pkt.rxbuf = m.node.pkt.rxbuf := by
  have howner := h.1
  rw [h.client hheld] at howner
  cases action with
  | main samples => cases hmain
  | tick | shift => rfl
  | dre | txc =>
      simp only [step]
      split_ifs <;> rfl
  | rx byte => exact (pktParser_listening_inuse howner.1 howner.2.1 byte).2.2.2

/-- An interrupt leaves the pass where it is. -/
theorem Answered.interrupt {p : Platform} {effective : Prop} {left : Nat} {m : Machine}
    {owner : Owner} (h : Answered effective left m) (howned : Owned m owner) {action : Action}
    (hmain : action.isMain = false) : Answered effective left (step p m action) := by
  obtain ⟨hps, hrig, hpc⟩ := interrupt_app (p := p) (m := m) hmain
  have hmachine : step p m action = ⟨(step p m action).node, m.pc⟩ := by rw [← hpc]
  have hshunting : Shunting (step p m action).node ↔ Shunting m.node := by
    rw [Shunting, Shunting, hps, hrig]
  rw [hmachine]
  cases h with
  | answered n hcmd htest heffect =>
      refine .answered _ ?_ ?_ ?_
      · rw [held_interrupt howned rfl hmain]
        exact hcmd
      · rw [hps]
        exact htest
      · rw [hshunting, hps]
        exact heffect
  | passed n heffect => exact .passed _ (hshunting.trans heffect)
  | ended n heffect => exact .ended _ (hshunting.trans heffect)

/-- A program point brings the pass nearer to its end. -/
theorem Answered.main {p : Platform} {effective : Prop} {left : Nat} {m : Machine}
    (h : Answered effective (left + 1) m) (samples : Vector UInt16 4) :
    Answered effective left (mainStep p samples m) := by
  cases h with
  | answered n hcmd htest heffect =>
      exact .passed _ ((appRun_shunton hcmd htest).trans heffect)
  | passed n heffect => exact .ended _ heffect

/-- A run of the rest of the pass. -/
theorem Answered.run {p : Platform} {effective : Prop} {m : Machine} {owner : Owner}
    {rest : List Action} (h : Answered effective (rest.countP Action.isMain) m)
    (howned : Owned m owner) : Answered effective 0 (Transition.run (step p) m rest) := by
  induction rest generalizing m owner with
  | nil => exact h
  | cons action rest ih =>
      obtain ⟨next, -, hnext⟩ := step_owned (p := p) howned action
      rw [run_cons]
      cases hmain : action.isMain with
      | true =>
          rw [List.countP_cons_of_pos hmain] at h
          cases action with
          | main samples => exact ih (h.main samples) hnext
          | _ => cases hmain
      | false =>
          rw [List.countP_cons_of_neg (by simp [hmain])] at h
          exact ih (h.interrupt howned hmain) hnext

/-! ## The acknowledgement -/

/-- A SHUNTON packet for this node is answered by `cmd_ack`. -/
theorem cmdDispatch_shunton {p : Platform} {pkt : RxBuf} {n : Node} (hcmd : pkt.cmd = Cmd.shunton)
    (haddr : pkt.addr = n.nodeid) (hreply : (cmdDispatch p pkt n).1 = true) :
    cmdDispatch p pkt n = cmdAck pkt n := by
  by_cases hzero : n.nodeid = 0
  · simp [cmdDispatch, hcmd, hzero, Cmd.shunton, Cmd.addr, Cmd.uid, Cmd.dfu] at hreply
  · have hswitch : cmdDispatch p pkt n = cmdSwitch p pkt n := by
      simp [cmdDispatch, hcmd, haddr, hzero, Cmd.shunton, Cmd.addr]
    rw [hswitch]
    simp [cmdSwitch, hcmd, Cmd.shunton, Cmd.ping, Cmd.dfu, Cmd.uid, Cmd.adcraw, Cmd.status]

/-- An acknowledged SHUNTON and its effect, in every reachable state outside the testmode state. A
pass that sends the reply to a SHUNTON packet for this node ends in the shunt state with the shunt
not off exactly when it found the node idle, or in that state already. -/
theorem shunton_iff (p : Platform) (eeprom : Config) (past : List Action)
    (samples : Vector UInt16 4) (rest : List Action)
    (hpc : (run (step p) (boot p eeprom) past).pc = .dispatch)
    (hcmd : (run (step p) (boot p eeprom) past).node.pkt.rxbuf.cmd = Cmd.shunton)
    (haddr : (run (step p) (boot p eeprom) past).node.pkt.rxbuf.addr =
      (run (step p) (boot p eeprom) past).node.nodeid)
    (hreply : (cmdDispatch p (run (step p) (boot p eeprom) past).node.pkt.rxbuf
      (run (step p) (boot p eeprom) past).node).1 = true)
    (htest : (run (step p) (boot p eeprom) past).node.ps ≠ .app .testmode)
    (hpass : rest.countP Action.isMain = 2) :
    let m := run (step p) (boot p eeprom) past
    let last := run (step p) m (.main samples :: rest)
    last.pc = .ledRun ∧ (Shunting last.node ↔ m.node.ps = .app .idle ∨ Shunting m.node) := by
  obtain ⟨owner, -, howned⟩ := run_owned p eeprom past
  have hlooping : Looping (run (step p) (boot p eeprom) past) :=
    run_invariant_always (fun m action h => h.step action) past (boot_looping p eeprom)
  generalize run (step p) (boot p eeprom) past = m at *
  obtain ⟨n, pc⟩ := m
  obtain rfl : pc = .dispatch := hpc
  intro m last
  have hack := cmdDispatch_shunton hcmd haddr hreply
  have hstep : mainStep p samples ⟨n, .dispatch⟩ =
      ⟨(cmdAck n.pkt.rxbuf n).2, .kissmRun .cmd true⟩ := by
    have hswrr : (cmdAck n.pkt.rxbuf n).2.swrr = false := hlooping.swrr
    have hsent : (cmdAck n.pkt.rxbuf n).1 = true := by
      rw [← hack]
      exact hreply
    simp only [mainStep, hack, hswrr, hsent]
    rfl
  have hanswered : Answered (n.ps = .app .idle ∨ Shunting n) (rest.countP Action.isMain)
      (mainStep p samples ⟨n, .dispatch⟩) := by
    rw [hpass, hstep]
    exact .answered _ hcmd htest Iff.rfl
  obtain ⟨next, -, hnext⟩ := step_owned (p := p) howned (.main samples)
  have hover : Answered (n.ps = .app .idle ∨ Shunting n) 0 last := hanswered.run hnext
  generalize last = last at hover
  cases hover with
  | ended after heffect => exact ⟨rfl, heffect⟩

/-- The bytes of a SHUNTON packet for the node at address 1. -/
def shuntonBytes : List UInt8 := pktPreamble :: (Frame.mk 0 1 Cmd.shunton 0 []).wire

/-- The powerup state, one second, the idle state, the packet, and the pass up to its dispatch. -/
def idleShunton : List Action :=
  let points := fun count => List.replicate count (Action.main (Vector.replicate 4 0))
  points 7 ++ List.replicate 1000 .tick ++ points 5 ++ shuntonBytes.map .rx ++ points 4

/-- The packet finds the node idle. -/
theorem shunton_iff_idle :
    let m := run (step benchBoard) (boot benchBoard (freshNode benchBoard 1).cfg.eeprom) idleShunton
    let last := run (step benchBoard) m (List.replicate 3 (.main (Vector.replicate 4 0)))
    last.pc = .ledRun ∧ (Shunting last.node ↔ m.node.ps = .app .idle ∨ Shunting m.node) :=
  shunton_iff benchBoard (freshNode benchBoard 1).cfg.eeprom idleShunton (Vector.replicate 4 0)
    (List.replicate 2 (.main (Vector.replicate 4 0))) (by decide +kernel) (by decide +kernel)
    (by decide +kernel) (by decide +kernel) (by decide +kernel) (by decide +kernel)

/-- The first pass, the packet, and the next pass up to its dispatch. -/
def powerupShunton : List Action :=
  let points := fun count => List.replicate count (Action.main (Vector.replicate 4 0))
  points 7 ++ shuntonBytes.map .rx ++ points 4

/-- In the powerup state the packet is acknowledged and has no effect. -/
theorem shunton_ignored :
    let m := run (step benchBoard) (boot benchBoard (freshNode benchBoard 1).cfg.eeprom)
      powerupShunton
    let last := run (step benchBoard) m (List.replicate 3 (.main (Vector.replicate 4 0)))
    m.pc = .dispatch ∧ m.node.pkt.rxbuf.cmd = Cmd.shunton ∧ m.node.pkt.rxbuf.addr = m.node.nodeid ∧
      (cmdDispatch benchBoard m.node.pkt.rxbuf m.node).1 = true ∧ m.node.ps ≠ .app .testmode ∧
      last.pc = .ledRun ∧ ¬Shunting last.node := by
  decide +kernel

end BmsNode
