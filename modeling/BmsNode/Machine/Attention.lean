import BmsNode.Command.Addressing
import BmsNode.Machine.Rig
import BmsNode.Packet.Receive
import BmsNode.Shunting.Smoothing
import BmsNode.Timers.Operations

/-!
# The shunt needs attention

A node in the shunt state keeps shunting as long as somebody asks for its status. What
`shunt.c` promises for its calls holds for the whole node: commands and passes of the
state machine come in any order, a packet keeps `shunt_run` from being called, and the
test mode starts and stops the same shunt. `Tended` runs the machine with an unbounded
clock and the ticks of the last call of `shunt_run` and of the last attention.
-/

namespace BmsNode

open Transition

/-! ## Commands -/

/-- The packet restarts the idle timeout of the shunt: STATUS, or TESTMODE with the shunt function
and the key. -/
def Tends (n : Node) (buf : RxBuf) : Prop :=
  n.nodeid ≠ 0 ∧ buf.addr = n.nodeid ∧ (buf.cmd = Cmd.status ∨
    buf.cmd = Cmd.testmode ∧ buf.payload 0 = TestFunc.shunt ∧
      buf.payload 1 = 0xCA ∧ buf.payload 2 = 0xFE)

/-- Whether it does can be checked. -/
instance (n : Node) (buf : RxBuf) : Decidable (Tends n buf) := by
  unfold Tends
  infer_instance

/-- What a packet does to the shunt. -/
inductive ShuntCommanded (tends : Prop) (ticks : UInt16) (s : Shunt) : Shunt → Prop where
  | kept (h : ¬tends) : ShuntCommanded tends ticks s s
  | asked (h : tends) : ShuntCommanded tends ticks s (shuntGetStatus ticks s).2
  | started (h : tends) (cfg : Config) (pwm : UInt8) :
      ShuntCommanded tends ticks s (shuntSet pwm (shuntStart ticks cfg s))
  | stopped (h : ¬tends) (s' : Shunt) (hoff : s'.shuntStatus = .off) :
      ShuntCommanded tends ticks s s'

/-- Only STATUS and TESTMODE for this node reach the shunt. -/
theorem cmdDispatch_shunt_kept {p : Platform} {buf : RxBuf} {n : Node}
    (h : n.nodeid ≠ 0 → buf.addr = n.nodeid → buf.cmd ≠ Cmd.status ∧ buf.cmd ≠ Cmd.testmode) :
    (cmdDispatch p buf n).2.rig.shunt = n.rig.shunt := by
  unfold cmdDispatch
  split_ifs with _ hzero _ haddr
  · simp only [cmdAddr]
    split_ifs
    · rfl
    · rfl
  · rfl
  · rfl
  · obtain ⟨hstatus, htestmode⟩ := h hzero haddr
    exact cmdSwitch_rule (P := fun handler => (handler n).2.rig.shunt = n.rig.shunt) p buf
      (fun _ => rfl) (fun _ => rfl) (fun _ => rfl) (fun _ => rfl) (fun h => absurd h hstatus)
      (fun _ => rfl) (fun _ => rfl) (fun h => absurd h htestmode) (fun _ => rfl) rfl
  · rfl

/-- Turning the test mode off stops the shunt. -/
theorem testmodeOff_off (r : TestRig) : (testmodeOff r).shunt.shuntStatus = .off := rfl

/-- `testmode_on` starts the shunt for the shunt function only. -/
theorem testmodeOn_commanded {tends : Prop} (ticks : UInt16) (cfg : Config)
    {testfunc : UInt8} (val0 val1 : UInt8) (r : TestRig)
    (htends : tends ↔ testfunc = TestFunc.shunt) :
    ShuntCommanded tends ticks r.shunt (testmodeOn ticks cfg testfunc val0 val1 r).shunt := by
  simp only [testmodeOn]
  generalize tmrSet ticks 1000 = timeout
  generalize tmrSet ticks 750 = blinkTimeout
  split_ifs with hvref hio hshunt hblink
  · exact .kept fun h => absurd ((htends.mp h).symm.trans hvref) (by decide)
  · exact .kept fun h => absurd ((htends.mp h).symm.trans hio) (by decide)
  · exact .started (htends.mpr hshunt) cfg val0
  · exact .kept fun h => hshunt (htends.mp h)
  · exact .stopped (fun h => hshunt (htends.mp h)) _ (testmodeOff_off _)

/-- What TESTMODE does to the shunt. -/
theorem cmdTestmode_commanded {tends : Prop} {buf : RxBuf} {n : Node}
    (htends : tends ↔
      buf.payload 0 = TestFunc.shunt ∧ buf.payload 1 = 0xCA ∧ buf.payload 2 = 0xFE) :
    ShuntCommanded tends n.systick n.rig.shunt (cmdTestmode buf n).2.rig.shunt := by
  simp only [cmdTestmode, cmdAck, Node.send_rig]
  split_ifs with hoff hkey hlen
  · refine .stopped (fun h => ?_) _ (testmodeOff_off n.rig)
    exact absurd ((htends.mp h).1.symm.trans hoff) (by decide)
  · exact testmodeOn_commanded _ _ _ (buf.payload 4) _
      (htends.trans ⟨And.left, fun h => ⟨h, hkey⟩⟩)
  · exact testmodeOn_commanded _ _ _ 0 _ (htends.trans ⟨And.left, fun h => ⟨h, hkey⟩⟩)
  · exact .kept fun h => hkey (htends.mp h).2

/-- What every packet does to the shunt. -/
theorem cmdDispatch_commanded (p : Platform) (buf : RxBuf) (n : Node) :
    ShuntCommanded (Tends n buf) n.systick n.rig.shunt (cmdDispatch p buf n).2.rig.shunt := by
  by_cases hmine : n.nodeid ≠ 0 ∧ buf.addr = n.nodeid
  · obtain ⟨hzero, haddr⟩ := hmine
    by_cases hstatus : buf.cmd = Cmd.status
    · have hdispatch : cmdDispatch p buf n = cmdStatus p n := by
        rw [cmdDispatch_switch (by rw [hstatus]; decide) hzero haddr, cmdSwitch, hstatus]
        rfl
      rw [hdispatch, cmdStatus]
      exact .asked ⟨hzero, haddr, .inl hstatus⟩
    · by_cases htestmode : buf.cmd = Cmd.testmode
      · rw [cmdDispatch_testmode hzero haddr htestmode]
        refine cmdTestmode_commanded ⟨fun h => ?_, fun h => ⟨hzero, haddr, .inr ⟨htestmode, h⟩⟩⟩
        exact (h.2.2.resolve_left hstatus).2
      · rw [cmdDispatch_shunt_kept fun _ _ => ⟨hstatus, htestmode⟩]
        exact .kept fun h => h.2.2.elim hstatus fun h => htestmode h.1
  · rw [cmdDispatch_shunt_kept fun hzero haddr => absurd ⟨hzero, haddr⟩ hmine]
    exact .kept fun h => hmine ⟨h.1, h.2.1⟩

/-! ## Passes of the state machine -/

/-- The status `shunt_run` returns is the module's. -/
theorem shuntRun_fst (z : DivZero) (ticks : UInt16) (cfg : Config) (cellmv : UInt16)
    (tempC : Int16) (s : Shunt) :
    (shuntRun z ticks cfg cellmv tempC s).1 =
      (shuntRun z ticks cfg cellmv tempC s).2.shuntStatus := by
  unfold shuntRun
  dsimp only
  split_ifs
  · rfl
  · rfl
  · rfl
  · rfl

section Pass

variable {p : Platform} {event : Event} {n : Node}

/-- What a pass does that begins in the shunt state: SHUNTOFF stops the shunt, other commands do
nothing, and without a command `shunt_run` is called, which may find or turn the shunt off. -/
inductive ShuntPass (p : Platform) (n : Node) : Event → Node → Prop where
  | shuntoff (n' : Node) (hcmd : n.pkt.rxbuf.cmd = Cmd.shuntoff) (hps : n'.ps = .app .idle)
      (hoff : n'.rig.shunt.shuntStatus = .off) : ShuntPass p n .cmd n'
  | command (n' : Node) (hcmd : n.pkt.rxbuf.cmd ≠ Cmd.shuntoff) (hps : n'.ps = .app .shunt)
      (hshunt : n'.rig.shunt = n.rig.shunt) : ShuntPass p n .cmd n'
  | ran (event : Event) (n' : Node) (hevent : event ≠ .cmd) (hps : n'.ps = .app .shunt)
      (hshunt : n'.rig.shunt = (n.shuntRun p).2.rig.shunt)
      (hon : n'.rig.shunt.shuntStatus ≠ .off) : ShuntPass p n event n'
  | ended (event : Event) (n' : Node) (hevent : event ≠ .cmd) (hps : n'.ps = .app .idle)
      (hshunt : n'.rig.shunt = (n.shuntRun p).2.rig.shunt)
      (hoff : n'.rig.shunt.shuntStatus = .off) : ShuntPass p n event n'

/-- Every pass that begins in the shunt state. -/
theorem appRun_shuntPass (hevent : event.FromLoop) (hps : n.ps = .app .shunt) :
    ShuntPass p n event (appRun p event n) := by
  have hrun (hne : event ≠ .cmd) (h : appHandler p .shunt event n =
      (if (n.shuntRun p).1 = .off then some .idle else none, (n.shuntRun p).2)) :
      ShuntPass p n event (appRun p event n) := by
    have hstatus : (n.shuntRun p).1 = (n.shuntRun p).2.rig.shunt.shuntStatus := shuntRun_fst ..
    by_cases hoff : (n.shuntRun p).1 = .off
    · rw [if_pos hoff] at h
      rw [appRun_move hps h (by simp)]
      exact .ended event _ hne rfl rfl (hstatus.symm.trans hoff)
    · rw [if_neg hoff] at h
      rw [appRun_stay hps h]
      exact .ran event _ hne rfl rfl fun heq => hoff (hstatus.trans heq)
  rcases hevent with rfl | rfl | rfl
  · exact hrun (by simp) rfl
  · exact hrun (by simp) rfl
  · by_cases hcmd : n.pkt.rxbuf.cmd = Cmd.shuntoff
    · have hhandler : appHandler p .shunt .cmd n = (some .idle, _) := if_pos hcmd
      rw [appRun_move hps hhandler (by simp)]
      exact .shuntoff _ hcmd rfl rfl
    · have hhandler : appHandler p .shunt .cmd n = (none, n) := if_neg hcmd
      rw [appRun_stay hps hhandler]
      exact .command _ hcmd rfl rfl

/-- Only a command in the idle state leads to the shunt state. -/
theorem AppMove.toShunt {armed : Option UInt16} (h : AppMove n event (.app .shunt) armed)
    (hps : n.ps ≠ .app .shunt) : event = .cmd ∧ n.ps = .app .idle := by
  generalize hnext : KissmState.app AppState.shunt = next at h
  cases h with
  | powerup | settled | sleep | command | busy | quiet | dfu | done => cases hnext
  | work state hidle hstate => exact ⟨rfl, hidle⟩
  | wait | on => exact absurd hnext.symm hps

/-- A pass that enters the shunt state starts the shunt. -/
theorem appRun_shuntStart (hevent : event.FromLoop) (hps : n.ps ≠ .app .shunt)
    (hnext : (appRun p event n).ps = .app .shunt) :
    (appRun p event n).rig.shunt = shuntStart n.systick n.conf n.rig.shunt := by
  obtain ⟨armed, hmove, -⟩ := appRun_moves p hevent (n := n)
  rw [hnext] at hmove
  obtain ⟨rfl, hidle⟩ := hmove.toShunt hps
  have hcmd : appHandler p .idle .cmd n = idleCmd n := rfl
  rcases idleCmd_cases n with ⟨-, h⟩ | ⟨-, h⟩ | ⟨-, h⟩ | ⟨after, h, -⟩
  · rw [appRun_move hidle (hcmd.trans h) (by simp)] at hnext
    cases hnext
  · rw [appRun_move hidle (hcmd.trans h) (by simp)]
    rfl
  · rw [appRun_move hidle (hcmd.trans h) (by simp)] at hnext
    cases hnext
  · rw [appRun_stay hidle (hcmd.trans h)] at hnext
    cases hnext

end Pass

/-! ## The timeouts of the shunt -/

section Watched

variable {now ran asked : Nat} {s : Shunt}

/-- The timeouts of a shunt that is on: the idle timeout runs since the last attention, and the loop
timer lets the next pass be after the last call of `shunt_run`. The passes so far were before the
end of the idle timeout. -/
structure Watched (now ran asked : Nat) (s : Shunt) : Prop where
  idle : s.shuntTimeout = UInt16.ofNat (asked + 30000)
  loop : ∃ next, s.loopTimeout = UInt16.ofNat next ∧ ran < next ∧ next ≤ now + 100 ∧
    next < asked + 30100

/-- A shunt just started. -/
theorem shuntStart_watched (cfg : Config) (s : Shunt) (hran : ran ≤ now) :
    Watched now ran now (shuntStart (UInt16.ofNat now) cfg s) :=
  ⟨tmrSet_ofNat now 30000, now + 1, tmrSet_ofNat now 1, by omega, by omega, by omega⟩

/-- Setting the PWM value. -/
theorem Watched.set (h : Watched now ran asked s) (pwm : UInt8) :
    Watched now ran asked (shuntSet pwm s) :=
  ⟨h.idle, h.loop⟩

/-- A later tick. -/
theorem Watched.tick (h : Watched now ran asked s) : Watched (now + 1) ran asked s := by
  obtain ⟨next, hloop, hahead, hnear, hlate⟩ := h.loop
  exact ⟨h.idle, next, hloop, hahead, by omega, hlate⟩

/-- A request for the status. -/
theorem Watched.getStatus (h : Watched now ran asked s) :
    Watched now ran now (shuntGetStatus (UInt16.ofNat now) s).2 := by
  have htimeout : (shuntGetStatus (UInt16.ofNat now) s).2.shuntTimeout =
      UInt16.ofNat (now + 30000) := tmrSet_ofNat now 30000
  obtain ⟨timeout, hstatus⟩ := shuntGetStatus_eq (UInt16.ofNat now) s
  obtain ⟨next, hloop, hahead, hnear, -⟩ := h.loop
  rw [hstatus] at htimeout ⊢
  exact ⟨htimeout, next, hloop, hahead, hnear, by omega⟩

/-- The shunt is not left alone for long. -/
theorem Watched.attended (h : Watched now ran asked s) (hgap : now ≤ ran + 100) :
    now < asked + 30200 := by
  obtain ⟨next, -, hahead, -, hlate⟩ := h.loop
  omega

/-- A call of `shunt_run` keeps the shunt on and its timeouts watched, or turns it off because
nobody asked. -/
theorem Watched.run (h : Watched now ran asked s) (hgap : now ≤ ran + 100) (hasked : asked ≤ now)
    (hon : s.shuntStatus ≠ .off) (z : DivZero) (cfg : Config) (cellmv : UInt16) (tempC : Int16) :
    let t := (shuntRun z (UInt16.ofNat now) cfg cellmv tempC s).2
    (t.shuntStatus ≠ .off → Watched now now asked t) ∧
      (t.shuntStatus = .off → asked + 30000 ≤ now) := by
  have hattended := h.attended hgap
  obtain ⟨next, hloop, hahead, hnear, hlate⟩ := h.loop
  have hdue : tmrExpired (UInt16.ofNat now) s.loopTimeout = true ↔ next ≤ now := by
    rw [hloop]
    exact tmrExpired_ofNat (by omega) (by omega)
  have hidle : tmrExpired (UInt16.ofNat now) s.shuntTimeout = true ↔ asked + 30000 ≤ now := by
    rw [h.idle]
    exact tmrExpired_ofNat (by omega) (by omega)
  intro t
  by_cases hwait : now < next
  · have hrunning : tmrExpired (UInt16.ofNat now) s.loopTimeout = false := by
      rw [Bool.eq_false_iff, ne_eq, hdue]
      omega
    have hsame : t = s := shuntRun_waiting z cfg cellmv tempC hon hrunning
    rw [hsame]
    exact ⟨fun _ => ⟨h.idle, next, hloop, hwait, hnear, hlate⟩, fun hoff => absurd hoff hon⟩
  · have hreached := Nat.not_lt.mp hwait
    by_cases hlong : asked + 30000 ≤ now
    · obtain ⟨hoff, -⟩ := shuntRun_idle z cfg cellmv tempC hon (hdue.mpr hreached) (hidle.mpr hlong)
      exact ⟨fun hne => absurd hoff hne, fun _ => hlong⟩
    · have hactive : tmrExpired (UInt16.ofNat now) s.shuntTimeout = false := by
        rw [Bool.eq_false_iff, ne_eq, hidle]
        exact hlong
      have hpass : t = _ := shuntRun_active z cfg cellmv tempC hon (hdue.mpr hreached) hactive
      have hstatus : t.shuntStatus ≠ .off := by
        rw [hpass]
        exact shuntRegulate_status z cfg s cellmv tempC
      refine ⟨fun _ => ⟨?_, next + 100, ?_, by omega, by omega, by omega⟩,
        fun hoff => absurd hoff hstatus⟩
      · rw [hpass]
        exact h.idle
      · rw [hpass, UInt16.ofNat_add, ← hloop]
        rfl

/-- The same for the node, whose shunt may be off already. -/
theorem Node.shuntRun_watched {p : Platform} {n : Node} (hticks : n.systick = UInt16.ofNat now)
    (h : n.rig.shunt.shuntStatus ≠ .off → Watched now ran asked n.rig.shunt)
    (hgap : now ≤ ran + 100) (hasked : asked ≤ now) :
    let t := (n.shuntRun p).2.rig.shunt
    (t.shuntStatus ≠ .off → Watched now now asked t) ∧
      (t.shuntStatus = .off → n.rig.shunt.shuntStatus = .off ∨ asked + 30000 ≤ now) := by
  intro t
  by_cases hoff : n.rig.shunt.shuntStatus = .off
  · have hstop : t = shuntStop n.rig.shunt :=
      shuntRun_off p.divZero n.conf n.cellmv (n.tempC p .boardTemp) hoff
    refine ⟨fun hon => absurd ?_ hon, fun _ => .inl hoff⟩
    rw [hstop]
    rfl
  · have hrun := (h hoff).run hgap hasked hoff p.divZero n.conf n.cellmv (n.tempC p .boardTemp)
    rw [← hticks] at hrun
    exact ⟨hrun.1, fun hend => .inr (hrun.2 hend)⟩

end Watched

/-! ## The rest of the main loop -/

/-- The clock, the state of the application, the shunt and the test mode are as before. -/
structure RigFrame (n n' : Node) : Prop where
  systick : n'.systick = n.systick
  ps : n'.ps = n.ps
  shunt : n'.rig.shunt = n.rig.shunt
  test : n'.rig.test = n.rig.test

/-- Only commands and passes of the state machine reach the shunt and the test mode. -/
theorem mainStep_rigFrame {p : Platform} {m : Machine} (samples : Vector UInt16 4)
    (hdispatch : m.pc ≠ .dispatch) (hkissm : ∀ event held, m.pc ≠ .kissmRun event held) :
    RigFrame m.node (mainStep p samples m).node := by
  have hstep := mainStep_loopStep p samples m
  generalize mainStep p samples m = m' at hstep ⊢
  cases hstep with
  | restart | returned | handled => exact absurd rfl hdispatch
  | kissmRun n event held => exact absurd rfl (hkissm event held)
  | ledRun | adcRun | expired | unexpired | ready | notReady | rxFree | overdue | waiting | active
  | inactive | giveUp | arm | freed | loop => exact ⟨rfl, rfl, rfl, rfl⟩

/-- A packet is handled in one step, unless it restarts the firmware. -/
theorem mainStep_dispatch {p : Platform} {n : Node} (samples : Vector UInt16 4)
    (hrestart : restarts p ⟨n, .dispatch⟩ = false) :
    ∃ pc, mainStep p samples ⟨n, .dispatch⟩ = ⟨(cmdDispatch p n.pkt.rxbuf n).2, pc⟩ := by
  have hswrr : (cmdDispatch p n.pkt.rxbuf n).2.swrr = false := hrestart
  have hstep := mainStep_loopStep p samples ⟨n, .dispatch⟩
  generalize mainStep p samples ⟨n, .dispatch⟩ = m' at hstep ⊢
  cases hstep with
  | restart _ hrestarts =>
      rw [hswrr] at hrestarts
      cases hrestarts
  | returned | handled => exact ⟨_, rfl⟩

/-- The interrupts other than the tick do not reach them either. -/
theorem interrupt_rigFrame {p : Platform} {m : Machine} {action : Action} (htick : action ≠ .tick)
    (hmain : action.isMain = false) : RigFrame m.node (step p m action).node := by
  obtain ⟨hps, hrig, -⟩ := interrupt_app (p := p) (m := m) hmain
  have hsteady := (interrupt_steady (p := p) (m := m) htick hmain).1
  exact ⟨hsteady.systick, hps, by rw [hrig], by rw [hrig]⟩

/-! ## Runs with a clock -/

/-- A running node with the ticks since its start: the present one, that of the last call of
`shunt_run` and that of the last attention to the shunt. Entering the shunt state counts as
both. -/
structure Tended where
  machine : Machine
  now : Nat
  ran : Nat
  asked : Nat

namespace Tended

/-- A node that starts, or starts again. -/
def start (machine : Machine) : Tended := { machine := machine, now := 0, ran := 0, asked := 0 }

/-- A pass of the state machine. -/
def passed (g : Tended) (event : Event) (machine : Machine) : Tended :=
  if machine.node.ps ≠ .app .shunt then { g with machine := machine }
  else if g.machine.node.ps ≠ .app .shunt then
    { machine := machine, now := g.now, ran := g.now, asked := g.now }
  else if event = .cmd then { g with machine := machine }
  else { g with machine := machine, ran := g.now }

/-- One step of the machine, with what it does for the shunt. -/
def step (p : Platform) (g : Tended) (action : Action) : Tended :=
  let machine := BmsNode.step p g.machine action
  match action with
  | .tick => { g with machine := machine, now := g.now + 1 }
  | .main _ =>
      match g.machine.pc with
      | .kissmRun event _ => g.passed event machine
      | .dispatch =>
          if restarts p g.machine then start machine
          else
            { machine := machine
              now := g.now
              ran := g.ran
              asked :=
                if Tends g.machine.node g.machine.node.pkt.rxbuf then g.now else g.asked }
      | _ => { g with machine := machine }
  | _ => { g with machine := machine }

/-- In the shunt state, no more than 100 ticks come between two calls of `shunt_run`. -/
def Prompt (g : Tended) : Action → Prop
  | .tick => g.machine.node.ps ≠ .app .shunt ∨ g.now < g.ran + 100
  | _ => True

/-- The condition can be checked. -/
instance (g : Tended) : ∀ action, Decidable (g.Prompt action)
  | .tick => inferInstanceAs (Decidable (_ ∨ _))
  | .rx _ | .dre | .txc | .shift | .main _ => isTrue trivial

/-- The machine takes its own steps. -/
theorem step_machine (p : Platform) (g : Tended) (action : Action) :
    (g.step p action).machine = BmsNode.step p g.machine action := by
  cases action with
  | tick | rx | dre | txc | shift => rfl
  | main samples =>
      simp only [Tended.step]
      split
      · unfold passed
        split_ifs <;> rfl
      · split_ifs <;> rfl
      · rfl

/-- The invariant: in the shunt state `shunt_run` is called in time, and a shunt that is on is
watched. -/
structure Kept (g : Tended) : Prop where
  looping : Looping g.machine
  systick : g.machine.node.systick = UInt16.ofNat g.now
  asked : g.asked ≤ g.now
  ran : g.ran ≤ g.now
  gap : g.machine.node.ps = .app .shunt → g.now ≤ g.ran + 100
  watched : g.machine.node.ps = .app .shunt → g.machine.node.rig.shunt.shuntStatus ≠ .off →
    Watched g.now g.ran g.asked g.machine.node.rig.shunt

/-- The firmware does not start in the shunt state. -/
theorem boot_kept (p : Platform) (eeprom : Config) : Kept (start (boot p eeprom)) :=
  ⟨boot_looping p eeprom, rfl, Nat.le_refl 0, Nat.le_refl 0, fun _ => Nat.zero_le _,
    fun hps => by cases hps⟩

/-- A step that the shunt does not see. -/
theorem Kept.frame {g : Tended} (h : Kept g) {machine : Machine} (hlooping : Looping machine)
    (hframe : RigFrame g.machine.node machine.node) : Kept { g with machine := machine } := by
  refine ⟨hlooping, hframe.systick.trans h.systick, h.asked, h.ran, ?_, ?_⟩
  · rw [hframe.ps]
    exact h.gap
  · rw [hframe.ps, hframe.shunt]
    exact h.watched

/-- The tick interrupt. -/
theorem Kept.tick {p : Platform} {g : Tended} (h : Kept g) (hprompt : g.Prompt .tick) :
    Kept (g.step p .tick) := by
  refine ⟨h.looping.step (p := p) .tick, ?_, Nat.le_succ_of_le h.asked, Nat.le_succ_of_le h.ran,
    fun hps => ?_, fun hps hon => (h.watched hps hon).tick⟩
  · show g.machine.node.systick + 1 = UInt16.ofNat (g.now + 1)
    rw [h.systick, UInt16.ofNat_add]
    rfl
  · have hroom : g.now < g.ran + 100 := hprompt.resolve_left fun hne => hne hps
    exact hroom

/-- A command. -/
theorem Kept.dispatch {n n' : Node} {pc : Control} {now ran asked : Nat}
    (h : Kept ⟨⟨n, .dispatch⟩, now, ran, asked⟩) (hlooping : Looping ⟨n', pc⟩)
    (hframe : CmdFrame n n')
    (hshunt : ShuntCommanded (Tends n n.pkt.rxbuf) n.systick n.rig.shunt n'.rig.shunt) :
    Kept ⟨⟨n', pc⟩, now, ran, if Tends n n.pkt.rxbuf then now else asked⟩ := by
  have hsystick : n'.systick = UInt16.ofNat now := hframe.systick.trans h.systick
  have hps : n'.ps = .app .shunt → n.ps = .app .shunt := fun hps => hframe.ps.symm.trans hps
  have hasked : (if Tends n n.pkt.rxbuf then now else asked) ≤ now := by
    split_ifs
    · exact Nat.le_refl now
    · exact h.asked
  refine ⟨hlooping, hsystick, hasked, h.ran, fun hnext => h.gap (hps hnext), ?_⟩
  have hticks : n.systick = UInt16.ofNat now := h.systick
  rw [hticks] at hshunt
  show n'.ps = .app .shunt → n'.rig.shunt.shuntStatus ≠ .off →
    Watched now ran (if Tends n n.pkt.rxbuf then now else asked) n'.rig.shunt
  intro hnext hon
  generalize n'.rig.shunt = s' at hshunt hon ⊢
  cases hshunt with
  | kept htends =>
      rw [if_neg htends]
      exact h.watched (hps hnext) hon
  | asked htends =>
      obtain ⟨timeout, hstatus⟩ := shuntGetStatus_eq (UInt16.ofNat now) n.rig.shunt
      rw [hstatus] at hon
      rw [if_pos htends]
      exact (h.watched (hps hnext) hon).getStatus
  | started htends cfg pwm =>
      rw [if_pos htends]
      exact (shuntStart_watched cfg n.rig.shunt h.ran).set pwm
  | stopped htends s' hoff => exact absurd hoff hon

/-- A pass of the state machine. -/
theorem Kept.pass {p : Platform} {n : Node} {event : Event} {held : Bool} {now ran asked : Nat}
    (h : Kept ⟨⟨n, .kissmRun event held⟩, now, ran, asked⟩) :
    Kept (passed ⟨⟨n, .kissmRun event held⟩, now, ran, asked⟩ event
      ⟨appRun p event n, .loopFree held⟩) := by
  have hevent : event.FromLoop := h.looping.event event held rfl
  have hlooping : Looping ⟨appRun p event n, .loopFree held⟩ :=
    h.looping.main (Vector.replicate 4 0)
  have hticks : n.systick = UInt16.ofNat now := h.systick
  have hsystick : (appRun p event n).systick = UInt16.ofNat now :=
    (appRun_frame p event n).systick.trans hticks
  unfold passed
  by_cases hnext : (appRun p event n).ps = .app .shunt
  · rw [if_neg (not_not.mpr hnext)]
    by_cases hps : n.ps = .app .shunt
    · rw [if_neg (not_not.mpr hps)]
      have hgap := h.gap hps
      have hpass := appRun_shuntPass (p := p) hevent hps
      generalize appRun p event n = n' at *
      cases hpass with
      | shuntoff _ hcmd hidle | ended _ _ hne hidle =>
          rw [hidle] at hnext
          cases hnext
      | command _ hcmd hshunt hsame =>
          rw [if_pos rfl]
          refine ⟨hlooping, hsystick, h.asked, h.ran, fun _ => hgap, fun _ hon => ?_⟩
          rw [hsame] at hon ⊢
          exact h.watched hps hon
      | ran _ _ hne hshunt hsame hon =>
          rw [if_neg hne]
          refine ⟨hlooping, hsystick, h.asked, Nat.le_refl now, fun _ => Nat.le_add_right now 100,
            fun _ _ => ?_⟩
          have hwatched := Node.shuntRun_watched (p := p) hticks (h.watched hps) hgap h.asked
          show Watched now now asked n'.rig.shunt
          rw [hsame] at hon ⊢
          exact hwatched.1 hon
    · rw [if_pos hps]
      have hstart := appRun_shuntStart (p := p) hevent hps hnext
      refine ⟨hlooping, hsystick, Nat.le_refl now, Nat.le_refl now,
        fun _ => Nat.le_add_right now 100, fun _ _ => ?_⟩
      show Watched now now now (appRun p event n).rig.shunt
      rw [hstart, hticks]
      exact shuntStart_watched n.conf n.rig.shunt (Nat.le_refl now)
  · rw [if_pos hnext]
    exact ⟨hlooping, hsystick, h.asked, h.ran, fun hps => absurd hps hnext,
      fun hps => absurd hps hnext⟩

/-- Every prompt action keeps the invariant. -/
theorem Kept.step {p : Platform} {g : Tended} (h : Kept g) (action : Action)
    (hprompt : g.Prompt action) : Kept (g.step p action) := by
  have hlooping := h.looping.step (p := p) action
  cases action with
  | tick => exact h.tick hprompt
  | rx | dre | txc | shift => exact h.frame hlooping (interrupt_rigFrame (by simp) rfl)
  | main samples =>
      obtain ⟨⟨n, pc⟩, now, ran, asked⟩ := g
      cases pc with
      | kissmRun event held => exact h.pass
      | dispatch =>
          cases hrestart : restarts p ⟨n, .dispatch⟩ with
          | true =>
              obtain ⟨eeprom, hboot⟩ := mainStep_restart samples hrestart
              have hstep : Tended.step p ⟨⟨n, .dispatch⟩, now, ran, asked⟩ (.main samples) =
                  start (mainStep p samples ⟨n, .dispatch⟩) := by
                simp [Tended.step, BmsNode.step, hrestart]
              rw [hstep, hboot]
              exact boot_kept p eeprom
          | false =>
              have hstep : Tended.step p ⟨⟨n, .dispatch⟩, now, ran, asked⟩ (.main samples) =
                  ⟨mainStep p samples ⟨n, .dispatch⟩, now, ran,
                    if Tends n n.pkt.rxbuf then now else asked⟩ := by
                simp [Tended.step, BmsNode.step, hrestart]
              obtain ⟨pc, hdispatch⟩ := mainStep_dispatch samples hrestart
              have hnext : Looping (mainStep p samples ⟨n, .dispatch⟩) := hlooping
              rw [hdispatch] at hnext
              rw [hstep, hdispatch]
              exact h.dispatch hnext (cmdDispatch_frame p n.pkt.rxbuf n)
                (cmdDispatch_commanded p n.pkt.rxbuf n)
      | _ => exact h.frame hlooping (mainStep_rigFrame (p := p) samples (by simp) (by simp))

end Tended

/-- The shunt needs attention, in every run in which no more than 100 ticks come between two calls
of `shunt_run` while the node is in the shunt state. There the shunt is on only within 30200 ticks
of the last attention: entering the state, a STATUS packet, or a TESTMODE packet that starts the
shunt. A pass that leaves the state leaves the shunt off, and does so only for SHUNTOFF, because the
shunt was off, or when nobody has asked for 30000 ticks. The machine is the one without the
ticks. -/
theorem shunt_needs_attention (p : Platform) (eeprom : Config) (actions : List Action)
    (hprompt : Meets (Tended.step p) Tended.Prompt (.start (boot p eeprom)) actions) :
    let g := run (Tended.step p) (.start (boot p eeprom)) actions
    let n := g.machine.node
    g.machine = run (step p) (boot p eeprom) actions ∧
      (n.ps = .app .shunt → n.rig.shunt.shuntStatus ≠ .off → g.now < g.asked + 30200) ∧
      ∀ event held, g.machine.pc = .kissmRun event held → n.ps = .app .shunt →
        (appRun p event n).ps ≠ .app .shunt →
          (appRun p event n).rig.shunt.shuntStatus = .off ∧
            ((event = .cmd ∧ n.pkt.rxbuf.cmd = Cmd.shuntoff) ∨ n.rig.shunt.shuntStatus = .off ∨
              g.asked + 30000 ≤ g.now) := by
  intro g n
  have h : Tended.Kept g :=
    run_invariant (fun g action h hprompt => h.step action hprompt)
      (Tended.boot_kept p eeprom) hprompt
  refine ⟨run_map (Tended.step_machine p) _ actions,
    fun hps hon => (h.watched hps hon).attended (h.gap hps), fun event held hpc hps hleft => ?_⟩
  have hpass := appRun_shuntPass (p := p) (h.looping.event event held hpc) hps
  generalize appRun p event n = n' at hpass hleft ⊢
  cases hpass with
  | shuntoff _ hcmd hidle hoff => exact ⟨hoff, .inl ⟨rfl, hcmd⟩⟩
  | command _ hcmd hshunt | ran _ _ hne hshunt => exact absurd hshunt hleft
  | ended _ _ hne hidle hsame hoff =>
      have hwatched := Node.shuntRun_watched (p := p) h.systick (h.watched hps) (h.gap hps) h.asked
      exact ⟨hoff, .inr (hwatched.2 (hsame ▸ hoff))⟩

/-- The powerup state, one second, the idle state, the SHUNTON packet and the pass that handles it,
and then three passes 100 ticks apart. -/
def unattended : List Action :=
  let points := fun count => List.replicate count (Action.main (Vector.replicate 4 0))
  let shunton := pktPreamble :: (Frame.mk 0 1 Cmd.shunton 0 []).wire
  points 7 ++ List.replicate 1000 .tick ++ points 5 ++ shunton.map .rx ++ points 7 ++
    (List.replicate 3 (List.replicate 100 .tick ++ points 7)).flatten

/-- The shunt is on 300 ticks after it was started, which is soon enough. -/
theorem shunt_needs_attention_started :
    let g := run (Tended.step benchBoard)
      (.start (boot benchBoard (freshNode benchBoard 1).cfg.eeprom)) unattended
    g.machine.node.ps = .app .shunt ∧ g.now < g.asked + 30200 := by
  have hattention := (shunt_needs_attention benchBoard (freshNode benchBoard 1).cfg.eeprom
    unattended (by decide +kernel)).2.1
  have hsoon := hattention (by decide +kernel) (by decide +kernel)
  exact ⟨by decide +kernel, hsoon⟩

end BmsNode
