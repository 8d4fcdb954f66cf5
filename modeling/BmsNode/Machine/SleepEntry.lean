import BmsNode.Machine.Moves
import BmsNode.Machine.Ownership
import BmsNode.Timers.Operations

/-!
# Going to sleep

The idle state polls for activity in one pass and goes to sleep on the timeout of a later
one. `Polled` runs the machine with what its last pass found and with what has started
since. The timer runs out only after a pass that found nothing active, unless that pass
is a whole second ago; so the node sleeps in the middle of work exactly when a frame has
started between that poll and the timeout.
-/

namespace BmsNode

open Transition

/-! ## Runs between two passes -/

/-- A running node with what has happened since the last pass of its state machine: whether that
pass found nothing active, whether a frame that started since is still being received or has been
accepted, and the ticks. -/
structure Polled where
  machine : Machine
  quiet : Bool
  begun : Bool
  since : Nat

/-- A byte inside a frame may end it without a packet, and one outside may start a frame. -/
def stillBegun (begun : Bool) (before after : Pkt) : Bool :=
  if Receiving before then begun && (Receiving after || after.readyPacket)
  else begun || Receiving after

namespace Polled

/-- A node that starts. -/
def start (machine : Machine) : Polled :=
  { machine := machine, quiet := true, begun := false, since := 0 }

/-- One step of the machine, with what it means for the next pass. -/
def step (p : Platform) (w : Polled) (action : Action) : Polled :=
  let machine := BmsNode.step p w.machine action
  match action with
  | .tick => { w with machine := machine, since := w.since + 1 }
  | .rx _ =>
      { w with
        machine := machine
        begun := stillBegun w.begun w.machine.node.pkt machine.node.pkt }
  | .main _ =>
      match w.machine.pc with
      | .kissmRun _ _ =>
          { machine := machine, quiet := !w.machine.node.active, begun := false, since := 0 }
      | _ => if restarts p w.machine then start machine else { w with machine := machine }
  | _ => { w with machine := machine }

/-- The present state. -/
def ps (w : Polled) : KissmState AppState := w.machine.node.ps

/-- The machine takes its own steps. -/
theorem step_machine (p : Platform) (w : Polled) (action : Action) :
    (w.step p action).machine = BmsNode.step p w.machine action := by
  cases action with
  | tick | rx byte | dre | txc | shift => rfl
  | main samples =>
      simp only [Polled.step]
      split
      · rfl
      · split_ifs <;> rfl

/-- A restart starts the record again. -/
theorem step_restart {p : Platform} {w : Polled} (samples : Vector UInt16 4)
    (hrestart : restarts p w.machine = true) :
    w.step p (.main samples) = start (mainStep p samples w.machine) := by
  simp only [Polled.step, BmsNode.step]
  split
  · next event held hpc => simp [restarts, hpc] at hrestart
  · rw [if_pos hrestart]

/-- A program point that is no pass of the state machine and no restart leaves the record alone. -/
theorem step_main {p : Platform} {w : Polled} (samples : Vector UInt16 4)
    (hkissm : ∀ event held, w.machine.pc ≠ .kissmRun event held)
    (hrestart : restarts p w.machine = false) :
    w.step p (.main samples) = { w with machine := mainStep p samples w.machine } := by
  simp [Polled.step, BmsNode.step, hrestart]

end Polled

/-- The program points from the state machine to the timers of the next pass. -/
def Control.beforeTimers : Control → Bool
  | .loopFree _ | .ledRun | .adcRun | .tmrProcess => true
  | _ => false

/-- A frame is being received, or a packet is waiting. -/
def Incoming (p : Pkt) : Prop := Receiving p ∨ p.readyPacket = true

/-- The invariant. A pass of the idle state that found something active has just started the timer,
so a timeout within a second comes after one that did not. From such a pass on, until the next one
or the timeout, only a frame that starts is activity. -/
structure Polled.Kept (w : Polled) : Prop where
  armed : w.quiet = false → w.ps = .app .idle → w.machine.pc.beforeTimers = true →
    ∃ start, w.machine.node.systick = start + UInt16.ofNat w.since ∧
      w.machine.node.tmrlist = [⟨stateTmr, tmrSet start 1000, 0, stateTmrId⟩]
  timeout : ∀ held, w.machine.pc = .kissmRun .timeout held →
    held = false ∧ (w.ps = .app .idle → w.since < 1000 → w.quiet = true)
  activity : w.quiet = true → w.machine.pc.beforeTimers = true ∨
      (∃ held, w.machine.pc = .kissmRun .timeout held) →
    (Incoming w.machine.node.pkt ↔ w.begun = true) ∧ serIsActive w.machine.node.ser = false

/-! ## Interrupts -/

/-- A byte outside a frame leaves a waiting packet waiting, and makes none ready. -/
theorem pktParser_ready {p : Pkt} (h : ¬Receiving p) (byte : UInt8) :
    (pktParser p byte).readyPacket = p.readyPacket := by
  cases hs : p.state with
  | search =>
      simp only [pktParser, hs]
      split_ifs <;> rfl
  | sync =>
      simp only [pktParser, hs, pktRxAlloc]
      split_ifs <;> rfl
  | header => exact absurd (.inl hs) h
  | data => exact absurd (.inr (.inl hs)) h
  | check => exact absurd (.inr (.inr hs)) h

/-- A byte keeps the record of the frame that has begun right. -/
theorem stillBegun_iff {p : Pkt} {begun : Bool} (h : Incoming p ↔ begun = true) (byte : UInt8) :
    Incoming (pktParser p byte) ↔ stillBegun begun p (pktParser p byte) = true := by
  by_cases hreceiving : Receiving p
  · have hbegun : begun = true := h.mp (.inl hreceiving)
    simp [stillBegun, hreceiving, hbegun, Incoming]
  · have hready := pktParser_ready hreceiving byte
    have hwaiting : p.readyPacket = true ↔ begun = true := by
      rw [← h, Incoming]
      simp [hreceiving]
    simp only [stillBegun, if_neg hreceiving, Incoming, hready, hwaiting, Bool.or_eq_true,
      decide_eq_true_eq]
    exact or_comm

/-- An idle serial module stays idle while nothing is sent. -/
theorem serIsActive_interrupt {p : Platform} {m : Machine} (h : serIsActive m.node.ser = false)
    {action : Action} (hmain : action.isMain = false) :
    serIsActive (step p m action).node.ser = false := by
  obtain ⟨hempty, hdreie, htxcie⟩ : bufNotempty m.node.ser = false ∧
      m.node.ser.usart.dreie = false ∧ m.node.ser.usart.txcie = false := by
    simp only [serIsActive, Bool.or_eq_false_iff] at h
    exact ⟨h.1.1.1, h.1.1.2, h.1.2⟩
  cases action with
  | main samples => cases hmain
  | tick => exact h
  | rx byte =>
      have hrx : serIsActive (step p m (.rx byte)).node.ser =
          (bufNotempty m.node.ser || m.node.ser.usart.dreie || m.node.ser.usart.txcie) := by
        simp only [step, receive, usart0RxcVect, serIsActive, Option.isSome_none, Bool.or_false]
        rfl
      rw [hrx, hempty, hdreie, htxcie]
      rfl
  | dre => simpa [step, hdreie] using h
  | txc => simpa [step, htxcie] using h
  | shift =>
      have hshift : serIsActive (step p m .shift).node.ser = serIsActive m.node.ser := by
        simp only [step, serIsActive, usartShift]
        split <;> rfl
      rw [hshift, h]

/-! ## Every action keeps the invariant -/

/-- A node that starts. -/
theorem Polled.start_kept (p : Platform) (eeprom : Config) :
    (Polled.start (boot p eeprom)).Kept := by
  refine ⟨fun hquiet => ?_, fun held hpc => ?_, fun _ _ => ⟨?_, rfl⟩⟩
  · cases hquiet
  · cases hpc
  · have hsearch : (boot p eeprom).node.pkt.state = .search := rfl
    have hready : (boot p eeprom).node.pkt.readyPacket = false := rfl
    simp [Polled.start, Incoming, Receiving, hsearch, hready]

namespace Polled.Kept

variable {p : Platform} {w : Polled}

/-- A step outside the stretch from the state machine to the timers says nothing. -/
theorem of_elsewhere (hbefore : w.machine.pc.beforeTimers = false)
    (htimeout : ∀ held, w.machine.pc ≠ .kissmRun .timeout held) : w.Kept := by
  refine ⟨fun _ _ hpc => ?_, fun held hpc => absurd hpc (htimeout held), ?_⟩
  · rw [hbefore] at hpc
    cases hpc
  · rintro _ (hpc | ⟨held, hpc⟩)
    · rw [hbefore] at hpc
      cases hpc
    · exact absurd hpc (htimeout held)

/-- The tick interrupt. -/
theorem tick (h : w.Kept) : (w.step p .tick).Kept := by
  refine ⟨fun hquiet hps hpc => ?_, fun held hpc => ?_, h.activity⟩
  · obtain ⟨start, hsystick, htmrlist⟩ := h.armed hquiet hps hpc
    refine ⟨start, ?_, htmrlist⟩
    show w.machine.node.systick + 1 = start + UInt16.ofNat (w.since + 1)
    rw [hsystick, UInt16.ofNat_add, UInt16.add_assoc]
    rfl
  · obtain ⟨hheld, hlate⟩ := h.timeout held hpc
    exact ⟨hheld, fun hps hsince => hlate hps (Nat.lt_of_succ_lt hsince)⟩

/-- A received byte. -/
theorem rx (h : w.Kept) (byte : UInt8) : (w.step p (.rx byte)).Kept := by
  refine ⟨h.armed, h.timeout, fun hquiet hpc => ?_⟩
  obtain ⟨hincoming, hser⟩ := h.activity hquiet hpc
  have hmain : (Action.rx byte).isMain = false := rfl
  exact ⟨stillBegun_iff hincoming byte, serIsActive_interrupt (p := p) hser hmain⟩

/-- A step that leaves the clock, the timers, the state, the program point and the packet module
alone, and makes no idle serial module active. -/
theorem keep (h : w.Kept) {m : Machine} (hsteady : Steady w.machine.node m.node)
    (hpc : m.pc = w.machine.pc) (hpkt : m.node.pkt = w.machine.node.pkt)
    (hser : serIsActive w.machine.node.ser = false → serIsActive m.node.ser = false) :
    Polled.Kept { w with machine := m } := by
  refine ⟨?_, ?_, ?_⟩
  · show w.quiet = false → m.node.ps = .app .idle → m.pc.beforeTimers = true → _
    rw [hsteady.ps, hpc, hsteady.systick, hsteady.tmrlist]
    exact h.armed
  · show ∀ held, m.pc = _ → _ ∧ (m.node.ps = _ → _)
    rw [hsteady.ps, hpc]
    exact h.timeout
  · show w.quiet = true → m.pc.beforeTimers = true ∨ _ → _
    rw [hpkt, hpc]
    intro hquiet hunpolled
    obtain ⟨hincoming, hidle⟩ := h.activity hquiet hunpolled
    exact ⟨hincoming, hser hidle⟩

/-- A transmit interrupt or a step of the transmitter. -/
theorem transmit (h : w.Kept) {action : Action} (htick : action ≠ .tick)
    (hrx : ∀ byte, action ≠ .rx byte) (hmain : action.isMain = false) :
    (w.step p action).Kept := by
  obtain ⟨hsteady, hpc⟩ := interrupt_steady (p := p) (m := w.machine) htick hmain
  have hpkt : (BmsNode.step p w.machine action).node.pkt = w.machine.node.pkt := by
    cases action with
    | tick => exact absurd rfl htick
    | rx byte => exact absurd rfl (hrx byte)
    | main samples => cases hmain
    | shift => rfl
    | dre | txc =>
        simp only [BmsNode.step]
        split_ifs <;> rfl
  have hkept := h.keep hsteady hpc hpkt fun hser => serIsActive_interrupt hser hmain
  cases action with
  | tick => exact absurd rfl htick
  | rx byte => exact absurd rfl (hrx byte)
  | main samples => cases hmain
  | dre | txc | shift => exact hkept

/-- A pass of the state machine. -/
theorem kissmRun {n : Node} {event : Event} {held quiet begun : Bool} {since : Nat}
    (hlooping : Looping ⟨n, .kissmRun event held⟩) (samples : Vector UInt16 4) :
    (Polled.step p ⟨⟨n, .kissmRun event held⟩, quiet, begun, since⟩ (.main samples)).Kept := by
  have hframe := appRun_frame p event n
  obtain ⟨armed, hmove, htmrlist⟩ := appRun_moves p (hlooping.event event held rfl) (n := n)
  have hstep : Polled.step p ⟨⟨n, .kissmRun event held⟩, quiet, begun, since⟩ (.main samples) =
      ⟨⟨appRun p event n, .loopFree held⟩, !n.active, false, 0⟩ := rfl
  rw [hstep]
  refine ⟨fun hquiet hps _ => ?_, fun held hpc => ?_, fun hquiet _ => ?_⟩
  · -- a pass that finds something active and ends in the idle state starts the timer
    have hactive : n.active = true := by simpa using hquiet
    have hidle : (appRun p event n).ps = .app .idle := hps
    rw [hidle] at hmove
    obtain rfl := hmove.awake hactive
    refine ⟨n.systick, ?_, ?_⟩
    · show (appRun p event n).systick = n.systick + UInt16.ofNat 0
      rw [hframe.systick]
      simp
    · show (appRun p event n).tmrlist = _
      rw [htmrlist, Node.movedTmrlist, tmrSchedule]
      rcases hlooping.tmrlist with hempty | ⟨timeout, htimer⟩
      · rw [show n.tmrlist = [] from hempty]
        rfl
      · rw [show n.tmrlist = _ from htimer]
        rfl
  · cases hpc
  · have hinactive : n.active = false := by simpa using hquiet
    obtain ⟨hpkt, hser⟩ : pktIsActive n.pkt = false ∧ serIsActive n.ser = false := by
      simpa [Node.active] using hinactive
    show (Incoming (appRun p event n).pkt ↔ false = true) ∧
      serIsActive (appRun p event n).ser = false
    rw [hframe.pkt, hframe.ser]
    refine ⟨iff_of_false ?_ (by simp), hser⟩
    rintro (hreceiving | hready)
    · have hcontra := hreceiving.active
      rw [hpkt] at hcontra
      cases hcontra
    · simp [pktIsActive, hready] at hpkt

/-- `tmr_process` finds the timer of the idle state run out only after a pass that found nothing
active, or a second later. -/
theorem expired {n : Node} {tmr : Tmr} {tmrlist : List Tmr} {quiet begun : Bool} {since : Nat}
    (h : Polled.Kept ⟨⟨n, .tmrProcess⟩, quiet, begun, since⟩) (htimer : OneTimer n.tmrlist)
    (htmr : tmrProcess n.systick n.tmrlist = (some tmr, tmrlist)) :
    Polled.Kept ⟨⟨{ n with tmrlist := tmrlist },
      .kissmRun (if tmr.id = stateTmrId then .timeout else .none) false⟩, quiet, begun, since⟩ := by
  rw [if_pos (htimer.expired htmr).1]
  refine ⟨fun _ _ hpc => ?_, fun held hpc => ?_, fun hquiet _ => h.activity hquiet (.inl rfl)⟩
  · cases hpc
  · refine ⟨by cases hpc; rfl, fun hps hsince => ?_⟩
    cases hquiet : quiet with
    | true => rfl
    | false =>
        -- the timer is still running
        obtain ⟨start, hsystick, htmrlist⟩ := h.armed hquiet hps rfl
        have hrunning : tmrExpired n.systick (tmrSet start 1000) = false := by
          rw [show n.systick = _ from hsystick]
          exact tmrSet_running start 1000 hsince (by decide)
        have hnone : tmrProcess n.systick n.tmrlist = (none, n.tmrlist) := by
          rw [show n.tmrlist = _ from htmrlist]
          simp [tmrProcess, hrunning]
        rw [htmr] at hnone
        cases hnone

/-- A program point between the state machine and the timers that leaves the clock, the timers and
the state alone, and has nothing received. -/
theorem onward {n n' : Node} {pc pc' : Control} {quiet begun : Bool} {since : Nat}
    (h : Polled.Kept ⟨⟨n, pc⟩, quiet, begun, since⟩) (hpc : pc.beforeTimers = true)
    (hpc' : pc'.beforeTimers = true) (hsteady : Steady n n')
    (hpkt : Incoming n'.pkt ↔ Incoming n.pkt) (hser : n'.ser = n.ser) :
    Polled.Kept ⟨⟨n', pc'⟩, quiet, begun, since⟩ := by
  refine ⟨fun hquiet hps _ => ?_, fun held hcontra => ?_, fun hquiet _ => ?_⟩
  · obtain ⟨start, hsystick, htmrlist⟩ := h.armed hquiet (hsteady.ps.symm.trans hps) hpc
    exact ⟨start, hsteady.systick.trans hsystick, hsteady.tmrlist.trans htmrlist⟩
  · have htimeout : pc' = .kissmRun .timeout held := hcontra
    rw [htimeout] at hpc'
    cases hpc'
  · obtain ⟨hincoming, hidle⟩ := h.activity hquiet (.inl hpc)
    show (Incoming n'.pkt ↔ begun = true) ∧ serIsActive n'.ser = false
    rw [hpkt, hser]
    exact ⟨hincoming, hidle⟩

/-- A program point of the main loop. Those inside `cmd_process` say nothing. -/
theorem main (h : w.Kept) (hlooping : Looping w.machine) (samples : Vector UInt16 4) :
    (w.step p (.main samples)).Kept := by
  cases hrestart : restarts p w.machine with
  | true =>
      obtain ⟨eeprom, hboot⟩ := mainStep_restart samples hrestart
      rw [Polled.step_restart samples hrestart, hboot]
      exact Polled.start_kept p eeprom
  | false =>
      obtain ⟨m, quiet, begun, since⟩ := w
      by_cases hkissm : ∃ event held, m.pc = .kissmRun event held
      · obtain ⟨n, pc⟩ := m
        obtain ⟨event, held, rfl⟩ := hkissm
        exact kissmRun hlooping samples
      rw [Polled.step_main samples (fun event held hpc => hkissm ⟨event, held, hpc⟩) hrestart]
      have hstep := mainStep_loopStep p samples m
      show Polled.Kept ⟨mainStep p samples m, quiet, begun, since⟩
      generalize mainStep p samples m = m' at hstep ⊢
      cases hstep with
      | ledRun | adcRun | freed | loop => exact h.onward rfl rfl ⟨rfl, rfl, rfl⟩ Iff.rfl rfl
      | expired n tmr tmrlist htmr => exact h.expired hlooping.tmrlist htmr
      | unexpired | ready | notReady | returned | handled | rxFree | overdue | waiting | active
      | inactive | giveUp | arm => exact of_elsewhere rfl (by simp)
      | restart n hswrr =>
          have hcontra : (cmdDispatch p n.pkt.rxbuf n).2.swrr = false := hrestart
          rw [hswrr] at hcontra
          cases hcontra
      | kissmRun n event held => exact absurd ⟨event, held, rfl⟩ hkissm

/-- Every action keeps the invariant. -/
theorem step (h : w.Kept) (hlooping : Looping w.machine) (action : Action) :
    (w.step p action).Kept := by
  cases action with
  | tick => exact h.tick
  | rx byte => exact h.rx byte
  | dre | txc | shift => exact h.transmit (by simp) (by simp) rfl
  | main samples => exact h.main hlooping samples

end Polled.Kept

/-! ## Falling asleep -/

/-- While the main loop holds no packet, incoming work is all the activity of the packet module. -/
theorem Owned.active_iff {m : Machine} {owner : Owner} (h : Owned m owner)
    (hheld : m.pc.held = false) : pktIsActive m.node.pkt = true ↔ Incoming m.node.pkt := by
  constructor
  · intro hactive
    by_cases hreceiving : Receiving m.node.pkt
    · exact .inl hreceiving
    cases hready : m.node.pkt.readyPacket with
    | true => exact .inr hready
    | false =>
        have hfree : m.node.pkt.rxbufInuse = false := by
          rw [Bool.eq_false_iff, Ne, h.inuse_iff]
          simp [ExactlyOne, hreceiving, hready, hheld]
        cases hs : m.node.pkt.state with
        | search => simp [pktIsActive, hfree, hready, hs] at hactive
        | sync => simp [pktIsActive, hfree, hready, hs] at hactive
        | header => exact absurd (.inl hs) hreceiving
        | data => exact absurd (.inr (.inl hs)) hreceiving
        | check => exact absurd (.inr (.inr hs)) hreceiving
  · rintro (hreceiving | hready)
    · exact hreceiving.active
    · simp [pktIsActive, hready]

/-- A step that puts the node to sleep is the pass of the idle state on its timeout. -/
theorem fallsAsleep {p : Platform} {m : Machine} {action : Action} (hlooping : Looping m)
    (hawake : m.node.ps ≠ .app .sleep) (hasleep : (step p m action).node.ps = .app .sleep) :
    ∃ samples held, action = .main samples ∧ m.pc = .kissmRun .timeout held ∧
      m.node.ps = .app .idle := by
  have hother (hmain : action.isMain = false) : False := by
    rw [(interrupt_app hmain).1] at hasleep
    exact hawake hasleep
  cases action with
  | tick | rx byte | dre | txc | shift => exact (hother rfl).elim
  | main samples =>
      have hnext : (mainStep p samples m).node.ps = .app .sleep := hasleep
      have hstep := mainStep_loopStep p samples m
      generalize mainStep p samples m = m' at hstep hnext
      cases hstep with
      | kissmRun n event held =>
          obtain ⟨armed, hmove, -⟩ := appRun_moves p (hlooping.event event held rfl) (n := n)
          have hps : (appRun p event n).ps = .app .sleep := hnext
          rw [hps] at hmove
          obtain ⟨rfl, hidle⟩ := hmove.asleep hawake
          exact ⟨samples, held, rfl, rfl, hidle⟩
      | restart => cases hnext
      | returned n | handled n =>
          have hps := (cmdDispatch_frame p n.pkt.rxbuf n).ps
          exact absurd (hps.symm.trans hnext) hawake
      | _ => exact absurd hnext hawake

/-- Sleep in the middle of work, in every run. When a step puts the node to sleep, and the last pass
of the state machine is fewer than 1000 ticks ago or found nothing active, then nothing is active at
that moment exactly when no frame that started since that pass is still being received or has been
accepted. -/
theorem sleep_quiet_iff (p : Platform) (eeprom : Config) (actions : List Action) (action : Action)
    (hawake : (run (Polled.step p) (Polled.start (boot p eeprom)) actions).ps ≠ .app .sleep)
    (hasleep : ((run (Polled.step p) (Polled.start (boot p eeprom)) actions).step p action).ps =
      .app .sleep)
    (hlast : (run (Polled.step p) (Polled.start (boot p eeprom)) actions).since < 1000 ∨
      (run (Polled.step p) (Polled.start (boot p eeprom)) actions).quiet = true) :
    let w := run (Polled.step p) (Polled.start (boot p eeprom)) actions
    let node := (w.step p action).machine.node
    (pktIsActive node.pkt = false ∧ serIsActive node.ser = false) ↔ w.begun = false := by
  obtain ⟨hkept, hlooping, owner, howned⟩ :
      (run (Polled.step p) (Polled.start (boot p eeprom)) actions).Kept ∧
      Looping (run (Polled.step p) (Polled.start (boot p eeprom)) actions).machine ∧
      ∃ owner, Owned (run (Polled.step p) (Polled.start (boot p eeprom)) actions).machine owner := by
    refine run_invariant_always (P := fun w : Polled => w.Kept ∧ Looping w.machine ∧
      ∃ owner, Owned w.machine owner) ?_ actions
      ⟨Polled.start_kept p eeprom, boot_looping p eeprom, .none, boot_owned p eeprom⟩
    rintro w action ⟨hw, hlooping, owner, howned⟩
    obtain ⟨next, -, hnext⟩ := step_owned (p := p) howned action
    have hstep := hw.step (p := p) hlooping action
    rw [Polled.step_machine]
    exact ⟨hstep, hlooping.step action, next, hnext⟩
  generalize run (Polled.step p) (Polled.start (boot p eeprom)) actions = w at *
  intro w' node
  rw [Polled.ps, Polled.step_machine] at hasleep
  obtain ⟨samples, held, rfl, hpc, hidle⟩ := fallsAsleep hlooping hawake hasleep
  obtain ⟨rfl, hlate⟩ := hkept.timeout held hpc
  have hquiet : w.quiet = true := by
    rcases hlast with hsince | hquiet
    · exact hlate hidle hsince
    · exact hquiet
  obtain ⟨hincoming, hser⟩ := hkept.activity hquiet (.inr ⟨false, hpc⟩)
  have hactive := howned.active_iff (by rw [hpc]; rfl)
  -- the pass itself leaves the packet and the serial module alone
  have hnode : node = appRun p .timeout w.machine.node := by
    simp only [node, w', Polled.step_machine, step, mainStep, hpc]
  have hframe := appRun_frame p .timeout w.machine.node
  rw [hnode, hframe.pkt, hframe.ser]
  rw [← Bool.not_eq_true, hactive, hincoming, Bool.not_eq_true]
  exact ⟨fun h => h.1, fun h => ⟨h, hser⟩⟩

/-- A second in the powerup state and most of one in the idle state, whose last pass finds nothing
active, some bytes, and the next pass up to the state machine, a tick later. -/
def drowsing (bytes : List UInt8) : List Action :=
  let points := fun count => List.replicate count (Action.main (Vector.replicate 4 0))
  points 7 ++ List.replicate 1000 .tick ++ points 5 ++ List.replicate 999 .tick ++ points 7 ++
    [.tick] ++ bytes.map .rx ++ points 3

/-- With no byte received the node goes to sleep at rest. -/
theorem sleep_quiet_iff_rest :
    let w := run (Polled.step benchBoard)
      (Polled.start (boot benchBoard (Vector.replicate 26 0xFF))) (drowsing [])
    let node := (w.step benchBoard (.main (Vector.replicate 4 0))).machine.node
    (pktIsActive node.pkt = false ∧ serIsActive node.ser = false) ↔ w.begun = false :=
  sleep_quiet_iff benchBoard (Vector.replicate 26 0xFF) (drowsing []) (.main (Vector.replicate 4 0))
    (by decide +kernel) (by decide +kernel) (.inl (by decide +kernel))

/-- A frame that starts after the last poll is under way when the node goes to sleep. -/
theorem sleep_midframe :
    let m := run (step benchBoard) (boot benchBoard (Vector.replicate 26 0xFF))
      (drowsing [pktPreamble, pktSync])
    let after := step benchBoard m (.main (Vector.replicate 4 0))
    m.node.ps = .app .idle ∧ after.node.ps = .app .sleep ∧ Receiving after.node.pkt ∧
      pktIsActive after.node.pkt = true := by
  decide +kernel

end BmsNode
