import BmsNode.Machine.LoopStep

/-!
# The moves of the application

`AppMove` says once what a pass of the state machine does to the present state and to
the state timer, for each of the events the main loop generates. The moves are those of
the state diagram; the shunt and testmode states let the timer run on.
-/

namespace BmsNode

/-- The events `main_loop` gives to the state machine. -/
def Event.FromLoop (event : Event) : Prop := event = .none ∨ event = .timeout ∨ event = .cmd

/-- Something is going on, as the idle state polls it. -/
def Node.active (n : Node) : Bool := pktIsActive n.pkt || serIsActive n.ser

/-- A move on an event: the next state, and the duration of the state timer if that is started. -/
inductive AppMove (n : Node) : Event → KissmState AppState → Option UInt16 → Prop where
  | powerup (event : Event) (hps : n.ps = .initial) : AppMove n event (.app .powerup) (some 1000)
  | settled (hps : n.ps = .app .powerup ∨ n.ps = .app .dfu) :
      AppMove n .timeout (.app .idle) (some 1000)
  | wait (event : Event) (hps : n.ps = .app .powerup ∨ n.ps = .app .dfu)
      (hevent : event ≠ .timeout) : AppMove n event n.ps none
  | sleep (hps : n.ps = .app .idle) : AppMove n .timeout (.app .sleep) none
  | command (hps : n.ps = .app .idle) : AppMove n .cmd (.app .idle) (some 1000)
  | busy (hps : n.ps = .app .idle) (hactive : n.active = true) :
      AppMove n .none (.app .idle) (some 1000)
  | quiet (hps : n.ps = .app .idle) (hactive : n.active = false) :
      AppMove n .none (.app .idle) none
  | dfu (hps : n.ps = .app .idle) : AppMove n .cmd (.app .dfu) (some 8000)
  | work (state : AppState) (hps : n.ps = .app .idle) (hstate : state = .shunt ∨ state = .testmode) :
      AppMove n .cmd (.app state) (some 1000)
  | done (event : Event) (state : AppState) (hps : n.ps = .app state)
      (hstate : state = .shunt ∨ state = .testmode ∨ state = .sleep) :
      AppMove n event (.app .idle) (some 1000)
  | on (event : Event) (hps : n.ps = .app .shunt ∨ n.ps = .app .testmode) :
      AppMove n event n.ps none

/-- The timers after a move. -/
def Node.movedTmrlist (n : Node) : Option UInt16 → List Tmr
  | none => n.tmrlist
  | some duration => tmrSchedule n.systick n.tmrlist stateTmr stateTmrId duration false

/-! ## The rules of a pass -/

section Rules

variable {p : Platform} {event : Event} {n after : Node} {state next : AppState}

/-- A pass in which the handler names no other state. -/
theorem appRun_stay (hps : n.ps = .app state) (h : appHandler p state event n = (none, after)) :
    appRun p event n = { after with ps := .app state } := by
  simp only [appRun, hps, kissmRun, kissmHandler, h, Option.map_none]

/-- A pass in which the handler names another state. -/
theorem appRun_move (hps : n.ps = .app state) (h : appHandler p state event n = (some next, after))
    (hne : next ≠ state) :
    appRun p event n =
      { (appHandler p next .entry (appHandler p state .exit after).2).2 with ps := .app next } := by
  have happ : KissmState.app next ≠ KissmState.app state := by
    intro heq
    exact hne (KissmState.app.inj heq)
  simp only [appRun, hps, kissmRun, kissmHandler, h, Option.map_some, if_pos happ]

/-- The first pass. -/
theorem appRun_initial (hps : n.ps = .initial) :
    appRun p event n = { (powerupHandler .entry n).2 with ps := .app .powerup } := by
  have happ : KissmState.app AppState.powerup ≠ KissmState.initial := by
    intro heq
    cases heq
  simp only [appRun, hps, kissmRun, kissmHandler, if_pos happ]
  rfl

/-- Starting the state timer again replaces it. -/
theorem tmrSchedule_twice (ticks : UInt16) (tmrlist : List Tmr) (first second : UInt16) :
    tmrSchedule ticks (tmrSchedule ticks tmrlist stateTmr stateTmrId first false) stateTmr stateTmrId
        second false =
      tmrSchedule ticks tmrlist stateTmr stateTmrId second false := by
  rw [tmrSchedule, tmrSchedule]
  congr 1

end Rules

/-! ## The moves of each state -/

/-- A pass of the state machine makes a move. -/
def Moves (p : Platform) (event : Event) (n : Node) : Prop :=
  ∃ armed, AppMove n event (appRun p event n).ps armed ∧
    (appRun p event n).tmrlist = n.movedTmrlist armed

variable {p : Platform} {event : Event} {n : Node}

/-- Entering the idle state starts its timer. -/
theorem idleEntry_tmrlist (after : Node) (hticks : after.systick = n.systick)
    (htmrlist : after.tmrlist = n.tmrlist) :
    (idleHandler .entry after).2.tmrlist = n.movedTmrlist (some 1000) := by
  show tmrSchedule after.systick after.tmrlist _ _ _ _ = tmrSchedule n.systick n.tmrlist _ _ _ _
  rw [hticks, htmrlist]

/-- The moves of the powerup state. -/
theorem powerup_moves (hps : n.ps = .app .powerup) (hevent : event.FromLoop) : Moves p event n := by
  rcases hevent with rfl | rfl | rfl
  · rw [Moves, appRun_stay hps rfl, ← hps]
    exact ⟨none, .wait .none (.inl hps) (by simp), rfl⟩
  · rw [Moves, appRun_move hps rfl (by simp)]
    exact ⟨some 1000, .settled (.inl hps), rfl⟩
  · rw [Moves, appRun_stay hps rfl, ← hps]
    exact ⟨none, .wait .cmd (.inl hps) (by simp), rfl⟩

/-- The moves of the dfu state. -/
theorem dfu_moves (hps : n.ps = .app .dfu) (hevent : event.FromLoop) : Moves p event n := by
  rcases hevent with rfl | rfl | rfl
  · rw [Moves, appRun_stay hps rfl, ← hps]
    exact ⟨none, .wait .none (.inr hps) (by simp), rfl⟩
  · rw [Moves, appRun_move hps rfl (by simp)]
    exact ⟨some 1000, .settled (.inr hps), rfl⟩
  · rw [Moves, appRun_stay hps rfl, ← hps]
    exact ⟨none, .wait .cmd (.inr hps) (by simp), rfl⟩

/-- What the idle state does with a command: three of them lead to another state. -/
theorem idleCmd_cases (n : Node) :
    (n.pkt.rxbuf.cmd = Cmd.dfu ∧ idleCmd n = (some .dfu, n.startStateTmr 1000)) ∨
      (n.pkt.rxbuf.cmd = Cmd.shunton ∧ idleCmd n = (some .shunt, n.startStateTmr 1000)) ∨
      (n.pkt.rxbuf.cmd = Cmd.testmode ∧ idleCmd n = (some .testmode, n.startStateTmr 1000)) ∨
      ∃ after, idleCmd n = (none, after) ∧ after.tmrlist = n.movedTmrlist (some 1000) := by
  unfold idleCmd
  dsimp only
  split_ifs with hdfu hshunton htestmode hping
  · exact .inl ⟨hdfu, rfl⟩
  · exact .inr (.inl ⟨hshunton, rfl⟩)
  · exact .inr (.inr (.inl ⟨htestmode, rfl⟩))
  · exact .inr (.inr (.inr ⟨_, rfl, rfl⟩))
  · exact .inr (.inr (.inr ⟨_, rfl, rfl⟩))

/-- The moves of the idle state. -/
theorem idle_moves (hps : n.ps = .app .idle) (hevent : event.FromLoop) : Moves p event n := by
  rcases hevent with rfl | rfl | rfl
  · cases hactive : n.active with
    | true =>
        have hhandler : appHandler p .idle .none n = (none, n.startStateTmr 1000) :=
          congrArg (Prod.mk none) (if_pos hactive)
        rw [Moves, appRun_stay hps hhandler]
        exact ⟨some 1000, .busy hps hactive, rfl⟩
    | false =>
        have hhandler : appHandler p .idle .none n = (none, n) :=
          congrArg (Prod.mk none) (if_neg (by rw [← Node.active, hactive]; simp))
        rw [Moves, appRun_stay hps hhandler]
        exact ⟨none, .quiet hps hactive, rfl⟩
  · rw [Moves, appRun_move hps rfl (by simp)]
    exact ⟨none, .sleep hps, rfl⟩
  · have hcmd : appHandler p .idle .cmd n = idleCmd n := rfl
    rcases idleCmd_cases n with ⟨-, h⟩ | ⟨-, h⟩ | ⟨-, h⟩ | ⟨after, h, htmrlist⟩
    · rw [Moves, appRun_move hps (hcmd.trans h) (by simp)]
      exact ⟨some 8000, .dfu hps, tmrSchedule_twice ..⟩
    · rw [Moves, appRun_move hps (hcmd.trans h) (by simp)]
      exact ⟨some 1000, .work .shunt hps (.inl rfl), rfl⟩
    · rw [Moves, appRun_move hps (hcmd.trans h) (by simp)]
      exact ⟨some 1000, .work .testmode hps (.inr rfl), rfl⟩
    · rw [Moves, appRun_stay hps (hcmd.trans h)]
      exact ⟨some 1000, .command hps, htmrlist⟩

/-- A pass of the shunt or testmode state runs its module, which decides whether the state ends. -/
theorem work_moves {state : AppState} {next : Option AppState} {after : Node}
    (hps : n.ps = .app state) (hstate : state = .shunt ∨ state = .testmode)
    (hhandler : appHandler p state event n = (next, after)) (hnext : next = none ∨ next = some .idle)
    (hticks : after.systick = n.systick) (htmrlist : after.tmrlist = n.tmrlist) :
    Moves p event n := by
  have hexit : (appHandler p state .exit after).2 = after := by
    rcases hstate with rfl | rfl
    · rfl
    · rfl
  rcases hnext with rfl | rfl
  · have hon : n.ps = .app .shunt ∨ n.ps = .app .testmode := by
      rcases hstate with rfl | rfl
      · exact .inl hps
      · exact .inr hps
    rw [Moves, appRun_stay hps hhandler, ← hps]
    exact ⟨none, .on event hon, htmrlist⟩
  · have hne : AppState.idle ≠ state := by
      rcases hstate with rfl | rfl
      · simp
      · simp
    rw [Moves, appRun_move hps hhandler hne, hexit]
    refine ⟨some 1000, .done event state hps ?_, ?_⟩
    · rcases hstate with rfl | rfl
      · exact .inl rfl
      · exact .inr (.inl rfl)
    · exact idleEntry_tmrlist after hticks htmrlist

/-- The moves of the shunt state. -/
theorem shunt_moves (hps : n.ps = .app .shunt) (hevent : event.FromLoop) : Moves p event n := by
  have hrun (h : appHandler p .shunt event n =
      (if (n.shuntRun p).1 = .off then some .idle else none, (n.shuntRun p).2)) :
      Moves p event n := by
    obtain ⟨shunt, hafter⟩ := n.shuntRun_eq p
    refine work_moves hps (.inl rfl) h ?_ (by rw [hafter]) (by rw [hafter])
    split
    · exact .inr rfl
    · exact .inl rfl
  rcases hevent with rfl | rfl | rfl
  · exact hrun rfl
  · exact hrun rfl
  · by_cases hoff : n.pkt.rxbuf.cmd = Cmd.shuntoff
    · exact work_moves hps (.inl rfl) (if_pos hoff) (.inr rfl) rfl rfl
    · exact work_moves hps (.inl rfl) (if_neg hoff) (.inl rfl) rfl rfl

/-- The moves of the testmode state. -/
theorem testmode_moves (hps : n.ps = .app .testmode) (hevent : event.FromLoop) :
    Moves p event n := by
  have hrun (h : appHandler p .testmode event n =
      (if (n.testmodeRun p).1 = TestFunc.off then some .idle else none, (n.testmodeRun p).2)) :
      Moves p event n := by
    obtain ⟨rig, hafter⟩ := n.testmodeRun_eq p
    refine work_moves hps (.inr rfl) h ?_ (by rw [hafter]) (by rw [hafter])
    split
    · exact .inr rfl
    · exact .inl rfl
  rcases hevent with rfl | rfl | rfl
  · exact hrun rfl
  · exact hrun rfl
  · exact hrun rfl

/-- The sleep state goes on to the idle state on the first event after waking up. -/
theorem sleep_moves (hps : n.ps = .app .sleep) (hevent : event.FromLoop) : Moves p event n := by
  have hhandler : appHandler p .sleep event n = (some .idle, n) := by
    rcases hevent with rfl | rfl | rfl
    · rfl
    · rfl
    · rfl
  rw [Moves, appRun_move hps hhandler (by simp)]
  exact ⟨some 1000, .done event .sleep hps (.inr (.inr rfl)), rfl⟩

/-- Every pass of the state machine on an event of the main loop is one of the moves. -/
theorem appRun_moves (p : Platform) (hevent : event.FromLoop) : Moves p event n := by
  cases hps : n.ps with
  | initial =>
      rw [Moves, appRun_initial hps]
      exact ⟨some 1000, .powerup event hps, rfl⟩
  | app state =>
      cases state with
      | powerup => exact powerup_moves hps hevent
      | idle => exact idle_moves hps hevent
      | dfu => exact dfu_moves hps hevent
      | shunt => exact shunt_moves hps hevent
      | testmode => exact testmode_moves hps hevent
      | sleep => exact sleep_moves hps hevent

/-- The durations the state timer is started with. -/
theorem AppMove.duration {next : KissmState AppState} {duration : UInt16}
    (h : AppMove n event next (some duration)) : 0 < duration.toNat ∧ duration.toNat ≤ 8000 := by
  cases h with
  | powerup | settled | command | busy | dfu | work | done => decide

/-- A pass that finds something active and ends in the idle state starts the timer. -/
theorem AppMove.awake {armed : Option UInt16} (h : AppMove n event (.app .idle) armed)
    (hactive : n.active = true) : armed = some 1000 := by
  generalize hnext : KissmState.app AppState.idle = next at h
  cases h with
  | powerup | dfu => cases hnext
  | sleep _ => cases hnext
  | settled | command | busy | done => rfl
  | quiet _ hquiet =>
      rw [hactive] at hquiet
      cases hquiet
  | work state _ hstate => rcases hstate with rfl | rfl <;> cases hnext
  | wait _ hps _ => rcases hps with hps | hps <;> rw [hps] at hnext <;> cases hnext
  | on _ hps => rcases hps with hps | hps <;> rw [hps] at hnext <;> cases hnext

/-- Only the timeout of the idle state leads to the sleep state. -/
theorem AppMove.asleep {armed : Option UInt16} (h : AppMove n event (.app .sleep) armed)
    (hps : n.ps ≠ .app .sleep) : event = .timeout ∧ n.ps = .app .idle := by
  generalize hnext : KissmState.app AppState.sleep = next at h
  cases h with
  | powerup | dfu | settled | command | busy | done => cases hnext
  | quiet _ _ => cases hnext
  | sleep hidle => exact ⟨rfl, hidle⟩
  | work state _ hstate => rcases hstate with rfl | rfl <;> cases hnext
  | wait _ _ _ => exact absurd hnext.symm hps
  | on _ _ => exact absurd hnext.symm hps

/-! ## The rest of the main loop -/

/-- The dispatch of a packet restarts the firmware. -/
def restarts (p : Platform) (m : Machine) : Bool :=
  match m.pc with
  | .dispatch => (cmdDispatch p m.node.pkt.rxbuf m.node).2.swrr
  | _ => false

/-- The clock, the timers and the state of the application are as before. -/
structure Steady (n n' : Node) : Prop where
  systick : n'.systick = n.systick
  tmrlist : n'.tmrlist = n.tmrlist
  ps : n'.ps = n.ps

/-- Only `tmr_process`, the state machine and a restart touch the timers and the state, and any
other program point leads to the state machine without a timeout event. -/
theorem mainStep_steady {p : Platform} {m : Machine} (samples : Vector UInt16 4)
    (htmr : m.pc ≠ .tmrProcess) (hkissm : ∀ event held, m.pc ≠ .kissmRun event held)
    (hrestart : restarts p m = false) :
    Steady m.node (mainStep p samples m).node ∧
      ∀ event held, (mainStep p samples m).pc = .kissmRun event held →
        event = .none ∨ event = .cmd := by
  have hstep := mainStep_loopStep p samples m
  generalize mainStep p samples m = m' at hstep ⊢
  cases hstep with
  | ledRun | adcRun | ready | notReady | rxFree | overdue | active | freed | loop =>
      exact ⟨⟨rfl, rfl, rfl⟩, fun event held hpc => by cases hpc⟩
  | expired | unexpired => exact absurd rfl htmr
  | restart n hswrr =>
      have hcontra : (cmdDispatch p n.pkt.rxbuf n).2.swrr = false := hrestart
      rw [hswrr] at hcontra
      cases hcontra
  | returned n =>
      have hframe := cmdDispatch_frame p n.pkt.rxbuf n
      refine ⟨⟨hframe.systick, cmdDispatch_tmrlist p _ n, hframe.ps⟩, fun event held hpc => ?_⟩
      cases hpc
      exact .inr rfl
  | handled n =>
      have hframe := cmdDispatch_frame p n.pkt.rxbuf n
      refine ⟨⟨hframe.systick, cmdDispatch_tmrlist p _ n, hframe.ps⟩, fun event held hpc => ?_⟩
      cases hpc
  | waiting | inactive | giveUp | arm =>
      refine ⟨⟨rfl, rfl, rfl⟩, fun event held hpc => ?_⟩
      cases hpc
      exact .inl rfl
  | kissmRun n event held => exact absurd rfl (hkissm event held)

/-- Only a pass of the state machine and a restart touch the state of the application. -/
theorem mainStep_ps {p : Platform} {m : Machine} (samples : Vector UInt16 4)
    (hkissm : ∀ event held, m.pc ≠ .kissmRun event held) (hrestart : restarts p m = false) :
    (mainStep p samples m).node.ps = m.node.ps := by
  by_cases htmr : m.pc = .tmrProcess
  · obtain ⟨n, pc⟩ := m
    obtain rfl : pc = .tmrProcess := htmr
    simp only [mainStep]
    split <;> rfl
  · exact (mainStep_steady samples htmr hkissm hrestart).1.ps

/-- A restart is a start from the EEPROM contents of the moment. -/
theorem mainStep_restart {p : Platform} {m : Machine} (samples : Vector UInt16 4)
    (hrestart : restarts p m = true) : ∃ eeprom, mainStep p samples m = boot p eeprom := by
  obtain ⟨n, pc⟩ := m
  cases pc with
  | dispatch =>
      have hswrr : (cmdDispatch p n.pkt.rxbuf n).2.swrr = true := hrestart
      exact ⟨_, by simp [mainStep, hswrr]; rfl⟩
  | _ => cases hrestart

/-- A program point of the main loop, not an interrupt. -/
def Action.isMain : Action → Bool
  | .main _ => true
  | _ => false

/-- No interrupt touches the state of the application or what it drives. -/
theorem interrupt_app {p : Platform} {m : Machine} {action : Action}
    (hmain : action.isMain = false) :
    (step p m action).node.ps = m.node.ps ∧ (step p m action).node.rig = m.node.rig ∧
      (step p m action).pc = m.pc := by
  cases action with
  | main samples => cases hmain
  | tick | shift | rx byte => exact ⟨rfl, rfl, rfl⟩
  | dre | txc =>
      simp only [step]
      split_ifs <;> exact ⟨rfl, rfl, rfl⟩

/-- An interrupt other than the tick, or a step of the transmitter. -/
theorem interrupt_steady {p : Platform} {m : Machine} {action : Action} (htick : action ≠ .tick)
    (hmain : action.isMain = false) :
    Steady m.node (step p m action).node ∧ (step p m action).pc = m.pc := by
  cases action with
  | tick => exact absurd rfl htick
  | main samples => cases hmain
  | rx byte | shift => exact ⟨⟨rfl, rfl, rfl⟩, rfl⟩
  | dre | txc =>
      simp only [step]
      split_ifs <;> exact ⟨⟨rfl, rfl, rfl⟩, rfl⟩

/-! ## The invariant of the main loop -/

/-- A state handler requests no software reset. -/
theorem appHandler_swrr (p : Platform) (state : AppState) (event : Event) (n : Node) :
    (appHandler p state event n).2.swrr = n.swrr := by
  obtain ⟨tmrlist, adc, leds, rig, hhandler⟩ := appHandler_eq p state event n
  rw [hhandler]

/-- A pass of the state machine requests no software reset. -/
theorem appRun_swrr (p : Platform) (event : Event) (n : Node) : (appRun p event n).swrr = n.swrr :=
  kissmRun_preserves AppState.powerup (appHandler p) .exit .entry (P := fun n' => n'.swrr = n.swrr)
    (fun state event data hdata => (appHandler_swrr p state event data).trans hdata) n.ps event rfl

/-- A timer list holds at most the state timer. -/
def OneTimer (tmrlist : List Tmr) : Prop :=
  tmrlist = [] ∨ ∃ timeout, tmrlist = [⟨stateTmr, timeout, 0, stateTmrId⟩]

/-- What holds at every program point: no software reset is requested, the timer list holds at most
the state timer, the state machine gets the events of the main loop, and the reception timeout is
stopped while a packet is handled and before it is started. -/
structure Looping (m : Machine) : Prop where
  swrr : m.node.swrr = false
  tmrlist : OneTimer m.node.tmrlist
  event : ∀ event held, m.pc = .kissmRun event held → event.FromLoop
  stopped : m.pc = .dispatch ∨ m.pc = .rxFree ∨ m.pc = .arm → m.node.cmd.pktWaiting = false

/-- The firmware starts without timers. -/
theorem boot_looping (p : Platform) (eeprom : Config) : Looping (boot p eeprom) := by
  refine ⟨rfl, .inl rfl, fun event held hpc => ?_, fun _ => rfl⟩
  cases hpc

/-- `tmr_process` on at most the state timer. -/
theorem OneTimer.tmrProcess {tmrlist : List Tmr} (h : OneTimer tmrlist) (systick : UInt16) :
    BmsNode.tmrProcess systick tmrlist = (none, tmrlist) ∨
      ∃ timeout, BmsNode.tmrProcess systick tmrlist =
        (some ⟨stateTmr, timeout, 0, stateTmrId⟩, []) := by
  rcases h with rfl | ⟨timeout, rfl⟩
  · exact .inl rfl
  · cases hexpired : tmrExpired systick timeout with
    | true => exact .inr ⟨timeout, by simp [BmsNode.tmrProcess, hexpired]⟩
    | false => exact .inl (by simp [BmsNode.tmrProcess, hexpired])

/-- A timer that `tmr_process` returns is the state timer, and leaves no other. -/
theorem OneTimer.expired {systick : UInt16} {tmrlist rest : List Tmr} {tmr : Tmr}
    (h : OneTimer tmrlist) (htmr : BmsNode.tmrProcess systick tmrlist = (some tmr, rest)) :
    tmr.id = stateTmrId ∧ rest = [] := by
  rcases h.tmrProcess systick with hnone | ⟨timeout, hsome⟩
  · rw [htmr] at hnone
    cases hnone
  · rw [htmr] at hsome
    cases hsome
    exact ⟨rfl, rfl⟩

/-- When `tmr_process` returns no timer, the list is as before. -/
theorem OneTimer.unexpired {systick : UInt16} {tmrlist rest : List Tmr} (h : OneTimer tmrlist)
    (htmr : BmsNode.tmrProcess systick tmrlist = (none, rest)) : rest = tmrlist := by
  rcases h.tmrProcess systick with hnone | ⟨timeout, hsome⟩
  · rw [htmr] at hnone
    cases hnone
    rfl
  · rw [htmr] at hsome
    cases hsome

/-- Starting the state timer leaves it alone in the list. -/
theorem OneTimer.moved {n : Node} (h : OneTimer n.tmrlist) (armed : Option UInt16) :
    OneTimer (n.movedTmrlist armed) := by
  cases armed with
  | none => exact h
  | some duration =>
      refine .inr ⟨tmrSet n.systick duration, ?_⟩
      rw [Node.movedTmrlist, tmrSchedule]
      rcases h with hempty | ⟨timeout, htimer⟩
      · rw [hempty]
        rfl
      · rw [htimer]
        rfl

/-- A program point of the main loop keeps the invariant. -/
theorem Looping.main {p : Platform} {m : Machine} (h : Looping m) (samples : Vector UInt16 4) :
    Looping (mainStep p samples m) := by
  have hstep := mainStep_loopStep p samples m
  generalize mainStep p samples m = m' at hstep ⊢
  cases hstep with
  | ledRun | adcRun | notReady | rxFree | overdue | freed | loop =>
      exact ⟨h.swrr, h.tmrlist, by simp, by simp⟩
  | waiting | inactive | giveUp | arm =>
      exact ⟨h.swrr, h.tmrlist, by simp [Event.FromLoop], by simp⟩
  | expired n tmr tmrlist htmr =>
      obtain ⟨hid, rfl⟩ := h.tmrlist.expired htmr
      rw [if_pos hid]
      exact ⟨h.swrr, .inl rfl, by simp [Event.FromLoop], by simp⟩
  | unexpired n tmrlist htmr =>
      obtain rfl := h.tmrlist.unexpired htmr
      exact ⟨h.swrr, h.tmrlist, by simp, by simp⟩
  | ready => exact ⟨h.swrr, h.tmrlist, by simp, fun _ => rfl⟩
  | restart n hswrr => exact boot_looping p _
  | returned n hswrr =>
      refine ⟨hswrr, ?_, by simp [Event.FromLoop], by simp⟩
      rw [cmdDispatch_tmrlist]
      exact h.tmrlist
  | handled n hswrr =>
      refine ⟨hswrr, ?_, by simp, fun _ => ?_⟩
      · rw [cmdDispatch_tmrlist]
        exact h.tmrlist
      · rw [(cmdDispatch_frame p n.pkt.rxbuf n).cmd]
        exact h.stopped (.inl rfl)
  | active n hwaiting => exact ⟨h.swrr, h.tmrlist, by simp, fun _ => hwaiting⟩
  | kissmRun n event held =>
      obtain ⟨armed, -, htmrlist⟩ := appRun_moves p (h.event event held rfl) (n := n)
      refine ⟨(appRun_swrr p event n).trans h.swrr, ?_, by simp, by simp⟩
      rw [htmrlist]
      exact h.tmrlist.moved armed

/-- Every action keeps the invariant. -/
theorem Looping.step {p : Platform} {m : Machine} (h : Looping m) (action : Action) :
    Looping (BmsNode.step p m action) := by
  cases action with
  | tick | rx byte | shift => exact ⟨h.swrr, h.tmrlist, h.event, h.stopped⟩
  | dre | txc =>
      simp only [BmsNode.step]
      split_ifs
      · exact ⟨h.swrr, h.tmrlist, h.event, h.stopped⟩
      · exact h
  | main samples => exact h.main samples

end BmsNode
