import BmsNode.Machine.Moves
import BmsNode.Timers.Operations
import BmsNode.Transition.Run

/-!
# The application state machine over whole runs

One timer serves all states: it is started, restarted, consumed and left running across
them. `Watch` runs the machine with an unbounded clock and the ticks the durations are
counted from. As long as `tmr_process` is called often enough for the wrapping counter,
the timer list holds at most the state timer, with a deadline that is known in the states
that wait for it, and a timeout event comes no earlier than that deadline.
-/

namespace BmsNode

open Transition

/-! ## Runs with a clock -/

/-- A running node with the ticks since its start: the present one, those of the last `tmr_process`
call and of the last change of state, and the last one at which the idle state was kept awake. -/
structure Watch where
  machine : Machine
  now : Nat
  polled : Nat
  entered : Nat
  busy : Nat

/-- The pass is a reason for the idle state to stay awake: it enters the idle state, it hands a
command to it, or it finds something active. -/
def keepsAwake (p : Platform) (m : Machine) : Bool :=
  match m.pc with
  | .kissmRun event _ =>
      if m.node.ps = .app .idle then event = .cmd || (event = .none && m.node.active)
      else (appRun p event m.node).ps = .app .idle
  | _ => false

namespace Watch

/-- A node that starts, or starts again. -/
def fresh (machine : Machine) : Watch :=
  { machine := machine, now := 0, polled := 0, entered := 0, busy := 0 }

/-- The present state. -/
def ps (w : Watch) : KissmState AppState := w.machine.node.ps

/-- One step of the machine, with its effect on the ticks. -/
def step (p : Platform) (w : Watch) (action : Action) : Watch :=
  let machine := BmsNode.step p w.machine action
  match action with
  | .tick => { w with machine := machine, now := w.now + 1 }
  | .main _ =>
      if restarts p w.machine then fresh machine
      else
        { machine := machine
          now := w.now
          polled := if w.machine.pc = .tmrProcess then w.now else w.polled
          entered := if machine.node.ps = w.ps then w.entered else w.now
          busy := if keepsAwake p w.machine then w.now else w.busy }
  | _ => { w with machine := machine }

/-- Passes are less than 30000 ticks apart, at the point where they look at the clock. -/
def Prompt (w : Watch) : Action → Prop
  | .tick => w.now + 1 < w.polled + 30000
  | _ => True

/-- The condition can be checked. -/
instance (w : Watch) : ∀ action, Decidable (w.Prompt action)
  | .tick => inferInstanceAs (Decidable (_ < _))
  | .rx _ | .dre | .txc | .shift | .main _ => isTrue trivial

/-- The tick a state that waits for its timer is due to end at. -/
def due (w : Watch) : Option Nat :=
  match w.ps with
  | .app .powerup => some (w.entered + 1000)
  | .app .dfu => some (w.entered + 8000)
  | .app .idle => some (w.busy + 1000)
  | _ => none

end Watch

/-! ## The invariant -/

/-- The state timer with a deadline. -/
def stateTimer (deadline : Nat) : Tmr :=
  { ptr := stateTmr, timeout := UInt16.ofNat deadline, periodic := 0, id := stateTmrId }

/-- The timers while no timeout event is on its way: none, in a state that waits for none, or the
state timer with the deadline the state is due at. -/
def Watch.Waiting (w : Watch) : Prop :=
  (w.machine.node.tmrlist = [] ∧ w.due = none) ∨
    ∃ deadline, w.machine.node.tmrlist = [stateTimer deadline] ∧ w.polled < deadline ∧
      deadline ≤ w.now + 8000 ∧ ∀ tick ∈ w.due, tick = deadline

/-- The timers while a timeout event is on its way: none, in a state that is over. -/
def Watch.TimedOut (w : Watch) : Prop :=
  w.machine.node.tmrlist = [] ∧ ∀ tick ∈ w.due, tick ≤ w.now

/-- The invariant of a run with its clock. -/
structure Watch.Timed (w : Watch) : Prop where
  systick : w.machine.node.systick = UInt16.ofNat w.now
  polls : w.polled ≤ w.now ∧ w.now < w.polled + 30000
  event : ∀ event held, w.machine.pc = .kissmRun event held → event.FromLoop
  timedOut : ∀ held, w.machine.pc = .kissmRun .timeout held → w.TimedOut
  waiting : (∀ held, w.machine.pc ≠ .kissmRun .timeout held) → w.Waiting

/-- The state timer is expired exactly when its deadline has been reached. -/
theorem Watch.Timed.expired_iff {w : Watch} (h : w.Timed) {deadline : Nat}
    (hlater : w.polled < deadline) (hnear : deadline ≤ w.now + 8000) :
    tmrExpired w.machine.node.systick (UInt16.ofNat deadline) = true ↔ deadline ≤ w.now := by
  have hpolls := h.polls
  rw [h.systick]
  exact tmrExpired_ofNat (by omega) (by omega)

/-- A timeout event is on its way to the state machine. -/
def Machine.TimeoutPending (m : Machine) : Prop := ∃ held, m.pc = .kissmRun .timeout held

/-- Time may pass, and any step may be taken that leaves the timers, the state and the timeout event
alone. -/
theorem Watch.Timed.carry {w w' : Watch} (h : w.Timed)
    (hsystick : w'.machine.node.systick = UInt16.ofNat w'.now)
    (htmrlist : w'.machine.node.tmrlist = w.machine.node.tmrlist) (hps : w'.ps = w.ps)
    (hnow : w.now ≤ w'.now) (hroom : w'.now < w.polled + 30000) (hpolled : w'.polled = w.polled)
    (hentered : w'.entered = w.entered) (hbusy : w'.busy = w.busy)
    (hevent : ∀ event held, w'.machine.pc = .kissmRun event held → event.FromLoop)
    (hpending : w'.machine.TimeoutPending ↔ w.machine.TimeoutPending) : w'.Timed := by
  have hdue : w'.due = w.due := by
    rw [Watch.due, Watch.due, hps, hentered, hbusy]
  refine ⟨hsystick, ?_, hevent, ?_, ?_⟩
  · have hpolls := h.polls
    rw [hpolled]
    omega
  · intro held hpc
    obtain ⟨held', hbefore⟩ := hpending.mp ⟨held, hpc⟩
    obtain ⟨hempty, hover⟩ := h.timedOut held' hbefore
    refine ⟨htmrlist.trans hempty, fun tick hmem => ?_⟩
    rw [hdue] at hmem
    exact Nat.le_trans (hover tick hmem) hnow
  · intro hpc
    have hbefore : ∀ held, w.machine.pc ≠ .kissmRun .timeout held := by
      intro held heq
      obtain ⟨held', hafter⟩ := hpending.mpr ⟨held, heq⟩
      exact hpc held' hafter
    rcases h.waiting hbefore with ⟨hempty, hnone⟩ | ⟨deadline, htimer, hlater, hnear, hwait⟩
    · exact .inl ⟨htmrlist.trans hempty, hdue.trans hnone⟩
    · refine .inr ⟨deadline, htmrlist.trans htimer, ?_, ?_, ?_⟩
      · rw [hpolled]
        exact hlater
      · omega
      · rw [hdue]
        exact hwait

/-- `tmr_process` on the state timer alone. -/
theorem tmrProcess_stateTimer (ticks : UInt16) (deadline : Nat) :
    tmrProcess ticks [stateTimer deadline] =
      if tmrExpired ticks (UInt16.ofNat deadline) then (some (stateTimer deadline), [])
      else (none, [stateTimer deadline]) := rfl

/-- A step of `tmr_process` looks at the clock, and leaves the state alone. -/
theorem Watch.step_tmrProcess (p : Platform) (samples : Vector UInt16 4) (n : Node)
    (now polled entered busy : Nat) :
    Watch.step p ⟨⟨n, .tmrProcess⟩, now, polled, entered, busy⟩ (.main samples) =
      ⟨mainStep p samples ⟨n, .tmrProcess⟩, now, now, entered, busy⟩ := by
  have hps : (mainStep p samples ⟨n, .tmrProcess⟩).node.ps = n.ps :=
    mainStep_ps samples (by simp) rfl
  simp [Watch.step, BmsNode.step, restarts, keepsAwake, Watch.ps, hps]

/-- `tmr_process` removes the state timer exactly when its deadline has been reached, and then a
timeout event is on its way. -/
theorem Watch.Timed.tmrProcess {p : Platform} {n : Node} {now polled entered busy : Nat}
    (h : Watch.Timed ⟨⟨n, .tmrProcess⟩, now, polled, entered, busy⟩) (samples : Vector UInt16 4) :
    (Watch.step p ⟨⟨n, .tmrProcess⟩, now, polled, entered, busy⟩ (.main samples)).Timed := by
  have hroom : now ≤ now ∧ now < now + 30000 := by omega
  have hwaiting : Watch.Waiting ⟨⟨n, .tmrProcess⟩, now, polled, entered, busy⟩ :=
    h.waiting fun held hpc => by cases hpc
  rw [Watch.step_tmrProcess]
  have hstep := mainStep_loopStep p samples ⟨n, .tmrProcess⟩
  generalize mainStep p samples ⟨n, .tmrProcess⟩ = m at hstep ⊢
  cases hstep with
  | expired _ tmr tmrlist htmr =>
      rcases hwaiting with ⟨hempty, -⟩ | ⟨deadline, htimer, hlater, hnear, hwait⟩
      · rw [show n.tmrlist = _ from hempty] at htmr
        cases htmr
      · rw [show n.tmrlist = _ from htimer, tmrProcess_stateTimer] at htmr
        by_cases hexpired : tmrExpired n.systick (UInt16.ofNat deadline) = true
        · rw [if_pos hexpired] at htmr
          cases htmr
          have hreached : deadline ≤ now := (h.expired_iff hlater hnear).mp hexpired
          refine ⟨h.systick, hroom, ?_, ?_, ?_⟩
          · intro event held hpc
            cases hpc
            exact .inr (.inl rfl)
          · intro held hpc
            refine ⟨rfl, fun tick hmem => ?_⟩
            rw [hwait tick hmem]
            exact hreached
          · intro hpc
            exact absurd rfl (hpc false)
        · rw [if_neg hexpired] at htmr
          cases htmr
  | unexpired _ tmrlist htmr =>
      refine ⟨h.systick, hroom, ?_, ?_, fun _ => ?_⟩
      · intro event held hpc
        cases hpc
      · intro held hpc
        cases hpc
      rcases hwaiting with ⟨hempty, hnone⟩ | ⟨deadline, htimer, hlater, hnear, hwait⟩
      · rw [show n.tmrlist = _ from hempty] at htmr
        cases htmr
        exact .inl ⟨rfl, hnone⟩
      · rw [show n.tmrlist = _ from htimer, tmrProcess_stateTimer] at htmr
        by_cases hexpired : tmrExpired n.systick (UInt16.ofNat deadline) = true
        · rw [if_pos hexpired] at htmr
          cases htmr
        · rw [if_neg hexpired] at htmr
          cases htmr
          have hahead : now < deadline :=
            Nat.lt_of_not_le (mt (h.expired_iff hlater hnear).mpr hexpired)
          exact .inr ⟨deadline, rfl, hahead, hnear, hwait⟩

/-- The timer list holds the state timer or nothing. -/
theorem Watch.Timed.tmrlist_cases {w : Watch} (h : w.Timed) :
    w.machine.node.tmrlist = [] ∨ ∃ deadline, w.machine.node.tmrlist = [stateTimer deadline] := by
  by_cases hpending : w.machine.TimeoutPending
  · obtain ⟨held, hpc⟩ := hpending
    exact .inl (h.timedOut held hpc).1
  · rcases h.waiting (fun held hpc => hpending ⟨held, hpc⟩) with
      ⟨hempty, -⟩ | ⟨deadline, htimer, -⟩
    · exact .inl hempty
    · exact .inr ⟨deadline, htimer⟩

/-- Starting the state timer leaves it alone in the list, with its deadline counted from now. -/
theorem Watch.Timed.startTimer {w : Watch} (h : w.Timed) (duration : UInt16) :
    w.machine.node.movedTmrlist (some duration) = [stateTimer (w.now + duration.toNat)] := by
  have hnew : tmrSet w.machine.node.systick duration = UInt16.ofNat (w.now + duration.toNat) := by
    rw [h.systick, tmrSet_ofNat]
  rw [Node.movedTmrlist, tmrSchedule, hnew]
  rcases h.tmrlist_cases with hempty | ⟨deadline, htimer⟩
  · rw [hempty]
    rfl
  · rw [htimer]
    rfl

/-- The pass that enters the idle state is a reason to stay awake. -/
theorem keepsAwake_enter {p : Platform} {n : Node} {event : Event} (held : Bool)
    (hold : n.ps ≠ .app .idle) (hnew : (appRun p event n).ps = .app .idle) :
    keepsAwake p ⟨n, .kissmRun event held⟩ = true := by
  simp [keepsAwake, hold, hnew]

/-- A command to the idle state and an idle pass that finds something active are reasons too. -/
theorem keepsAwake_idle {p : Platform} {n : Node} {event : Event} (held : Bool)
    (hold : n.ps = .app .idle) (hevent : event = .cmd ∨ event = .none ∧ n.active = true) :
    keepsAwake p ⟨n, .kissmRun event held⟩ = true := by
  rcases hevent with rfl | ⟨rfl, hactive⟩
  · simp [keepsAwake, hold]
  · simp [keepsAwake, hold, hactive]

/-- An idle pass that finds nothing active is none. -/
theorem keepsAwake_quiet {p : Platform} {n : Node} (held : Bool) (hold : n.ps = .app .idle)
    (hactive : n.active = false) : keepsAwake p ⟨n, .kissmRun .none held⟩ = false := by
  simp [keepsAwake, hold, hactive]

section Pass

variable {p : Platform} {n : Node} {event : Event} {held : Bool} {now polled entered busy : Nat}

/-- The watch behind a pass of the state machine. -/
def Watch.passed (p : Platform) (n : Node) (event : Event) (held : Bool)
    (now polled entered busy : Nat) : Watch where
  machine := ⟨appRun p event n, .loopFree held⟩
  now := now
  polled := polled
  entered := if (appRun p event n).ps = n.ps then entered else now
  busy := if keepsAwake p ⟨n, .kissmRun event held⟩ then now else busy

/-- A move that starts the state timer leaves it with the deadline the new state is due at. -/
theorem Watch.Timed.started
    (h : Watch.Timed ⟨⟨n, .kissmRun event held⟩, now, polled, entered, busy⟩) {duration : UInt16}
    (htmrlist : (appRun p event n).tmrlist = n.movedTmrlist (some duration))
    (hduration : 0 < duration.toNat ∧ duration.toNat ≤ 8000)
    (hdue : ∀ tick ∈ (Watch.passed p n event held now polled entered busy).due,
      tick = now + duration.toNat) :
    (Watch.passed p n event held now polled entered busy).Waiting := by
  have hpolls : polled ≤ now := h.polls.1
  refine .inr ⟨now + duration.toNat, htmrlist.trans (h.startTimer duration), ?_, ?_, hdue⟩
  · show polled < now + duration.toNat
    omega
  · show now + duration.toNat ≤ now + 8000
    omega

/-- A move that leaves the timers alone, when no timeout event has consumed one. -/
theorem Watch.Timed.kept
    (h : Watch.Timed ⟨⟨n, .kissmRun event held⟩, now, polled, entered, busy⟩)
    (htmrlist : (appRun p event n).tmrlist = n.movedTmrlist none) (hevent : event ≠ .timeout)
    (hdue : (Watch.passed p n event held now polled entered busy).due =
      Watch.due ⟨⟨n, .kissmRun event held⟩, now, polled, entered, busy⟩) :
    (Watch.passed p n event held now polled entered busy).Waiting := by
  have hwaiting := h.waiting fun held hpc => hevent (by cases hpc; rfl)
  rcases hwaiting with ⟨hempty, hnone⟩ | ⟨deadline, htimer, hlater, hnear, hwait⟩
  · exact .inl ⟨htmrlist.trans hempty, hdue.trans hnone⟩
  · refine .inr ⟨deadline, htmrlist.trans htimer, hlater, hnear, ?_⟩
    rw [hdue]
    exact hwait

/-- A move that leaves the timers alone after a timeout event, into a state that waits for none. -/
theorem Watch.Timed.consumed
    (h : Watch.Timed ⟨⟨n, .kissmRun .timeout held⟩, now, polled, entered, busy⟩)
    (htmrlist : (appRun p .timeout n).tmrlist = n.movedTmrlist none)
    (hdue : (Watch.passed p n .timeout held now polled entered busy).due = none) :
    (Watch.passed p n .timeout held now polled entered busy).Waiting :=
  .inl ⟨htmrlist.trans (h.timedOut held rfl).1, hdue⟩

/-- A pass of the state machine leaves the timer of the state it ends in running. -/
theorem Watch.Timed.kissmRun
    (h : Watch.Timed ⟨⟨n, .kissmRun event held⟩, now, polled, entered, busy⟩) :
    (Watch.passed p n event held now polled entered busy).Waiting := by
  obtain ⟨armed, hmove, htmrlist⟩ := appRun_moves p (h.event event held rfl) (n := n)
  generalize hps : (appRun p event n).ps = ps at hmove
  cases hmove with
  | powerup _ hold =>
      refine h.started htmrlist (by decide) ?_
      simp [Watch.due, Watch.ps, Watch.passed, hps, hold]
  | settled hold =>
      have hne : n.ps ≠ .app .idle := by rcases hold with hold | hold <;> simp [hold]
      refine h.started htmrlist (by decide) ?_
      simp [Watch.due, Watch.ps, Watch.passed, hps, keepsAwake_enter held hne hps]
  | wait _ hold htimeout =>
      refine h.kept htmrlist htimeout ?_
      rcases hold with hold | hold <;> simp [Watch.due, Watch.ps, Watch.passed, hps, hold]
  | sleep hold =>
      refine h.consumed htmrlist ?_
      simp [Watch.due, Watch.ps, Watch.passed, hps]
  | command hold =>
      refine h.started htmrlist (by decide) ?_
      simp [Watch.due, Watch.ps, Watch.passed, hps, keepsAwake_idle held hold (.inl rfl)]
  | busy hold hactive =>
      refine h.started htmrlist (by decide) ?_
      simp [Watch.due, Watch.ps, Watch.passed, hps, keepsAwake_idle held hold (.inr ⟨rfl, hactive⟩)]
  | quiet hold hactive =>
      refine h.kept htmrlist (by simp) ?_
      simp [Watch.due, Watch.ps, Watch.passed, hps, hold, keepsAwake_quiet held hold hactive]
  | dfu hold =>
      refine h.started htmrlist (by decide) ?_
      simp [Watch.due, Watch.ps, Watch.passed, hps, hold]
  | work state hold hstate =>
      refine h.started htmrlist (by decide) ?_
      rcases hstate with rfl | rfl <;> simp [Watch.due, Watch.ps, Watch.passed, hps]
  | done _ state hold hstate =>
      have hne : n.ps ≠ .app .idle := by
        rcases hstate with rfl | rfl | rfl <;> simp [hold]
      refine h.started htmrlist (by decide) ?_
      simp [Watch.due, Watch.ps, Watch.passed, hps, keepsAwake_enter held hne hps]
  | on _ hold =>
      have hdue : (Watch.passed p n event held now polled entered busy).due = none := by
        rcases hold with hold | hold <;> simp [Watch.due, Watch.ps, Watch.passed, hps, hold]
      by_cases htimeout : event = .timeout
      · subst htimeout
        exact h.consumed htmrlist hdue
      · refine h.kept htmrlist htimeout (hdue.trans ?_)
        rcases hold with hold | hold <;> simp [Watch.due, Watch.ps, hold]

end Pass

/-! ## Every action keeps the invariant -/

/-- A node that starts is timed. -/
theorem Watch.fresh_timed (p : Platform) (eeprom : Config) :
    (Watch.fresh (boot p eeprom)).Timed := by
  have hpc : (boot p eeprom).pc = .ledRun := rfl
  have hpolls : 0 ≤ 0 ∧ 0 < 0 + 30000 := by decide
  refine ⟨rfl, hpolls, ?_, ?_, fun _ => .inl ⟨rfl, rfl⟩⟩
  · intro event held hcontra
    cases hpc.symm.trans hcontra
  · intro held hcontra
    cases hpc.symm.trans hcontra

/-- An interrupt or a step of the transmitter, the tick apart. -/
theorem Watch.Timed.interrupt {w : Watch} (h : w.Timed) {machine : Machine}
    (hsteady : Steady w.machine.node machine.node) (hpc : machine.pc = w.machine.pc) :
    Watch.Timed { w with machine := machine } := by
  refine h.carry (hsteady.systick.trans h.systick) hsteady.tmrlist hsteady.ps (Nat.le_refl _)
    h.polls.2 rfl rfl rfl ?_ ?_
  · intro event held hevent
    exact h.event event held (hpc.symm.trans hevent)
  · constructor
    · rintro ⟨held, hpending⟩
      exact ⟨held, hpc.symm.trans hpending⟩
    · rintro ⟨held, hpending⟩
      exact ⟨held, hpc.trans hpending⟩

/-- The tick interrupt, while the next pass is not overdue. -/
theorem Watch.Timed.tick {p : Platform} {w : Watch} (h : w.Timed)
    (hprompt : w.now + 1 < w.polled + 30000) : (w.step p .tick).Timed := by
  refine h.carry ?_ rfl rfl (Nat.le_succ _) hprompt rfl rfl rfl h.event Iff.rfl
  show w.machine.node.systick + 1 = UInt16.ofNat (w.now + 1)
  rw [h.systick, UInt16.ofNat_add]
  rfl

/-- A program point of the main loop. -/
theorem Watch.Timed.main {p : Platform} {w : Watch} (h : w.Timed) (samples : Vector UInt16 4) :
    (w.step p (.main samples)).Timed := by
  obtain ⟨⟨n, pc⟩, now, polled, entered, busy⟩ := w
  by_cases htmr : pc = .tmrProcess
  · subst htmr
    exact h.tmrProcess samples
  by_cases hkissm : ∃ event held, pc = .kissmRun event held
  · obtain ⟨event, held, rfl⟩ := hkissm
    refine ⟨(appRun_frame p event n).systick.trans h.systick, h.polls, ?_, ?_, fun _ => h.kissmRun⟩
    · intro event held hpc
      cases hpc
    · intro held hpc
      cases hpc
  have hother : ∀ event held, pc ≠ .kissmRun event held := fun event held hpc =>
    hkissm ⟨event, held, hpc⟩
  cases hrestart : restarts p ⟨n, pc⟩ with
  | true =>
      have hstep : Watch.step p ⟨⟨n, pc⟩, now, polled, entered, busy⟩ (.main samples) =
          Watch.fresh (mainStep p samples ⟨n, pc⟩) := if_pos hrestart
      obtain ⟨eeprom, hboot⟩ := mainStep_restart samples hrestart
      rw [hstep, hboot]
      exact Watch.fresh_timed p eeprom
  | false =>
      obtain ⟨hsteady, hevent⟩ := mainStep_steady samples htmr hother hrestart
      have hstep : Watch.step p ⟨⟨n, pc⟩, now, polled, entered, busy⟩ (.main samples) =
          ⟨mainStep p samples ⟨n, pc⟩, now, polled, entered, busy⟩ := by
        have hawake : keepsAwake p ⟨n, pc⟩ = false := by
          cases pc with
          | kissmRun event held => exact absurd rfl (hother event held)
          | _ => rfl
        simp [Watch.step, BmsNode.step, Watch.ps, hrestart, hawake, htmr, hsteady.ps]
      rw [hstep]
      refine h.carry (hsteady.systick.trans h.systick) hsteady.tmrlist hsteady.ps (Nat.le_refl _)
        h.polls.2 rfl rfl rfl ?_ ?_
      · intro event held hpc
        rcases hevent event held hpc with rfl | rfl
        · exact .inl rfl
        · exact .inr (.inr rfl)
      · constructor
        · rintro ⟨held, hpc⟩
          rcases hevent _ held hpc with hnone | hcmd
          · cases hnone
          · cases hcmd
        · rintro ⟨held, hpc⟩
          exact absurd hpc (hother _ held)

/-- Every action keeps the invariant. -/
theorem Watch.Timed.step {p : Platform} {w : Watch} (h : w.Timed) {action : Action}
    (hprompt : w.Prompt action) : (w.step p action).Timed := by
  have hother (htick : action ≠ .tick) (hmain : action.isMain = false) :
      Watch.Timed { w with machine := BmsNode.step p w.machine action } := by
    obtain ⟨hsteady, hpc⟩ := interrupt_steady (p := p) (m := w.machine) htick hmain
    exact h.interrupt hsteady hpc
  cases action with
  | tick => exact h.tick hprompt
  | rx byte | dre | txc | shift => exact hother (by simp) rfl
  | main samples => exact h.main samples

/-! ## Runs -/

/-- The changes of state in the state diagram. -/
inductive StateEdge : KissmState AppState → KissmState AppState → Prop where
  | powerup : StateEdge .initial (.app .powerup)
  | settled : StateEdge (.app .powerup) (.app .idle)
  | leave (state : AppState)
      (hstate : state = .dfu ∨ state = .shunt ∨ state = .testmode ∨ state = .sleep) :
      StateEdge (.app .idle) (.app state)
  | back (state : AppState)
      (hstate : state = .dfu ∨ state = .shunt ∨ state = .testmode ∨ state = .sleep) :
      StateEdge (.app state) (.app .idle)

/-- The ticks a change of state has to wait for. -/
structure Watch.Waited (w : Watch) (next : KissmState AppState) : Prop where
  powerup : w.ps = .app .powerup → next = .app .idle → w.entered + 1000 ≤ w.now
  dfu : w.ps = .app .dfu → next = .app .idle → w.entered + 8000 ≤ w.now
  sleep : w.ps = .app .idle → next = .app .sleep → w.busy + 1000 ≤ w.now

/-- A state that is over has waited long enough for any change. -/
theorem Watch.TimedOut.waited {w : Watch} (h : w.TimedOut) (next : KissmState AppState) :
    w.Waited next := by
  obtain ⟨-, hover⟩ := h
  refine ⟨fun hps _ => ?_, fun hps _ => ?_, fun hps _ => ?_⟩
  · exact hover _ (by simp [Watch.due, hps])
  · exact hover _ (by simp [Watch.due, hps])
  · exact hover _ (by simp [Watch.due, hps])

/-- A pass keeps the state or makes one of the changes of the diagram. -/
theorem AppMove.edge {n : Node} {event : Event} {next : KissmState AppState} {armed : Option UInt16}
    (h : AppMove n event next armed) : next = n.ps ∨ StateEdge n.ps next := by
  cases h with
  | powerup _ hold =>
      rw [hold]
      exact .inr .powerup
  | settled hold =>
      right
      rcases hold with hold | hold
      · rw [hold]
        exact .settled
      · rw [hold]
        exact .back .dfu (.inl rfl)
  | wait _ _ _ => exact .inl rfl
  | sleep hold =>
      rw [hold]
      exact .inr (.leave .sleep (.inr (.inr (.inr rfl))))
  | command hold => exact .inl hold.symm
  | busy hold _ => exact .inl hold.symm
  | quiet hold _ => exact .inl hold.symm
  | dfu hold =>
      rw [hold]
      exact .inr (.leave .dfu (.inl rfl))
  | work state hold hstate =>
      rw [hold]
      refine .inr (.leave state ?_)
      rcases hstate with rfl | rfl
      · exact .inr (.inl rfl)
      · exact .inr (.inr (.inl rfl))
  | done _ state hold hstate =>
      rw [hold]
      exact .inr (.back state (.inr hstate))
  | on _ _ => exact .inl rfl

/-- Without a timeout event none of the changes that wait for the timer is made. -/
theorem AppMove.untimed {n : Node} {event : Event} {next : KissmState AppState}
    {armed : Option UInt16} (h : AppMove n event next armed) (hevent : event ≠ .timeout) :
    (n.ps = .app .powerup ∨ n.ps = .app .dfu → next = n.ps) ∧
      (n.ps = .app .idle → next ≠ .app .sleep) := by
  cases h with
  | settled _ => exact absurd rfl hevent
  | sleep _ => exact absurd rfl hevent
  | powerup _ hold => simp [hold]
  | wait _ hold _ => rcases hold with hold | hold <;> simp [hold]
  | command hold => simp [hold]
  | busy hold _ => simp [hold]
  | quiet hold _ => simp [hold]
  | dfu hold => simp [hold]
  | work state hold hstate => rcases hstate with rfl | rfl <;> simp [hold]
  | done _ state hold hstate => rcases hstate with rfl | rfl | rfl <;> simp [hold]
  | on _ hold => rcases hold with hold | hold <;> simp [hold]

/-- A pass keeps the state or makes one of the changes, no earlier than it may. -/
theorem Watch.Timed.pass {p : Platform} {n : Node} {event : Event} {held : Bool}
    {now polled entered busy : Nat}
    (h : Watch.Timed ⟨⟨n, .kissmRun event held⟩, now, polled, entered, busy⟩) :
    ((appRun p event n).ps = n.ps ∨ StateEdge n.ps (appRun p event n).ps) ∧
      Watch.Waited ⟨⟨n, .kissmRun event held⟩, now, polled, entered, busy⟩ (appRun p event n).ps := by
  obtain ⟨armed, hmove, -⟩ := appRun_moves p (h.event event held rfl) (n := n)
  refine ⟨hmove.edge, ?_⟩
  by_cases htimeout : event = .timeout
  · subst htimeout
    exact (h.timedOut held rfl).waited _
  · obtain ⟨hwait, hawake⟩ := hmove.untimed htimeout
    refine ⟨fun hps hnext => ?_, fun hps hnext => ?_, fun hps hnext => ?_⟩
    · have hsame := hwait (.inl hps)
      rw [hnext, show n.ps = _ from hps] at hsame
      cases hsame
    · have hsame := hwait (.inr hps)
      rw [hnext, show n.ps = _ from hps] at hsame
      cases hsame
    · exact absurd hnext (hawake hps)

/-- A step that keeps the state waits for nothing. -/
theorem Watch.waited_same (w : Watch) : w.Waited w.ps := by
  refine ⟨fun hps hnext => ?_, fun hps hnext => ?_, fun hps hnext => ?_⟩
  · rw [hps] at hnext
    cases hnext
  · rw [hps] at hnext
    cases hnext
  · rw [hps] at hnext
    cases hnext

/-- A step that does not restart the firmware keeps the state, or makes a change no earlier than it
may. -/
theorem Watch.Timed.change {p : Platform} {w : Watch} (h : w.Timed) (action : Action)
    (hrestart : ∀ samples, action = .main samples → restarts p w.machine = false) :
    ((w.step p action).ps = w.ps ∨ StateEdge w.ps (w.step p action).ps) ∧
      w.Waited (w.step p action).ps := by
  have hsame (hps : (w.step p action).ps = w.ps) :
      ((w.step p action).ps = w.ps ∨ StateEdge w.ps (w.step p action).ps) ∧
        w.Waited (w.step p action).ps := by
    rw [hps]
    exact ⟨.inl rfl, w.waited_same⟩
  cases action with
  | tick | rx byte | dre | txc | shift => exact hsame (interrupt_app rfl).1
  | main samples =>
      have hnot := hrestart samples rfl
      have hps : (w.step p (.main samples)).ps = (mainStep p samples w.machine).node.ps := by
        simp [Watch.step, Watch.ps, BmsNode.step, hnot]
      obtain ⟨⟨n, pc⟩, now, polled, entered, busy⟩ := w
      by_cases hkissm : ∃ event held, pc = .kissmRun event held
      · obtain ⟨event, held, rfl⟩ := hkissm
        rw [hps]
        exact h.pass
      · exact hsame (hps.trans (mainStep_ps samples
          (fun event held hpc => hkissm ⟨event, held, hpc⟩) hnot))

/-- The application over whole runs whose passes are prompt. A step that does not restart the
firmware keeps the state or makes one of the changes of the diagram, from powerup and dfu no earlier
than their delays after entering them, and to sleep no earlier than a second after the last reason
to stay awake. At the end of a pass in a state that waits for its timer, that is the only timer, due
at most 8000 ticks from now, and it expires exactly when it is due. -/
theorem state_machine_runs (p : Platform) (eeprom : Config) (actions : List Action)
    (hprompt : Meets (Watch.step p) Watch.Prompt (Watch.fresh (boot p eeprom)) actions) :
    let w := run (Watch.step p) (Watch.fresh (boot p eeprom)) actions
    (∀ action, (∀ samples, action = .main samples → restarts p w.machine = false) →
        ((w.step p action).ps = w.ps ∨ StateEdge w.ps (w.step p action).ps) ∧
          w.Waited (w.step p action).ps) ∧
      (w.machine.pc = .ledRun →
        w.ps = .app .powerup ∨ w.ps = .app .idle ∨ w.ps = .app .dfu →
        ∃ deadline, w.machine.node.tmrlist = [stateTimer deadline] ∧ deadline ≤ w.now + 8000 ∧
          (tmrExpired w.machine.node.systick (stateTimer deadline).timeout = true ↔
            deadline ≤ w.now)) := by
  intro w
  have hw : w.Timed := run_invariant (fun w action h hok => h.step hok)
    (Watch.fresh_timed p eeprom) hprompt
  refine ⟨fun action hrestart => hw.change action hrestart, fun hpc hstate => ?_⟩
  have hidle : ∀ held, w.machine.pc ≠ .kissmRun .timeout held := by
    intro held hcontra
    rw [hpc] at hcontra
    cases hcontra
  rcases hw.waiting hidle with ⟨-, hnone⟩ | ⟨deadline, htimer, hlater, hnear, -⟩
  · rw [Watch.due] at hnone
    rcases hstate with hps | hps | hps
    · simp [hps] at hnone
    · simp [hps] at hnone
    · simp [hps] at hnone
  · exact ⟨deadline, htimer, hnear, hw.expired_iff hlater hnear⟩

/-- The first pass, a second, and the pass that leaves the powerup state. -/
def settling : List Action :=
  let points := fun count => List.replicate count (Action.main (Vector.replicate 4 0))
  points 7 ++ List.replicate 1000 .tick ++ points 5

/-- A node that is left alone for a second after its first pass has its timer running at the end of
the next one, which is in the idle state. -/
theorem state_machine_runs_settled :
    let w := run (Watch.step benchBoard) (Watch.fresh (boot benchBoard (Vector.replicate 26 0xFF)))
      settling
    ∃ deadline, w.machine.node.tmrlist = [stateTimer deadline] ∧ deadline ≤ w.now + 8000 ∧
      (tmrExpired w.machine.node.systick (stateTimer deadline).timeout = true ↔
        deadline ≤ w.now) :=
  (state_machine_runs benchBoard (Vector.replicate 26 0xFF) settling (by decide +kernel)).2
    (by decide +kernel) (.inr (.inl (by decide +kernel)))

end BmsNode
