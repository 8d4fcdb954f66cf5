import BmsNode.Machine.Ownership
import BmsNode.Machine.ReplyRoom
import BmsNode.Machine.StateRuns
import BmsNode.Transition.Progress

/-!
# A waiting packet is served

A pass that finds a timer expired hands the timeout to the state machine and does not look
at the packets. Every timer is started for a second or more, so with passes less than a
second apart no two in a row are spent that way, and a packet waits for two passes at
most. Only the timeout of `cmd_process` can come before it: a packet that completes
between `pkt_ready` and the check of the timeout is dropped with it.
-/

namespace BmsNode

open Transition

namespace Watch

/-- Passes are less than a second apart, at the point where they look at the clock. -/
def Quick (w : Watch) : Action → Prop
  | .tick => w.now + 1 < w.polled + 1000
  | _ => True

/-- The condition can be checked. -/
instance (w : Watch) : ∀ action, Decidable (w.Quick action)
  | .tick => inferInstanceAs (Decidable (_ < _))
  | .rx _ | .dre | .txc | .shift | .main _ => isTrue trivial

/-- Quick passes are prompt. -/
theorem Quick.prompt {w : Watch} {action : Action} (h : w.Quick action) : w.Prompt action := by
  cases action with
  | tick => exact Nat.lt_of_lt_of_le h (Nat.add_le_add_left (by decide) _)
  | rx | dre | txc | shift | main => exact trivial

/-- The timers leave the next pass alone: none is running, or only the state timer, with its
deadline a second or more after the last look at the clock. -/
def Clear (w : Watch) : Prop :=
  w.machine.node.tmrlist = [] ∨
    ∃ deadline, w.machine.node.tmrlist = [stateTimer deadline] ∧ w.polled + 1000 ≤ deadline ∧
      deadline ≤ w.now + 8000

end Watch

/-! ## How far it is to `pkt_ready` -/

/-- The program points before `pkt_ready`, when no timer has expired. -/
def Control.toReady : Control → Nat
  | .pktReady => 0
  | .tmrProcess => 1
  | .adcRun => 2
  | .ledRun => 3
  | .loopFree _ => 4
  | .kissmRun _ _ => 5
  | .arm | .giveUp => 6
  | .waitCheck => 7
  | .rxFree => 8
  | .dispatch => 9

open Classical in
/-- The program points before `pkt_ready`, at most: five more when the timer may expire. -/
noncomputable def Watch.toServe (w : Watch) : Nat :=
  if w.machine.pc = .pktReady ∨ w.Clear then w.machine.pc.toReady
  else w.machine.pc.toReady + 5

/-- An expired timer costs five program points. -/
theorem Watch.toServe_le (w : Watch) : w.toServe ≤ w.machine.pc.toReady + 5 := by
  unfold Watch.toServe
  split
  · omega
  · exact Nat.le_refl _

/-- It is no less. -/
theorem Watch.toReady_le (w : Watch) : w.machine.pc.toReady ≤ w.toServe := by
  unfold Watch.toServe
  split
  · exact Nat.le_refl _
  · omega

/-- When the timers leave the next pass alone nothing else comes before `pkt_ready`. -/
theorem Watch.Clear.toServe {w : Watch} (h : w.Clear) : w.toServe = w.machine.pc.toReady :=
  if_pos (.inr h)

/-- Otherwise a pass may be spent on the timer. -/
theorem Watch.toServe_expiring {w : Watch} (hpc : w.machine.pc ≠ .pktReady) (h : ¬w.Clear) :
    w.toServe = w.machine.pc.toReady + 5 :=
  if_neg (not_or.mpr ⟨hpc, h⟩)

/-- Going on by `count` program points, with the timers no worse than before. -/
theorem Watch.toServe_step {w w' : Watch} {count : Nat} (hclear : w.Clear → w'.Clear)
    (hready : w.machine.pc = .pktReady → w'.machine.pc = .pktReady)
    (hpc : w'.machine.pc.toReady + count ≤ w.machine.pc.toReady) :
    w'.toServe + count ≤ w.toServe := by
  by_cases h : w.machine.pc = .pktReady ∨ w.Clear
  · have hbefore : w.toServe = w.machine.pc.toReady := if_pos h
    have hafter : w'.toServe = w'.machine.pc.toReady := if_pos (h.imp hready hclear)
    omega
  · have hbefore : w.toServe = w.machine.pc.toReady + 5 := if_neg h
    have hafter := w'.toServe_le
    omega

/-! ## While a packet waits -/

/-- The pass has looked for a packet and is about to check the timeout, or has found it over. -/
def Control.checking : Control → Bool
  | .waitCheck | .giveUp => true
  | _ => false

/-- A packet waits for the main loop, in a run with quick passes. `missed` says whether the pass it
came in can still drop it. -/
structure Watch.Pending (packet : RxBuf) (missed : Bool) (w : Watch) : Prop where
  timed : w.Timed
  quick : w.now < w.polled + 1000
  owned : Owned w.machine (.waiting packet)
  missed : w.machine.pc.checking = true → missed = true

/-- The wait is over: the packet is dispatched, or the pass it came in drops it. -/
def Machine.Settles (packet : RxBuf) (missed : Bool) (m : Machine) : Prop :=
  m.pc = .dispatch ∧ m.node.pkt.rxbuf = packet ∨ missed = true ∧ m.pc = .giveUp

/-- Every duration of the state timer is a second or more. -/
theorem AppMove.second {n : Node} {event : Event} {next : KissmState AppState} {duration : UInt16}
    (h : AppMove n event next (some duration)) : 1000 ≤ duration.toNat := by
  cases h with
  | powerup | settled | command | busy | dfu | work | done => decide

/-- A packet goes on waiting over an action without an event of its own. -/
theorem Owned.waits {p : Platform} {m : Machine} {packet : RxBuf} (h : Owned m (.waiting packet))
    {action : Action} (hevents : packetEvents p m action = []) :
    Owned (step p m action) (.waiting packet) := by
  obtain ⟨next, hfollow, hnext⟩ := step_owned (p := p) h action
  rw [hevents] at hfollow
  obtain rfl := Option.some.inj hfollow
  exact hnext

/-- While a packet waits no received byte completes another. -/
theorem Owned.deaf {p : Platform} {m : Machine} {packet : RxBuf} (h : Owned m (.waiting packet))
    {action : Action} (hmain : action.isMain = false) : packetEvents p m action = [] := by
  cases action with
  | main samples => cases hmain
  | tick | dre | txc | shift => rfl
  | rx byte =>
      have hlisten : Listening m.node.pkt := h.1.1
      refine if_neg fun hcheck => ?_
      rcases hlisten with hstate | hstate
      · rw [hstate] at hcheck
        cases hcheck.1
      · rw [hstate] at hcheck
        cases hcheck.1

/-- A program point at which the main loop holds no packet does not restart the firmware. -/
theorem Watch.step_unheld (p : Platform) {w : Watch} (hheld : w.machine.pc.held = false)
    (samples : Vector UInt16 4) :
    (w.step p (.main samples)).machine = mainStep p samples w.machine ∧
      (w.step p (.main samples)).now = w.now ∧
      (w.step p (.main samples)).polled =
        if w.machine.pc = .tmrProcess then w.now else w.polled := by
  have hstays : restarts p w.machine = false := by
    unfold restarts
    split
    · next hpc =>
        rw [hpc] at hheld
        cases hheld
    · rfl
  simp only [Watch.step, hstays, Bool.false_eq_true, if_false, BmsNode.step, and_self]

/-- A timer that leaves the pass alone is not expired when the pass looks at it. -/
theorem Watch.Clear.unexpired {w : Watch} (h : w.Clear) (htimed : w.Timed)
    (hquick : w.now < w.polled + 1000) :
    tmrProcess w.machine.node.systick w.machine.node.tmrlist = (none, w.machine.node.tmrlist) := by
  rcases h with hempty | ⟨deadline, htimer, hfar, hnear⟩
  · rw [hempty]
    rfl
  · have hahead : ¬tmrExpired w.machine.node.systick (UInt16.ofNat deadline) = true := by
      rw [htimed.expired_iff (by omega) hnear]
      omega
    rw [htimer, tmrProcess_stateTimer, if_neg hahead]

/-- A pass of the state machine keeps the timers off the next pass. -/
theorem Watch.Clear.kissmRun {p : Platform} {w w' : Watch} (h : w.Clear) (htimed : w.Timed)
    {event : Event} {held : Bool} (hpc : w.machine.pc = .kissmRun event held)
    (htmrlist : w'.machine.node.tmrlist = (appRun p event w.machine.node).tmrlist)
    (hnow : w'.now = w.now) (hpolled : w'.polled = w.polled) : w'.Clear := by
  have hpolls := htimed.polls.1
  obtain ⟨armed, hmove, hmoved⟩ :=
    appRun_moves p (htimed.event event held hpc) (n := w.machine.node)
  unfold Watch.Clear
  rw [htmrlist, hmoved, hnow, hpolled]
  cases armed with
  | none => exact h
  | some duration =>
      have hsecond := hmove.second
      have hshort := hmove.duration.2
      exact .inr ⟨w.now + duration.toNat, htimed.startTimer duration, by omega, by omega⟩

/-! ## Every action -/

/-- An interrupt or a step of the transmitter leaves the packet waiting, as far from `pkt_ready` as
before. -/
theorem Watch.Pending.interrupt {p : Platform} {packet : RxBuf} {missed : Bool} {w : Watch}
    (h : w.Pending packet missed) {action : Action} (hmain : action.isMain = false)
    (hquick : w.Quick action) :
    (w.step p action).Pending packet missed ∧ (w.step p action).toServe ≤ w.toServe := by
  have howned : Owned (w.step p action).machine (.waiting packet) := by
    have hnext := h.owned.waits (h.owned.deaf (p := p) hmain)
    cases action with
    | main samples => cases hmain
    | tick | rx | dre | txc | shift => exact hnext
  have htimed := h.timed.step (p := p) hquick.prompt
  have hpc : (w.step p action).machine.pc = w.machine.pc := by
    cases action with
    | main samples => cases hmain
    | tick | rx | shift => rfl
    | dre | txc =>
        simp only [Watch.step, BmsNode.step]
        split_ifs
        · rfl
        · rfl
  have htmrlist : (w.step p action).machine.node.tmrlist = w.machine.node.tmrlist := by
    cases action with
    | main samples => cases hmain
    | tick | rx | shift => rfl
    | dre | txc =>
        simp only [Watch.step, BmsNode.step]
        split_ifs
        · rfl
        · rfl
  have hclock : (w.step p action).polled = w.polled ∧ w.now ≤ (w.step p action).now ∧
      (w.step p action).now < w.polled + 1000 := by
    cases action with
    | main samples => cases hmain
    | tick => exact ⟨rfl, Nat.le_succ _, hquick⟩
    | rx | dre | txc | shift => exact ⟨rfl, Nat.le_refl _, h.quick⟩
  obtain ⟨hpolled, hnow, hlimit⟩ := hclock
  have hmissed : (w.step p action).machine.pc.checking = true → missed = true := by
    rw [hpc]
    exact h.missed
  refine ⟨⟨htimed, by rw [hpolled]; exact hlimit, howned, hmissed⟩, ?_⟩
  have hsame : (w.step p action).machine.pc.toReady + 0 ≤ w.machine.pc.toReady := by
    rw [hpc]
    exact Nat.le_refl _
  refine Watch.toServe_step ?_ (fun hready => hpc.trans hready) hsame
  rintro (hempty | ⟨deadline, htimer, hfar, hnear⟩)
  · exact .inl (htmrlist.trans hempty)
  · exact .inr ⟨deadline, htmrlist.trans htimer, by omega, by omega⟩

/-- A program point of the main loop ends the wait, or comes closer to `pkt_ready`. -/
theorem Watch.Pending.main {p : Platform} {packet : RxBuf} {missed : Bool} {w : Watch}
    (h : w.Pending packet missed) (samples : Vector UInt16 4) :
    w.machine.Settles packet missed ∨ (w.step p (.main samples)).machine.Settles packet missed ∨
      (w.step p (.main samples)).Pending packet missed ∧
        (w.step p (.main samples)).toServe + 1 ≤ w.toServe := by
  have hheld : w.machine.pc.held = false := h.owned.2
  have hquick := h.quick
  obtain ⟨hmachine, hnow, hpolled⟩ := Watch.step_unheld p hheld samples
  have hprompt : w.Prompt (.main samples) := trivial
  have htimed := h.timed.step (p := p) hprompt
  have hwaits (hevents : packetEvents p w.machine (.main samples) = []) :
      Owned (w.step p (.main samples)).machine (.waiting packet) := by
    rw [hmachine]
    exact h.owned.waits hevents
  have hlimit : (w.step p (.main samples)).now < (w.step p (.main samples)).polled + 1000 := by
    rw [hnow, hpolled]
    split
    · omega
    · exact hquick
  have hstep := mainStep_loopStep p samples w.machine
  rw [← hmachine] at hstep
  generalize w.step p (.main samples) = w' at hstep hnow hpolled htimed hwaits hlimit ⊢
  obtain ⟨⟨n, pc⟩, now, polled, entered, busy⟩ := w
  obtain ⟨m', now', polled', entered', busy'⟩ := w'
  obtain rfl : now' = now := hnow
  -- a step that leaves the timers and the clock alone
  have hkeeps {n' : Node} {pc pc' : Control} (htmrlist : n'.tmrlist = n.tmrlist)
      (hsame : polled' = polled) :
      Watch.Clear ⟨⟨n, pc⟩, now', polled, entered, busy⟩ →
        Watch.Clear ⟨⟨n', pc'⟩, now', polled', entered', busy'⟩ := by
    rw [hsame, Watch.Clear, Watch.Clear, htmrlist]
    exact id
  cases hstep with
  | rxFree | freed | restart | returned | handled => cases hheld
  | giveUp => exact .inl (.inr ⟨h.missed rfl, rfl⟩)
  | overdue => exact .inr (.inl (.inr ⟨h.missed rfl, rfl⟩))
  | ready => exact .inr (.inl (.inl ⟨rfl, h.owned.1.2.2.2⟩))
  | notReady n hready =>
      have hcontra : n.pkt.readyPacket = true := h.owned.1.2.2.1
      rw [hready] at hcontra
      cases hcontra
  | ledRun | adcRun | waiting | active | inactive | arm | loop =>
      refine .inr (.inr ⟨⟨htimed, hlimit, hwaits rfl, by simp [Control.checking]⟩, ?_⟩)
      exact Watch.toServe_step (hkeeps rfl hpolled) (by simp) (by simp [Control.toReady])
  | kissmRun n event held =>
      refine .inr (.inr ⟨⟨htimed, hlimit, hwaits rfl, by simp [Control.checking]⟩, ?_⟩)
      refine Watch.toServe_step (fun hclear => ?_) (by simp) (by simp [Control.toReady])
      exact hclear.kissmRun h.timed rfl rfl rfl hpolled
  | unexpired n tmrlist htmr =>
      refine .inr (.inr ⟨⟨htimed, hlimit, hwaits rfl, by simp [Control.checking]⟩, ?_⟩)
      have hnext : Watch.toServe ⟨⟨{ n with tmrlist := tmrlist }, .pktReady⟩, now', polled',
          entered', busy'⟩ = 0 := if_pos (.inl rfl)
      have hbefore := Watch.toReady_le ⟨⟨n, .tmrProcess⟩, now', polled, entered, busy⟩
      rw [Control.toReady] at hbefore
      omega
  | expired n tmr tmrlist htmr =>
      refine .inr (.inr ⟨⟨htimed, hlimit, hwaits rfl, by simp [Control.checking]⟩, ?_⟩)
      -- the pass is spent on the timer, and leaves none
      obtain rfl := (OneTimer.expired (h.timed.tmrlist_cases.imp_right
        fun ⟨deadline, htimer⟩ => ⟨_, htimer⟩) htmr).2
      have hexpiring : ¬Watch.Clear ⟨⟨n, .tmrProcess⟩, now', polled, entered, busy⟩ := by
        intro hclear
        have hcontra := hclear.unexpired h.timed hquick
        rw [htmr] at hcontra
        cases hcontra
      have hbefore := Watch.toServe_expiring (by simp) hexpiring
      have hclear : Watch.Clear ⟨⟨{ n with tmrlist := [] },
          .kissmRun (if tmr.id = stateTmrId then .timeout else .none) false⟩, now', polled',
          entered', busy'⟩ := .inl rfl
      rw [hbefore, hclear.toServe]
      exact Nat.le_refl _

/-- Until the wait is over, every program point comes closer to `pkt_ready` and nothing else goes
back. -/
theorem Watch.Pending.step {p : Platform} {packet : RxBuf} {missed : Bool} {w : Watch}
    (h : w.Pending packet missed) {action : Action} (hquick : w.Quick action)
    (hwaits : ¬w.machine.Settles packet missed) :
    (w.step p action).machine.Settles packet missed ∨
      (w.step p action).Pending packet missed ∧
        (w.step p action).toServe + action.isMain.toNat ≤ w.toServe := by
  cases hmain : action.isMain with
  | false => exact .inr (h.interrupt hmain hquick)
  | true =>
      cases action with
      | tick | rx | dre | txc | shift => cases hmain
      | main samples => exact (h.main samples).resolve_left hwaits

/-! ## Runs -/

/-- What holds of every run with quick passes: the clock is kept, and the buffer has an owner. -/
structure Watch.Kept (w : Watch) : Prop where
  timed : w.Timed
  quick : w.now < w.polled + 1000
  owned : ∃ owner, Owned w.machine owner

/-- A step of the machine under its clock. -/
theorem Watch.step_machine (p : Platform) (w : Watch) (action : Action) :
    (w.step p action).machine = BmsNode.step p w.machine action := by
  cases action with
  | tick | rx | dre | txc | shift => rfl
  | main samples =>
      simp only [Watch.step]
      split
      · rfl
      · rfl

/-- The passes of a run stay quick. -/
theorem Watch.step_quick {p : Platform} {w : Watch} (h : w.now < w.polled + 1000)
    {action : Action} (hquick : w.Quick action) :
    (w.step p action).now < (w.step p action).polled + 1000 := by
  cases action with
  | tick => exact hquick
  | rx | dre | txc | shift => exact h
  | main samples =>
      simp only [Watch.step]
      split
      · show 0 < 0 + 1000
        decide
      · show w.now < (if w.machine.pc = .tmrProcess then w.now else w.polled) + 1000
        split
        · omega
        · exact h

/-- Every action keeps it. -/
theorem Watch.Kept.step {p : Platform} {w : Watch} (h : w.Kept) {action : Action}
    (hquick : w.Quick action) : (w.step p action).Kept := by
  obtain ⟨owner, howned⟩ := h.owned
  obtain ⟨next, -, hnext⟩ := step_owned (p := p) howned action
  refine ⟨h.timed.step hquick.prompt, Watch.step_quick h.quick hquick, next, ?_⟩
  rw [Watch.step_machine]
  exact hnext

/-- The firmware starts so. -/
theorem Watch.fresh_kept (p : Platform) (eeprom : Config) : (Watch.fresh (boot p eeprom)).Kept := by
  have hnow : 0 < 0 + 1000 := by decide
  exact ⟨Watch.fresh_timed p eeprom, hnow, .none, boot_owned p eeprom⟩

/-- A packet in the ready flag is waiting. -/
theorem Watch.Kept.pending {w : Watch} (h : w.Kept)
    (hready : w.machine.node.pkt.readyPacket = true) :
    w.Pending w.machine.node.pkt.rxbuf w.machine.pc.checking := by
  obtain ⟨owner, howned⟩ := h.owned
  refine ⟨h.timed, h.quick, ?_, id⟩
  have howner := howned.1
  cases owner with
  | none =>
      rw [howner.1] at hready
      cases hready
  | client packet =>
      rw [howner.2.2.1] at hready
      cases hready
  | waiting packet =>
      rw [howner.2.2.2]
      exact howned

/-- A packet is never farther than twelve program points from `pkt_ready`. -/
theorem Watch.Pending.toServe {packet : RxBuf} {missed : Bool} {w : Watch}
    (h : w.Pending packet missed) : w.toServe ≤ 12 := by
  have hheld : w.machine.pc.held = false := h.owned.2
  have hreach : w.machine.pc.toReady ≤ 7 := by
    generalize w.machine.pc = pc at hheld ⊢
    cases pc with
    | dispatch | rxFree => cases hheld
    | _ => simp [Control.toReady]
  have hexpiring := w.toServe_le
  omega

/-- No packet starves: from every state of every run with passes less than a second apart in which a
complete packet waits in the buffer, and whatever interrupts come, the main loop dispatches that
packet within 13 of its program points. The only other end is that the pass in progress, which had
looked for a packet already, drops it on its timeout. -/
theorem waiting_packet_served (p : Platform) (eeprom : Config) (actions : List Action)
    (hquick : Meets (Watch.step p) Watch.Quick (Watch.fresh (boot p eeprom)) actions) :
    let w := run (Watch.step p) (Watch.fresh (boot p eeprom)) actions
    w.machine.node.pkt.readyPacket = true →
      ∀ more, Meets (Watch.step p) Watch.Quick w more → 13 ≤ more.countP Action.isMain →
        ∃ done rest, more = done ++ rest ∧
          let m := (run (Watch.step p) w done).machine
          m.pc = .dispatch ∧ m.node.pkt.rxbuf = w.machine.node.pkt.rxbuf ∨
            (w.machine.pc = .waitCheck ∨ w.machine.pc = .giveUp) ∧ m.pc = .giveUp := by
  intro w hready more hmore hmany
  have hkept : w.Kept :=
    run_invariant (fun w action h hok => h.step hok) (Watch.fresh_kept p eeprom) hquick
  have hpending := hkept.pending hready
  have hnear := hpending.toServe
  have hpoints : w.toServe < countOf (Watch.step p) (fun _ action => action.isMain) w more := by
    rw [countOf_countP]
    omega
  obtain ⟨done, rest, hsplit, hsettles⟩ := run_progress
    (fun w' => w'.machine.Settles w.machine.node.pkt.rxbuf w.machine.pc.checking) Watch.toServe
    (fun w' action hwaits hok hgoal => hwaits.step hok hgoal) hpending hmore hpoints
  refine ⟨done, rest, hsplit, hsettles.imp_right fun ⟨hchecking, hdrop⟩ => ⟨?_, hdrop⟩⟩
  generalize w.machine.pc = pc at hchecking
  cases pc with
  | waitCheck => exact .inl rfl
  | giveUp => exact .inr rfl
  | _ => cases hchecking

/-- The bytes of a PING for the node at address 1. -/
def pingReceived : List Action :=
  (pktPreamble :: (Frame.mk 0 1 Cmd.ping 0 []).wire).map .rx

/-- A PING that a node receives before its first pass is dispatched within 13 program points. -/
theorem waiting_packet_served_ping :
    let w := run (Watch.step benchBoard)
      (Watch.fresh (boot benchBoard (freshNode benchBoard 1).cfg.eeprom)) pingReceived
    ∃ done rest, List.replicate 13 (Action.main (Vector.replicate 4 0)) = done ++ rest ∧
      let m := (run (Watch.step benchBoard) w done).machine
      m.pc = .dispatch ∧ m.node.pkt.rxbuf = w.machine.node.pkt.rxbuf ∨
        (w.machine.pc = .waitCheck ∨ w.machine.pc = .giveUp) ∧ m.pc = .giveUp :=
  waiting_packet_served benchBoard (freshNode benchBoard 1).cfg.eeprom pingReceived
    (by decide +kernel) (by decide +kernel) _ (by decide +kernel) (by decide +kernel)

end BmsNode
