import BmsNode.Machine.Attention
import BmsNode.Machine.LoadSafety
import BmsNode.Transition.Schedule

/-!
# The time of a test function

The seconds of a test function are a schedule that the testmode state polls. A test that
was started while another state was present is not polled, so the node can come into the
testmode state with any timeout, even one that the wrapping clock takes for half its
range ahead. The schedule then begins late or catches up, and still ends: `Minute`
bounds when. With `Machine.Attention` and `Machine.LoadSafety` this bounds how long a
node drives its load without attention.
-/

namespace BmsNode

open Transition

/-! ## Commands -/

/-- The packet starts a test function. -/
def StartsTest (n : Node) (buf : RxBuf) : Prop :=
  n.nodeid ≠ 0 ∧ buf.addr = n.nodeid ∧ buf.cmd = Cmd.testmode ∧ buf.payload 0 ≠ 0 ∧
    buf.payload 1 = 0xCA ∧ buf.payload 2 = 0xFE

/-- Whether it does can be checked. -/
instance (n : Node) (buf : RxBuf) : Decidable (StartsTest n buf) := by
  unfold StartsTest
  infer_instance

/-- What a packet does to the test, unless it starts one: it leaves it alone or turns it off. -/
inductive TestCommanded (starts : Prop) (t : Testmode) : Testmode → Prop where
  | kept (h : ¬starts) : TestCommanded starts t t
  | stopped (t' : Testmode) (hoff : t'.testState = TestFunc.off) : TestCommanded starts t t'
  | started (h : starts) (t' : Testmode) : TestCommanded starts t t'

/-- Only TESTMODE for this node reaches the test. -/
theorem cmdDispatch_test_kept {p : Platform} {buf : RxBuf} {n : Node}
    (h : n.nodeid ≠ 0 → buf.addr = n.nodeid → buf.cmd ≠ Cmd.testmode) :
    (cmdDispatch p buf n).2.rig.test = n.rig.test := by
  unfold cmdDispatch
  split_ifs with _ hzero _ haddr
  · simp only [cmdAddr]
    split_ifs
    · rfl
    · rfl
  · rfl
  · rfl
  · have htestmode := h hzero haddr
    have hstatus : (cmdStatus p n).2.rig.test = n.rig.test := by
      obtain ⟨timeout, pld, -, heq⟩ := cmdStatus_eq p n
      rw [heq]
      rfl
    exact cmdSwitch_rule (P := fun handler => (handler n).2.rig.test = n.rig.test) p buf
      (fun _ => rfl) (fun _ => rfl) (fun _ => rfl) (fun _ => rfl) (fun _ => hstatus)
      (fun _ => rfl) (fun _ => rfl) (fun h => absurd h htestmode) (fun _ => rfl) rfl
  · rfl

/-- What every packet does to the test. -/
theorem cmdDispatch_testCommanded (p : Platform) (buf : RxBuf) (n : Node) :
    TestCommanded (StartsTest n buf) n.rig.test (cmdDispatch p buf n).2.rig.test := by
  by_cases hmine : n.nodeid ≠ 0 ∧ buf.addr = n.nodeid ∧ buf.cmd = Cmd.testmode
  · obtain ⟨hzero, haddr, hcmd⟩ := hmine
    rw [cmdDispatch_testmode hzero haddr hcmd]
    simp only [cmdTestmode, cmdAck, Node.send_rig]
    split_ifs with hoff hkey hlen
    · exact .stopped _ rfl
    · exact .started ⟨hzero, haddr, hcmd, hoff, hkey⟩ _
    · exact .started ⟨hzero, haddr, hcmd, hoff, hkey⟩ _
    · exact .kept fun h => hkey h.2.2.2.2
  · rw [cmdDispatch_test_kept fun hzero haddr hcmd => hmine ⟨hzero, haddr, hcmd⟩]
    exact .kept fun h => hmine ⟨h.1, h.2.1, h.2.2.1⟩

/-! ## Calls of `testmode_run` -/

/-- The result is the state of the test. -/
theorem testmodeRun_fst (ticks : UInt16) (tempC : Int16) (r : TestRig) :
    (testmodeRun ticks tempC r).1 = (testmodeRun ticks tempC r).2.test.testState := by
  unfold testmodeRun
  dsimp only
  split_ifs
  · rfl
  · rfl
  · rfl
  · rfl
  · rfl

/-- Blinking leaves the seconds alone. -/
theorem testmodeBlink_seconds (ticks : UInt16) (r : TestRig) :
    (testmodeBlink ticks r).test.testSeconds = r.test.testSeconds ∧
      (testmodeBlink ticks r).test.testTimeout = r.test.testTimeout := by
  unfold testmodeBlink
  dsimp only
  split_ifs
  · exact ⟨rfl, rfl⟩
  · exact ⟨rfl, rfl⟩
  · exact ⟨rfl, rfl⟩
  · exact ⟨rfl, rfl⟩
  · exact ⟨rfl, rfl⟩

/-- A call that leaves a test on has found it on, and has counted its seconds. -/
theorem testmodeRun_on {ticks : UInt16} {tempC : Int16} {r : TestRig}
    (hon : (testmodeRun ticks tempC r).2.test.testState ≠ TestFunc.off) :
    r.test.testState ≠ TestFunc.off ∧ (testmodeTick ticks r.test).1 = false ∧
      (testmodeRun ticks tempC r).2.test.testSeconds =
        (testmodeTick ticks r.test).2.testSeconds ∧
      (testmodeRun ticks tempC r).2.test.testTimeout =
        (testmodeTick ticks r.test).2.testTimeout := by
  unfold testmodeRun at hon ⊢
  dsimp only at hon ⊢
  split_ifs at hon ⊢ with hoff htimed hblink hhot
  · exact absurd rfl hon
  · exact absurd rfl hon
  · obtain ⟨hseconds, htimeout⟩ := testmodeBlink_seconds ticks
      { r with test := (testmodeTick ticks r.test).2 }
    exact ⟨hoff, by simpa using htimed, hseconds, htimeout⟩
  · exact absurd rfl hon
  · exact ⟨hoff, by simpa using htimed, rfl, rfl⟩

/-- A second that is counted is not the last. -/
theorem testmodeTick_seconds {ticks : UInt16} {t : Testmode} (hseconds : t.testSeconds.toNat < 60)
    (hgoes : (testmodeTick ticks t).1 = false) :
    (testmodeTick ticks t).2.testSeconds.toNat < 60 := by
  unfold testmodeTick at hgoes ⊢
  dsimp only at hgoes ⊢
  split_ifs at hgoes ⊢ with hexpired hless
  · exact UInt16.lt_iff_toNat_lt.mp hless
  · exact hseconds

/-- A test that is on has not had its minute yet. -/
theorem seconds_rule : RigRule fun r =>
    r.test.testState ≠ TestFunc.off → r.test.testSeconds.toNat < 60 := by
  refine ⟨fun r r' hstep h => ?_, fun r gpio h => h⟩
  cases hstep with
  | leds | status | start | stop | run => exact h
  | testOff => exact fun hon => absurd rfl hon
  | testOn ticks cfg testfunc val0 val1 =>
      have hzero : (0 : UInt16).toNat < 60 := by decide
      simp only [testmodeOn]
      split_ifs
      · exact fun _ => hzero
      · exact fun _ => hzero
      · exact fun _ => hzero
      · exact fun _ => hzero
      · exact fun hon => absurd rfl hon
  | testRun ticks tempC =>
      intro hon
      obtain ⟨hbefore, hgoes, hseconds, -⟩ := testmodeRun_on hon
      rw [hseconds]
      exact testmodeTick_seconds (h hbefore) hgoes

/-! ## The seconds as a schedule -/

section Seconds

variable {now ran asked : Nat} {t : Testmode} {s : Schedule}

/-- The clock of the schedule, with room before the first tick for one that began long ago. -/
def testClock (now : Nat) : Nat := now + 131072

/-- The firmware sees the same ticks. -/
theorem ofNat_testClock (now : Nat) : UInt16.ofNat (testClock now) = UInt16.ofNat now := by
  rw [testClock, UInt16.ofNat_add]
  exact UInt16.add_zero _

/-- The second counter and its timeout are those of a schedule that is near enough to the clock. -/
structure Seconds (now : Nat) (t : Testmode) (s : Schedule) : Prop where
  period : s.period = 1000
  taken : t.testSeconds.toNat = s.taken
  timeout : t.testTimeout = UInt16.ofNat s.due
  ahead : s.due ≤ testClock now + 32768
  behind : testClock now < s.due + 32768

/-- Any counter and timeout are. -/
theorem exists_seconds (now : Nat) (hseconds : t.testSeconds.toNat < 60) :
    ∃ s, Seconds now t s := by
  have hroom : 65536 ≤ testClock now := by
    simp only [testClock]
    omega
  obtain ⟨due, htimeout, hahead, hbehind⟩ := Word.exists_near t.testTimeout hroom
  have hdue : Schedule.due ⟨due - 1000 * t.testSeconds.toNat, 1000, t.testSeconds.toNat⟩ = due := by
    simp only [Schedule.due, testClock] at *
    omega
  refine ⟨⟨due - 1000 * t.testSeconds.toNat, 1000, t.testSeconds.toNat⟩, rfl, rfl, ?_, ?_, ?_⟩
  · rw [hdue]
    exact htimeout
  · rw [hdue]
    exact hahead
  · rw [hdue]
    exact hbehind

/-- The seconds of a test that `testmode_run` was last called for at a tick. They are over within
92 seconds of the last attention. -/
structure Minute (ran asked : Nat) (t : Testmode) (s : Schedule) : Prop where
  seconds : Seconds ran t s
  caughtUp : testClock ran < s.due + 31868
  ends : s.finish 60 (testClock ran) ≤ testClock asked + 91868

/-- The seconds a little later. -/
theorem Minute.later (h : Minute ran asked t s) (hle : ran ≤ now) (hgap : now ≤ ran + 100) :
    Seconds now t s := by
  have hahead := h.seconds.ahead
  have hbehind := h.caughtUp
  refine ⟨h.seconds.period, h.seconds.taken, h.seconds.timeout, ?_, ?_⟩
  · simp only [testClock] at *
    omega
  · simp only [testClock] at *
    omega

/-- A second that is not the last is a poll of the schedule. -/
theorem Seconds.tick (h : Seconds now t s) (hseconds : t.testSeconds.toNat < 60)
    (hgoes : (testmodeTick (UInt16.ofNat now) t).1 = false) :
    let t' := (testmodeTick (UInt16.ofNat now) t).2
    Seconds now t' (s.poll (testClock now)) ∧
      testClock now < (s.poll (testClock now)).due + 31868 ∧
      (s.poll (testClock now)).taken < 60 := by
  have hahead := h.ahead
  have hbehind := h.behind
  have hexpired : tmrExpired (UInt16.ofNat now) t.testTimeout = true ↔ s.due ≤ testClock now := by
    rw [h.timeout, ← ofNat_testClock]
    exact tmrExpired_ofNat hahead hbehind
  unfold testmodeTick at hgoes ⊢
  dsimp only at hgoes ⊢
  unfold Schedule.poll
  by_cases hdue : s.due ≤ testClock now
  · rw [if_pos (hexpired.mpr hdue)] at hgoes ⊢
    rw [if_pos hdue]
    split_ifs at hgoes ⊢ with hless
    · have hone : (t.testSeconds + 1).toNat = s.taken + 1 := by
        rw [UInt16.toNat_add, h.taken]
        have htaken := h.taken
        show (s.taken + 1) % 65536 = s.taken + 1
        omega
      have hnext : Schedule.due { s with taken := s.taken + 1 } = s.due + 1000 := by
        rw [Schedule.due_taken, h.period]
      have hmore := UInt16.lt_iff_toNat_lt.mp hless
      rw [hone] at hmore
      refine ⟨⟨h.period, hone, ?_, ?_, ?_⟩, ?_, hmore⟩
      · rw [hnext, UInt16.ofNat_add, ← h.timeout]
        rfl
      all_goals
        rw [hnext]
        omega
  · rw [if_neg (mt hexpired.mp hdue)]
    rw [if_neg hdue]
    refine ⟨h, by omega, ?_⟩
    rw [← h.taken]
    exact hseconds

/-- A call that counts on keeps the minute. -/
theorem Minute.tick (h : Minute ran asked t s) (hle : ran ≤ now) (hgap : now ≤ ran + 100)
    (hseconds : t.testSeconds.toNat < 60)
    (hgoes : (testmodeTick (UInt16.ofNat now) t).1 = false) :
    Minute now asked (testmodeTick (UInt16.ofNat now) t).2 (s.poll (testClock now)) := by
  obtain ⟨hnext, hcaught, hmore⟩ := (h.later hle hgap).tick hseconds hgoes
  have hnear : testClock now ≤ testClock ran + s.period := by
    rw [h.seconds.period]
    simp only [testClock]
    omega
  have hpoll := Schedule.finish_poll (Nat.add_le_add_right hle _) hnear hmore
  exact ⟨hnext, hcaught, Nat.le_trans hpoll h.ends⟩

/-- The first call in the testmode state begins the minute, whatever the timeout is. -/
theorem Minute.first (hgap : now ≤ asked + 100) (hseconds : t.testSeconds.toNat < 60)
    (hgoes : (testmodeTick (UInt16.ofNat now) t).1 = false) :
    ∃ s, Minute now asked (testmodeTick (UInt16.ofNat now) t).2 s := by
  obtain ⟨s, hs⟩ := exists_seconds now hseconds
  obtain ⟨hnext, hcaught, hmore⟩ := hs.tick hseconds hgoes
  have hpoll := Schedule.finish_poll (Nat.le_refl _) (Nat.le_add_right ..) hmore
  have hends : s.finish 60 (testClock now) ≤ testClock asked + 91868 := by
    have hahead := hs.ahead
    rw [Schedule.finish, hs.period]
    simp only [testClock] at *
    omega
  exact ⟨_, hnext, hcaught, Nat.le_trans hpoll hends⟩

/-- Only the counter and its timeout matter. -/
theorem Minute.same (h : Minute ran asked t s) {t' : Testmode}
    (hseconds : t'.testSeconds = t.testSeconds) (htimeout : t'.testTimeout = t.testTimeout) :
    Minute ran asked t' s := by
  obtain ⟨⟨hperiod, htaken, hdue, hahead, hbehind⟩, hcaught, hends⟩ := h
  refine ⟨⟨hperiod, ?_, ?_, hahead, hbehind⟩, hcaught, hends⟩
  · rw [hseconds]
    exact htaken
  · rw [htimeout]
    exact hdue

/-- The minute is not over. -/
theorem Minute.ran_le (h : Minute ran asked t s) : ran ≤ asked + 91868 := by
  have hfinish := Nat.le_trans (Schedule.polled_le_finish 60 (testClock ran) s) h.ends
  simp only [testClock] at hfinish
  omega

end Seconds

/-! ## Passes of the state machine -/

section Pass

variable {p : Platform} {event : Event} {n : Node}

/-- What a pass does that begins in the testmode state: `testmode_run` is called, whatever the event
is, and decides whether the state is left. -/
inductive TestPass (p : Platform) (n n' : Node) : Prop where
  | ran (hps : n'.ps = .app .testmode) (htest : n'.rig.test = (n.testmodeRun p).2.rig.test)
      (hon : n'.rig.test.testState ≠ TestFunc.off)
  | ended (hps : n'.ps = .app .idle) (r : TestRig) (htest : n'.rig.test = (testmodeOff r).test)
      (hshunt : n'.rig.shunt = (testmodeOff r).shunt) (hextio : n'.rig.gpio.extio = false)

/-- Every pass that begins in the testmode state. -/
theorem appRun_testPass (hevent : event.FromLoop) (hps : n.ps = .app .testmode) :
    TestPass p n (appRun p event n) := by
  have hhandler : appHandler p .testmode event n =
      (if (n.testmodeRun p).1 = TestFunc.off then some .idle else none, (n.testmodeRun p).2) := by
    rcases hevent with rfl | rfl | rfl
    · rfl
    · rfl
    · rfl
  have hstate : (n.testmodeRun p).1 = (n.testmodeRun p).2.rig.test.testState :=
    testmodeRun_fst n.systick (n.tempC p .boardTemp) n.rig
  by_cases hoff : (n.testmodeRun p).1 = TestFunc.off
  · rw [if_pos hoff] at hhandler
    rw [appRun_move hps hhandler (by simp)]
    obtain ⟨r, hended⟩ := testmodeRun_ended hoff
    have htest : (n.testmodeRun p).2.rig.test = (testmodeOff r).test := congrArg TestRig.test hended
    have hshunt : (n.testmodeRun p).2.rig.shunt = (testmodeOff r).shunt :=
      congrArg TestRig.shunt hended
    have hextio : (n.testmodeRun p).2.rig.gpio.extio = false :=
      congrArg (fun rig : TestRig => rig.gpio.extio) hended
    -- entering the idle state blinks an LED, which is no matter of the test
    exact .ended rfl r htest hshunt hextio
  · rw [if_neg hoff] at hhandler
    rw [appRun_stay hps hhandler]
    exact .ran rfl rfl fun heq => hoff (hstate.trans heq)

end Pass

/-! ## Runs with a clock -/

/-- A running node with the ticks since its start: the present one, that of the last call of
`testmode_run` and that of the last attention to the test mode. Entering the testmode state
counts as both. -/
structure Tested where
  machine : Machine
  now : Nat
  ran : Nat
  asked : Nat

namespace Tested

/-- A node that starts, or starts again. -/
def start (machine : Machine) : Tested := { machine := machine, now := 0, ran := 0, asked := 0 }

/-- A pass of the state machine. -/
def passed (t : Tested) (machine : Machine) : Tested :=
  if machine.node.ps ≠ .app .testmode then { t with machine := machine }
  else if t.machine.node.ps ≠ .app .testmode then
    { machine := machine, now := t.now, ran := t.now, asked := t.now }
  else { t with machine := machine, ran := t.now }

/-- One step of the machine, with what it does for the test mode. -/
def step (p : Platform) (t : Tested) (action : Action) : Tested :=
  let machine := BmsNode.step p t.machine action
  match action with
  | .tick => { t with machine := machine, now := t.now + 1 }
  | .main _ =>
      match t.machine.pc with
      | .kissmRun _ _ => t.passed machine
      | .dispatch =>
          if restarts p t.machine then start machine
          else
            { machine := machine
              now := t.now
              ran := t.ran
              asked :=
                if StartsTest t.machine.node t.machine.node.pkt.rxbuf then t.now else t.asked }
      | _ => { t with machine := machine }
  | _ => { t with machine := machine }

/-- In the testmode state, no more than 100 ticks come between two calls of `testmode_run`. -/
def Prompt (t : Tested) : Action → Prop
  | .tick => t.machine.node.ps ≠ .app .testmode ∨ t.now < t.ran + 100
  | _ => True

/-- The condition can be checked. -/
instance (t : Tested) : ∀ action, Decidable (t.Prompt action)
  | .tick => inferInstanceAs (Decidable (_ ∨ _))
  | .rx _ | .dre | .txc | .shift | .main _ => isTrue trivial

/-- The machine takes its own steps. -/
theorem step_machine (p : Platform) (t : Tested) (action : Action) :
    (t.step p action).machine = BmsNode.step p t.machine action := by
  cases action with
  | tick | rx | dre | txc | shift => rfl
  | main samples =>
      simp only [Tested.step]
      split
      · unfold passed
        split_ifs <;> rfl
      · split_ifs <;> rfl
      · rfl

/-- The invariant: in the testmode state `testmode_run` is called in time, and the seconds of a test
that is on are those of a minute, unless they have not been counted since the last attention. -/
structure Timed (t : Tested) : Prop where
  looping : Looping t.machine
  systick : t.machine.node.systick = UInt16.ofNat t.now
  seconds : t.machine.node.rig.test.testState ≠ TestFunc.off →
    t.machine.node.rig.test.testSeconds.toNat < 60
  asked : t.asked ≤ t.now
  ran : t.ran ≤ t.now
  gap : t.machine.node.ps = .app .testmode → t.now ≤ t.ran + 100
  ends : t.machine.node.ps = .app .testmode → t.ran ≤ t.asked + 91868
  minute : t.machine.node.ps = .app .testmode →
    t.machine.node.rig.test.testState ≠ TestFunc.off →
      t.ran ≤ t.asked ∨ ∃ s, Minute t.ran t.asked t.machine.node.rig.test s

/-- The firmware does not start in the testmode state. -/
theorem boot_timed (p : Platform) (eeprom : Config) : Timed (start (boot p eeprom)) :=
  ⟨boot_looping p eeprom, rfl, fun hon => absurd rfl hon, Nat.le_refl 0, Nat.le_refl 0,
    fun _ => Nat.zero_le _, fun _ => Nat.zero_le _, fun hps => by cases hps⟩

/-- The node is not in the testmode state for long. -/
theorem Timed.soon {t : Tested} (h : Timed t) (hps : t.machine.node.ps = .app .testmode) :
    t.now ≤ t.asked + 91968 := by
  have hgap := h.gap hps
  have hends := h.ends hps
  omega

/-- A step that the test mode does not see. -/
theorem Timed.frame {t : Tested} (h : Timed t) {machine : Machine} (hlooping : Looping machine)
    (hframe : RigFrame t.machine.node machine.node) : Timed { t with machine := machine } := by
  refine ⟨hlooping, hframe.systick.trans h.systick, ?_, h.asked, h.ran, ?_, ?_, ?_⟩
  · rw [hframe.test]
    exact h.seconds
  · rw [hframe.ps]
    exact h.gap
  · rw [hframe.ps]
    exact h.ends
  · rw [hframe.ps, hframe.test]
    exact h.minute

/-- The tick interrupt. -/
theorem Timed.tick {p : Platform} {t : Tested} (h : Timed t) (hprompt : t.Prompt .tick) :
    Timed (t.step p .tick) := by
  refine ⟨h.looping.step (p := p) .tick, ?_, h.seconds, Nat.le_succ_of_le h.asked,
    Nat.le_succ_of_le h.ran, fun hps => ?_, h.ends, h.minute⟩
  · show t.machine.node.systick + 1 = UInt16.ofNat (t.now + 1)
    rw [h.systick, UInt16.ofNat_add]
    rfl
  · have hroom : t.now < t.ran + 100 := hprompt.resolve_left fun hne => hne hps
    exact hroom

/-- A command. -/
theorem Timed.dispatch {n n' : Node} {pc : Control} {now ran asked : Nat}
    (h : Timed ⟨⟨n, .dispatch⟩, now, ran, asked⟩) (hlooping : Looping ⟨n', pc⟩)
    (hseconds : n'.rig.test.testState ≠ TestFunc.off → n'.rig.test.testSeconds.toNat < 60)
    (hframe : CmdFrame n n')
    (htest : TestCommanded (StartsTest n n.pkt.rxbuf) n.rig.test n'.rig.test) :
    Timed ⟨⟨n', pc⟩, now, ran, if StartsTest n n.pkt.rxbuf then now else asked⟩ := by
  have hps : n'.ps = .app .testmode → n.ps = .app .testmode := fun hps => hframe.ps.symm.trans hps
  have hran : ran ≤ now := h.ran
  by_cases hstarts : StartsTest n n.pkt.rxbuf
  · rw [if_pos hstarts]
    exact ⟨hlooping, hframe.systick.trans h.systick, hseconds, Nat.le_refl now, hran,
      fun hnext => h.gap (hps hnext), fun _ => Nat.le_add_right_of_le hran, fun _ _ => .inl hran⟩
  · rw [if_neg hstarts]
    refine ⟨hlooping, hframe.systick.trans h.systick, hseconds, h.asked, hran,
      fun hnext => h.gap (hps hnext), fun hnext => h.ends (hps hnext), ?_⟩
    show n'.ps = .app .testmode → n'.rig.test.testState ≠ TestFunc.off →
      ran ≤ asked ∨ ∃ s, Minute ran asked n'.rig.test s
    intro hnext hon
    generalize n'.rig.test = t' at htest hon ⊢
    cases htest with
    | kept => exact h.minute (hps hnext) hon
    | stopped _ hoff => exact absurd hoff hon
    | started hstarted => exact absurd hstarted hstarts

/-- A call of `testmode_run` that leaves the test on keeps or begins its minute. -/
theorem Timed.run {p : Platform} {n : Node} {pc : Control} {now ran asked : Nat}
    (h : Timed ⟨⟨n, pc⟩, now, ran, asked⟩) (hps : n.ps = .app .testmode)
    (hon : (n.testmodeRun p).2.rig.test.testState ≠ TestFunc.off) :
    ∃ s, Minute now asked (n.testmodeRun p).2.rig.test s := by
  have hticks : n.systick = UInt16.ofNat now := h.systick
  have hgap : now ≤ ran + 100 := h.gap hps
  obtain ⟨hbefore, hgoes, hseconds, htimeout⟩ := testmodeRun_on hon
  have hless : n.rig.test.testSeconds.toNat < 60 := h.seconds hbefore
  have htick : ∃ s, Minute now asked (testmodeTick n.systick n.rig.test).2 s := by
    rw [hticks] at hgoes ⊢
    rcases h.minute hps hbefore with hasked | ⟨s, hs⟩
    · have hsoon : ran ≤ asked := hasked
      exact Minute.first (by omega) hless hgoes
    · exact ⟨_, hs.tick h.ran hgap hless hgoes⟩
  obtain ⟨s, hs⟩ := htick
  exact ⟨s, hs.same hseconds htimeout⟩

/-- A pass of the state machine. -/
theorem Timed.pass {p : Platform} {n : Node} {event : Event} {held : Bool} {now ran asked : Nat}
    (h : Timed ⟨⟨n, .kissmRun event held⟩, now, ran, asked⟩) :
    Timed (passed ⟨⟨n, .kissmRun event held⟩, now, ran, asked⟩
      ⟨appRun p event n, .loopFree held⟩) := by
  have hevent : event.FromLoop := h.looping.event event held rfl
  have hlooping : Looping ⟨appRun p event n, .loopFree held⟩ :=
    h.looping.main (Vector.replicate 4 0)
  have hsystick : (appRun p event n).systick = UInt16.ofNat now :=
    (appRun_frame p event n).systick.trans h.systick
  have hseconds := seconds_rule.appRun p event n h.seconds
  have hasked : asked ≤ now := h.asked
  unfold passed
  by_cases hnext : (appRun p event n).ps = .app .testmode
  · rw [if_neg (not_not.mpr hnext)]
    by_cases hps : n.ps = .app .testmode
    · rw [if_neg (not_not.mpr hps)]
      have hpass := appRun_testPass (p := p) hevent hps
      generalize appRun p event n = n' at *
      cases hpass with
      | ended hidle _ _ _ _ =>
          rw [hidle] at hnext
          cases hnext
      | ran htestmode htest hon =>
          have hminute : ∃ s, Minute now asked n'.rig.test s := by
            rw [htest] at hon ⊢
            exact h.run hps hon
          obtain ⟨s, hs⟩ := hminute
          exact ⟨hlooping, hsystick, hseconds, hasked, Nat.le_refl now,
            fun _ => Nat.le_add_right now 100, fun _ => hs.ran_le, fun _ _ => .inr ⟨s, hs⟩⟩
    · rw [if_pos hps]
      exact ⟨hlooping, hsystick, hseconds, Nat.le_refl now, Nat.le_refl now,
        fun _ => Nat.le_add_right now 100, fun _ => Nat.le_add_right now 91868,
        fun _ _ => .inl (Nat.le_refl now)⟩
  · rw [if_pos hnext]
    exact ⟨hlooping, hsystick, hseconds, hasked, h.ran, fun hps => absurd hps hnext,
      fun hps => absurd hps hnext, fun hps => absurd hps hnext⟩

/-- Every prompt action keeps the invariant. -/
theorem Timed.step {p : Platform} {t : Tested} (h : Timed t) (action : Action)
    (hprompt : t.Prompt action) : Timed (t.step p action) := by
  have hlooping := h.looping.step (p := p) action
  have hseconds := seconds_rule.machine (p := p) (fun hon => absurd rfl hon) h.seconds action
  cases action with
  | tick => exact h.tick hprompt
  | rx | dre | txc | shift => exact h.frame hlooping (interrupt_rigFrame (by simp) rfl)
  | main samples =>
      obtain ⟨⟨n, pc⟩, now, ran, asked⟩ := t
      cases pc with
      | kissmRun event held => exact h.pass
      | dispatch =>
          cases hrestart : restarts p ⟨n, .dispatch⟩ with
          | true =>
              obtain ⟨eeprom, hboot⟩ := mainStep_restart samples hrestart
              have hstep : Tested.step p ⟨⟨n, .dispatch⟩, now, ran, asked⟩ (.main samples) =
                  start (mainStep p samples ⟨n, .dispatch⟩) := by
                simp [Tested.step, BmsNode.step, hrestart]
              rw [hstep, hboot]
              exact boot_timed p eeprom
          | false =>
              have hstep : Tested.step p ⟨⟨n, .dispatch⟩, now, ran, asked⟩ (.main samples) =
                  ⟨mainStep p samples ⟨n, .dispatch⟩, now, ran,
                    if StartsTest n n.pkt.rxbuf then now else asked⟩ := by
                simp [Tested.step, BmsNode.step, hrestart]
              obtain ⟨pc, hdispatch⟩ := mainStep_dispatch samples hrestart
              have hnext : Looping (mainStep p samples ⟨n, .dispatch⟩) := hlooping
              have hless : (mainStep p samples ⟨n, .dispatch⟩).node.rig.test.testState ≠
                  TestFunc.off →
                  (mainStep p samples ⟨n, .dispatch⟩).node.rig.test.testSeconds.toNat < 60 :=
                hseconds
              rw [hdispatch] at hnext hless
              rw [hstep, hdispatch]
              exact h.dispatch hnext hless (cmdDispatch_frame p n.pkt.rxbuf n)
                (cmdDispatch_testCommanded p n.pkt.rxbuf n)
      | _ => exact h.frame hlooping (mainStep_rigFrame (p := p) samples (by simp) (by simp))

end Tested

/-- A test ends, in every run in which no more than 100 ticks come between two calls of
`testmode_run` while the node is in the testmode state. There the present tick is never more than
91968 ticks after the last attention: entering the state or a TESTMODE packet that starts a test.
A pass that leaves the state leaves the test off, the load off (its PWM zero, the timer stopped and
the PWM pin released) and the external output off. The machine is the one without the ticks. -/
theorem test_ends (p : Platform) (eeprom : Config) (actions : List Action)
    (hprompt : Meets (Tested.step p) Tested.Prompt (.start (boot p eeprom)) actions) :
    let t := run (Tested.step p) (.start (boot p eeprom)) actions
    let n := t.machine.node
    t.machine = run (step p) (boot p eeprom) actions ∧
      (n.ps = .app .testmode → t.now ≤ t.asked + 91968) ∧
      ∀ event held, t.machine.pc = .kissmRun event held → n.ps = .app .testmode →
        (appRun p event n).ps ≠ .app .testmode →
          (appRun p event n).rig.test.testState = TestFunc.off ∧ (appRun p event n).pwm = 0 ∧
            (appRun p event n).rig.shunt.tca0.ctrla = 0 ∧
            (appRun p event n).rig.shunt.tca0.ctrlc &&& cmp1ov = 0 ∧
            (appRun p event n).rig.gpio.extio = false := by
  intro t n
  have h : Tested.Timed t :=
    run_invariant (fun t action h hprompt => h.step action hprompt)
      (Tested.boot_timed p eeprom) hprompt
  refine ⟨run_map (Tested.step_machine p) _ actions, h.soon, fun event held hpc hps hleft => ?_⟩
  have hpass := appRun_testPass (p := p) (h.looping.event event held hpc) hps
  generalize appRun p event n = n' at hpass hleft ⊢
  cases hpass with
  | ended hidle r htest hshunt hextio =>
      rw [Node.pwm, shuntGetPwm, htest, hshunt]
      have hreleased : (0 &&& ~~~cmp1ov) &&& cmp1ov = 0 := by decide
      exact ⟨rfl, rfl, rfl, hreleased, hextio⟩
  | ran htestmode htest hon => exact absurd htestmode hleft

/-- An idle node goes into the testmode state for a TESTMODE packet, and is there soon after it. -/
theorem test_ends_idle :
    let t := run (Tested.step benchBoard) (.start (boot benchBoard nodeOneImage)) idleStart
    t.machine.node.ps = .app .testmode ∧ t.now ≤ t.asked + 91968 := by
  have hends := (test_ends benchBoard nodeOneImage idleStart (by decide +kernel)).2.1
  have hsoon := hends (by decide +kernel)
  exact ⟨by decide +kernel, hsoon⟩

/-- The load needs attention. In every run in which only nodes that are ready for it are made to
drive the load, and in which no more than 100 ticks come between two calls of `shunt_run` in the
shunt state and of `testmode_run` in the testmode state, a load that is driven at the end of a
pass has had it: in the shunt state less than 30200 ticks ago, in the testmode state no more
than 91968. -/
theorem load_needs_attention (p : Platform) (eeprom : Config) (actions : List Action)
    (hready : Meets (step p) LoadStartsReady (boot p eeprom) actions)
    (hshunt : Meets (Tended.step p) Tended.Prompt (.start (boot p eeprom)) actions)
    (htest : Meets (Tested.step p) Tested.Prompt (.start (boot p eeprom)) actions)
    (hpass : (run (step p) (boot p eeprom) actions).pc = .ledRun)
    (hdriven : (run (step p) (boot p eeprom) actions).node.pwm ≠ 0) :
    let m := run (step p) (boot p eeprom) actions
    let g := run (Tended.step p) (.start (boot p eeprom)) actions
    let t := run (Tested.step p) (.start (boot p eeprom)) actions
    g.machine = m ∧ t.machine = m ∧
      ((m.node.ps = .app .shunt ∧ g.now < g.asked + 30200) ∨
        (m.node.ps = .app .testmode ∧ t.now ≤ t.asked + 91968)) := by
  intro m g t
  have hkept : Tended.Kept g :=
    run_invariant (fun g action h hprompt => h.step action hprompt)
      (Tended.boot_kept p eeprom) hshunt
  have htimed : Tested.Timed t :=
    run_invariant (fun t action h hprompt => h.step action hprompt)
      (Tested.boot_timed p eeprom) htest
  have hg : g.machine = m := run_map (Tended.step_machine p) _ actions
  have ht : t.machine = m := run_map (Tested.step_machine p) _ actions
  refine ⟨hg, ht, ?_⟩
  have hsafe : (∃ owner, Owned m owner) ∧ LoadSafe m :=
    run_invariant (P := fun m => (∃ owner, Owned m owner) ∧ LoadSafe m) (by
      rintro m action ⟨⟨owner, howned⟩, hsafe⟩ hcond
      obtain ⟨next, -, hnext⟩ := step_owned howned action
      exact ⟨⟨next, hnext⟩, step_loadSafe howned hsafe hcond⟩)
      ⟨⟨.none, boot_owned p eeprom⟩, fun hdriven => absurd rfl hdriven⟩ hready
  rcases hsafe.2 hdriven with (hps | hps) | ⟨hpending, -⟩
  · -- a driven load means that the shunt is on
    have hagrees : m.node.rig.shunt.Agrees :=
      agrees_rule.run p eeprom ⟨rfl, fun _ => ⟨rfl, rfl⟩, fun hon => absurd rfl hon⟩ actions
    have hon : m.node.rig.shunt.shuntStatus ≠ .off := fun hoff => hdriven (hagrees.off hoff).2
    rw [← hg] at hps hon
    exact .inl ⟨hg ▸ hps, (hkept.watched hps hon).attended (hkept.gap hps)⟩
  · rw [← ht] at hps
    exact .inr ⟨ht ▸ hps, htimed.soon hps⟩
  · rw [hpass] at hpending
    cases hpending

/-- The load that a TESTMODE packet starts is driven soon after it. -/
theorem load_needs_attention_idle :
    let m := run (step benchBoard) (boot benchBoard nodeOneImage) idleStart
    let t := run (Tested.step benchBoard) (.start (boot benchBoard nodeOneImage)) idleStart
    m.node.pwm ≠ 0 ∧ m.node.ps ≠ .app .shunt ∧ t.now ≤ t.asked + 91968 := by
  have hattention := (load_needs_attention benchBoard nodeOneImage idleStart (by decide +kernel)
    (by decide +kernel) (by decide +kernel) (by decide +kernel) (by decide +kernel)).2.2
  have hstate : (run (step benchBoard) (boot benchBoard nodeOneImage) idleStart).node.ps ≠
      .app .shunt := by
    decide +kernel
  have hsoon := (hattention.resolve_left fun h => hstate h.1).2
  exact ⟨by decide +kernel, hstate, hsoon⟩

end BmsNode
