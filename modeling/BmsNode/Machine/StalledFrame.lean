import BmsNode.Bytes.Word
import BmsNode.Machine.Moves
import BmsNode.Machine.Reception

/-!
# The reception timeout

`cmd_process` polls the parser: it starts a timeout when it first finds a frame being
received, and gives up on the frame once that has expired. `Served` runs the machine
with the age of the frame and with how far a call of `cmd_process` has come since the
last tick. When every tick sees a whole call, the age and the ticks left of the timeout
add up to a bound that no interleaving exceeds.
-/

namespace BmsNode

open Transition

/-! ## Runs with the age of a frame -/

/-- How far a call of `cmd_process` has come since the last tick: none was entered, the last one
entered is still under way, or a whole call was made. -/
inductive CallProgress where
  | none
  | begun
  | done
  deriving DecidableEq, Repr

/-- The progress after a program point. A call is entered at `pktReady`, left for the state machine,
and cut off by a restart. -/
def CallProgress.next (before after : Control) : CallProgress → CallProgress
  | .none => if before = .pktReady then .begun else .none
  | .begun =>
      match after with
      | .kissmRun _ _ => .done
      | .ledRun => .none
      | _ => .begun
  | .done => .done

/-- A running node with the ticks since the last byte that was heard outside a frame, which inside a
frame is its sync byte, and the progress of `cmd_process` since the last tick. -/
structure Served where
  machine : Machine
  age : Nat
  call : CallProgress

namespace Served

/-- A node that starts. -/
def start (machine : Machine) : Served := { machine := machine, age := 0, call := .none }

/-- One step of the machine, with its effect on the age and on the progress. -/
def step (p : Platform) (s : Served) (action : Action) : Served :=
  let machine := BmsNode.step p s.machine action
  match action with
  | .tick => { machine := machine, age := s.age + 1, call := .none }
  | .rx _ => { s with machine := machine, age := if Receiving s.machine.node.pkt then s.age else 0 }
  | .main _ => { s with machine := machine, call := s.call.next s.machine.pc machine.pc }
  | _ => { s with machine := machine }

/-- `cmd_process` is called at least once in every tick. -/
def Called (s : Served) : Action → Prop
  | .tick => s.call = .done
  | _ => True

/-- The condition can be checked. -/
instance (s : Served) : ∀ action, Decidable (s.Called action)
  | .tick => inferInstanceAs (Decidable (_ = _))
  | .rx _ | .dre | .txc | .shift | .main _ => isTrue trivial

/-- No whole call was made since the last tick, and one under way is still to come to a program
point. -/
def Before (s : Served) (point : Control) : Prop :=
  s.call ≠ .done ∧ (s.call = .begun → s.machine.pc = .waitCheck ∨ s.machine.pc = point)

end Served

/-- The ticks left of the reception timeout. -/
def Node.remaining (n : Node) : Nat := (n.cmd.pktTimeout - n.systick).toNat

/-- A timeout that is not far away has expired exactly when nothing is left of it. -/
theorem Node.expired_iff {n : Node} (hnear : n.remaining ≤ 5000) :
    tmrExpired n.systick n.cmd.pktTimeout = true ↔ n.remaining = 0 := by
  rw [tmrExpired, decide_eq_true_iff]
  exact Word.sub_lt_half_iff_left (show n.remaining ≤ 32768 by omega)

/-- A timeout just started has all its ticks left. -/
theorem Node.remaining_started {n : Node} (htimeout : n.cmd.pktTimeout = tmrSet n.systick 5000) :
    n.remaining = 5000 := by
  have hticks : n.systick + 5000 - n.systick = 5000 := by
    rw [UInt16.add_comm, UInt16.add_sub_cancel]
  rw [Node.remaining, htimeout, tmrSet, hticks]
  rfl

/-! ## The invariant -/

/-- The invariant of a run that serves the parser in every tick. -/
structure Served.Bounded (s : Served) : Prop where
  waiting : s.machine.node.cmd.pktWaiting = true → s.machine.node.remaining ≤ 5000 ∧
    (s.machine.node.remaining = 0 → s.Before .giveUp)
  guarded : Receiving s.machine.node.pkt → s.machine.node.cmd.pktWaiting = true →
    s.age + s.machine.node.remaining ≤ 5001
  unguarded : Receiving s.machine.node.pkt → s.machine.node.cmd.pktWaiting = false →
    s.age = 0 ∨ s.age = 1 ∧ s.Before .arm

namespace Served

variable {p : Platform} {s : Served} {n : Node} {age : Nat} {call : CallProgress}

/-- The bound itself. -/
theorem Bounded.age_le (h : s.Bounded) (hreceiving : Receiving s.machine.node.pkt) :
    s.age ≤ 5001 := by
  cases hwaiting : s.machine.node.cmd.pktWaiting with
  | true =>
      have hsum := h.guarded hreceiving hwaiting
      omega
  | false =>
      rcases h.unguarded hreceiving hwaiting with hage | ⟨hage, -⟩
      · omega
      · omega

/-- A step that leaves the clock and the timeout alone, starts no frame and lets no whole call go
by. -/
theorem Bounded.keep {s' : Served} (h : s.Bounded)
    (hcmd : s'.machine.node.cmd = s.machine.node.cmd)
    (hsystick : s'.machine.node.systick = s.machine.node.systick) (hage : s'.age = s.age)
    (hreceiving : Receiving s'.machine.node.pkt → Receiving s.machine.node.pkt)
    (hbefore : ∀ point, point = .giveUp ∨ point = .arm → s.Before point → s'.Before point) :
    s'.Bounded := by
  have hleft : s'.machine.node.remaining = s.machine.node.remaining := by
    rw [Node.remaining, Node.remaining, hcmd, hsystick]
  refine ⟨?_, ?_, ?_⟩
  · rw [hcmd, hleft]
    intro hwaiting
    obtain ⟨hnear, hover⟩ := h.waiting hwaiting
    exact ⟨hnear, fun hzero => hbefore _ (.inl rfl) (hover hzero)⟩
  · rw [hcmd, hleft, hage]
    intro hnew hwaiting
    exact h.guarded (hreceiving hnew) hwaiting
  · rw [hcmd, hage]
    intro hnew hwaiting
    rcases h.unguarded (hreceiving hnew) hwaiting with hzero | ⟨hone, hpoint⟩
    · exact .inl hzero
    · exact .inr ⟨hone, hbefore _ (.inr rfl) hpoint⟩

/-- Outside a frame, a stopped timeout is all there is to say. -/
theorem Bounded.of_stopped (hwaiting : s.machine.node.cmd.pktWaiting = false)
    (hreceiving : ¬Receiving s.machine.node.pkt) : s.Bounded := by
  refine ⟨?_, ?_, ?_⟩
  · intro hcontra
    rw [hwaiting] at hcontra
    cases hcontra
  · intro hcontra
    exact absurd hcontra hreceiving
  · intro hcontra
    exact absurd hcontra hreceiving

/-- Outside `cmd_process` no call is under way that is still to come to a point. -/
theorem Before.next {pc pc' : Control} {n' : Node} {point : Control}
    (h : Before ⟨⟨n, pc⟩, age, call⟩ point)
    (hpc : pc ≠ .pktReady ∧ pc ≠ .waitCheck ∧ pc ≠ point) :
    Before ⟨⟨n', pc'⟩, age, call.next pc pc'⟩ point := by
  obtain ⟨hready, hcheck, hpoint⟩ := hpc
  cases call with
  | none =>
      have hnext : CallProgress.next pc pc' .none = .none := if_neg hready
      rw [hnext]
      exact ⟨by simp, fun hcontra => by cases hcontra⟩
  | begun =>
      rcases h.2 rfl with heq | heq
      · exact absurd heq hcheck
      · exact absurd heq hpoint
  | done => exact absurd rfl h.1

/-! ## Every action keeps the invariant -/

/-- The tick interrupt, after a whole call in the tick that ends. -/
theorem Bounded.tick (h : s.Bounded) (hcalled : s.call = .done) : (s.step p .tick).Bounded := by
  have hnot (point : Control) : ¬s.Before point := fun hbefore => hbefore.1 hcalled
  have hopen (point : Control) : (s.step p .tick).Before point :=
    ⟨by simp [step], fun hcontra => by cases hcontra⟩
  refine ⟨?_, ?_, ?_⟩
  · intro hwaiting
    obtain ⟨hnear, hover⟩ := h.waiting hwaiting
    have hleft : (s.step p .tick).machine.node.remaining = s.machine.node.remaining - 1 :=
      Word.toNat_sub_add_one fun hzero => hnot _ (hover hzero)
    rw [hleft]
    exact ⟨by omega, fun _ => hopen _⟩
  · intro hreceiving hwaiting
    have hsum := h.guarded hreceiving hwaiting
    have hne : s.machine.node.remaining ≠ 0 := fun hzero => hnot _ ((h.waiting hwaiting).2 hzero)
    have hleft : (s.step p .tick).machine.node.remaining = s.machine.node.remaining - 1 :=
      Word.toNat_sub_add_one hne
    rw [hleft]
    show s.age + 1 + (s.machine.node.remaining - 1) ≤ 5001
    omega
  · intro hreceiving hwaiting
    rcases h.unguarded hreceiving hwaiting with hzero | ⟨-, hbefore⟩
    · exact .inr ⟨by rw [step, hzero], hopen _⟩
    · exact absurd hbefore (hnot _)

/-- A received byte. The sync byte of a frame starts its age anew. -/
theorem Bounded.rx (h : s.Bounded) (byte : UInt8) : (s.step p (.rx byte)).Bounded := by
  by_cases hreceiving : Receiving s.machine.node.pkt
  · exact h.keep rfl rfl (if_pos hreceiving) (fun _ => hreceiving) fun _ _ hbefore => hbefore
  · have hage : (s.step p (.rx byte)).age = 0 := if_neg hreceiving
    refine ⟨h.waiting, ?_, ?_⟩
    · intro _ hwaiting
      have hnear : s.machine.node.remaining ≤ 5000 := (h.waiting hwaiting).1
      rw [hage]
      show 0 + s.machine.node.remaining ≤ 5001
      omega
    · intro _ _
      exact .inl hage

/-- A program point that leaves the clock and the timeout alone and is none of those around them. -/
theorem Bounded.outside {pc : Control} {m : Machine} (h : Bounded ⟨⟨n, pc⟩, age, call⟩)
    (hpoint : pc ≠ .pktReady ∧ pc ≠ .waitCheck ∧ pc ≠ .giveUp ∧ pc ≠ .arm)
    (hcmd : m.node.cmd = n.cmd) (hsystick : m.node.systick = n.systick)
    (hreceiving : Receiving m.node.pkt → Receiving n.pkt) :
    Bounded ⟨m, age, call.next pc m.pc⟩ := by
  obtain ⟨hready, hcheck, hgive, harm⟩ := hpoint
  refine h.keep hcmd hsystick rfl hreceiving ?_
  rintro point (rfl | rfl) hbefore
  · exact hbefore.next ⟨hready, hcheck, hgive⟩
  · exact hbefore.next ⟨hready, hcheck, harm⟩

/-- Without a packet ready, `pkt_ready` enters a call and goes on to the check of the timeout. -/
theorem Bounded.enter (h : Bounded ⟨⟨n, .pktReady⟩, age, call⟩) :
    Bounded ⟨⟨n, .waitCheck⟩, age, call.next .pktReady .waitCheck⟩ := by
  refine h.keep rfl rfl rfl id ?_
  intro point _ hbefore
  cases call with
  | none => exact ⟨by simp [CallProgress.next], fun _ => .inl rfl⟩
  | begun =>
      rcases hbefore.2 rfl with hcontra | hpoint
      · cases hcontra
      · exact ⟨by simp [CallProgress.next], fun _ => .inl rfl⟩
  | done => exact absurd rfl hbefore.1

/-- The check of the timeout leads to the point that a call under way is still to come to. -/
theorem Before.arrive {point : Control} (h : Before ⟨⟨n, .waitCheck⟩, age, call⟩ point)
    (hpoint : point = .giveUp ∨ point = .arm) :
    Before ⟨⟨n, point⟩, age, call.next .waitCheck point⟩ point := by
  cases call with
  | none => exact ⟨by simp [CallProgress.next], fun _ => .inr rfl⟩
  | begun =>
      refine ⟨?_, fun _ => .inr rfl⟩
      rcases hpoint with rfl | rfl
      · simp [CallProgress.next]
      · simp [CallProgress.next]
  | done => exact absurd rfl h.1

/-- A timeout that has expired makes the check go on to give up. -/
theorem Bounded.overdue (h : Bounded ⟨⟨n, .waitCheck⟩, age, call⟩)
    (hwaiting : n.cmd.pktWaiting = true) (hexpired : tmrExpired n.systick n.cmd.pktTimeout = true) :
    Bounded ⟨⟨n, .giveUp⟩, age, call.next .waitCheck .giveUp⟩ := by
  have hnot : n.cmd.pktWaiting ≠ false := by simp [hwaiting]
  obtain ⟨hnear, hover⟩ := h.waiting hwaiting
  have hzero := (Node.expired_iff hnear).mp hexpired
  refine ⟨fun _ => ⟨hnear, fun _ => ?_⟩, h.guarded, fun _ hcontra => absurd hcontra hnot⟩
  exact (hover hzero).arrive (.inl rfl)

/-- A timeout that is still running has ticks left. -/
theorem Bounded.running {pc : Control} (h : Bounded ⟨⟨n, .waitCheck⟩, age, call⟩)
    (hwaiting : n.cmd.pktWaiting = true)
    (hexpired : tmrExpired n.systick n.cmd.pktTimeout = false) :
    Bounded ⟨⟨n, pc⟩, age, call.next .waitCheck pc⟩ := by
  have hnot : n.cmd.pktWaiting ≠ false := by simp [hwaiting]
  have hnear : n.remaining ≤ 5000 := (h.waiting hwaiting).1
  have hleft : n.remaining ≠ 0 := mt (Node.expired_iff hnear).mpr (by simp [hexpired])
  refine ⟨fun _ => ⟨hnear, fun hcontra => ?_⟩, h.guarded, fun _ hcontra => absurd hcontra hnot⟩
  exact absurd hcontra hleft

/-- With no timeout running, the check goes on to start it. -/
theorem Bounded.starting (h : Bounded ⟨⟨n, .waitCheck⟩, age, call⟩)
    (hwaiting : n.cmd.pktWaiting = false) :
    Bounded ⟨⟨n, .arm⟩, age, call.next .waitCheck .arm⟩ := by
  have hnot : n.cmd.pktWaiting ≠ true := by simp [hwaiting]
  refine ⟨fun hcontra => absurd hcontra hnot, fun _ hcontra => absurd hcontra hnot, ?_⟩
  intro hreceiving _
  rcases h.unguarded hreceiving hwaiting with hzero | ⟨hone, hbefore⟩
  · exact .inl hzero
  · exact .inr ⟨hone, hbefore.arrive (.inr rfl)⟩

/-- Starting the timeout, no later than in the first tick after the sync byte. -/
theorem Bounded.arm {cmd : CmdTimer} {pc : Control} (h : Bounded ⟨⟨n, .arm⟩, age, call⟩)
    (hstopped : n.cmd.pktWaiting = false) (htimeout : cmd.pktTimeout = tmrSet n.systick 5000)
    (hwaiting : cmd.pktWaiting = true) :
    Bounded ⟨⟨{ n with cmd := cmd }, pc⟩, age, call.next .arm pc⟩ := by
  have hleft : Node.remaining { n with cmd := cmd } = 5000 := Node.remaining_started htimeout
  refine ⟨?_, ?_, fun _ hcontra => ?_⟩
  · show _ → Node.remaining { n with cmd := cmd } ≤ 5000 ∧ (Node.remaining { n with cmd := cmd } = 0 → _)
    rw [hleft]
    exact fun _ => ⟨by omega, fun hcontra => by omega⟩
  · show Receiving n.pkt → _ → age + Node.remaining { n with cmd := cmd } ≤ 5001
    rw [hleft]
    intro hreceiving _
    rcases h.unguarded hreceiving hstopped with hzero | ⟨hone, -⟩
    · have hage : age = 0 := hzero
      omega
    · have hage : age = 1 := hone
      omega
  · have hcontra : cmd.pktWaiting = false := hcontra
    rw [hwaiting] at hcontra
    cases hcontra

/-- A program point of the main loop. -/
theorem Bounded.main {owner : Owner} (h : s.Bounded) (howned : Owned s.machine owner)
    (hlooping : Looping s.machine) (samples : Vector UInt16 4) : (s.step p (.main samples)).Bounded := by
  obtain ⟨m, age, call⟩ := s
  show Bounded ⟨mainStep p samples m, age, call.next m.pc (mainStep p samples m).pc⟩
  have hreception := mainStep_reception (p := p) howned samples
  have hstep := mainStep_loopStep p samples m
  generalize mainStep p samples m = m' at hreception hstep ⊢
  -- no program point starts a frame
  have hkeeps : Receiving m'.node.pkt → Receiving m.node.pkt := by
    intro hreceiving
    rcases hreception with hsearch | ⟨hsame, -⟩
    · simp [Receiving, hsearch] at hreceiving
    · simpa [Receiving, hsame] using hreceiving
  cases hstep with
  | ledRun | adcRun | expired | unexpired | rxFree | freed | loop =>
      exact h.outside (by simp) rfl rfl hkeeps
  | ready n hready =>
      -- a packet that is ready clears the waiting flag
      refine .of_stopped rfl fun hreceiving => ?_
      have hcontra : n.pkt.readyPacket = false := howned.1.notReady (hkeeps hreceiving)
      rw [hready] at hcontra
      cases hcontra
  | notReady n => exact h.enter
  | restart n => exact .of_stopped rfl (by simp [boot, pktReset, Receiving])
  | returned n | handled n =>
      have hframe := cmdDispatch_frame p n.pkt.rxbuf n
      exact h.outside (by simp) hframe.cmd hframe.systick hkeeps
  | overdue n hwaiting hexpired => exact h.overdue hwaiting hexpired
  | waiting n hwaiting hexpired => exact h.running hwaiting hexpired
  | active n hwaiting => exact h.starting hwaiting
  | inactive n hwaiting hactive =>
      refine .of_stopped hwaiting fun hreceiving => ?_
      have hcontra : pktIsActive n.pkt = true := Receiving.active hreceiving
      rw [hactive] at hcontra
      cases hcontra
  | giveUp n => exact .of_stopped rfl (by simp [cmdGiveUp, pktReset, Receiving])
  | arm n cmd htimeout hwaiting =>
      exact h.arm (hlooping.stopped (.inr (.inr rfl))) htimeout hwaiting
  | kissmRun n event held =>
      have hframe := appRun_frame p event n
      exact h.outside (by simp) hframe.cmd hframe.systick hkeeps

/-- Every action keeps the invariant. -/
theorem Bounded.step {owner : Owner} (h : s.Bounded) (howned : Owned s.machine owner)
    (hlooping : Looping s.machine) {action : Action} (hcalled : s.Called action) : (s.step p action).Bounded := by
  cases action with
  | tick => exact h.tick hcalled
  | rx byte => exact h.rx byte
  | shift => exact h.keep rfl rfl rfl id fun _ _ hbefore => hbefore
  | dre =>
      simp only [Served.step, BmsNode.step]
      split_ifs
      · exact h.keep rfl rfl rfl id fun _ _ hbefore => hbefore
      · exact h
  | txc =>
      simp only [Served.step, BmsNode.step]
      split_ifs
      · exact h.keep rfl rfl rfl id fun _ _ hbefore => hbefore
      · exact h
  | main samples => exact h.main howned hlooping samples

/-- The machine takes its own steps. -/
theorem step_machine (p : Platform) (s : Served) (action : Action) :
    (s.step p action).machine = BmsNode.step p s.machine action := by
  cases action <;> rfl

end Served

/-! ## Runs -/

/-- A stalled reception never blocks the node. In every run in which `cmd_process` is called at
least once in every tick, a frame is being received for at most 5001 ticks since its sync byte,
whatever is received and whatever came before. -/
theorem reception_bounded (p : Platform) (eeprom : Config) (actions : List Action)
    (hcalled : Meets (Served.step p) Served.Called (Served.start (boot p eeprom)) actions)
    (hreceiving : Receiving
      (run (Served.step p) (Served.start (boot p eeprom)) actions).machine.node.pkt) :
    (run (Served.step p) (Served.start (boot p eeprom)) actions).age ≤ 5001 := by
  have hsearch : (boot p eeprom).node.pkt.state = .search := rfl
  have hinit : (Served.start (boot p eeprom)).Bounded :=
    .of_stopped rfl (by simp [Served.start, Receiving, hsearch])
  have hrun : Served.Bounded (run (Served.step p) (Served.start (boot p eeprom)) actions) ∧
      Looping (run (Served.step p) (Served.start (boot p eeprom)) actions).machine ∧
      ∃ owner, Owned (run (Served.step p) (Served.start (boot p eeprom)) actions).machine owner := by
    refine run_invariant (P := fun s : Served => s.Bounded ∧ Looping s.machine ∧
      ∃ owner, Owned s.machine owner) ?_ ⟨hinit, boot_looping p eeprom, .none, boot_owned p eeprom⟩
      hcalled
    rintro s action ⟨hs, hlooping, owner, howned⟩ hok
    obtain ⟨next, -, hnext⟩ := step_owned (p := p) howned action
    have hstep := hs.step (p := p) howned hlooping hok
    rw [Served.step_machine]
    exact ⟨hstep, hlooping.step action, next, hnext⟩
  exact hrun.1.age_le hreceiving

/-- The first pass, a preamble, a sync byte and one more byte, and two passes a tick apart. -/
def stalling : List Action :=
  let pass := List.replicate 7 (Action.main (Vector.replicate 4 0))
  pass ++ [.rx pktPreamble, .rx pktSync, .rx 0] ++ pass ++ [.tick] ++ pass

/-- A frame that stalls after its first byte, a tick later. -/
theorem reception_bounded_stalled :
    (run (Served.step benchBoard) (Served.start (boot benchBoard (Vector.replicate 26 0xFF)))
      stalling).age ≤ 5001 :=
  reception_bounded benchBoard (Vector.replicate 26 0xFF) stalling (by decide +kernel)
    (by decide +kernel)

end BmsNode
