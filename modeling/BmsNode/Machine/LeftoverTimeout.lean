import BmsNode.Machine.Moves
import BmsNode.Machine.StalledFrame
import BmsNode.Timers.Operations

/-!
# Timeouts left over from an earlier frame

`cmd_process` stops its reception timeout only when a packet is delivered or when the
timeout itself ends. A frame that is dropped for its check byte or its length leaves it
running, and it then counts against the next frame. `NoLeftover` is the condition at the
sync byte under which that cannot happen; it is exact, since otherwise the main loop
alone, run at the right tick, resets the parser inside the frame.
-/

namespace BmsNode

open Transition

/-- No reception timeout that is running ends within a number of ticks, and `cmd_process` is not
about to give up. -/
structure NoLeftover (m : Machine) (ticks : Nat) : Prop where
  going : m.pc ≠ .giveUp
  timeout : m.node.cmd.pktWaiting = true → ∀ k < ticks,
    tmrExpired (m.node.systick + UInt16.ofNat k) m.node.cmd.pktTimeout = false

/-! ## Without a leftover timeout -/

/-- The node is receiving a frame, with the given bytes still to come, and no timeout ends within a
number of ticks. -/
structure Undisturbed (f : Frame) (rest : List UInt8) (ticks : Nat) (m : Machine) : Prop where
  reading : ∃ got, InFrame m.node.pkt got ∧ f.body = got ++ rest
  free : m.pc.held = false
  clear : NoLeftover m ticks

namespace Undisturbed

variable {p : Platform} {f : Frame} {rest : List UInt8} {ticks : Nat} {m : Machine}

/-- Nothing is ready while a frame is being received. -/
theorem notReady (h : Undisturbed f rest ticks m) : m.node.pkt.readyPacket = false := by
  obtain ⟨got, hin, -⟩ := h.reading
  exact hin.notReady

/-- The frame is activity. -/
theorem active (h : Undisturbed f rest ticks m) : pktIsActive m.node.pkt = true := by
  obtain ⟨got, hin, -⟩ := h.reading
  exact Receiving.active hin.state_cases

/-- A step that leaves the clock, the packet module and the timeout alone. -/
theorem keep {m' : Machine} (h : Undisturbed f rest ticks m)
    (hsystick : m'.node.systick = m.node.systick) (hpkt : m'.node.pkt = m.node.pkt)
    (hcmd : m'.node.cmd = m.node.cmd) (hheld : m'.pc.held = false) (hpc : m'.pc ≠ .giveUp) :
    Undisturbed f rest ticks m' := by
  refine ⟨?_, hheld, hpc, ?_⟩
  · rw [hpkt]
    exact h.reading
  · rw [hcmd, hsystick]
    exact h.clear.timeout

/-- The tick interrupt uses up one of the ticks. -/
theorem tick (h : Undisturbed f rest (ticks + 1) m) : Undisturbed f rest ticks (step p m .tick) := by
  refine ⟨h.reading, h.free, h.clear.going, fun hwaiting k hk => ?_⟩
  have hlater := h.clear.timeout hwaiting (k + 1) (Nat.succ_lt_succ hk)
  have hcount : m.node.systick + 1 + UInt16.ofNat k = m.node.systick + UInt16.ofNat (k + 1) := by
    rw [UInt16.ofNat_add, UInt16.add_assoc, UInt16.add_comm 1]
    rfl
  show tmrExpired (m.node.systick + 1 + UInt16.ofNat k) m.node.cmd.pktTimeout = false
  rw [hcount]
  exact hlater

/-- The next byte of the frame is read. -/
theorem rx {byte : UInt8} (h : Undisturbed f (byte :: rest) ticks m) (hf : f.Fits) :
    Undisturbed f rest ticks (step p m (.rx byte)) := by
  obtain ⟨got, hin, hbody⟩ := h.reading
  obtain ⟨hcheck, hlength⟩ := hin.next hf byte rest hbody
  refine ⟨⟨got ++ [byte], hin.more hcheck byte hlength, ?_⟩, h.free, h.clear.going,
    h.clear.timeout⟩
  rw [hbody, List.append_assoc, List.singleton_append]

/-- A timeout started inside the frame does not end before it. -/
theorem arm {n : Node} {cmd : CmdTimer} (h : Undisturbed f rest ticks ⟨n, .arm⟩)
    (hticks : ticks ≤ 5000) (htimeout : cmd.pktTimeout = tmrSet n.systick 5000) :
    Undisturbed f rest ticks ⟨{ n with cmd := cmd }, .kissmRun .none false⟩ := by
  refine ⟨h.reading, rfl, by simp, fun _ k hk => ?_⟩
  show tmrExpired (n.systick + UInt16.ofNat k) cmd.pktTimeout = false
  rw [htimeout]
  exact tmrSet_running n.systick 5000 (Nat.lt_of_lt_of_le hk hticks) (by decide)

/-- A program point of the main loop, which does not reset the parser. -/
theorem main (h : Undisturbed f rest ticks m) (hticks : 0 < ticks ∧ ticks ≤ 5000)
    (samples : Vector UInt16 4) :
    Undisturbed f rest ticks (mainStep p samples m) ∧ .reset ∉ mainEvents p m := by
  have hstep := mainStep_loopStep p samples m
  generalize mainStep p samples m = m' at hstep ⊢
  cases hstep with
  | ledRun | adcRun | expired | unexpired | waiting | active | inactive | loop =>
      exact ⟨h.keep rfl rfl rfl rfl (by simp), by simp [mainEvents]⟩
  | ready n hready =>
      have hcontra : n.pkt.readyPacket = false := h.notReady
      rw [hready] at hcontra
      cases hcontra
  | notReady n hready => exact ⟨h.keep rfl rfl rfl rfl (by simp), by simp [mainEvents, hready]⟩
  | restart | returned | handled | rxFree | freed => cases h.free
  | overdue n hwaiting hexpired =>
      -- the timeout has not ended yet
      have hnow := h.clear.timeout hwaiting 0 hticks.1
      simp [hexpired] at hnow
  | giveUp => exact absurd rfl h.clear.going
  | arm n cmd htimeout => exact ⟨h.arm hticks.2 htimeout, by simp [mainEvents]⟩
  | kissmRun n event held =>
      have hframe := appRun_frame p event n
      exact ⟨h.keep hframe.systick hframe.pkt hframe.cmd h.free (by simp), by simp [mainEvents]⟩

/-- A run that receives no more than the rest of the frame, in fewer ticks than are left, does not
reset the parser. -/
theorem run {during : List Action} (h : Undisturbed f (heardBytes during ++ rest) ticks m)
    (hf : f.Fits) (hmax : ticks ≤ 5000) (hless : during.count .tick < ticks) :
    .reset ∉ trace (step p) (packetEvents p) m during := by
  induction during generalizing m ticks with
  | nil => simp [trace]
  | cons action during ih =>
      rw [trace, List.mem_append, not_or]
      have hrest (hcount : during.count .tick < ticks)
          (hnext : Undisturbed f (heardBytes during ++ rest) ticks (step p m action)) :
          .reset ∉ trace (step p) (packetEvents p) (step p m action) during :=
        ih hnext hmax hcount
      cases action with
      | tick =>
          obtain ⟨left, rfl⟩ : ∃ left, ticks = left + 1 := ⟨ticks - 1, by omega⟩
          rw [List.count_cons_self] at hless
          exact ⟨by simp [packetEvents], ih h.tick (by omega) (by omega)⟩
      | rx byte =>
          refine ⟨?_, hrest (by simpa using hless) (h.rx hf)⟩
          simp only [packetEvents, byteEvents]
          split_ifs <;> simp
      | shift =>
          exact ⟨by simp [packetEvents], hrest (by simpa using hless)
            (h.keep rfl rfl rfl h.free h.clear.going)⟩
      | dre | txc =>
          refine ⟨by simp [packetEvents], hrest (by simpa using hless) ?_⟩
          simp only [step]
          split_ifs
          · exact h.keep rfl rfl rfl h.free h.clear.going
          · exact h
      | main samples =>
          have hcount : during.count .tick < ticks := by simpa using hless
          obtain ⟨hnext, hevents⟩ := h.main (p := p) ⟨by omega, hmax⟩ samples
          exact ⟨hevents, hrest hcount hnext⟩

end Undisturbed

/-- A sync byte that finds the buffer free starts a frame, while the main loop holds no packet. -/
theorem Owned.starts {m : Machine} {owner : Owner} (h : Owned m owner)
    (hsync : m.node.pkt.state = .sync) (hfree : m.node.pkt.rxbufInuse = false) :
    InFrame (pktParser m.node.pkt pktSync) [] ∧ m.pc.held = false := by
  obtain ⟨howner, hheld⟩ := h
  cases owner with
  | none => exact ⟨pktParser_start hsync hfree howner.1, hheld⟩
  | waiting packet | client packet =>
      have hinuse := howner.2.1
      rw [hfree] at hinuse
      cases hinuse

/-- The sync byte of a frame, when no timeout is left over. -/
theorem NoLeftover.start {p : Platform} {m : Machine} {owner : Owner} {ticks : Nat}
    (h : NoLeftover m ticks) (howned : Owned m owner) (hsync : m.node.pkt.state = .sync)
    (hfree : m.node.pkt.rxbufInuse = false) (f : Frame) :
    Undisturbed f f.body ticks (step p m (.rx pktSync)) := by
  obtain ⟨hstart, hheld⟩ := howned.starts hsync hfree
  exact ⟨⟨[], hstart, rfl⟩, hheld, h.going, h.timeout⟩

/-! ## With a leftover timeout -/

/-- The main loop alone gets to reset the parser. -/
def Resets (p : Platform) (m : Machine) : Prop :=
  ∃ count, PacketEvent.reset ∈
    trace (step p) (packetEvents p) m (List.replicate count (.main (Vector.replicate 4 0)))

/-- The main loop gets where its next program point leads. -/
theorem Resets.back {p : Platform} {m : Machine}
    (h : Resets p (mainStep p (Vector.replicate 4 0) m)) : Resets p m := by
  obtain ⟨count, hreset⟩ := h
  refine ⟨count + 1, ?_⟩
  rw [List.replicate_succ, trace]
  exact List.mem_append_right _ hreset

/-- Giving up resets the parser. -/
theorem resets_giveUp (p : Platform) (n : Node) : Resets p ⟨n, .giveUp⟩ :=
  ⟨1, by simp [trace, packetEvents, mainEvents]⟩

/-- No packet is ready, and the reception timeout is running and has ended. -/
structure Overdue (n : Node) : Prop where
  notReady : n.pkt.readyPacket = false
  waiting : n.cmd.pktWaiting = true
  expired : tmrExpired n.systick n.cmd.pktTimeout = true

namespace Overdue

variable {p : Platform} {n : Node}

/-- What the overdue timeout depends on. -/
theorem keep {n' : Node} (h : Overdue n) (hpkt : n'.pkt = n.pkt) (hcmd : n'.cmd = n.cmd)
    (hsystick : n'.systick = n.systick) : Overdue n' := by
  refine ⟨?_, ?_, ?_⟩
  · rw [hpkt]
    exact h.notReady
  · rw [hcmd]
    exact h.waiting
  · rw [hsystick, hcmd]
    exact h.expired

/-- The check of an overdue timeout gives up. -/
theorem waitCheck (h : Overdue n) : Resets p ⟨n, .waitCheck⟩ := by
  apply Resets.back
  have hstep : mainStep p (Vector.replicate 4 0) ⟨n, .waitCheck⟩ = ⟨n, .giveUp⟩ := by
    simp [mainStep, h.waiting, h.expired]
  rw [hstep]
  exact resets_giveUp p n

/-- A call of `cmd_process` goes on to the check. -/
theorem pktReady (h : Overdue n) : Resets p ⟨n, .pktReady⟩ := by
  apply Resets.back
  have hready := h.notReady
  have hstep : mainStep p (Vector.replicate 4 0) ⟨n, .pktReady⟩ =
      ⟨{ n with pkt := { n.pkt with readyPacket := false } }, .waitCheck⟩ := by
    simp [mainStep, cmdReady, BmsNode.pktReady, hready]
  rw [hstep]
  exact waitCheck ⟨rfl, h.waiting, h.expired⟩

/-- A pass in which no timer has expired calls `cmd_process`. -/
theorem tmrProcess_quiet (h : Overdue n)
    (hquiet : ∀ tmr ∈ n.tmrlist, tmrExpired n.systick tmr.timeout = false) :
    Resets p ⟨n, .tmrProcess⟩ := by
  apply Resets.back
  have hprocess : BmsNode.tmrProcess n.systick n.tmrlist = (none, n.tmrlist) := by
    refine tmrProcess_of_none (List.find?_eq_none.mpr fun tmr hmem => ?_)
    rw [hquiet tmr hmem]
    simp
  have hstep : mainStep p (Vector.replicate 4 0) ⟨n, .tmrProcess⟩ = ⟨n, .pktReady⟩ := by
    simp only [mainStep, hprocess]
  rw [hstep]
  exact h.pktReady

/-- The rest of a pass leads to the timers of the next one. -/
theorem passOn {pc : Control} (h : Overdue n)
    (hpc : pc = .loopFree false ∨ pc = .ledRun ∨ pc = .adcRun)
    (hnext : ∀ n' : Node, Overdue n' → n'.tmrlist = n.tmrlist → n'.systick = n.systick →
      Resets p ⟨n', .tmrProcess⟩) : Resets p ⟨n, pc⟩ := by
  have hadc (n' : Node) (h' : Overdue n') (htmrlist : n'.tmrlist = n.tmrlist)
      (hsystick : n'.systick = n.systick) : Resets p ⟨n', .adcRun⟩ := by
    apply Resets.back
    exact hnext _ (h'.keep rfl rfl rfl) htmrlist hsystick
  have hled : Resets p ⟨n, .ledRun⟩ := by
    apply Resets.back
    exact hadc _ (h.keep rfl rfl rfl) rfl rfl
  rcases hpc with rfl | rfl | rfl
  · apply Resets.back
    exact hled
  · exact hled
  · exact hadc n h rfl rfl

/-- A pass on a timeout event leaves no timer that has expired. -/
theorem quiet_after_timeout (hempty : n.tmrlist = []) :
    ∀ tmr ∈ (appRun p .timeout n).tmrlist,
      tmrExpired (appRun p .timeout n).systick tmr.timeout = false := by
  obtain ⟨armed, hmove, htmrlist⟩ := appRun_moves p (.inr (.inl rfl) : Event.FromLoop .timeout) (n := n)
  rw [(appRun_frame p .timeout n).systick, htmrlist]
  cases armed with
  | none =>
      rw [Node.movedTmrlist, hempty]
      simp
  | some duration =>
      have hlist : n.movedTmrlist (some duration) =
          [⟨stateTmr, tmrSet n.systick duration, 0, stateTmrId⟩] := by
        rw [Node.movedTmrlist, tmrSchedule, hempty]
        rfl
      rw [hlist]
      intro tmr hmem
      obtain rfl := List.mem_singleton.mp hmem
      have hrange := hmove.duration
      have hrunning := tmrSet_running n.systick duration (k := 0) (by omega) (by omega)
      simpa using hrunning

/-- A pass goes on to `cmd_process`, at the latest after the one that the state timer cuts short. -/
theorem tmrProcess (h : Overdue n) (htimer : OneTimer n.tmrlist) :
    Resets p ⟨n, .tmrProcess⟩ := by
  apply Resets.back
  have hstep := mainStep_loopStep p (Vector.replicate 4 0) ⟨n, .tmrProcess⟩
  generalize mainStep p (Vector.replicate 4 0) ⟨n, .tmrProcess⟩ = m' at hstep ⊢
  cases hstep with
  | unexpired n tmrlist htmr =>
      obtain rfl := htimer.unexpired htmr
      exact h.pktReady
  | expired n tmr tmrlist htmr =>
      obtain ⟨hid, rfl⟩ := htimer.expired htmr
      rw [if_pos hid]
      apply Resets.back
      -- the state machine takes the timeout, and the next pass finds no timer expired
      have hframe := appRun_frame p .timeout { n with tmrlist := [] }
      have hafter : Overdue (appRun p .timeout { n with tmrlist := [] }) :=
        h.keep hframe.pkt hframe.cmd hframe.systick
      refine passOn hafter (.inl rfl) fun n' h' htmrlist hsystick => h'.tmrProcess_quiet ?_
      rw [htmrlist, hsystick]
      exact quiet_after_timeout rfl

/-- From any program point that holds no packet, the main loop gets to reset the parser. -/
theorem resets {m : Machine} (h : Overdue m.node) (hlooping : Looping m)
    (hheld : m.pc.held = false) : Resets p m := by
  obtain ⟨n, pc⟩ := m
  have hnext (n' : Node) (h' : Overdue n') (htmrlist : n'.tmrlist = n.tmrlist)
      (_ : n'.systick = n.systick) : Resets p ⟨n', .tmrProcess⟩ := by
    apply h'.tmrProcess
    rw [htmrlist]
    exact hlooping.tmrlist
  cases pc with
  | ledRun => exact passOn h (.inr (.inl rfl)) hnext
  | adcRun => exact passOn h (.inr (.inr rfl)) hnext
  | tmrProcess => exact hnext n h rfl rfl
  | pktReady => exact h.pktReady
  | dispatch | rxFree => cases hheld
  | waitCheck => exact h.waitCheck
  | giveUp => exact resets_giveUp p n
  | arm =>
      have hstopped : n.cmd.pktWaiting = false := hlooping.stopped (.inr (.inr rfl))
      rw [h.waiting] at hstopped
      cases hstopped
  | kissmRun event held =>
      apply Resets.back
      have hframe := appRun_frame p event n
      have hafter := h.keep hframe.pkt hframe.cmd hframe.systick
      have htimer := (hlooping.main (p := p) (Vector.replicate 4 0)).tmrlist
      obtain rfl : held = false := hheld
      refine passOn hafter (.inl rfl) fun n' h' htmrlist _ => h'.tmrProcess ?_
      rw [htmrlist]
      exact htimer
  | loopFree held =>
      obtain rfl : held = false := hheld
      exact passOn h (.inl rfl) hnext

end Overdue

/-- Ticks alone only move the clock. -/
theorem run_ticks (p : Platform) (m : Machine) (count : Nat) :
    run (step p) m (List.replicate count .tick) =
      { m with node := { m.node with systick := m.node.systick + UInt16.ofNat count } } := by
  induction count generalizing m with
  | zero => simp
  | succ count ih =>
      have hcount : m.node.systick + 1 + UInt16.ofNat count =
          m.node.systick + UInt16.ofNat (count + 1) := by
        rw [UInt16.ofNat_add, UInt16.add_assoc, UInt16.add_comm 1]
        rfl
      rw [List.replicate_succ, run_cons, ih]
      simp only [step, tcb0IntVect, hcount]

/-- A reception timeout that ends later lets the main loop alone reset the parser then. -/
theorem resets_later {p : Platform} {m : Machine} (hlooping : Looping m) (hheld : m.pc.held = false)
    (hready : m.node.pkt.readyPacket = false) (hwaiting : m.node.cmd.pktWaiting = true) {k : Nat}
    (hexpired : tmrExpired (m.node.systick + UInt16.ofNat k) m.node.cmd.pktTimeout = true) :
    ∃ count, PacketEvent.reset ∈ trace (step p) (packetEvents p) m
      (List.replicate k .tick ++ List.replicate count (.main (Vector.replicate 4 0))) := by
  have hafter := run_ticks p m k
  have hover : Overdue (run (step p) m (List.replicate k .tick)).node := by
    rw [hafter]
    exact ⟨hready, hwaiting, hexpired⟩
  have hloop : Looping (run (step p) m (List.replicate k .tick)) :=
    run_invariant_always (fun m action h => h.step action) (List.replicate k .tick) hlooping
  have hfree : (run (step p) m (List.replicate k .tick)).pc.held = false := by
    rw [hafter]
    exact hheld
  obtain ⟨count, hreset⟩ := hover.resets hloop hfree
  refine ⟨count, ?_⟩
  rw [trace_append]
  exact List.mem_append_right _ hreset

/-! ## The condition is exact -/

/-- Whatever the frame and the schedule, a frame that starts now and is complete in fewer than the
given ticks is not reset before its check byte. -/
def Uncut (p : Platform) (m : Machine) (ticks : Nat) : Prop :=
  ∀ (f : Frame) (during : List Action), f.Fits → heardBytes during = f.body →
    during.count .tick < ticks →
    .reset ∉ trace (step p) (packetEvents p) (step p m (.rx pktSync)) during

/-- A schedule that resets the parser before any byte is heard cuts a frame. -/
theorem Uncut.quiet {p : Platform} {m : Machine} {ticks : Nat} (h : Uncut p m ticks)
    (during : List Action) (hheard : heardBytes during = []) (hless : during.count .tick < ticks) :
    .reset ∉ trace (step p) (packetEvents p) (step p m (.rx pktSync)) during := by
  intro hreset
  have hrx (bytes : List UInt8) : heardBytes (bytes.map .rx) = bytes := by
    simp [heardBytes, List.flatMap_map, Action.heard]
  have hcount (bytes : List UInt8) : (bytes.map Action.rx).count .tick = 0 := by
    simp [List.count_eq_zero]
  refine h ⟨0, 0, 0, 0, []⟩ (during ++ (Frame.body ⟨0, 0, 0, 0, []⟩).map .rx) ⟨rfl, by decide⟩ ?_ ?_ ?_
  · rw [heardBytes, List.flatMap_append]
    show heardBytes during ++ heardBytes _ = _
    rw [hheard, hrx, List.nil_append]
  · rw [List.count_append, hcount]
    exact hless
  · rw [trace_append]
    exact List.mem_append_left _ hreset

/-- The stuck-packet timeout and the frames it guards, in every reachable state. When a sync byte
arrives with the buffer free, no frame that is complete in fewer than `ticks` ticks can be reset
before its check byte exactly when no timeout left over from before ends within these ticks and
`cmd_process` is not just about to give up. -/
theorem uncut_iff (p : Platform) (eeprom : Config) (past : List Action) {ticks : Nat}
    (hsync : (run (step p) (boot p eeprom) past).node.pkt.state = .sync)
    (hfree : (run (step p) (boot p eeprom) past).node.pkt.rxbufInuse = false)
    (hpos : 0 < ticks) (hmax : ticks ≤ 5000) :
    Uncut p (run (step p) (boot p eeprom) past) ticks ↔
      NoLeftover (run (step p) (boot p eeprom) past) ticks := by
  obtain ⟨owner, -, howned⟩ := run_owned p eeprom past
  have hlooping : Looping (run (step p) (boot p eeprom) past) :=
    run_invariant_always (fun m action h => h.step action) past (boot_looping p eeprom)
  generalize run (step p) (boot p eeprom) past = m at *
  constructor
  · intro huncut
    obtain ⟨hstart, hheld⟩ := howned.starts hsync hfree
    refine ⟨fun hgive => ?_, fun hwaiting k hk => ?_⟩
    · -- the next program point resets the parser
      refine huncut.quiet [.main (Vector.replicate 4 0)] rfl (by simpa using hpos) ?_
      have hpc : (step p m (.rx pktSync)).pc = .giveUp := hgive
      simp [trace, packetEvents, mainEvents, hpc]
    · cases hexpired : tmrExpired (m.node.systick + UInt16.ofNat k) m.node.cmd.pktTimeout with
      | false => rfl
      | true =>
          -- after `k` ticks the main loop alone gets to give up
          obtain ⟨count, hreset⟩ := resets_later (p := p) (hlooping.step (.rx pktSync)) hheld
            hstart.notReady hwaiting hexpired
          refine absurd hreset (huncut.quiet _ ?_ ?_)
          · simp [heardBytes, Action.heard]
          · rw [List.count_append]
            simpa [List.count_replicate] using hk
  · intro hclear f during hf hheard hless
    have hstart := hclear.start (p := p) howned hsync hfree f
    rw [← hheard, ← List.append_nil (heardBytes during)] at hstart
    exact hstart.run hf hmax hless

/-- The condition is met by a node that has just started and hears its first preamble. -/
theorem uncut_iff_first :
    Uncut benchBoard (run (step benchBoard) (boot benchBoard (Vector.replicate 26 0xFF))
        [.rx pktPreamble]) 5000 ↔
      NoLeftover (run (step benchBoard) (boot benchBoard (Vector.replicate 26 0xFF))
        [.rx pktPreamble]) 5000 :=
  uncut_iff benchBoard (Vector.replicate 26 0xFF) [.rx pktPreamble] (by decide +kernel)
    (by decide +kernel) (by decide) (by decide)

/-- Passes of the main loop 100 ticks apart. -/
def regularPasses (count : Nat) : List Action :=
  (List.replicate count (List.replicate 100 .tick ++ mains 7)).flatten

/-- A node that is in the idle state after a second enters the dfu state with a DFU packet for
address 9. There a frame is polled once and then dropped for its check byte, and a preamble comes
4999 ticks later. The main loop makes a pass at least every 100 ticks. -/
def droppedFrame : List Action :=
  mains 7 ++ regularPasses 9 ++ List.replicate 100 .tick ++ mains 5 ++
    [0x55, 0xF0, 0, 9, 2, 0, 0x10].map .rx ++ mains 7 ++
    [.rx 0x55, .rx 0xF0] ++ mains 8 ++ [0, 2, 1, 0, 0].map .rx ++
    regularPasses 49 ++ List.replicate 99 .tick ++ mains 7 ++ [.rx 0x55]

/-- A PING for address 2 that arrives one tick after its sync byte, and a pass before that. -/
def goodFrame : List Action :=
  [.tick] ++ mains 7 ++ [0, 2, 1, 0].map .rx

/-- The timeout of the dropped frame resets the parser inside the good one. -/
theorem frame_cut :
    (run (step benchBoard) (boot benchBoard (Vector.replicate 26 0xFF)) droppedFrame).node.pkt.state
        = .sync ∧
      (run (step benchBoard) (boot benchBoard (Vector.replicate 26 0xFF))
        droppedFrame).node.pkt.rxbufInuse = false ∧
      ¬Uncut benchBoard
        (run (step benchBoard) (boot benchBoard (Vector.replicate 26 0xFF)) droppedFrame) 5000 := by
  refine and_assoc.mp ⟨by decide +kernel, fun huncut => ?_⟩
  have huncut := huncut ⟨0, 2, 1, 0, []⟩ goodFrame ⟨rfl, by decide⟩ (by decide +kernel)
    (by decide +kernel)
  revert huncut
  decide +kernel

end BmsNode
