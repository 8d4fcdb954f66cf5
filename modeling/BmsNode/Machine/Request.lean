import BmsNode.Machine.Service
import BmsNode.Machine.ShuntCommand
import BmsNode.Machine.Turnaround

/-!
# A request is answered

From a complete packet in the receive buffer to the last byte of its reply: the packet
waits for its dispatch, the dispatch serves it, and the reply is sent out. `Requested`
is the first stretch, in which nothing is sent and no register changes; over the last
one `Turning` holds with the transmitter busy, so no other packet is dispatched.
-/

namespace BmsNode

open Transition

/-- Passes less than a second apart, on the bus. -/
def Watch.Regular (w : Watch) (action : Action) : Prop := w.Quick action ∧ OnBus w.machine action

/-- The condition can be checked. -/
instance (w : Watch) (action : Action) : Decidable (w.Regular action) :=
  inferInstanceAs (Decidable (_ ∧ _))

/-- A packet is dispatched. -/
def Watch.Dispatches (w : Watch) (action : Action) : Prop :=
  w.machine.pc = .dispatch ∧ action.isMain = true

/-! ## What only a dispatch does -/

/-- Only the dispatch of a packet is an exchange. -/
theorem Watch.exchanges_eq_nil {p : Platform} {w : Watch} {action : Action}
    (h : ¬w.Dispatches action) : exchanges p w.machine action = [] := by
  cases action with
  | tick | rx | dre | txc | shift => rfl
  | main samples => exact exchanges_of_ne samples fun hpc => h ⟨hpc, rfl⟩

/-- Without an exchange the registers stay. -/
theorem Holding.quiet {p : Platform} {m : Machine} {r : Registers} (h : Holding m r)
    {action : Action} (hnone : exchanges p m action = []) :
    Holding (BmsNode.step p m action) r := by
  obtain ⟨next, hfollow, hnext⟩ := h.step (p := p) action
  rw [hnone] at hfollow
  obtain rfl := Option.some.inj hfollow
  exact hnext

/-- The registers after an exchange, and its replies, are those of the server. -/
theorem Holding.exchange {p : Platform} {m : Machine} {r : Registers} (h : Holding m r)
    {action : Action} {x : Exchange} (hone : exchanges p m action = [x]) :
    Holding (BmsNode.step p m action) (r.serve p.identity x.seen x.request).1 ∧
      x.replies = (r.serve p.identity x.seen x.request).2.toList := by
  obtain ⟨next, hfollow, hnext⟩ := h.step (p := p) action
  rw [hone] at hfollow
  have htake : r.take p.identity x = some next := by
    simpa [follow] using hfollow
  unfold Registers.take at htake
  generalize r.serve p.identity x.seen x.request = served at htake ⊢
  obtain ⟨after, reply⟩ := served
  change (if x.replies = reply.toList then some after else none) = some next at htake
  split_ifs at htake with hreplies
  obtain rfl := Option.some.inj htake
  exact ⟨hnext, hreplies⟩

/-! ## Up to the dispatch -/

/-- A request waits for its dispatch. -/
structure Watch.Requested (packet : RxBuf) (r : Registers) (w : Watch) : Prop where
  turning : Turning w.machine
  holding : Holding w.machine r
  waits : w.Pending packet false ∨ w.machine.pc = .dispatch ∧ w.machine.node.pkt.rxbuf = packet

/-- The program points before the dispatch, at most. -/
noncomputable def Watch.toDispatch (w : Watch) : Nat :=
  if w.machine.pc = .dispatch then 0 else w.toServe + 1

/-- A packet that waits is not being dispatched. -/
theorem Watch.Pending.not_dispatch {packet : RxBuf} {missed : Bool} {w : Watch}
    (h : w.Pending packet missed) : w.machine.pc ≠ .dispatch := by
  intro hpc
  have hheld := h.owned.2
  rw [hpc] at hheld
  cases hheld

/-- Up to the dispatch the transmitter is at rest. -/
theorem Watch.Requested.resting {packet : RxBuf} {r : Registers} {w : Watch}
    (h : w.Requested packet r) : w.machine.node.ser.Resting := by
  rcases h.turning.talking.room.phase with hrest | hreply
  · exact hrest
  · rcases h.waits with hpending | ⟨hpc, -⟩
    · have hready : w.machine.node.pkt.readyPacket = true := hpending.owned.1.2.2.1
      rw [hreply.notReady] at hready
      cases hready
    · exact absurd hpc hreply.pc

/-- Every other action keeps the request, and a program point brings it closer to its dispatch. -/
theorem Watch.Requested.step {p : Platform} {packet : RxBuf} {r : Registers} {w : Watch}
    (h : w.Requested packet r) {action : Action} (hregular : w.Regular action)
    (hother : ¬w.Dispatches action) :
    (w.step p action).Requested packet r ∧
      (w.step p action).toDispatch + action.isMain.toNat ≤ w.toDispatch := by
  obtain ⟨hquick, hbus⟩ := hregular
  have hturning : Turning (w.step p action).machine := by
    rw [Watch.step_machine]
    exact h.turning.step hbus
  have hholding : Holding (w.step p action).machine r := by
    rw [Watch.step_machine]
    exact h.holding.quiet (Watch.exchanges_eq_nil hother)
  have hpoint := Bool.toNat_le action.isMain
  rcases h.waits with hpending | ⟨hpc, hpacket⟩
  · have hbefore : w.toDispatch = w.toServe + 1 := if_neg hpending.not_dispatch
    have hwaits : ¬w.machine.Settles packet false := by
      rintro (⟨hpc, -⟩ | ⟨hmissed, -⟩)
      · exact hpending.not_dispatch hpc
      · cases hmissed
    rcases hpending.step (p := p) hquick hwaits with hsettles | ⟨hnext, hrank⟩
    · obtain ⟨hpc, hpacket⟩ := hsettles.resolve_right fun hdropped => by cases hdropped.1
      have hafter : (w.step p action).toDispatch = 0 := if_pos hpc
      exact ⟨⟨hturning, hholding, .inr ⟨hpc, hpacket⟩⟩, by omega⟩
    · have hafter : (w.step p action).toDispatch = (w.step p action).toServe + 1 :=
        if_neg hnext.not_dispatch
      exact ⟨⟨hturning, hholding, .inl hnext⟩, by omega⟩
  · -- an interrupt at the dispatch
    have hmain : action.isMain = false := by
      cases hmain : action.isMain with
      | false => rfl
      | true => exact absurd ⟨hpc, hmain⟩ hother
    obtain ⟨owner, howned⟩ := h.turning.talking.owned
    have hheld : w.machine.pc.held = true := by
      rw [hpc]
      rfl
    have hstays : (w.step p action).machine.pc = .dispatch := by
      rw [Watch.step_machine, (interrupt_app hmain).2.2]
      exact hpc
    have hsame : (w.step p action).machine.node.pkt.rxbuf = packet := by
      rw [Watch.step_machine, held_interrupt howned hheld hmain]
      exact hpacket
    have hafter : (w.step p action).toDispatch = 0 := if_pos hstays
    refine ⟨⟨hturning, hholding, .inr ⟨hstays, hsame⟩⟩, ?_⟩
    rw [hafter, hmain]
    exact Nat.zero_le _

/-! ## The whole way -/

/-- Over actions that are no exchanges the bytes on their way go out, and no other byte does. -/
theorem wire_quiet {p : Platform} {cond : Watch → Action → Prop}
    (hquiet : ∀ w action, cond w action → Turning w.machine ∧ exchanges p w.machine action = [])
    {w : Watch} {actions : List Action} (hmeets : Meets (Watch.step p) cond w actions) :
    trace (Watch.step p) (fun w => shiftedOut w.machine) w actions ++
        (run (Watch.step p) w actions).machine.node.ser.inFlight =
      w.machine.node.ser.inFlight := by
  have hsilent : ∀ w action, cond w action →
      (repliesGiven p w.machine action).flatMap Frame.sent = [] := by
    intro w action hok
    rw [repliesGiven, (hquiet w action hok).2]
    rfl
  have hconserves := run_conserves (P := fun _ => True)
    (fun w action => (repliesGiven p w.machine action).flatMap Frame.sent)
    (fun w => shiftedOut w.machine) (fun w => w.machine.node.ser.inFlight)
    (fun _ _ _ _ => trivial) (fun w action _ hok => by
      rw [Watch.step_machine]
      exact (hquiet w action hok).1.talking.conserves action) trivial hmeets
  rw [trace_eq_nil hsilent hmeets, List.append_nil] at hconserves
  exact hconserves

/-- The dispatch serves the request, and puts the reply on its way. -/
theorem Watch.Requested.dispatch {p : Platform} {packet : RxBuf} {r : Registers} {w : Watch}
    (h : w.Requested packet r) {action : Action} (hdispatches : w.Dispatches action) :
    let served := r.serve p.identity (w.machine.node.readings p) packet
    Holding (w.step p action).machine served.1 ∧ shiftedOut w.machine action = [] ∧
      (w.step p action).machine.node.ser.inFlight = served.2.toList.flatMap Frame.sent := by
  intro served
  obtain ⟨hpc, hmain⟩ := hdispatches
  have hpacket : w.machine.node.pkt.rxbuf = packet := by
    rcases h.waits with hpending | ⟨-, hpacket⟩
    · exact absurd hpc hpending.not_dispatch
    · exact hpacket
  cases action with
  | tick | rx | dre | txc | shift => cases hmain
  | main samples =>
      have hone : exchanges p w.machine (.main samples) =
          [⟨w.machine.node.readings p, packet,
            sentFrames w.machine.node (cmdDispatch p packet w.machine.node).2⟩] := by
        simp only [exchanges, hpc, hpacket]
      obtain ⟨hholding, hreplies⟩ := h.holding.exchange hone
      have hconserves := h.turning.talking.conserves (p := p) (.main samples)
      have hempty := h.resting.inFlight h.turning.talking.room.wired.indexed
      rw [repliesGiven, hone, List.flatMap_singleton, hreplies, hempty, List.nil_append]
        at hconserves
      rw [Watch.step_machine]
      exact ⟨hholding, rfl, hconserves⟩

/-- A reply on its way goes out, when the run ends with the transmitter at a standstill. -/
theorem Watch.sends_out {p : Platform} {w : Watch} {r : Registers} {actions : List Action}
    (hturning : Turning w.machine) (hholding : Holding w.machine r)
    (hregular : Meets (Watch.step p) Watch.Regular w actions)
    (hstill : ∀ action, transmits p (run (Watch.step p) w actions).machine action = false) :
    ∃ done rest, actions = done ++ rest ∧
      trace (Watch.step p) (fun w => shiftedOut w.machine) w done =
        w.machine.node.ser.inFlight ∧
      Holding (run (Watch.step p) w done).machine r ∧
      (run (Watch.step p) w done).machine.node.ser.Resting := by
  have hend : (run (Watch.step p) w actions).machine.node.ser.Resting := by
    have hlast : Turning (run (Watch.step p) w actions).machine :=
      run_invariant (P := fun w => Turning w.machine) (fun w action h hok => by
        rw [Watch.step_machine]
        exact h.step hok.2) hturning hregular
    by_contra hbusy
    obtain ⟨action, -, hgoes⟩ := hlast.enabled (p := p) hbusy
    rw [hstill action] at hgoes
    cases hgoes
  -- no packet is dispatched while the transmitter is busy
  have hquiet {w : Watch} (hturning : Turning w.machine) (hbusy : ¬w.machine.node.ser.Resting)
      (action : Action) : exchanges p w.machine action = [] :=
    Watch.exchanges_eq_nil fun hdispatches =>
      hbusy (hturning.talking.room.resting hdispatches.1)
  obtain ⟨done, rest, hsplit, hdone, ⟨hlast, hholds⟩, hresting⟩ :=
    run_first (P := fun w => Turning w.machine ∧ Holding w.machine r)
      (fun w => w.machine.node.ser.Resting) (fun w action h hok hbusy => by
        rw [Watch.step_machine]
        exact ⟨h.1.step hok.2, h.2.quiet (hquiet h.1 hbusy action)⟩)
      ⟨hturning, hholding⟩ hregular hend
  have hwire := wire_quiet (fun w action h => ⟨h.1.1, hquiet h.1.1 h.2 action⟩) hdone
  rw [hresting.inFlight hlast.talking.room.wired.indexed, List.append_nil] at hwire
  exact ⟨done, rest, hsplit, hwire, hholds, hresting⟩

/-- A request is answered: from every state of every run on the bus, with passes less than a
second apart, in which a complete packet waits and the pass in progress is not between its look
for a packet and the check of the reception timeout, from where it could still drop the packet;
and along every continuation that passes 14 program points of the main loop and ends with the
transmitter at a standstill. Up to some moment of it exactly the bytes of the reply that the
server of the node's registers gives have gone out, preambles first, the registers are those of
the server, and the node listens again. -/
theorem request_answered (p : Platform) (eeprom : Config) (actions more : List Action)
    (hregular : Meets (Watch.step p) Watch.Regular (Watch.fresh (boot p eeprom))
      (actions ++ more)) :
    let w := run (Watch.step p) (Watch.fresh (boot p eeprom)) actions
    w.machine.node.pkt.readyPacket = true → w.machine.pc.checking = false →
      14 ≤ more.countP Action.isMain →
      (∀ action, transmits p (run (Watch.step p) w more).machine action = false) →
      ∃ early done rest, more = early ++ done ++ rest ∧
        let seen := (run (Watch.step p) w early).machine.node.readings p
        let served := w.machine.node.registers.serve p.identity seen w.machine.node.pkt.rxbuf
        let w' := run (Watch.step p) w (early ++ done)
        trace (Watch.step p) (fun w => shiftedOut w.machine) w (early ++ done) =
            served.2.toList.flatMap Frame.sent ∧
          w'.machine.node.registers = served.1 ∧ w'.machine.node.ser.Resting := by
  intro w hready hchecking hpoints hstill
  obtain ⟨hbefore, hmore⟩ := (meets_append _ actions more).mp hregular
  -- what holds at the moment the packet waits
  have hkept : w.Kept :=
    run_invariant (fun w action h hok => h.step hok.1) (Watch.fresh_kept p eeprom) hbefore
  have hturning : Turning w.machine :=
    run_invariant (P := fun w => Turning w.machine) (fun w action h hok => by
      rw [Watch.step_machine]
      exact h.step hok.2) (boot_turning p eeprom) hbefore
  obtain ⟨r, hholding⟩ : ∃ r, Holding w.machine r :=
    run_invariant (P := fun w => ∃ r, Holding w.machine r) (fun w action ⟨r, h⟩ _ => by
      obtain ⟨next, -, hnext⟩ := h.step (p := p) action
      rw [Watch.step_machine]
      exact ⟨next, hnext⟩) ⟨_, boot_holding p eeprom⟩ hbefore
  have hpending := hkept.pending hready
  rw [hchecking] at hpending
  have hrequested : w.Requested w.machine.node.pkt.rxbuf r := ⟨hturning, hholding, .inl hpending⟩
  -- up to the dispatch
  have hdispatch : w.toDispatch <
      countOf (Watch.step p) (fun _ action => action.isMain) w more := by
    have hnear := hpending.toServe
    have hrank : w.toDispatch = w.toServe + 1 := if_neg hpending.not_dispatch
    rw [countOf_countP]
    omega
  obtain ⟨early, action, later, hsplit, hearly, hlast, hdispatches⟩ :=
    run_awaits Watch.Dispatches Watch.toDispatch (fun w action h hok hother => h.step hok hother)
      hrequested hmore hdispatch
  have hwaited := wire_quiet (fun w action h => ⟨h.1.turning, Watch.exchanges_eq_nil h.2⟩) hearly
  rw [hlast.resting.inFlight hlast.turning.talking.room.wired.indexed, List.append_nil,
    hrequested.resting.inFlight hturning.talking.room.wired.indexed] at hwaited
  -- the dispatch, and the reply
  rw [hsplit] at hmore hstill
  obtain ⟨-, hok, hlater⟩ := (meets_append _ early (action :: later)).mp hmore
  obtain ⟨hserved, hnothing, hreply⟩ := hlast.dispatch (p := p) hdispatches
  have hafter : Turning ((run (Watch.step p) w early).step p action).machine := by
    rw [Watch.step_machine]
    exact hlast.turning.step hok.2
  rw [run_append, run_cons] at hstill
  obtain ⟨done, rest, hrest, hwire, hholds, hresting⟩ :=
    Watch.sends_out hafter hserved hlater hstill
  refine ⟨early, action :: done, rest, by rw [hsplit, hrest]; simp, ?_, ?_, ?_⟩
  · rw [trace_append, hwaited, trace, hnothing, hwire, hreply, hholding.registers]
    rfl
  · rw [run_append, run_cons, hholds.registers, hholding.registers]
  · rw [run_append, run_cons]
    exact hresting

/-- Two passes, and the interrupts and steps that send a reply of ten bytes. -/
def pingAnswered : List Action :=
  List.replicate 14 (.main (Vector.replicate 4 0)) ++
    (List.replicate 10 [Action.dre, .shift]).flatten ++ [.dre, .shift, .txc]

/-- The transmitter is at a standstill behind the reply to a PING. -/
theorem pingAnswered_still (action : Action) :
    transmits benchBoard (run (Watch.step benchBoard) (run (Watch.step benchBoard)
      (Watch.fresh (boot benchBoard (freshNode benchBoard 1).cfg.eeprom)) pingReceived)
      pingAnswered).machine action = false := by
  cases action with
  | tick | rx | main => rfl
  | dre | txc | shift => decide +kernel

/-- A PING is answered. -/
theorem request_answered_ping :
    let w := run (Watch.step benchBoard)
      (Watch.fresh (boot benchBoard (freshNode benchBoard 1).cfg.eeprom)) pingReceived
    ∃ early done rest, pingAnswered = early ++ done ++ rest ∧
      let seen := (run (Watch.step benchBoard) w early).machine.node.readings benchBoard
      let served :=
        w.machine.node.registers.serve benchBoard.identity seen w.machine.node.pkt.rxbuf
      let w' := run (Watch.step benchBoard) w (early ++ done)
      trace (Watch.step benchBoard) (fun w => shiftedOut w.machine) w (early ++ done) =
          served.2.toList.flatMap Frame.sent ∧
        w'.machine.node.registers = served.1 ∧ w'.machine.node.ser.Resting :=
  request_answered benchBoard (freshNode benchBoard 1).cfg.eeprom pingReceived pingAnswered
    (by decide +kernel) (by decide +kernel) (by decide +kernel) (by decide +kernel)
    pingAnswered_still

end BmsNode
