import BmsNode.Engine.Alongside
import BmsNode.Machine.Moves
import BmsNode.Machine.Ownership

/-!
# The watchdog

The state handlers of `main.c` reset the watchdog in most of their branches and stop it
over the sleep state. `WdtMachine` is the machine with its watchdog and with what has
happened since the last pass of the state machine. A pass leaves the watchdog unreset
only when it is the first one or hands a command to the idle or the shunt state, and
neither can come twice in a row unless a whole frame is received between two passes. So
the watchdog never gets older than two passes.
-/

namespace BmsNode

open Transition

/-! ## The calls of the handlers -/

/-- A call of the watchdog functions. -/
inductive WdtCall where
  | reset
  | enable
  | disable
  deriving DecidableEq, Repr

/-- The watchdog after a call: the ticks since its last reset, or `none` while it is disabled. -/
def WdtCall.apply : WdtCall → Option Nat → Option Nat
  | .reset, age => age.map fun _ => 0
  | .enable, _ => some 0
  | .disable, _ => none

/-- The calls in the handler of the powerup state. -/
def wdtPowerup : Event → List WdtCall
  | .entry | .timeout => []
  | _ => [.reset]

/-- The calls in the handler of the idle state. -/
def wdtIdle : Event → List WdtCall
  | .entry | .exit | .cmd | .timeout => []
  | _ => [.reset]

/-- The calls in the handler of the dfu state. -/
def wdtDfu : Event → List WdtCall
  | .entry | .timeout => []
  | _ => [.reset]

/-- The calls in the handler of the shunt state. -/
def wdtShunt : Event → List WdtCall
  | .entry | .cmd | .exit => []
  | _ => [.reset]

/-- The calls in the handler of the testmode state. -/
def wdtTestmode : Event → List WdtCall
  | .entry | .exit => []
  | _ => [.reset]

/-- The calls in the handler of the sleep state. -/
def wdtSleep : Event → List WdtCall
  | .entry => [.disable]
  | .exit => [.enable]
  | _ => []

/-- The calls in the handler of a state. -/
def wdtCalls : AppState → Event → List WdtCall
  | .powerup => wdtPowerup
  | .idle => wdtIdle
  | .dfu => wdtDfu
  | .shunt => wdtShunt
  | .testmode => wdtTestmode
  | .sleep => wdtSleep

/-- The watchdog after one invocation of a handler. -/
def wdtUpdate (state : AppState) (event : Event) (age : Option Nat) : Option Nat :=
  (wdtCalls state event).foldl (fun age call => call.apply age) age

/-- The handlers with their watchdog. -/
def wdtHandler (p : Platform) :
    AppState → Event → Node × Option Nat → Option AppState × (Node × Option Nat) :=
  alongside (appHandler p) wdtUpdate

/-- The watchdog after a pass of the state machine. -/
def wdtRun (p : Platform) (event : Event) (n : Node) (age : Option Nat) : Option Nat :=
  (kissmRun AppState.powerup (wdtHandler p) .exit .entry n.ps event (n, age)).2.2

/-- `WDTO_1S`, in ticks. -/
def wdto1s : Nat := 1000

/-! ## Runs with the watchdog -/

/-- A running node with its watchdog, and the ticks and the received bytes since the last pass of
its state machine. -/
structure WdtMachine where
  machine : Machine
  age : Option Nat
  ticks : Nat
  bytes : Nat

namespace WdtMachine

/-- A node that starts, or starts again: `main_loop` enables the watchdog before its loop. -/
def start (machine : Machine) : WdtMachine :=
  { machine := machine, age := some 0, ticks := 0, bytes := 0 }

/-- One step of the machine, with its effect on the watchdog. -/
def step (p : Platform) (g : WdtMachine) (action : Action) : WdtMachine :=
  let machine := BmsNode.step p g.machine action
  match action with
  | .tick =>
      { g with machine := machine, age := g.age.map fun age => age + 1, ticks := g.ticks + 1 }
  | .rx _ => { g with machine := machine, bytes := g.bytes + 1 }
  | .main _ =>
      match g.machine.pc with
      | .kissmRun event _ =>
          { machine := machine, age := wdtRun p event g.machine.node g.age, ticks := 0, bytes := 0 }
      | _ => if restarts p g.machine then start machine else { g with machine := machine }
  | _ => { g with machine := machine }

/-- While the watchdog is enabled no more than `limit` ticks and five bytes come between two
passes. -/
def Paced (limit : Nat) (g : WdtMachine) : Action → Prop
  | .tick => g.age = none ∨ g.ticks < limit
  | .rx _ => g.age = none ∨ g.bytes < 5
  | _ => True

/-- The condition can be checked. -/
instance (limit : Nat) (g : WdtMachine) : ∀ action, Decidable (g.Paced limit action)
  | .tick | .rx _ => inferInstanceAs (Decidable (_ ∨ _))
  | .dre | .txc | .shift | .main _ => isTrue trivial

/-- The machine takes its own steps. -/
theorem step_machine (p : Platform) (g : WdtMachine) (action : Action) :
    (g.step p action).machine = BmsNode.step p g.machine action := by
  cases action with
  | tick | rx | dre | txc | shift => rfl
  | main samples =>
      simp only [WdtMachine.step]
      split
      · rfl
      · split_ifs <;> rfl

end WdtMachine

/-! ## The watchdog over a pass -/

/-- A pass that starts with the watchdog enabled resets it, goes to sleep, is the first one, or
hands a command to the idle or the shunt state. -/
inductive WdtPass (n : Node) (event : Event) (next : KissmState AppState) (age : Nat) :
    Option Nat → Prop where
  | reset (hnext : next ≠ .app .sleep) : WdtPass n event next age (some 0)
  | asleep (hnext : next = .app .sleep) : WdtPass n event next age none
  | first (hps : n.ps = .initial) (hnext : next = .app .powerup) :
      WdtPass n event next age (some age)
  | command (hevent : event = .cmd) (hps : n.ps ≠ .app .powerup)
      (hnext : next ≠ .app .sleep ∧ next ≠ .initial) : WdtPass n event next age (some age)

section Pass

variable {p : Platform} {n : Node} {event : Event}

/-- The watchdog over a pass depends on the states before and after it. -/
theorem wdtRun_eq (age : Option Nat) :
    wdtRun p event n age =
      passed wdtUpdate .exit .entry event n.ps (appRun p event n).ps age := by
  rw [wdtRun, wdtHandler, kissmRun_alongside]
  rfl

/-- The watchdog after a pass that starts with it enabled. -/
theorem wdtRun_enabled (hevent : event.FromLoop) (hawake : n.ps ≠ .app .sleep) (age : Nat) :
    WdtPass n event (appRun p event n).ps age (wdtRun p event n (some age)) := by
  obtain ⟨armed, hmove, -⟩ := appRun_moves p hevent (n := n)
  rw [wdtRun_eq]
  generalize (appRun p event n).ps = next at hmove
  cases hmove with
  | powerup _ hps =>
      rw [hps]
      exact .first hps rfl
  | settled hps =>
      rcases hps with hps | hps
      · rw [hps]
        exact .reset (by simp)
      · rw [hps]
        exact .reset (by simp)
  | wait _ hps htimeout =>
      rcases hevent with rfl | rfl | rfl
      · rcases hps with hps | hps <;> rw [hps] <;> exact .reset (by simp)
      · exact absurd rfl htimeout
      · rcases hps with hps | hps <;> rw [hps] <;> exact .reset (by simp)
  | sleep hps =>
      rw [hps]
      exact .asleep rfl
  | command hps | dfu hps =>
      rw [hps]
      exact .command rfl (by simp [hps]) (by simp)
  | busy hps | quiet hps =>
      rw [hps]
      exact .reset (by simp)
  | work state hps hstate =>
      rw [hps]
      rcases hstate with rfl | rfl <;> exact .command rfl (by simp [hps]) (by simp)
  | done _ state hps hstate =>
      rcases hstate with rfl | rfl | rfl
      · rw [hps]
        rcases hevent with rfl | rfl | rfl
        · exact .reset (by simp)
        · exact .reset (by simp)
        · exact .command rfl (by simp [hps]) (by simp)
      · rw [hps]
        rcases hevent with rfl | rfl | rfl <;> exact .reset (by simp)
      · exact absurd hps hawake
  | on _ hps =>
      rcases hps with hps | hps
      · rw [hps]
        rcases hevent with rfl | rfl | rfl
        · exact .reset (by simp)
        · exact .reset (by simp)
        · exact .command rfl (by simp [hps]) (by simp)
      · rw [hps]
        rcases hevent with rfl | rfl | rfl <;> exact .reset (by simp)

/-- The pass after waking up enables the watchdog. -/
theorem wdtRun_wake (hevent : event.FromLoop) (hps : n.ps = .app .sleep) (age : Option Nat) :
    wdtRun p event n age = some 0 ∧ (appRun p event n).ps = .app .idle := by
  obtain ⟨armed, hmove, -⟩ := appRun_moves p hevent (n := n)
  have hidle : (appRun p event n).ps = .app .idle := by
    generalize (appRun p event n).ps = next at hmove
    cases hmove with
    | done => rfl
    | settled | sleep | command | busy | quiet | dfu | work | powerup | wait | on => simp_all
  refine ⟨?_, hidle⟩
  rw [wdtRun_eq, hidle, hps]
  rcases hevent with rfl | rfl | rfl <;> rfl

end Pass

/-! ## How soon the next packet can be there -/

/-- The received bytes after which a packet can be complete at the earliest. -/
def untilReady (p : Pkt) : Nat :=
  match p.state with
  | .search => 7
  | .sync => 6
  | .header => 5 - p.idx.toNat
  | .data => p.len.toNat + 1
  | .check => 1

/-- A byte brings the next packet no more than one byte nearer. -/
theorem parser_untilReady (p : Pkt) (byte : UInt8) :
    untilReady p ≤ untilReady (pktParser p byte) + 1 := by
  cases hs : p.state with
  | search =>
      simp only [pktParser, hs]
      split_ifs <;> simp [untilReady, hs]
  | sync =>
      simp only [pktParser, hs, pktRxAlloc]
      split_ifs <;> simp [untilReady, hs]
  | header =>
      have hnext : (pktStore p byte).idx.toNat = (p.idx.toNat + 1) % 256 := UInt8.toNat_add p.idx 1
      have hstate : (pktStore p byte).state = .header := hs
      simp only [pktParser, hs]
      generalize pktStore p byte = stored at hnext hstate ⊢
      have hheader : untilReady p = 5 - p.idx.toNat := by rw [untilReady, hs]
      rw [hheader]
      split_ifs with hfour hzero hover
      · -- the length byte is stored and at least the CRC byte is missing
        rw [hfour, pktHeaderLen] at hnext
        simp only [untilReady]
        simp at hnext
        omega
      · simp only [untilReady]
        omega
      · rw [hfour, pktHeaderLen] at hnext
        simp only [untilReady]
        simp at hnext
        omega
      · have hidx := p.idx.toNat_lt
        simp only [untilReady, hstate, hnext]
        omega
  | data =>
      have hnext : (p.len - 1).toNat = (255 + p.len.toNat) % 256 := UInt8.toNat_sub p.len 1
      have hlen := p.len.toNat_lt
      have hdata : untilReady p = p.len.toNat + 1 := by rw [untilReady, hs]
      rw [pktParser_data hs, hdata]
      split_ifs with hzero
      · rw [hzero] at hnext
        simp only [untilReady]
        simp at hnext
        omega
      · have hstate : (pktStore p byte).state = .data := hs
        simp only [untilReady, hstate, hnext]
        omega
  | check => simp [untilReady, hs]

/-- Only the last byte of a packet makes it ready. -/
theorem parser_readyPacket {p : Pkt} (h : 1 < untilReady p) (byte : UInt8) :
    (pktParser p byte).readyPacket = p.readyPacket := by
  cases hs : p.state with
  | check => simp [untilReady, hs] at h
  | search =>
      simp only [pktParser, hs]
      split_ifs <;> rfl
  | sync =>
      simp only [pktParser, hs, pktRxAlloc]
      split_ifs <;> rfl
  | header | data =>
      simp only [pktParser, hs, pktStore, pktRxFree]
      split_ifs <;> rfl

/-- No command reaches the state machine before six bytes have been received since its last pass. -/
structure NoCommand (m : Machine) (bytes : Nat) : Prop where
  ready : m.node.pkt.readyPacket = false
  dispatch : m.pc ≠ .dispatch
  event : ∀ held, m.pc ≠ .kissmRun .cmd held
  far : 6 ≤ untilReady m.node.pkt + bytes

/-- A pass that was given a command leaves the buffer in use, and the next frame is still to come.
-/
theorem Owned.noCommand {m : Machine} {owner : Owner} (h : Owned m owner) (held : Bool)
    (hheld : m.pc.held = true) (node : Node) (hpkt : node.pkt = m.node.pkt) :
    NoCommand ⟨node, .loopFree held⟩ 0 := by
  have hclient := h.client hheld
  subst hclient
  obtain ⟨⟨hlisten, -, hready, -⟩, -⟩ := h
  refine ⟨?_, by simp, by simp, ?_⟩
  · rw [← hready, ← hpkt]
  · show 6 ≤ untilReady node.pkt + 0
    rw [hpkt]
    rcases hlisten with hs | hs <;> simp [untilReady, hs]

/-- A received byte is not the sixth one. -/
theorem NoCommand.rx {m : Machine} {bytes : Nat} (h : NoCommand m bytes) (hbytes : bytes < 5)
    (byte : UInt8) : NoCommand { m with node := receive m.node byte } (bytes + 1) := by
  have hfar := h.far
  have hnear := parser_untilReady m.node.pkt byte
  refine ⟨?_, h.dispatch, h.event, ?_⟩
  · show (pktParser m.node.pkt byte).readyPacket = false
    rw [parser_readyPacket (by omega)]
    exact h.ready
  · show 6 ≤ untilReady (pktParser m.node.pkt byte) + (bytes + 1)
    omega

/-- A program point that is no pass of the state machine brings no command either. -/
theorem NoCommand.main {p : Platform} {m : Machine} {bytes : Nat} (h : NoCommand m bytes)
    (samples : Vector UInt16 4) (hkissm : ∀ event held, m.pc ≠ .kissmRun event held) :
    NoCommand (mainStep p samples m) bytes := by
  have hstep := mainStep_loopStep p samples m
  generalize mainStep p samples m = m' at hstep ⊢
  cases hstep with
  | ledRun | adcRun | unexpired | notReady | rxFree | overdue | active | freed | loop =>
      exact ⟨h.ready, by simp, by simp, h.far⟩
  | waiting | inactive | arm => exact ⟨h.ready, by simp, by simp, h.far⟩
  | expired n tmr tmrlist htmr =>
      refine ⟨h.ready, by simp, fun held hpc => ?_, h.far⟩
      split_ifs at hpc <;> cases hpc
  | ready n hready =>
      have hcontra : n.pkt.readyPacket = false := h.ready
      rw [hready] at hcontra
      cases hcontra
  | restart | returned | handled => exact absurd rfl h.dispatch
  | giveUp n => exact ⟨rfl, by simp, by simp, Nat.le_add_right_of_le (by decide : 6 ≤ 7)⟩
  | kissmRun n event held => exact absurd rfl (hkissm event held)

/-! ## The invariant -/

namespace WdtMachine

/-- The next pass resets the watchdog. -/
def NextResets (g : WdtMachine) : Prop :=
  g.machine.node.ps = .app .powerup ∨
    (g.machine.node.ps ≠ .initial ∧ NoCommand g.machine g.bytes)

/-- The invariant: the last pass has reset the watchdog, or the one before has and the next one
will. -/
structure Safe (limit : Nat) (g : WdtMachine) : Prop where
  looping : Looping g.machine
  owned : ∃ owner, Owned g.machine owner
  command : ∀ held, g.machine.pc = .kissmRun .cmd held → held = true
  disabled : g.age = none ↔ g.machine.node.ps = .app .sleep
  ticks : g.age ≠ none → g.ticks ≤ limit
  recent : ∀ age, g.age = some age →
    age ≤ g.ticks ∨ (age ≤ limit + g.ticks ∧ g.NextResets)

/-- The firmware starts with the watchdog just enabled. -/
theorem boot_safe (p : Platform) (eeprom : Config) (limit : Nat) :
    Safe limit (start (boot p eeprom)) := by
  refine ⟨boot_looping p eeprom, ⟨.none, boot_owned p eeprom⟩, ?_, ?_, fun _ => Nat.zero_le _, ?_⟩
  · intro held hpc
    cases hpc
  · simp [start, boot]
  · intro age hage
    cases hage
    exact .inl (Nat.le_refl 0)

/-- An action that leaves the state of the application, its pending event and the watchdog alone. -/
theorem Safe.carry {limit : Nat} {g g' : WdtMachine} (h : Safe limit g)
    (hlooping : Looping g'.machine) (howned : ∃ owner, Owned g'.machine owner)
    (hcommand : ∀ held, g'.machine.pc = .kissmRun .cmd held → held = true)
    (hps : g'.machine.node.ps = g.machine.node.ps) (hage : g'.age = g.age)
    (hticks : g'.ticks = g.ticks)
    (hreset : NoCommand g.machine g.bytes → g.age ≠ none → NoCommand g'.machine g'.bytes) :
    Safe limit g' := by
  refine ⟨hlooping, howned, hcommand, ?_, ?_, ?_⟩
  · rw [hage, hps]
    exact h.disabled
  · rw [hage, hticks]
    exact h.ticks
  · intro age hsome
    rw [hage] at hsome
    rw [hticks, NextResets, hps]
    rcases h.recent age hsome with hfresh | ⟨hle, hpowerup | ⟨hinitial, hnone⟩⟩
    · exact .inl hfresh
    · exact .inr ⟨hle, .inl hpowerup⟩
    · exact .inr ⟨hle, .inr ⟨hinitial, hreset hnone (by simp [hsome])⟩⟩

/-- A tick ages the watchdog. -/
theorem Safe.tick {p : Platform} {limit : Nat} {g : WdtMachine} (h : Safe limit g)
    (hpaced : g.Paced limit .tick) : Safe limit (g.step p .tick) := by
  have hage : (g.step p .tick).age = g.age.map fun age => age + 1 := rfl
  have hnone : (g.step p .tick).age = none ↔ g.age = none := by simp [hage]
  have hlooping : Looping (g.step p .tick).machine := h.looping.step (p := p) .tick
  refine ⟨hlooping, ?_, h.command, hnone.trans h.disabled, ?_, ?_⟩
  · obtain ⟨owner, howned⟩ := h.owned
    exact ⟨owner, howned.keep rfl rfl⟩
  · intro henabled
    have hticks : g.ticks < limit := hpaced.resolve_left (mt hnone.mpr henabled)
    exact hticks
  · intro age hsome
    rw [hage] at hsome
    obtain ⟨before, hbefore, rfl⟩ := Option.map_eq_some_iff.mp hsome
    rcases h.recent before hbefore with hfresh | ⟨hle, hnext⟩
    · exact .inl (Nat.succ_le_succ hfresh)
    · refine .inr ⟨Nat.succ_le_succ hle, ?_⟩
      rcases hnext with hpowerup | ⟨hinitial, hno⟩
      · exact .inl hpowerup
      · exact .inr ⟨hinitial, hno.ready, hno.dispatch, hno.event, hno.far⟩

/-- The other interrupts do not touch the watchdog. -/
theorem Safe.interrupt {p : Platform} {limit : Nat} {g : WdtMachine} (h : Safe limit g)
    {action : Action} (hmain : action.isMain = false) (htick : action ≠ .tick)
    (hpaced : g.Paced limit action) : Safe limit (g.step p action) := by
  obtain ⟨hsteady, hpc⟩ := interrupt_steady (p := p) (m := g.machine) htick hmain
  have hlooping : Looping (BmsNode.step p g.machine action) := h.looping.step action
  have howned : ∃ owner, Owned (BmsNode.step p g.machine action) owner := by
    obtain ⟨owner, howned⟩ := h.owned
    obtain ⟨next, -, hnext⟩ := step_owned (p := p) howned action
    exact ⟨next, hnext⟩
  have hcommand : ∀ held, (BmsNode.step p g.machine action).pc = .kissmRun .cmd held →
      held = true := by
    rw [hpc]
    exact h.command
  cases action with
  | tick => exact absurd rfl htick
  | main samples => cases hmain
  | rx byte =>
      refine h.carry hlooping howned hcommand hsteady.ps rfl rfl fun hno henabled => ?_
      have hbytes : g.bytes < 5 := hpaced.resolve_left henabled
      exact hno.rx hbytes byte
  | shift =>
      exact h.carry hlooping howned hcommand hsteady.ps rfl rfl
        fun hno _ => ⟨hno.ready, hno.dispatch, hno.event, hno.far⟩
  | dre | txc =>
      refine h.carry hlooping howned hcommand hsteady.ps rfl rfl fun hno _ => ?_
      simp only [WdtMachine.step, BmsNode.step]
      split_ifs
      · exact ⟨hno.ready, hno.dispatch, hno.event, hno.far⟩
      · exact hno

/-- A command event is given to the state machine with the packet still held. -/
theorem mainStep_command {p : Platform} {m : Machine} {held : Bool} (samples : Vector UInt16 4)
    (hpc : (mainStep p samples m).pc = .kissmRun .cmd held) : held = true := by
  have hstep := mainStep_loopStep p samples m
  generalize mainStep p samples m = m' at hstep hpc
  cases hstep with
  | returned => cases hpc; rfl
  | expired =>
      simp only at hpc
      split_ifs at hpc <;> cases hpc
  | _ => cases hpc

/-- A pass of the state machine. -/
theorem Safe.pass {p : Platform} {limit : Nat} {n : Node} {event : Event} {held : Bool}
    {age : Option Nat} {ticks bytes : Nat}
    (h : Safe limit ⟨⟨n, .kissmRun event held⟩, age, ticks, bytes⟩) :
    Safe limit ⟨⟨appRun p event n, .loopFree held⟩, wdtRun p event n age, 0, 0⟩ := by
  have hevent : event.FromLoop := h.looping.event event held rfl
  have hlooping : Looping ⟨appRun p event n, .loopFree held⟩ :=
    h.looping.main (Vector.replicate 4 0)
  obtain ⟨owner, howned⟩ := h.owned
  have hnext : Owned ⟨appRun p event n, .loopFree held⟩ owner :=
    howned.keep (appRun_frame p event n).pkt rfl
  by_cases hasleep : n.ps = .app .sleep
  · obtain ⟨hage, hidle⟩ := wdtRun_wake (p := p) hevent hasleep age
    rw [hage]
    refine ⟨hlooping, ⟨owner, hnext⟩, by simp, by simp [hidle], fun _ => Nat.zero_le limit, ?_⟩
    intro age' heq
    cases heq
    exact .inl (Nat.le_refl 0)
  · obtain ⟨before, rfl⟩ : ∃ before, age = some before :=
      Option.ne_none_iff_exists'.mp (mt h.disabled.mp hasleep)
    have hpass := wdtRun_enabled (p := p) hevent hasleep before
    have hticks : ticks ≤ limit := h.ticks (by simp)
    have hbefore := h.recent before rfl
    generalize wdtRun p event n (some before) = after at hpass ⊢
    cases hpass with
    | reset hne =>
        refine ⟨hlooping, ⟨owner, hnext⟩, by simp, by simpa using hne,
          fun _ => Nat.zero_le limit, ?_⟩
        intro age' heq
        cases heq
        exact .inl (Nat.le_refl 0)
    | asleep heq =>
        exact ⟨hlooping, ⟨owner, hnext⟩, by simp, by simpa using heq, by simp, by simp⟩
    | first hps hpowerup =>
        refine ⟨hlooping, ⟨owner, hnext⟩, by simp, by simp [hpowerup],
          fun _ => Nat.zero_le limit, ?_⟩
        intro age' heq
        cases heq
        rcases hbefore with hfresh | ⟨-, hcontra | ⟨hcontra, -⟩⟩
        · exact .inr ⟨Nat.le_trans hfresh hticks, .inl hpowerup⟩
        · exact absurd (hps.symm.trans hcontra) (by simp)
        · exact absurd hps hcontra
    | command hcmd hps hne =>
        subst hcmd
        obtain rfl : held = true := h.command held rfl
        refine ⟨hlooping, ⟨owner, hnext⟩, by simp, by simpa using hne.1,
          fun _ => Nat.zero_le limit, ?_⟩
        intro age' heq
        cases heq
        rcases hbefore with hfresh | ⟨-, hcontra | ⟨-, hno⟩⟩
        · refine .inr ⟨Nat.le_trans hfresh hticks, .inr ⟨hne.2, ?_⟩⟩
          exact howned.noCommand true rfl _ (appRun_frame p .cmd n).pkt
        · exact absurd hcontra hps
        · exact absurd rfl (hno.event true)

/-- The other program points leave the watchdog alone, or start the firmware again. -/
theorem Safe.main {p : Platform} {limit : Nat} {g : WdtMachine} (h : Safe limit g)
    (samples : Vector UInt16 4) : Safe limit (g.step p (.main samples)) := by
  by_cases hkissm : ∃ event held, g.machine.pc = .kissmRun event held
  · obtain ⟨⟨n, pc⟩, age, ticks, bytes⟩ := g
    obtain ⟨event, held, rfl⟩ : ∃ event held, pc = .kissmRun event held := hkissm
    exact h.pass
  · have hno : ∀ event held, g.machine.pc ≠ .kissmRun event held := fun event held hpc =>
      hkissm ⟨event, held, hpc⟩
    cases hrestart : restarts p g.machine with
    | true =>
        obtain ⟨eeprom, hboot⟩ := mainStep_restart samples hrestart
        have hstep : g.step p (.main samples) = start (mainStep p samples g.machine) := by
          simp [WdtMachine.step, BmsNode.step, hrestart]
        rw [hstep, hboot]
        exact boot_safe p eeprom limit
    | false =>
        have hstep : g.step p (.main samples) =
            { g with machine := mainStep p samples g.machine } := by
          simp [WdtMachine.step, BmsNode.step, hrestart]
        rw [hstep]
        obtain ⟨owner, howned⟩ := h.owned
        obtain ⟨next, -, hnext⟩ := mainStep_owned (p := p) howned samples
        exact h.carry (h.looping.main samples) ⟨next, hnext⟩
          (fun held hpc => mainStep_command samples hpc) (mainStep_ps samples hno hrestart) rfl rfl
          fun hcmd _ => hcmd.main samples hno

/-- Every action within the limits keeps the invariant. -/
theorem Safe.step {p : Platform} {limit : Nat} {g : WdtMachine} (h : Safe limit g)
    (action : Action) (hpaced : g.Paced limit action) : Safe limit (g.step p action) := by
  cases action with
  | tick => exact h.tick hpaced
  | main samples => exact h.main samples
  | rx | dre | txc | shift => exact h.interrupt rfl (by simp) hpaced

end WdtMachine

/-- The watchdog of every run in which, while it is enabled, no more than `limit` ticks and five
received bytes come between two passes of the state machine. It is disabled exactly in the sleep
state, and otherwise at most two limits old, so that with a limit below 500 ticks its period of one
second never ends. The machine is the one without the watchdog. -/
theorem watchdog_held_off (p : Platform) (eeprom : Config) (limit : Nat) (actions : List Action)
    (hpaced : Meets (WdtMachine.step p) (WdtMachine.Paced limit) (.start (boot p eeprom)) actions) :
    let g := run (WdtMachine.step p) (.start (boot p eeprom)) actions
    g.machine = run (step p) (boot p eeprom) actions ∧
      (g.age = none ↔ g.machine.node.ps = .app .sleep) ∧
      ∀ age, g.age = some age → age ≤ 2 * limit ∧ (limit < 500 → age < wdto1s) := by
  intro g
  have hsafe : WdtMachine.Safe limit g :=
    run_invariant (fun g action h hmeets => h.step action hmeets)
      (WdtMachine.boot_safe p eeprom limit) hpaced
  refine ⟨run_map (WdtMachine.step_machine p) _ actions, hsafe.disabled, fun age hage => ?_⟩
  have hticks : g.ticks ≤ limit := hsafe.ticks (by simp [hage])
  have hle : age ≤ 2 * limit := by
    rcases hsafe.recent age hage with hfresh | ⟨hle, -⟩ <;> omega
  refine ⟨hle, fun hlimit => ?_⟩
  rw [wdto1s]
  omega

/-- Two ticks, a pass, and another tick. -/
def firstPass : List Action :=
  [.tick, .tick] ++ List.replicate 6 (.main (Vector.replicate 4 0)) ++ [.tick]

/-- The first pass of the state machine does not reset the watchdog, which is three ticks old one
tick later. -/
theorem watchdog_held_off_first :
    let g := run (WdtMachine.step benchBoard)
      (.start (boot benchBoard (Vector.replicate 26 0xFF))) firstPass
    g.age = some 3 ∧ 3 ≤ 2 * 2 := by
  intro g
  have hage : g.age = some 3 := by decide +kernel
  exact ⟨hage, ((watchdog_held_off benchBoard (Vector.replicate 26 0xFF) 2 firstPass
    (by decide +kernel)).2.2 3 hage).1⟩

end BmsNode
