import BmsNode.Machine.LoopStep
import BmsNode.Packet.Ownership

/-!
# Who owns the receive buffer

The main loop is the client that `pkt_ready` hands the packets to. The machine is
simulated by the protocol `ownerStep`, whatever the interleaving of interrupts and main
loop. `rxbuf_ownership` draws the consequences for the buffer flag, for the stored
bytes and for the delivery of packets.
-/

namespace BmsNode

open Transition

/-! ## The events of the machine -/

/-- The main loop holds a packet that `pkt_ready` returned and nobody has freed. -/
def Control.held : Control → Bool
  | .dispatch | .rxFree => true
  | .kissmRun _ held | .loopFree held => held
  | _ => false

/-- The event of a program point. -/
def mainEvents (p : Platform) (m : Machine) : List PacketEvent :=
  match m.pc with
  | .pktReady => if m.node.pkt.readyPacket then [.handOut m.node.pkt.rxbuf] else []
  | .dispatch => if (cmdDispatch p m.node.pkt.rxbuf m.node).2.swrr then [.boot] else []
  | .rxFree | .loopFree true => [.free m.node.pkt.rxbuf]
  | .giveUp => [.reset]
  | _ => []

/-- The events of an action. -/
def packetEvents (p : Platform) (m : Machine) : Action → List PacketEvent
  | .rx byte => byteEvents m.node.pkt byte
  | .main _ => mainEvents p m
  | _ => []

/-! ## The machine follows the protocol -/

/-- The machine with a given owner of its receive buffer. -/
def Owned (m : Machine) (owner : Owner) : Prop :=
  PktOwner m.node.pkt owner ∧ m.pc.held = owner.isClient

/-- The firmware starts with the buffer free. -/
theorem boot_owned (p : Platform) (eeprom : Config) : Owned (boot p eeprom) .none :=
  ⟨⟨rfl, .inl ⟨.inl rfl, rfl⟩⟩, rfl⟩

/-- While the main loop holds a packet it is the owner. -/
theorem Owned.client {m : Machine} {owner : Owner} (h : Owned m owner) (hheld : m.pc.held = true) :
    owner = .client m.node.pkt.rxbuf := by
  obtain ⟨howner, hpc⟩ := h
  cases owner with
  | none | waiting => simp [hheld, Owner.isClient] at hpc
  | client packet => rw [howner.2.2.2]

/-- A step that leaves the packet module alone and neither takes nor frees a packet. -/
theorem Owned.keep {m m' : Machine} {owner : Owner} (h : Owned m owner)
    (hpkt : m'.node.pkt = m.node.pkt) (hheld : m'.pc.held = m.pc.held) : Owned m' owner := by
  refine ⟨?_, hheld.trans h.2⟩
  rw [hpkt]
  exact h.1

/-- A program point that frees the packet held. -/
theorem Owned.release {m m' : Machine} {owner : Owner} (h : Owned m owner)
    (hheld : m.pc.held = true) (hpkt : m'.node.pkt = pktRxFree m.node.pkt)
    (hfree : m'.pc.held = false) :
    follow ownerStep owner [.free m.node.pkt.rxbuf] = some .none ∧ Owned m' .none := by
  have hclient := h.client hheld
  subst hclient
  obtain ⟨⟨hlisten, -, hready, -⟩, -⟩ := h
  refine ⟨by simp [follow, ownerStep], ?_, hfree⟩
  rw [hpkt]
  exact ⟨hready, .inl ⟨hlisten, rfl⟩⟩

/-- `pkt_ready` hands out the waiting packet. -/
theorem Owned.handOut {n n' : Node} {owner : Owner} (h : Owned { node := n, pc := .pktReady } owner)
    (hready : n.pkt.readyPacket = true) (hpkt : n'.pkt = { n.pkt with readyPacket := false }) :
    follow ownerStep owner [.handOut n.pkt.rxbuf] = some (.client n.pkt.rxbuf) ∧
      Owned { node := n', pc := .dispatch } (.client n.pkt.rxbuf) := by
  obtain ⟨howner, hheld⟩ := h
  cases owner with
  | client packet => simp [Control.held, Owner.isClient] at hheld
  | none =>
      have hcontra : n.pkt.readyPacket = false := howner.1
      rw [hready] at hcontra
      cases hcontra
  | waiting packet =>
      obtain ⟨hlisten, hinuse, -, hbuf⟩ := howner
      obtain rfl : n.pkt.rxbuf = packet := hbuf
      refine ⟨by simp [follow, ownerStep], ?_, rfl⟩
      rw [hpkt]
      exact ⟨hlisten, hinuse, rfl, rfl⟩

/-- A program point of the main loop follows the protocol. -/
theorem mainStep_owned {p : Platform} {m : Machine} {owner : Owner} (h : Owned m owner)
    (samples : Vector UInt16 4) :
    ∃ next, follow ownerStep owner (mainEvents p m) = some next ∧
      Owned (mainStep p samples m) next := by
  have hstep := mainStep_loopStep p samples m
  generalize mainStep p samples m = m' at hstep ⊢
  cases hstep with
  | ledRun | adcRun | expired | unexpired | overdue | waiting | active | inactive | arm | loop =>
      exact ⟨owner, rfl, h.keep rfl rfl⟩
  | ready n hready =>
      have hevents : mainEvents p ⟨n, .pktReady⟩ = [.handOut n.pkt.rxbuf] := if_pos hready
      rw [hevents]
      exact ⟨.client n.pkt.rxbuf, h.handOut hready rfl⟩
  | notReady n hready =>
      exact ⟨owner, by simp [mainEvents, hready, follow], h.keep rfl rfl⟩
  | restart n hswrr =>
      -- the software reset takes the packet held with it
      have hclient := h.client rfl
      subst hclient
      have hevents : mainEvents p ⟨n, .dispatch⟩ = [.boot] := if_pos hswrr
      rw [hevents]
      exact ⟨.none, rfl, boot_owned p _⟩
  | returned n hswrr | handled n hswrr =>
      have hpkt := (cmdDispatch_frame p n.pkt.rxbuf n).pkt
      exact ⟨owner, by simp [mainEvents, hswrr, follow], h.keep hpkt rfl⟩
  | rxFree | freed => exact ⟨.none, h.release rfl rfl rfl⟩
  | giveUp n =>
      -- the timeout is checked only while no packet is held
      obtain ⟨-, hheld⟩ := h
      have hnext : Owned { node := cmdGiveUp n, pc := .kissmRun .none false } .none :=
        ⟨⟨rfl, .inl ⟨.inl rfl, rfl⟩⟩, rfl⟩
      cases owner with
      | client packet => simp [Control.held, Owner.isClient] at hheld
      | none | waiting => exact ⟨.none, rfl, hnext⟩
  | kissmRun n event held => exact ⟨owner, rfl, h.keep (appRun_frame p event n).pkt rfl⟩

/-- Every action follows the protocol. -/
theorem step_owned {p : Platform} {m : Machine} {owner : Owner} (h : Owned m owner)
    (action : Action) :
    ∃ next, follow ownerStep owner (packetEvents p m action) = some next ∧
      Owned (step p m action) next := by
  cases action with
  | tick | shift => exact ⟨owner, rfl, h.keep rfl rfl⟩
  | dre | txc =>
      refine ⟨owner, rfl, ?_⟩
      simp only [step]
      split_ifs <;> exact h.keep rfl rfl
  | rx byte =>
      obtain ⟨next, hfollow, hnext, hclient⟩ := pktParser_owner h.1 byte
      exact ⟨next, hfollow, hnext, h.2.trans hclient.symm⟩
  | main samples => exact mainStep_owned h samples

/-! ## Consequences -/

/-- Exactly one of three propositions holds. -/
def ExactlyOne (a b c : Prop) : Prop := (a ∧ ¬b ∧ ¬c) ∨ (¬a ∧ b ∧ ¬c) ∨ (¬a ∧ ¬b ∧ c)

/-- The buffer is in use exactly when it has an owner, and never two. -/
theorem Owned.inuse_iff {m : Machine} {owner : Owner} (h : Owned m owner) :
    m.node.pkt.rxbufInuse = true ↔
      ExactlyOne (Receiving m.node.pkt) (m.node.pkt.readyPacket = true) (m.pc.held = true) := by
  have hlistening (hl : Listening m.node.pkt) : ¬Receiving m.node.pkt := by
    rcases hl with hs | hs <;> simp [Receiving, hs]
  obtain ⟨howner, hheld⟩ := h
  cases owner with
  | none =>
      obtain ⟨hready, ⟨hlisten, hfree⟩ | ⟨got, hin⟩⟩ := howner
      · simp [ExactlyOne, hlistening hlisten, hfree, hready, hheld, Owner.isClient]
      · have hreceiving : Receiving m.node.pkt := hin.state_cases
        simp [ExactlyOne, hreceiving, hin.inuse, hready, hheld, Owner.isClient]
  | waiting packet =>
      obtain ⟨hlisten, hinuse, hready, -⟩ := howner
      simp [ExactlyOne, hlistening hlisten, hinuse, hready, hheld, Owner.isClient]
  | client packet =>
      obtain ⟨hlisten, hinuse, hready, -⟩ := howner
      simp [ExactlyOne, hlistening hlisten, hinuse, hready, hheld, Owner.isClient]

/-- The events of every run follow the protocol, and its last state owns the buffer. -/
theorem run_owned (p : Platform) (eeprom : Config) (actions : List Action) :
    ∃ owner, follow ownerStep .none (trace (step p) (packetEvents p) (boot p eeprom) actions)
        = some owner ∧
      Owned (run (step p) (boot p eeprom) actions) owner :=
  run_simulation (R := Owned) (fun _ action _ h => step_owned h action) actions
    (boot_owned p eeprom)

/-- Single-buffer ownership and delivery of packets in every run. The buffer is in use exactly when
it has one of its three owners. Its bytes are those of the accepted packet until that is freed. A
packet is handed out only right after its acceptance, and is not handed out only when a `pkt_reset`
intervenes. -/
theorem rxbuf_ownership (p : Platform) (eeprom : Config) (actions : List Action) :
    let m := run (step p) (boot p eeprom) actions
    let events := trace (step p) (packetEvents p) (boot p eeprom) actions
    (m.node.pkt.rxbufInuse = true ↔
        ExactlyOne (Receiving m.node.pkt) (m.node.pkt.readyPacket = true) (m.pc.held = true)) ∧
      (∃ owner, follow ownerStep .none events = some owner ∧
        ∀ packet, owner = .waiting packet ∨ owner = .client packet → m.node.pkt.rxbuf = packet) ∧
      (∀ before packet after, events = before ++ .accept packet :: after →
        after = [] ∨ ∃ rest, after = .handOut packet :: rest ∨ after = .reset :: rest) ∧
      (∀ before packet after, events = before ++ .handOut packet :: after →
        ∃ earlier, before = earlier ++ [.accept packet]) := by
  obtain ⟨owner, hfollow, howned⟩ := run_owned p eeprom actions
  refine ⟨howned.inuse_iff, ⟨owner, hfollow, ?_⟩, ?_, ?_⟩
  · rintro packet (rfl | rfl)
    · exact howned.1.2.2.2
    · exact howned.1.2.2.2
  · intro before packet after hevents
    rw [hevents] at hfollow
    exact after_accept hfollow
  · intro before packet after hevents
    rw [hevents] at hfollow
    exact before_handOut hfollow

end BmsNode
