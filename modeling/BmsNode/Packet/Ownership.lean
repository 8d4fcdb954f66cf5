import BmsNode.Packet.Receive
import BmsNode.Transition.Run

/-!
# The receive buffer and its owners

The buffer passes from the parser to the client of the packet module and back.
`ownerStep` is the protocol of these transfers, an automaton on the events of a
packet's life. `PktOwner` says what the module looks like while the buffer has a given
owner, and `pktParser_owner` that every received byte follows the protocol.
-/

namespace BmsNode

open Transition

/-! ## The protocol -/

/-- The owner of the receive buffer outside a frame: nobody, a packet that waits in `ready_packet`,
or the main loop. -/
inductive Owner where
  | none
  | waiting (packet : RxBuf)
  | client (packet : RxBuf)
  deriving DecidableEq

/-- The events in the life of a packet: its CRC byte is accepted, `pkt_ready` hands it out, it is
freed, or a `pkt_reset` or a restart of the firmware intervenes. -/
inductive PacketEvent where
  | accept (packet : RxBuf)
  | handOut (packet : RxBuf)
  | free (packet : RxBuf)
  | reset
  | boot
  deriving DecidableEq

/-- Which event can follow in which state, and who owns the buffer then. -/
def ownerStep : Owner → PacketEvent → Option Owner
  | .none, .accept packet => some (.waiting packet)
  | .none, .reset => some .none
  | .none, .handOut _ | .none, .free _ | .none, .boot => none
  | .waiting packet, .handOut out => if out = packet then some (.client packet) else none
  | .waiting _, .reset => some .none
  | .waiting _, .accept _ | .waiting _, .free _ | .waiting _, .boot => none
  | .client packet, .free back => if back = packet then some .none else none
  | .client _, .boot => some .none
  | .client _, .accept _ | .client _, .handOut _ | .client _, .reset => none

/-- An accepted packet is handed out next, unless a `pkt_reset` intervenes. -/
theorem after_accept {owner last : Owner} {before after : List PacketEvent} {packet : RxBuf}
    (h : follow ownerStep owner (before ++ .accept packet :: after) = some last) :
    after = [] ∨ ∃ rest, after = .handOut packet :: rest ∨ after = .reset :: rest := by
  rw [follow_append] at h
  obtain ⟨middle, -, hrest⟩ := Option.bind_eq_some_iff.mp h
  -- a packet is accepted only while nobody owns the buffer
  cases middle with
  | waiting | client => simp [follow, ownerStep] at hrest
  | none =>
      cases after with
      | nil => exact .inl rfl
      | cons event rest =>
          cases event with
          | accept | free | boot => simp [follow, ownerStep] at hrest
          | reset => exact .inr ⟨rest, .inr rfl⟩
          | handOut out =>
              by_cases hout : out = packet
              · exact .inr ⟨rest, .inl (by rw [hout])⟩
              · simp [follow, ownerStep, hout] at hrest

/-- A packet handed out was accepted just before. -/
theorem before_handOut {last : Owner} {before after : List PacketEvent} {packet : RxBuf}
    (h : follow ownerStep .none (before ++ .handOut packet :: after) = some last) :
    ∃ earlier, before = earlier ++ [.accept packet] := by
  rw [follow_append] at h
  obtain ⟨middle, hbefore, hrest⟩ := Option.bind_eq_some_iff.mp h
  have hmiddle : middle = .waiting packet := by
    cases middle with
    | none | client => simp [follow, ownerStep] at hrest
    | waiting stored =>
        by_cases hout : packet = stored
        · rw [hout]
        · simp [follow, ownerStep, hout] at hrest
  subst hmiddle
  rcases List.eq_nil_or_concat' before with rfl | ⟨earlier, event, rfl⟩
  · simp [follow] at hbefore
  · refine ⟨earlier, ?_⟩
    rw [follow_append] at hbefore
    obtain ⟨start, -, hevent⟩ := Option.bind_eq_some_iff.mp hbefore
    cases start <;> cases event <;> simp [follow, ownerStep] at hevent
    rw [hevent]

/-! ## The parser follows the protocol -/

/-- The parser is inside a frame. -/
def Receiving (p : Pkt) : Prop := p.state = .header ∨ p.state = .data ∨ p.state = .check

/-- Whether the parser is inside a frame can be checked. -/
instance (p : Pkt) : Decidable (Receiving p) := inferInstanceAs (Decidable (_ ∨ _ ∨ _))

/-- A frame being received is activity. -/
theorem Receiving.active {p : Pkt} (h : Receiving p) : pktIsActive p = true := by
  rcases h with hs | hs | hs
  · simp [pktIsActive, hs]
  · simp [pktIsActive, hs]
  · simp [pktIsActive, hs]

/-- The event of a byte: the right CRC byte is accepted in `RX_CHECK`. -/
def byteEvents (p : Pkt) (byte : UInt8) : List PacketEvent :=
  if p.state = .check ∧ byte = p.crc then [.accept p.rxbuf] else []

/-- The packet module with a given owner of its buffer. -/
def PktOwner (p : Pkt) : Owner → Prop
  | .none => p.readyPacket = false ∧
      (Listening p ∧ p.rxbufInuse = false ∨ ∃ got, InFrame p got)
  | .waiting packet => Listening p ∧ p.rxbufInuse = true ∧ p.readyPacket = true ∧ p.rxbuf = packet
  | .client packet => Listening p ∧ p.rxbufInuse = true ∧ p.readyPacket = false ∧ p.rxbuf = packet

/-- Whether the main loop is the owner. -/
def Owner.isClient : Owner → Bool
  | .client _ => true
  | _ => false

/-- While the buffer is in use outside a frame, a byte changes nothing but the parser's state. -/
theorem pktParser_listening_inuse {p : Pkt} (hp : Listening p) (hinuse : p.rxbufInuse = true)
    (byte : UInt8) :
    Listening (pktParser p byte) ∧ (pktParser p byte).rxbufInuse = true ∧
      (pktParser p byte).readyPacket = p.readyPacket ∧ (pktParser p byte).rxbuf = p.rxbuf := by
  by_cases hstart : p.state = .sync ∧ byte = pktSync
  · obtain ⟨hs, rfl⟩ := hstart
    rw [pktParser_busy hs hinuse]
    exact ⟨.inl rfl, hinuse, rfl, rfl⟩
  · rw [pktParser_listening hp byte hstart]
    refine ⟨?_, hinuse, rfl, rfl⟩
    by_cases hpre : byte = pktPreamble <;> simp [Listening, hpre]

/-- A byte inside a frame: it is read, drops the frame, or completes it. -/
theorem InFrame.byte {p : Pkt} {got : List UInt8} (h : InFrame p got) (byte : UInt8) :
    (byteEvents p byte = [] ∧ PktOwner (pktParser p byte) .none) ∨
      (byteEvents p byte = [.accept p.rxbuf] ∧ PktOwner (pktParser p byte) (.waiting p.rxbuf)) := by
  -- only the CRC byte and the length byte can end a frame
  by_cases hs : p.state = .check
  · by_cases hcrc : byte = crc8 got
    · refine .inr ⟨?_, ?_⟩
      · simp [byteEvents, hs, h.crc, hcrc]
      · rw [hcrc, h.accept hs]
        exact ⟨.inl rfl, h.inuse, rfl, rfl⟩
    · refine .inl ⟨?_, ?_⟩
      · simp [byteEvents, h.crc, hcrc]
      · rw [h.reject hs hcrc]
        exact ⟨h.notReady, .inl ⟨.inl rfl, rfl⟩⟩
  · refine .inl ⟨?_, ?_⟩
    · simp [byteEvents, hs]
    · by_cases hover : got.length = 3 ∧ 12 < byte.toNat
      · obtain ⟨hsearch, hfree, hready⟩ := h.oversize hover.1 hover.2
        exact ⟨hready, .inl ⟨.inl hsearch, hfree⟩⟩
      · have hmore := h.more hs byte (fun h3 => by omega)
        exact ⟨hmore.notReady, .inr ⟨_, hmore⟩⟩

/-- A received byte follows the protocol and never makes the main loop an owner. -/
theorem pktParser_owner {p : Pkt} {owner : Owner} (h : PktOwner p owner) (byte : UInt8) :
    ∃ next, follow ownerStep owner (byteEvents p byte) = some next ∧
      PktOwner (pktParser p byte) next ∧ next.isClient = owner.isClient := by
  have hnone (hp : Listening p) : byteEvents p byte = [] := by
    rcases hp with hs | hs <;> simp [byteEvents, hs]
  cases owner with
  | none =>
      obtain ⟨hready, ⟨hlisten, hfree⟩ | ⟨got, hin⟩⟩ := h
      · refine ⟨.none, by rw [hnone hlisten]; rfl, ?_, rfl⟩
        by_cases hstart : p.state = .sync ∧ byte = pktSync
        · obtain ⟨hs, rfl⟩ := hstart
          have hin := pktParser_start hs hfree hready
          exact ⟨hin.notReady, .inr ⟨[], hin⟩⟩
        · rw [pktParser_listening hlisten byte hstart]
          refine ⟨hready, .inl ⟨?_, hfree⟩⟩
          by_cases hpre : byte = pktPreamble <;> simp [Listening, hpre]
      · rcases hin.byte byte with ⟨hevents, hnext⟩ | ⟨hevents, hnext⟩
        · exact ⟨.none, by rw [hevents]; rfl, hnext, rfl⟩
        · exact ⟨.waiting p.rxbuf, by rw [hevents]; rfl, hnext, rfl⟩
  | waiting packet =>
      obtain ⟨hlisten, hinuse, hready, hbuf⟩ := h
      obtain ⟨hl, hi, hr, hb⟩ := pktParser_listening_inuse hlisten hinuse byte
      exact ⟨.waiting packet, by rw [hnone hlisten]; rfl,
        ⟨hl, hi, hr.trans hready, hb.trans hbuf⟩, rfl⟩
  | client packet =>
      obtain ⟨hlisten, hinuse, hready, hbuf⟩ := h
      obtain ⟨hl, hi, hr, hb⟩ := pktParser_listening_inuse hlisten hinuse byte
      exact ⟨.client packet, by rw [hnone hlisten]; rfl,
        ⟨hl, hi, hr.trans hready, hb.trans hbuf⟩, rfl⟩

end BmsNode
