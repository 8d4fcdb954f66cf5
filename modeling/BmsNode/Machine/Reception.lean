import BmsNode.Machine.Ownership
import BmsNode.Packet.Recovery

/-!
# Reception in a running node

The bytes a node has heard since its start determine what its parser is doing: in
`RX_SYNC` they end with a preamble, inside a frame they end with the frame so far.
With the decoder's half from `Packet.RoundTrip` this gives the round trip between
`pkt_send` and `pkt_parser` in every reachable state. The machine makes no other
calls into the packet module than a client does, so what `Packet.Recovery` says of
every client holds of it.
-/

namespace BmsNode

open Transition

/-- The byte an action puts on the receiver. -/
def Action.heard : Action → List UInt8
  | .rx byte => [byte]
  | _ => []

/-- The bytes received in the course of some actions. -/
def heardBytes (actions : List Action) : List UInt8 := actions.flatMap Action.heard

/-- What the bytes heard so far say about the parser. -/
structure Heard (p : Pkt) (bytes : List UInt8) : Prop where
  sync : p.state = .sync → ∃ before, bytes = before ++ [pktPreamble]
  frame : Receiving p →
    ∃ before got, InFrame p got ∧ bytes = before ++ [pktPreamble, pktSync] ++ got

/-- A searching parser says nothing about what was heard. -/
theorem Heard.search {p : Pkt} (hs : p.state = .search) (bytes : List UInt8) : Heard p bytes :=
  ⟨fun h => by simp [hs] at h, fun h => by simp [Receiving, hs] at h⟩

/-- A parser outside a frame that only moved between searching and waiting for sync. -/
theorem Heard.listen {p : Pkt} (hp : Listening p) {byte : UInt8} (bytes : List UInt8)
    (hsync : p.state = .sync → byte = pktPreamble) : Heard p (bytes ++ [byte]) := by
  refine ⟨fun hs => ⟨bytes, by rw [hsync hs]⟩, fun h => ?_⟩
  rcases hp with hs | hs <;> simp [Receiving, hs] at h

/-- A received byte extends what was heard. -/
theorem pktParser_heard {p : Pkt} {owner : Owner} (howner : PktOwner p owner) {bytes : List UInt8}
    (h : Heard p bytes) (byte : UInt8) : Heard (pktParser p byte) (bytes ++ [byte]) := by
  by_cases hlisten : Listening p
  · by_cases hstart : p.state = .sync ∧ byte = pktSync
    · obtain ⟨hs, rfl⟩ := hstart
      by_cases hinuse : p.rxbufInuse = true
      · rw [pktParser_busy hs hinuse]
        exact Heard.search rfl _
      · have hready : p.readyPacket = false := by
          cases owner with
          | none => exact howner.1
          | waiting packet => exact absurd howner.2.1 hinuse
          | client packet => exact absurd howner.2.1 hinuse
        have hin := pktParser_start hs (by simpa using hinuse) hready
        obtain ⟨before, rfl⟩ := h.sync hs
        refine ⟨fun hs' => ?_, fun _ => ⟨before, [], hin, by simp⟩⟩
        have hphase := hin.phase
        simp [FramePhase, hs'] at hphase
    · rw [pktParser_listening hlisten byte hstart]
      by_cases hpre : byte = pktPreamble
      · exact Heard.listen (.inr (if_pos hpre)) bytes fun _ => hpre
      · exact Heard.listen (.inl (if_neg hpre)) bytes fun hs => by simp [hpre] at hs
  · have hreceiving : Receiving p := by
      cases hs : p.state <;> simp_all [Listening, Receiving]
    obtain ⟨before, got, hin, rfl⟩ := h.frame hreceiving
    by_cases hcheck : p.state = .check
    · by_cases hcrc : byte = crc8 got
      · rw [hcrc, hin.accept hcheck]
        exact Heard.search rfl _
      · rw [hin.reject hcheck hcrc]
        exact Heard.search rfl _
    · by_cases hover : got.length = 3 ∧ 12 < byte.toNat
      · exact Heard.search (hin.oversize hover.1 hover.2).1 _
      · have hmore := hin.more hcheck byte (fun h3 => by omega)
        refine ⟨fun hs => ?_, fun _ => ⟨before, got ++ [byte], hmore, by simp⟩⟩
        have hphase := hmore.phase
        simp [FramePhase, hs] at hphase

/-- While a frame is being read no packet is ready. -/
theorem PktOwner.notReady {p : Pkt} {owner : Owner} (h : PktOwner p owner) (hp : Receiving p) :
    p.readyPacket = false := by
  cases owner with
  | none => exact h.1
  | waiting packet | client packet =>
      rcases h.1 with hs | hs <;> simp [Receiving, hs] at hp

/-- The main loop puts the parser back to searching, or leaves a frame in progress alone. -/
theorem mainStep_reception {p : Platform} {m : Machine} {owner : Owner} (h : Owned m owner)
    (samples : Vector UInt16 4) :
    (mainStep p samples m).node.pkt.state = .search ∨
      ((mainStep p samples m).node.pkt.state = m.node.pkt.state ∧
        (Receiving m.node.pkt → (mainStep p samples m).node.pkt = m.node.pkt)) := by
  have hkeep {m' : Machine} (hpkt : m'.node.pkt = m.node.pkt) :
      m'.node.pkt.state = .search ∨ (m'.node.pkt.state = m.node.pkt.state ∧
        (Receiving m.node.pkt → m'.node.pkt = m.node.pkt)) :=
    .inr ⟨by rw [hpkt], fun _ => hpkt⟩
  have hclient (hheld : m.pc.held = true) : ¬Receiving m.node.pkt := by
    have howner := h.1
    rw [h.client hheld] at howner
    rcases howner.1 with hs | hs <;> simp [Receiving, hs]
  have hstep := mainStep_loopStep p samples m
  generalize mainStep p samples m = m' at hstep ⊢
  cases hstep with
  | ledRun | adcRun | expired | unexpired | notReady | overdue | waiting | active | inactive | arm
  | loop => exact hkeep rfl
  | ready n hready =>
      refine .inr ⟨rfl, fun hreceiving => ?_⟩
      have hcontra : n.pkt.readyPacket = false := h.1.notReady hreceiving
      rw [hready] at hcontra
      cases hcontra
  | restart | giveUp => exact .inl rfl
  | returned n | handled n => exact hkeep (cmdDispatch_frame p n.pkt.rxbuf n).pkt
  | rxFree | freed => exact .inr ⟨rfl, fun hreceiving => absurd hreceiving (hclient rfl)⟩
  | kissmRun n event held => exact hkeep (appRun_frame p event n).pkt

/-- What was heard stays right when the parser does not hear anything. -/
theorem Heard.keep {p q : Pkt} {bytes : List UInt8} (h : Heard p bytes)
    (hq : q.state = .search ∨ (q.state = p.state ∧ (Receiving p → q = p))) : Heard q bytes := by
  rcases hq with hs | ⟨hs, hsame⟩
  · exact Heard.search hs bytes
  · refine ⟨fun hsync => h.sync (hs ▸ hsync), fun hr => ?_⟩
    have hreceiving : Receiving p := by simpa [Receiving, hs] using hr
    rw [hsame hreceiving]
    exact h.frame hreceiving

/-- Every action keeps what was heard right. -/
theorem step_heard {p : Platform} {m : Machine} {owner : Owner} (howned : Owned m owner)
    {bytes : List UInt8} (h : Heard m.node.pkt bytes) (action : Action) :
    Heard (step p m action).node.pkt (bytes ++ action.heard) := by
  cases action with
  | rx byte => exact pktParser_heard howned.1 h byte
  | main samples =>
      simp only [step, Action.heard, List.append_nil]
      exact h.keep (mainStep_reception howned samples)
  | tick | shift =>
      simp only [step, Action.heard, List.append_nil]
      exact h
  | dre | txc =>
      simp only [step, Action.heard, List.append_nil]
      split_ifs <;> exact h

/-- In every reachable state the receive buffer has its owner and the parser is where the bytes
heard so far put it. -/
theorem run_heard (p : Platform) (eeprom : Config) (actions : List Action) :
    let m := run (step p) (boot p eeprom) actions
    (∃ owner, Owned m owner) ∧ Heard m.node.pkt (heardBytes actions) := by
  have htrace : heardBytes actions =
      [] ++ trace (step p) (fun _ action => action.heard) (boot p eeprom) actions := by
    generalize boot p eeprom = m
    induction actions generalizing m with
    | nil => rfl
    | cons action rest ih =>
        simp only [heardBytes, List.flatMap_cons, trace, List.nil_append] at ih ⊢
        rw [ih (step p m action)]
  rw [htrace]
  refine run_history
    (R := fun m bytes => (∃ owner, Owned m owner) ∧ Heard m.node.pkt bytes) ?_ actions
    ⟨⟨.none, boot_owned p eeprom⟩, Heard.search rfl []⟩
  rintro m action bytes ⟨⟨owner, howned⟩, hheard⟩
  obtain ⟨next, -, hnext⟩ := step_owned howned action
  exact ⟨⟨next, hnext⟩, step_heard howned hheard action⟩

/-- A frame that has been read up to its CRC byte fits the buffer. -/
theorem InFrame.fits {p : Pkt} {got : List UInt8} (h : InFrame p got) (hs : p.state = .check) :
    p.rxbuf.frame.body = got ∧ p.rxbuf.frame.Fits := by
  obtain ⟨hlength, hmax⟩ : got.length = 4 + (lenByte got).toNat ∧ (lenByte got).toNat ≤ 12 := by
    simpa [FramePhase, hs] using h.phase
  rcases got with _ | ⟨flags, _ | ⟨addr, _ | ⟨cmd, _ | ⟨len, payload⟩⟩⟩⟩
  all_goals
    simp only [List.length_nil, List.length_cons] at hlength
  · omega
  · omega
  · omega
  · omega
  · have hlen : lenByte (flags :: addr :: cmd :: len :: payload) = len := rfl
    rw [hlen] at hlength hmax
    have hpayload : payload.length = len.toNat := by omega
    have hbytes := h.bytes
    simp only [List.length_cons] at hbytes
    rw [hlength] at hbytes
    rw [RxBuf.frame_of_take hbytes]
    exact ⟨rfl, hpayload, hmax⟩

/-- A packet becomes ready by its CRC byte only. -/
theorem Owned.completes {m : Machine} {owner : Owner} (h : Owned m owner) {byte : UInt8}
    (hbefore : m.node.pkt.readyPacket = false)
    (hafter : (pktParser m.node.pkt byte).readyPacket = true) :
    m.node.pkt.state = .check ∧ byte = m.node.pkt.crc := by
  by_contra hno
  obtain ⟨next, hfollow, hnext, -⟩ := pktParser_owner h.1 byte
  have hevents : byteEvents m.node.pkt byte = [] := if_neg hno
  rw [hevents] at hfollow
  obtain rfl : owner = next := by simpa [follow] using hfollow
  have hsame : (pktParser m.node.pkt byte).readyPacket = m.node.pkt.readyPacket := by
    have howner := h.1
    cases owner with
    | none => rw [hnext.1, howner.1]
    | waiting packet => rw [hnext.2.2.1, howner.2.2.1]
    | client packet => rw [hnext.2.2.1, howner.2.2.1]
  rw [hsame, hbefore] at hafter
  cases hafter

/-- Round trip between `pkt_send` and `pkt_parser` in every reachable state of a node, for any
contents of the transmit buffer. A parser between frames with its buffer free takes the bytes of a
sent packet for exactly that packet, after the last of them. And the bytes heard when a packet
becomes ready end with a preamble and what `pkt_send` makes of that packet, from the sync byte on.
-/
theorem pktSend_pktParser (p : Platform) (eeprom : Config) (actions : List Action) (t : TxPkt) :
    let m := run (step p) (boot p eeprom) actions
    (∀ (flags addr cmd : UInt8) (payload : List UInt8), payload.length ≤ 12 →
      Listening m.node.pkt → m.node.pkt.rxbufInuse = false →
      let len := UInt8.ofNat payload.length
      let bytes := pktFrame t flags addr cmd payload len
      (∀ k < bytes.length, (run pktParser m.node.pkt (bytes.take k)).readyPacket = false) ∧
        (run pktParser m.node.pkt bytes).readyPacket = true ∧
        (run pktParser m.node.pkt bytes).rxbuf.frame = ⟨flags, addr, cmd, len, payload⟩ ∧
        (run pktParser m.node.pkt bytes).state = .search ∧
        HandsOver t ⟨flags, addr, cmd, len, payload⟩ bytes) ∧
    (∀ byte, m.node.pkt.readyPacket = false →
      (step p m (.rx byte)).node.pkt.readyPacket = true →
      let f := (step p m (.rx byte)).node.pkt.rxbuf.frame
      (∃ before, heardBytes (actions ++ [.rx byte]) =
        before ++ [pktPreamble] ++ (pktFrame t f.flags f.addr f.cmd f.payload f.len).drop 4) ∧
        HandsOver t f (pktFrame t f.flags f.addr f.cmd f.payload f.len)) := by
  intro m
  obtain ⟨⟨owner, howned⟩, hheard⟩ := run_heard p eeprom actions
  refine ⟨?_, ?_⟩
  · intro flags addr cmd payload hpayload hlisten hfree len bytes
    have hnotReady : m.node.pkt.readyPacket = false := by
      obtain ⟨howner, -⟩ := howned
      cases owner with
      | none => exact howner.1
      | waiting packet | client packet => exact absurd (hfree.symm.trans howner.2.1) (by simp)
    have hfits := Frame.fits_ofNat flags addr cmd hpayload
    have hbytes : bytes = List.replicate 4 pktPreamble ++
        (Frame.mk flags addr cmd len payload).wire := pktFrame_eq hfits t
    have hsent : HandsOver t ⟨flags, addr, cmd, len, payload⟩ bytes := pktSend_handsOver hfits t
    obtain ⟨hnone, hready, hframe, hsearch⟩ := Between.receive hfits ⟨hlisten, hfree, hnotReady⟩
    rw [hbytes] at hsent ⊢
    exact ⟨hnone, hready, hframe, hsearch, hsent⟩
  · intro byte hbefore hafter f
    obtain ⟨hs, hcrc⟩ := howned.completes hbefore hafter
    obtain ⟨before, got, hin, hheardBytes⟩ := hheard.frame (.inr (.inr hs))
    obtain ⟨hbody, hfits⟩ := hin.fits hs
    have hf : f = m.node.pkt.rxbuf.frame := by
      have hparser : (step p m (.rx byte)).node.pkt = pktParser m.node.pkt byte := rfl
      simp only [f, hparser]
      rw [hcrc, hin.crc, hin.accept hs]
    refine ⟨⟨before, ?_⟩, hf ▸ pktSend_handsOver hfits t⟩
    rw [hf, pktFrame_eq hfits t, List.drop_append_of_le_length (by simp),
      heardBytes, List.flatMap_append]
    have hpast : List.flatMap Action.heard actions = heardBytes actions := rfl
    rw [hpast, hheardBytes, Frame.wire, hbody, hcrc, hin.crc]
    simp [Action.heard]

/-- The bytes of a SETPARM for address 2 whose value holds a preamble and a sync byte. -/
def setparmBytes : List UInt8 := [0x55, 0xF0, 0, 2, Cmd.setparm, 3, 2, 0x55, 0xF0, 0x56]

/-- The round trip of this packet on a node that has heard the start of what is no frame, and the
bytes heard by the time the packet is ready. -/
theorem pktSend_pktParser_setparm :
    let noise : List Action := [.rx 0x55, .tick, .rx 0x12]
    let m := run (step benchBoard) (boot benchBoard (Vector.replicate 26 0xFF)) noise
    let bytes := pktFrame TxPkt.init 0 2 Cmd.setparm [2, 0x55, 0xF0] 3
    (run pktParser m.node.pkt bytes).rxbuf.frame = ⟨0, 2, Cmd.setparm, 3, [2, 0x55, 0xF0]⟩ ∧
      ∃ before, heardBytes (noise ++ setparmBytes.map .rx) =
        before ++ [pktPreamble] ++ bytes.drop 4 := by
  intro noise m bytes
  refine ⟨?_, ?_⟩
  · exact ((pktSend_pktParser benchBoard (Vector.replicate 26 0xFF) noise TxPkt.init).1 0 2
      Cmd.setparm [2, 0x55, 0xF0] (by decide) (.inl (by decide +kernel)) (by decide +kernel)).2.2.1
  · obtain ⟨hheard, -⟩ := (pktSend_pktParser benchBoard (Vector.replicate 26 0xFF)
      (noise ++ (setparmBytes.dropLast.map .rx)) TxPkt.init).2 0x56 (by decide +kernel)
      (by decide +kernel)
    have hframe : (step benchBoard (run (step benchBoard)
        (boot benchBoard (Vector.replicate 26 0xFF)) (noise ++ setparmBytes.dropLast.map .rx))
        (.rx 0x56)).node.pkt.rxbuf.frame = ⟨0, 2, Cmd.setparm, 3, [2, 0x55, 0xF0]⟩ := by
      decide +kernel
    simp only [hframe] at hheard
    exact hheard

/-! ## The node as a client of the packet module -/

/-- The packet module of a machine with the packet its main loop holds. -/
def Machine.pktClient (m : Machine) : PktClient := { pkt := m.node.pkt, held := m.pc.held }

/-- The calls into the packet module that lead from one machine to another, which a restart of the
firmware forgets. -/
def Calls (m m' : Machine) : Prop :=
  m'.pktClient = PktClient.init ∨ ∃ calls, m'.pktClient = run pktCall m.pktClient calls

/-- A step that leaves the module and what is held alone makes no call. -/
theorem Calls.keep {m m' : Machine} (hpkt : m'.node.pkt = m.node.pkt)
    (hheld : m'.pc.held = m.pc.held) : Calls m m' :=
  .inr ⟨[], by rw [Machine.pktClient, hpkt, hheld]; rfl⟩

/-- The main loop is a client of the packet module. -/
theorem mainStep_calls (p : Platform) (m : Machine) (samples : Vector UInt16 4) :
    Calls m (mainStep p samples m) := by
  have hstep := mainStep_loopStep p samples m
  generalize mainStep p samples m = m' at hstep ⊢
  cases hstep with
  | ledRun | adcRun | expired | unexpired | notReady | overdue | waiting | active | inactive | arm
  | loop => exact .keep rfl rfl
  | ready n hready =>
      exact .inr ⟨[.ready], by simp [Machine.pktClient, pktCall, pktReady, hready, Control.held]⟩
  | restart n hswrr => exact .inl rfl
  | returned n | handled n => exact .keep (cmdDispatch_frame p n.pkt.rxbuf n).pkt rfl
  | rxFree | freed => exact .inr ⟨[.rxFree], rfl⟩
  | giveUp => exact .inr ⟨[.reset], rfl⟩
  | kissmRun n event held => exact .keep (appRun_frame p event n).pkt rfl

/-- Every action is a client's of the packet module. -/
theorem step_calls (p : Platform) (m : Machine) (action : Action) : Calls m (step p m action) := by
  cases action with
  | rx byte => exact .inr ⟨[.parser byte], rfl⟩
  | main samples => exact mainStep_calls p m samples
  | tick | shift => exact .keep rfl rfl
  | dre | txc =>
      simp only [step]
      split_ifs <;> exact .keep rfl rfl

/-- The packet module of a running node, and what the main loop holds, are reached by the calls of a
client. -/
theorem run_pktClient (p : Platform) (eeprom : Config) (actions : List Action) :
    ∃ calls, (run (step p) (boot p eeprom) actions).pktClient =
      run pktCall PktClient.init calls := by
  refine run_invariant_always
    (P := fun m => ∃ calls, Machine.pktClient m = run pktCall PktClient.init calls) ?_ actions
    ⟨[], rfl⟩
  rintro m action ⟨before, hbefore⟩
  rcases step_calls p m action with hinit | ⟨calls, hcalls⟩
  · exact ⟨[], hinit⟩
  · exact ⟨before ++ calls, by rw [hcalls, hbefore, run_append]⟩

end BmsNode
