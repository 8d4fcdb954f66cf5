import BmsNode.Bytes.Check
import BmsNode.Packet.RoundTrip

/-!
# Corrupted packets

A frame corrupted in transit leads the parser through the same states as the frame
that was sent, as long as its sync and length bytes are intact. So the CRC byte
decides, and by `crc8_detects` it rejects the corruptions listed there.
-/

namespace BmsNode

open Transition

/-- The byte completes a packet. -/
def Accepts (p : Pkt) (byte : UInt8) : Prop := p.state = .check ∧ byte = p.crc

/-- A byte that completes no packet neither reads nor writes `ready_packet`. -/
theorem pktParser_withReady {p : Pkt} {byte : UInt8} (h : ¬Accepts p byte) (ready : Bool) :
    pktParser { p with readyPacket := ready } byte =
      { pktParser p byte with readyPacket := ready } := by
  obtain ⟨state, inuse, rxbuf, waiting, idx, crc, len, pbuf⟩ := p
  cases state with
  | search | sync =>
      simp only [pktParser, pktRxAlloc]
      split_ifs <;> rfl
  | header | data =>
      simp only [pktParser, pktStore, pktRxFree]
      split_ifs <;> rfl
  | check =>
      have hcrc : byte ≠ crc := fun heq => h ⟨rfl, heq⟩
      simp only [pktParser, if_neg hcrc, pktRxFree]

/-- Bytes that complete no packet leave `ready_packet` as it was, and the rest of the module does
not depend on it. -/
theorem run_withReady {p : Pkt} {bytes : List UInt8}
    (h : Meets pktParser (fun q byte => ¬Accepts q byte) p bytes) (ready : Bool) :
    run pktParser { p with readyPacket := ready } bytes =
      { run pktParser p bytes with readyPacket := ready } := by
  have hstep (q image : Pkt) (byte : UInt8) (himage : image = { q with readyPacket := ready })
      (hbyte : ¬Accepts q byte) :
      ([] : List Unit) = [] ∧ pktParser image byte = { pktParser q byte with readyPacket := ready } :=
    ⟨rfl, by rw [himage, pktParser_withReady hbyte ready]⟩
  exact (run_lockstep
    (R := fun q image => image = { q with readyPacket := ready }) hstep rfl h).2

/-- The bytes behind the sync byte of a frame, with the length byte intact, complete no packet
before the CRC byte. -/
theorem InFrame.meets {f : Frame} (hf : f.Fits) {p : Pkt} {got : List UInt8} (hp : InFrame p got)
    {bytes : List UInt8} (hbody : f.body = got ++ bytes) :
    Meets pktParser (fun q byte => ¬Accepts q byte) p bytes := by
  induction bytes generalizing p got with
  | nil => trivial
  | cons byte rest ih =>
      obtain ⟨hnotcheck, hbyte⟩ := hp.next hf byte rest hbody
      exact ⟨fun haccepts => hnotcheck haccepts.1,
        ih (hp.more hnotcheck byte hbyte) (by simpa using hbody)⟩

/-- Bytes with the length byte of a frame are the header and the payload of a frame. -/
theorem Frame.Fits.exists_body {f : Frame} (hf : f.Fits) {bytes : List UInt8}
    (hlength : bytes.length = f.body.length) (hlen : bytes[3]? = some f.len) :
    ∃ g : Frame, g.Fits ∧ g.body = bytes := by
  rw [hf.body_length] at hlength
  rcases bytes with _ | ⟨flags, _ | ⟨addr, _ | ⟨cmd, _ | ⟨len, payload⟩⟩⟩⟩
  · simp at hlen
  · simp at hlen
  · simp at hlen
  · simp at hlen
  · obtain rfl : len = f.len := by simpa using hlen
    simp only [List.length_cons] at hlength
    have hpayload : payload.length = f.len.toNat := by omega
    exact ⟨⟨flags, addr, cmd, f.len, payload⟩, ⟨hpayload, hf.max⟩, rfl⟩

/-- A frame with a wrong CRC byte, read behind a preamble with the buffer free: no byte of it
completes a packet, and the parser searches again with the buffer free. -/
theorem run_wrong_check {p : Pkt} (hs : p.state = .sync) (hfree : p.rxbufInuse = false)
    (hready : p.readyPacket = false) {f : Frame} (hf : f.Fits) {check : UInt8}
    (hcheck : check ≠ crc8 f.body) :
    let bytes := pktSync :: f.body ++ [check]
    Meets pktParser (fun q byte => ¬Accepts q byte) p bytes ∧
      (run pktParser p bytes).state = .search ∧ (run pktParser p bytes).rxbufInuse = false := by
  intro bytes
  have hstart := pktParser_start hs hfree hready
  have hbody := (hstart.read hf f.body [] (by simp)).1
  rw [List.nil_append] at hbody
  have hstate := (hbody.complete hf).1
  refine ⟨?_, ?_⟩
  · have hfirst : ¬Accepts p pktSync := fun haccepts => by simp [Accepts, hs] at haccepts
    have hlast : ¬Accepts (run pktParser (pktParser p pktSync) f.body) check :=
      fun haccepts => hcheck (haccepts.2.trans hbody.crc)
    exact ⟨hfirst, (meets_append _ f.body [check]).mpr ⟨hstart.meets hf rfl, hlast, trivial⟩⟩
  · have hrun : run pktParser p bytes =
        pktParser (run pktParser (pktParser p pktSync) f.body) check := by
      simp only [bytes, List.cons_append, run_cons, run_concat]
    rw [hrun, hbody.reject hstate hcheck]
    exact ⟨rfl, rfl⟩

/-- Error detection, for every frame that fits and every corruption of it that leaves the sync byte
and the length byte intact: when the flipped bits are odd in number, or lie within one byte, or are
two in a frame with at most 10 payload bytes, a parser in `RX_SYNC` with its buffer free delivers no
packet at any byte of it, and ends in `RX_SEARCH` with its buffer free. -/
theorem pktParser_detects (p : Pkt) (hs : p.state = .sync) (hfree : p.rxbufInuse = false)
    (f : Frame) (hf : f.Fits) (received : List UInt8)
    (hlength : received.length = (f.body ++ [crc8 f.body]).length)
    (hlen : received[3]? = some f.len)
    (h : Odd (flippedBits (f.body ++ [crc8 f.body]) received) ∨
      (WithinOneByte (f.body ++ [crc8 f.body]) received ∧ received ≠ f.body ++ [crc8 f.body]) ∨
      (f.len ≤ 10 ∧ flippedBits (f.body ++ [crc8 f.body]) received = 2)) :
    let bytes := pktSync :: received
    (∀ k, (run pktParser p (bytes.take k)).readyPacket = p.readyPacket) ∧
      (run pktParser p bytes).state = .search ∧ (run pktParser p bytes).rxbufInuse = false := by
  intro bytes
  have hfour := hf.body_length
  rw [List.length_append, List.length_singleton] at hlength
  obtain ⟨front, check, rfl⟩ : ∃ front check, received = front ++ [check] := by
    rcases List.eq_nil_or_concat' received with rfl | hconcat
    · simp at hlength
    · exact hconcat
  have hfront : front.length = f.body.length := by simpa using hlength
  rw [List.getElem?_append_left (by omega)] at hlen
  obtain ⟨g, hg, rfl⟩ := hf.exists_body hfront hlen
  have hcheck : check ≠ crc8 g.body := by
    refine crc8_detects hfront (h.imp_right (Or.imp_right fun ⟨hten, htwo⟩ => ⟨?_, htwo⟩))
    have hmax : f.len.toNat ≤ 10 := UInt8.le_iff_toNat_le.mp hten
    omega
  -- `ready_packet` plays no part, so the run is that of a parser with nothing waiting
  obtain ⟨hmeets, hstate, hinuse⟩ :=
    run_wrong_check (p := { p with readyPacket := false }) hs hfree rfl hg hcheck
  have hupTo (k : Nat) : run pktParser p (bytes.take k) =
      { run pktParser { p with readyPacket := false } (bytes.take k) with
        readyPacket := p.readyPacket } := by
    rw [show pktSync :: g.body ++ [check] = bytes.take k ++ bytes.drop k by
      rw [List.take_append_drop]; rfl, meets_append] at hmeets
    exact run_withReady hmeets.1 p.readyPacket
  have hall : run pktParser p bytes =
      { run pktParser { p with readyPacket := false } bytes with readyPacket := p.readyPacket } :=
    run_withReady hmeets p.readyPacket
  refine ⟨fun k => by rw [hupTo k], ?_⟩
  rw [hall]
  exact ⟨hstate, hinuse⟩

/-- A PING for address 2 with a bit flipped in its address and another in its CRC byte. -/
theorem pktParser_detects_ping :
    let bytes : List UInt8 := pktSync :: [0, 3, 1, 0, 0xC2]
    (∀ k, (run pktParser { Pkt.init with state := .sync } (bytes.take k)).readyPacket = false) ∧
      (run pktParser { Pkt.init with state := .sync } bytes).state = .search ∧
      (run pktParser { Pkt.init with state := .sync } bytes).rxbufInuse = false := by
  intro bytes
  exact pktParser_detects { Pkt.init with state := .sync } rfl rfl ⟨0, 2, 1, 0, []⟩
    ⟨rfl, Nat.zero_le 12⟩ [0, 3, 1, 0, 0xC2] (by simp [Frame.body]) (by simp)
    (.inr (.inr (by decide +kernel)))

end BmsNode
