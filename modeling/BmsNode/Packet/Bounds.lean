import BmsNode.Packet.Ownership
import BmsNode.Packet.Recovery

/-!
# The parser stays inside its buffer

`pkt_parser` stores a byte in two of its states, through a static pointer and at a
static index. `parserStore` is that store, and `Bounded` the invariant that keeps it
inside the receive buffer: the buffer has an owner, and a packet that is waiting or
held has a length within the limit. Every byte preserves it, and so does every call of
a client that frees each packet once and resets only while it holds none.
-/

namespace BmsNode

open Transition

/-! ## The store of a byte -/

/-- The store `pbuf[idx] = nextbyte` that the next byte leads to: its pointer and its index. -/
def parserStore (p : Pkt) : Option (Bool × UInt8) :=
  match p.state with
  | .header | .data => some (p.pbuf, p.idx)
  | .search | .sync | .check => none

/-- A byte changes the buffer by this store and by nothing else. -/
theorem pktParser_rxbuf (p : Pkt) (byte : UInt8) :
    (pktParser p byte).rxbuf =
      match parserStore p with
      | none => p.rxbuf
      | some (pbuf, idx) => if pbuf then p.rxbuf.setIfInBounds idx.toNat byte else p.rxbuf := by
  cases hs : p.state with
  | search | check =>
      simp only [pktParser, parserStore, hs]
      split_ifs <;> rfl
  | sync =>
      simp only [pktParser, parserStore, hs, pktRxAlloc]
      split_ifs <;> rfl
  | header =>
      simp only [pktParser, parserStore, hs, pktStore]
      split_ifs <;> rfl
  | data =>
      simp only [pktParser, parserStore, hs, pktStore]
      split_ifs <;> rfl

/-! ## Inside a frame -/

/-- Once the header is read, the buffer's `len` field is the length byte received. -/
theorem InFrame.rxbuf_len {p : Pkt} {got : List UInt8} (h : InFrame p got)
    (hheader : 4 ≤ got.length) (hfits : got.length ≤ 16) : p.rxbuf.len = lenByte got := by
  have hget := BufferPrefix.getElem_of_take h.bytes (i := 3) (by omega) (by omega)
  rw [RxBuf.len, hget]
  simp [lenByte, show 3 < got.length by omega]

/-- A frame that waits for its CRC byte has a length within the limit. -/
theorem InFrame.len_le {p : Pkt} {got : List UInt8} (h : InFrame p got) (hs : p.state = .check) :
    p.rxbuf.len.toNat ≤ 12 := by
  obtain ⟨hall, hmax⟩ : got.length = 4 + (lenByte got).toNat ∧ (lenByte got).toNat ≤ 12 := by
    simpa [FramePhase, hs] using h.phase
  rwa [h.rxbuf_len (by omega) (by omega)]

/-- In the payload, the index and the bytes missing add up to the length of the frame. -/
theorem InFrame.data {p : Pkt} {got : List UInt8} (h : InFrame p got) (hs : p.state = .data) :
    p.idx.toNat + p.len.toNat = 4 + p.rxbuf.len.toNat ∧ 1 ≤ p.len.toNat ∧ p.idx.toNat < 16 := by
  obtain ⟨hheader, hpos, hsum, hmax⟩ : 4 ≤ got.length ∧ 0 < p.len.toNat ∧
      got.length + p.len.toNat = 4 + (lenByte got).toNat ∧ (lenByte got).toNat ≤ 12 := by
    simpa only [FramePhase, hs] using h.phase
  rw [h.rxbuf_len hheader (by omega), h.idx]
  omega

/-- In the header, the index is that of a header byte. -/
theorem InFrame.header {p : Pkt} {got : List UInt8} (h : InFrame p got) (hs : p.state = .header) :
    p.idx.toNat < 4 := by
  rw [h.idx]
  simpa [FramePhase, hs] using h.phase

/-! ## The invariant -/

/-- A packet that is waiting or held has a length within the limit. -/
def Owner.WithinLimit : Owner → Prop
  | .none => True
  | .waiting packet | .client packet => packet.len.toNat ≤ 12

/-- The buffer has an owner, which the client agrees with and whose packet is within the limit. -/
def PktClient.Bounded (c : PktClient) : Prop :=
  ∃ owner, PktOwner c.pkt owner ∧ c.held = owner.isClient ∧ owner.WithinLimit

/-- A client that frees what `pkt_ready` gave it, once, resets only while it holds nothing, and
leaves the allocation to the parser: `cmd_process` and `main_loop`. -/
def Disciplined (c : PktClient) : PktCall → Prop
  | .parser _ | .ready => True
  | .rxAlloc => False
  | .rxFree => c.held = true
  | .reset => c.held = false

/-- Whether a call is disciplined can be checked. -/
instance decidableDisciplined : ∀ c call, Decidable (Disciplined c call)
  | _, .parser _ | _, .ready => inferInstanceAs (Decidable True)
  | _, .rxAlloc => inferInstanceAs (Decidable False)
  | c, .rxFree => inferInstanceAs (Decidable (c.held = true))
  | c, .reset => inferInstanceAs (Decidable (c.held = false))

/-- A byte gives the buffer to no packet above the limit. -/
theorem pktParser_withinLimit {p : Pkt} {owner next : Owner} {byte : UInt8}
    (h : PktOwner p owner) (hlimit : owner.WithinLimit)
    (hfollow : follow ownerStep owner (byteEvents p byte) = some next) : next.WithinLimit := by
  by_cases haccept : p.state = .check ∧ byte = p.crc
  · rw [byteEvents, if_pos haccept] at hfollow
    cases owner with
    | waiting | client => simp [follow, ownerStep] at hfollow
    | none =>
        obtain rfl : .waiting p.rxbuf = next := by simpa [follow, ownerStep] using hfollow
        obtain ⟨-, ⟨hlisten, -⟩ | ⟨got, hin⟩⟩ := h
        · simp [Listening, haccept.1] at hlisten
        · exact hin.len_le haccept.1
  · rw [byteEvents, if_neg haccept] at hfollow
    obtain rfl : owner = next := by simpa [follow] using hfollow
    exact hlimit

/-- A received byte keeps the invariant. -/
theorem PktClient.Bounded.parser {c : PktClient} (h : c.Bounded) (byte : UInt8) :
    (pktCall c (.parser byte)).Bounded := by
  obtain ⟨owner, howner, hheld, hlimit⟩ := h
  obtain ⟨next, hfollow, hnext, hclient⟩ := pktParser_owner howner byte
  exact ⟨next, hnext, hheld.trans hclient.symm, pktParser_withinLimit howner hlimit hfollow⟩

/-- `pkt_ready` changes nothing when no packet is waiting. -/
theorem pktReady_of_not_ready {p : Pkt} (hready : p.readyPacket = false) :
    pktReady p = (false, p) := by
  cases p
  obtain rfl := hready
  rfl

/-- `pkt_ready` passes a waiting packet to the client. -/
theorem PktClient.Bounded.ready {c : PktClient} (h : c.Bounded) : (pktCall c .ready).Bounded := by
  obtain ⟨owner, howner, hheld, hlimit⟩ := h
  cases owner with
  | none =>
      obtain ⟨hready, hphase⟩ := howner
      simp only [pktCall, pktReady_of_not_ready hready, Bool.or_false]
      exact ⟨.none, ⟨hready, hphase⟩, hheld, hlimit⟩
  | waiting packet =>
      obtain ⟨hlisten, hinuse, hready, hbuf⟩ := howner
      refine ⟨.client packet, ⟨hlisten, hinuse, rfl, hbuf⟩, ?_, hlimit⟩
      simp [pktCall, pktReady, hready, Owner.isClient]
  | client packet =>
      obtain ⟨hlisten, hinuse, hready, hbuf⟩ := howner
      refine ⟨.client packet, ⟨hlisten, hinuse, rfl, hbuf⟩, ?_, hlimit⟩
      simp [pktCall, hheld, Owner.isClient]

/-- Freeing the packet held leaves the buffer to nobody. -/
theorem PktClient.Bounded.rxFree {c : PktClient} (h : c.Bounded) (hheld : c.held = true) :
    (pktCall c .rxFree).Bounded := by
  obtain ⟨owner, howner, hclient, -⟩ := h
  cases owner with
  | none | waiting => simp [hheld, Owner.isClient] at hclient
  | client packet =>
      obtain ⟨hlisten, -, hready, -⟩ := howner
      exact ⟨.none, ⟨hready, .inl ⟨hlisten, rfl⟩⟩, rfl, trivial⟩

/-- Every disciplined call keeps the invariant. -/
theorem pktCall_bounded (c : PktClient) (call : PktCall) (h : c.Bounded)
    (hcall : Disciplined c call) : (pktCall c call).Bounded := by
  cases call with
  | parser byte => exact h.parser byte
  | ready => exact h.ready
  | rxAlloc => exact hcall.elim
  | rxFree => exact h.rxFree hcall
  | reset => exact ⟨.none, ⟨rfl, .inl ⟨.inl rfl, rfl⟩⟩, rfl, trivial⟩

/-- The invariant holds in every state that disciplined calls reach. -/
theorem run_bounded {calls : List PktCall} (h : Meets pktCall Disciplined .init calls) :
    (run pktCall .init calls).Bounded :=
  run_invariant (P := PktClient.Bounded) pktCall_bounded
    ⟨.none, ⟨rfl, .inl ⟨.inl rfl, rfl⟩⟩, rfl, trivial⟩ h

/-! ## Consequences -/

/-- Only a parser inside a frame stores a byte. -/
theorem PktClient.Bounded.inFrame {c : PktClient} (h : c.Bounded)
    (hs : c.pkt.state = .header ∨ c.pkt.state = .data) : ∃ got, InFrame c.pkt got := by
  have hnot : ¬Listening c.pkt := by
    rcases hs with hs | hs <;> simp [Listening, hs]
  obtain ⟨owner, howner, -⟩ := h
  cases owner with
  | none =>
      obtain ⟨-, ⟨hlisten, -⟩ | hin⟩ := howner
      · exact absurd hlisten hnot
      · exact hin
  | waiting | client => exact absurd howner.1 hnot

/-- The store of the next byte goes through the buffer's pointer, to an index of the buffer. -/
theorem PktClient.Bounded.store {c : PktClient} (h : c.Bounded) {pbuf : Bool} {idx : UInt8}
    (hstore : parserStore c.pkt = some (pbuf, idx)) : pbuf = true ∧ idx.toNat < 16 := by
  have hs : c.pkt.state = .header ∨ c.pkt.state = .data := by
    cases hs : c.pkt.state with
    | header => exact .inl rfl
    | data => exact .inr rfl
    | search | sync | check => simp [parserStore, hs] at hstore
  obtain ⟨got, hin⟩ := h.inFrame hs
  obtain ⟨rfl, rfl⟩ : c.pkt.pbuf = pbuf ∧ c.pkt.idx = idx := by
    rcases hs with hs | hs <;> simpa [parserStore, hs] using hstore
  refine ⟨hin.pbuf, ?_⟩
  rcases hs with hs | hs
  · have := hin.header hs
    omega
  · exact (hin.data hs).2.2

/-- A packet that is waiting or held has a length within the limit. -/
theorem PktClient.Bounded.len_le {c : PktClient} (h : c.Bounded)
    (howned : c.pkt.readyPacket = true ∨ c.held = true) : c.pkt.rxbuf.len.toNat ≤ 12 := by
  obtain ⟨owner, howner, hheld, hlimit⟩ := h
  cases owner with
  | none => simp [howner.1, hheld, Owner.isClient] at howned
  | waiting packet | client packet =>
      obtain ⟨-, -, -, rfl⟩ := howner
      exact hlimit

/-- The parser stays in bounds, after any received bytes interleaved with any disciplined calls. A
byte changes the receive buffer only by a store through a pointer that is not null, at an index
below 16. In `RX_HEADER` the index is below 4, and in `RX_DATA` the index and the bytes missing
add up to 4 and the received length byte. A packet handed out, and held from then on, has at most
12 payload bytes. -/
theorem parser_in_bounds (calls : List PktCall) (h : Meets pktCall Disciplined .init calls) :
    let c := run pktCall .init calls
    (∀ byte, match parserStore c.pkt with
      | none => (pktParser c.pkt byte).rxbuf = c.pkt.rxbuf
      | some (pbuf, idx) => pbuf = true ∧ idx.toNat < 16 ∧
          (pktParser c.pkt byte).rxbuf = c.pkt.rxbuf.setIfInBounds idx.toNat byte) ∧
      (c.pkt.state = .header → c.pkt.idx.toNat < 4) ∧
      (c.pkt.state = .data →
        c.pkt.idx.toNat + c.pkt.len.toNat = 4 + c.pkt.rxbuf.len.toNat ∧ 1 ≤ c.pkt.len.toNat) ∧
      ((pktReady c.pkt).1 = true ∨ c.held = true → c.pkt.rxbuf.len.toNat ≤ 12) := by
  intro c
  have hbounded : c.Bounded := run_bounded h
  refine ⟨fun byte => ?_, fun hs => ?_, fun hs => ?_, hbounded.len_le⟩
  · rw [pktParser_rxbuf]
    cases hstore : parserStore c.pkt with
    | none => rfl
    | some store =>
        obtain ⟨pbuf, idx⟩ := store
        obtain ⟨rfl, hidx⟩ := hbounded.store hstore
        exact ⟨rfl, hidx, rfl⟩
  · obtain ⟨got, hin⟩ := hbounded.inFrame (.inl hs)
    exact hin.header hs
  · obtain ⟨got, hin⟩ := hbounded.inFrame (.inr hs)
    exact ⟨(hin.data hs).1, (hin.data hs).2.1⟩

/-- A frame cut off by a reset, then one with a payload byte, which `pkt_ready` hands out. -/
theorem parser_in_bounds_after_reset :
    let calls := [0x55, 0xF0, 0, 2].map PktCall.parser ++ [.reset] ++
      [0x55, 0xF0, 0, 2, 1, 1, 0xAA, 0x0D].map PktCall.parser ++ [.ready]
    let c := run pktCall .init calls
    c.held = true ∧ c.pkt.rxbuf.len.toNat ≤ 12 := by
  intro calls c
  have hheld : c.held = true := by decide +kernel
  exact ⟨hheld, (parser_in_bounds calls (by decide +kernel)).2.2.2 (.inr hheld)⟩

end BmsNode
