import BmsNode.Bytes.Word
import BmsNode.Packet.RoundTrip

/-!
# Recovery by preambles

`PktClient` is the packet module with a client that makes its calls in any order. In
every state the two can reach, `missing` counts the bytes until the parser has left
the frame it is in, if these are preambles. The count never exceeds 13, and each
preamble lowers it, so 13 preambles make the parser ready for the next frame.
-/

namespace BmsNode

open Transition

/-! ## A client of the packet module -/

/-- The packet module and whether its client holds the receive buffer. -/
structure PktClient where
  pkt : Pkt
  held : Bool
  deriving DecidableEq, Repr

/-- The module before its first use, with nothing held. -/
def PktClient.init : PktClient := ⟨Pkt.init, false⟩

/-- The calls of the receive side of `pkt.h`. -/
inductive PktCall where
  | parser (nextbyte : UInt8)
  | ready
  | rxAlloc
  | rxFree
  | reset
  deriving DecidableEq, Repr

/-- What a call does to the module, and to what its client holds. -/
def pktCall (c : PktClient) : PktCall → PktClient
  | .parser nextbyte => { c with pkt := pktParser c.pkt nextbyte }
  | .ready =>
      let (packet, pkt) := pktReady c.pkt
      { pkt := pkt, held := c.held || packet }
  | .rxAlloc =>
      let (buffer, pkt) := pktRxAlloc c.pkt
      { pkt := pkt, held := c.held || buffer }
  | .rxFree => { pkt := pktRxFree c.pkt, held := false }
  | .reset => { pkt := pktReset c.pkt, held := false }

/-- The client takes a packet that is waiting, and frees what it then holds. -/
def PktClient.takeAndFree (c : PktClient) : PktClient :=
  let c := pktCall c .ready
  if c.held then pktCall c .rxFree else c

/-- What the calls preserve in any order: the buffer is in use for a reason, and the parser's
counters fit the state it is in. -/
structure PktClient.Kept (c : PktClient) : Prop where
  inuse : c.pkt.rxbufInuse = true → Listening c.pkt → c.pkt.readyPacket = true ∨ c.held = true
  pbuf : ¬Listening c.pkt → c.pkt.pbuf = true
  header : c.pkt.state = .header → c.pkt.idx.toNat < 4
  data : c.pkt.state = .data → 0 < c.pkt.len.toNat ∧ c.pkt.len.toNat ≤ 12

/-- A parser outside a frame has no counter to keep. -/
theorem PktClient.Kept.of_listening {c : PktClient} (hp : Listening c.pkt)
    (h : c.pkt.rxbufInuse = true → c.pkt.readyPacket = true ∨ c.held = true) : c.Kept := by
  refine ⟨fun hinuse _ => h hinuse, fun hnot => absurd hp hnot, fun hs => ?_, fun hs => ?_⟩
  · rcases hp with hp | hp <;> simp [hp] at hs
  · rcases hp with hp | hp <;> simp [hp] at hs

/-- A parser that reads the header into its buffer. -/
theorem PktClient.Kept.of_header {c : PktClient} (hs : c.pkt.state = .header)
    (hpbuf : c.pkt.pbuf = true) (hidx : c.pkt.idx.toNat < 4) : c.Kept := by
  refine ⟨fun _ hlisten => ?_, fun _ => hpbuf, fun _ => hidx, fun hdata => ?_⟩
  · simp [Listening, hs] at hlisten
  · simp [hs] at hdata

/-- A parser that reads the payload into its buffer. -/
theorem PktClient.Kept.of_data {c : PktClient} (hs : c.pkt.state = .data)
    (hpbuf : c.pkt.pbuf = true) (hlen : 0 < c.pkt.len.toNat ∧ c.pkt.len.toNat ≤ 12) : c.Kept := by
  refine ⟨fun _ hlisten => ?_, fun _ => hpbuf, fun hheader => ?_, fun _ => hlen⟩
  · simp [Listening, hs] at hlisten
  · simp [hs] at hheader

/-- A parser that waits for the CRC byte. -/
theorem PktClient.Kept.of_check {c : PktClient} (hs : c.pkt.state = .check)
    (hpbuf : c.pkt.pbuf = true) : c.Kept := by
  refine ⟨fun _ hlisten => ?_, fun _ => hpbuf, fun hheader => ?_, fun hdata => ?_⟩
  · simp [Listening, hs] at hlisten
  · simp [hs] at hheader
  · simp [hs] at hdata

/-- A call that leaves the parser where it is keeps the counters. -/
theorem PktClient.Kept.idle {c c' : PktClient} (h : c.Kept) (hstate : c'.pkt.state = c.pkt.state)
    (hpbuf : c'.pkt.pbuf = c.pkt.pbuf) (hidx : c'.pkt.idx = c.pkt.idx)
    (hlen : c'.pkt.len = c.pkt.len)
    (hinuse : c'.pkt.rxbufInuse = true → Listening c'.pkt →
      c'.pkt.readyPacket = true ∨ c'.held = true) : c'.Kept := by
  have hlisten : Listening c'.pkt ↔ Listening c.pkt := by rw [Listening, Listening, hstate]
  refine ⟨hinuse, fun hnot => ?_, fun hs => ?_, fun hs => ?_⟩
  · rw [hpbuf]
    exact h.pbuf (by rwa [hlisten] at hnot)
  · rw [hidx]
    exact h.header (hstate ▸ hs)
  · rw [hlen]
    exact h.data (hstate ▸ hs)

/-- A byte outside a frame leaves the parser there or starts a frame. -/
theorem PktClient.Kept.parser_listening {c : PktClient} (h : c.Kept) (hp : Listening c.pkt)
    (byte : UInt8) : (pktCall c (.parser byte)).Kept := by
  by_cases hstart : c.pkt.state = .sync ∧ byte = pktSync
  · obtain ⟨hs, rfl⟩ := hstart
    by_cases hinuse : c.pkt.rxbufInuse = true
    · simp only [pktCall, pktParser_busy hs hinuse]
      exact .of_listening (.inl rfl) fun hinuse => h.inuse hinuse hp
    · simp only [pktCall, pktParser, hs, if_true, pktRxAlloc, Bool.eq_false_iff.mpr hinuse,
        Bool.not_false]
      exact .of_header rfl rfl (by simp)
  · simp only [pktCall, pktParser_listening hp byte hstart]
    refine .of_listening ?_ fun hinuse => h.inuse hinuse hp
    by_cases hpre : byte = pktPreamble <;> simp [Listening, hpre]

/-- A byte of the header moves the index, and the fourth one ends the header. -/
theorem PktClient.Kept.parser_header {c : PktClient} (h : c.Kept) (hs : c.pkt.state = .header)
    (byte : UInt8) : (pktCall c (.parser byte)).Kept := by
  have hpbuf : c.pkt.pbuf = true := h.pbuf (by simp [Listening, hs])
  have hidx := h.header hs
  have hnext := Word.toNat_add_one (b := c.pkt.idx) (by omega)
  simp only [pktCall, pktParser, hs, pktStore, hpbuf, if_true]
  split_ifs with hfour hzero hover
  · exact .of_check rfl rfl
  · exact .of_listening (.inl rfl) fun hinuse => by simp [pktRxFree] at hinuse
  · refine .of_data rfl rfl ⟨?_, ?_⟩
    · exact Nat.pos_of_ne_zero fun h0 => hzero (UInt8.toNat_inj.mp h0)
    · rw [gt_pktPayloadLen_iff] at hover
      exact Nat.not_lt.mp hover
  · have hne : (c.pkt.idx + 1).toNat ≠ 4 := fun h4 => hfour (UInt8.toNat_inj.mp h4)
    refine .of_header rfl rfl ?_
    show (c.pkt.idx + 1).toNat < 4
    omega

/-- A byte of the payload counts down. -/
theorem PktClient.Kept.parser_data {c : PktClient} (h : c.Kept) (hs : c.pkt.state = .data)
    (byte : UInt8) : (pktCall c (.parser byte)).Kept := by
  have hpbuf : c.pkt.pbuf = true := h.pbuf (by simp [Listening, hs])
  obtain ⟨hpos, hmax⟩ := h.data hs
  have hnext := Word.toNat_sub_one hpos
  simp only [pktCall, pktParser, hs, pktStore, hpbuf, if_true]
  split_ifs with hzero
  · exact .of_check rfl rfl
  · have hne : (c.pkt.len - 1).toNat ≠ 0 := fun h0 => hzero (UInt8.toNat_inj.mp h0)
    refine .of_data rfl rfl ?_
    show 0 < (c.pkt.len - 1).toNat ∧ (c.pkt.len - 1).toNat ≤ 12
    omega

/-- The CRC byte ends the frame. -/
theorem PktClient.Kept.parser_check {c : PktClient} (h : c.Kept) (hs : c.pkt.state = .check)
    (byte : UInt8) : (pktCall c (.parser byte)).Kept := by
  have hpbuf : c.pkt.pbuf = true := h.pbuf (by simp [Listening, hs])
  simp only [pktCall, pktParser, hs]
  split_ifs with hcrc
  · exact .of_listening (.inl rfl) fun _ => .inl hpbuf
  · exact .of_listening (.inl rfl) fun hinuse => by simp [pktRxFree] at hinuse

/-- Every call keeps the counters in range and the buffer accounted for. -/
theorem pktCall_kept {c : PktClient} (h : c.Kept) (call : PktCall) : (pktCall c call).Kept := by
  cases call with
  | parser byte =>
      cases hs : c.pkt.state with
      | search => exact h.parser_listening (.inl hs) byte
      | sync => exact h.parser_listening (.inr hs) byte
      | header => exact h.parser_header hs byte
      | data => exact h.parser_data hs byte
      | check => exact h.parser_check hs byte
  | ready =>
      refine h.idle rfl rfl rfl rfl fun hinuse hlisten => .inr ?_
      rcases h.inuse hinuse hlisten with hready | hheld
      · simp [pktCall, pktReady, hready]
      · simp [pktCall, hheld]
  | rxAlloc =>
      cases hinuse : c.pkt.rxbufInuse with
      | false =>
          simp only [pktCall, pktRxAlloc, hinuse, Bool.not_false, if_true, Bool.or_true]
          exact h.idle rfl rfl rfl rfl fun _ _ => .inr rfl
      | true =>
          simp only [pktCall, pktRxAlloc, hinuse, Bool.not_true, Bool.false_eq_true, if_false,
            Bool.or_false]
          exact h
  | rxFree => exact h.idle rfl rfl rfl rfl fun hinuse => by simp [pktCall, pktRxFree] at hinuse
  | reset => exact .of_listening (.inl rfl) fun hinuse => by simp [pktCall, pktReset] at hinuse

/-- In every state the module and its client reach, the counters are in range and the buffer is
accounted for. -/
theorem run_pktCall_kept (calls : List PktCall) : (run pktCall PktClient.init calls).Kept := by
  have hinit : PktClient.init.Kept :=
    .of_listening (.inl rfl) fun hinuse => by simp [PktClient.init, Pkt.init] at hinuse
  exact run_invariant_always (P := PktClient.Kept) (fun _ call h => pktCall_kept h call) calls hinit

/-! ## Preambles -/

/-- The bytes until the parser has left the frame it is in, if these are preambles: the length byte
is then above the limit, and the header is the end. -/
def missing (p : Pkt) : Nat :=
  match p.state with
  | .search | .sync => 0
  | .header => 4 - p.idx.toNat
  | .data => p.len.toNat + 1
  | .check => 1

/-- With nothing missing the parser is outside a frame. -/
theorem PktClient.Kept.listening {c : PktClient} (h : c.Kept) (hmissing : missing c.pkt = 0) :
    Listening c.pkt := by
  cases hs : c.pkt.state with
  | search => exact .inl hs
  | sync => exact .inr hs
  | header =>
      have hidx := h.header hs
      simp only [missing, hs] at hmissing
      omega
  | data | check => simp [missing, hs] at hmissing

/-- At most 12 payload bytes and the CRC byte are missing. -/
theorem PktClient.Kept.missing_le {c : PktClient} (h : c.Kept) : missing c.pkt ≤ 13 := by
  cases hs : c.pkt.state with
  | search | sync | check => simp [missing, hs]
  | header =>
      simp only [missing, hs]
      omega
  | data =>
      have hlen := (h.data hs).2
      simp only [missing, hs]
      omega

/-- A preamble brings the end of the frame one byte nearer, whatever state it is read in. -/
theorem missing_preamble {c : PktClient} (h : c.Kept) :
    missing (pktParser c.pkt pktPreamble) = missing c.pkt - 1 := by
  cases hs : c.pkt.state with
  | search | sync =>
      rw [pktParser_listening (by simp [Listening, hs]) _ (by simp [pktPreamble, pktSync])]
      simp [missing, hs]
  | header =>
      have hpbuf : c.pkt.pbuf = true := h.pbuf (by simp [Listening, hs])
      have hidx := h.header hs
      have hnext := Word.toNat_add_one (b := c.pkt.idx) (by omega)
      by_cases hfour : c.pkt.idx.toNat = 3
      · -- the preamble is stored as the length byte
        have hlast : c.pkt.idx + 1 = pktHeaderLen := UInt8.toNat_inj.mp (by rw [hnext, hfour]; rfl)
        have hlen : RxBuf.len (c.pkt.rxbuf.setIfInBounds c.pkt.idx.toNat pktPreamble) =
            pktPreamble := by
          simp [RxBuf.len, hfour]
        simp only [pktParser, hs, pktStore, hpbuf, if_true, hlast, hlen]
        rw [if_neg (by decide), if_pos (by decide)]
        simp [missing, hs, hfour]
      · have hmore : c.pkt.idx + 1 ≠ pktHeaderLen := fun heq => by
          rw [heq] at hnext
          simp [pktHeaderLen] at hnext
          omega
        simp only [pktParser, hs, pktStore, if_neg hmore, missing, hnext]
        omega
  | data =>
      have hpos := (h.data hs).1
      have hnext := Word.toNat_sub_one hpos
      rw [pktParser_data hs]
      by_cases hzero : c.pkt.len - 1 = 0
      · rw [hzero] at hnext
        simp only [hzero, if_true, missing, hs]
        simp at hnext
        omega
      · simp only [hzero, if_false, missing, pktStore, hs, hnext]
        omega
  | check =>
      simp only [pktParser, hs]
      split_ifs <;> simp [missing, hs, pktRxFree]

/-- After `n` preambles the counters are still in range, and `n` bytes fewer are missing. -/
theorem run_missing {c : PktClient} (h : c.Kept) (n : Nat) :
    let c' := run pktCall c (List.replicate n (.parser pktPreamble))
    c'.Kept ∧ missing c'.pkt = missing c.pkt - n := by
  induction n generalizing c with
  | zero => exact ⟨h, rfl⟩
  | succ n ih =>
      obtain ⟨hkept, hmissing⟩ := ih (pktCall_kept h (.parser pktPreamble))
      have hfirst : missing (pktCall c (.parser pktPreamble)).pkt = missing c.pkt - 1 :=
        missing_preamble h
      refine ⟨hkept, ?_⟩
      rw [List.replicate_succ, run_cons, hmissing, hfirst]
      omega

/-- A client that takes and frees what there is leaves a parser outside a frame with its buffer
free. -/
theorem PktClient.Kept.takeAndFree {c : PktClient} (h : c.Kept) (hp : Listening c.pkt) :
    Between c.takeAndFree.pkt := by
  by_cases hheld : (pktCall c .ready).held = true
  · simp only [PktClient.takeAndFree, hheld, if_true]
    exact ⟨hp, rfl, rfl⟩
  · rw [PktClient.takeAndFree, if_neg hheld]
    refine ⟨hp, ?_, rfl⟩
    by_contra hfree
    have hinuse : c.pkt.rxbufInuse = true := by simpa [pktCall, pktReady] using hfree
    apply hheld
    rcases h.inuse hinuse hp with hready | hheld
    · simp [pktCall, pktReady, hready]
    · simp [pktCall, hheld]

/-- Recovery by preambles, in every state the packet module and its client reach by any calls: after
13 or more preambles the parser is outside a frame, and once the client has taken and freed what
there is, the bytes that `pkt_send` makes of any packet and hands to `ser_write` are taken for
exactly that packet, after the last of them. -/
theorem preamble_recovery (calls : List PktCall) (n : Nat) (hn : 13 ≤ n) (t : TxPkt)
    (flags addr cmd : UInt8) (payload : List UInt8) (hpayload : payload.length ≤ 12) :
    let c := run pktCall PktClient.init (calls ++ List.replicate n (.parser pktPreamble))
    let p := c.takeAndFree.pkt
    let len := UInt8.ofNat payload.length
    let bytes := pktFrame t flags addr cmd payload len
    (c.pkt.state = .search ∨ c.pkt.state = .sync) ∧
      (∀ k < bytes.length, (run pktParser p (bytes.take k)).readyPacket = false) ∧
      (run pktParser p bytes).readyPacket = true ∧
      (run pktParser p bytes).rxbuf.frame = ⟨flags, addr, cmd, len, payload⟩ ∧
      HandsOver t ⟨flags, addr, cmd, len, payload⟩ bytes := by
  intro c p len bytes
  have hbefore := run_pktCall_kept calls
  obtain ⟨hkept, hmissing⟩ := run_missing hbefore n
  rw [← run_append] at hkept hmissing
  have hlisten : Listening c.pkt := by
    apply hkept.listening
    have := hbefore.missing_le
    omega
  have hbetween : Between p := hkept.takeAndFree hlisten
  have hfits := Frame.fits_ofNat flags addr cmd hpayload
  have hbytes :
      bytes = List.replicate 4 pktPreamble ++ Frame.wire ⟨flags, addr, cmd, len, payload⟩ :=
    pktFrame_eq hfits t
  obtain ⟨hnone, hready, hframe, -⟩ := hbetween.receive hfits
  refine ⟨hlisten, ?_⟩
  have hsent : HandsOver t ⟨flags, addr, cmd, len, payload⟩ bytes := pktSend_handsOver hfits t
  rw [hbytes] at hsent ⊢
  exact ⟨hnone, hready, hframe, hsent⟩

/-- The parser is in the payload of what only looked like a frame: 13 preambles later a PING for
address 2 is received. -/
theorem preamble_recovery_payload :
    let calls := [0x55, 0xF0, 0, 0x55, 0xF0, 12].map PktCall.parser
    let c := run pktCall PktClient.init (calls ++ List.replicate 13 (.parser pktPreamble))
    (run pktParser c.takeAndFree.pkt (pktFrame TxPkt.init 0 2 1 [] 0)).rxbuf.frame =
      ⟨0, 2, 1, 0, []⟩ := by
  intro calls c
  exact (preamble_recovery calls 13 (Nat.le_refl 13) TxPkt.init 0 2 1 [] (Nat.zero_le 12)).2.2.2.1

end BmsNode
