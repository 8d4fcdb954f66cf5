import BmsNode.Packet.Receive

/-!
# The packet grammar

`scan` is a reference parser for the packet format of `doc/packet.md`, a recursion on
the list of received bytes. `deliveries` is what a client obtains from `pkt_parser` when
it takes and frees every packet before the next byte. The two agree on every stream.
-/

namespace BmsNode

/-- The packets in a stream of bytes. `preamble` says that the byte before the stream was a 0x55
read outside a frame. -/
def scan (preamble : Bool) : List UInt8 → List Frame
  | [] => []
  | byte :: rest =>
      if preamble = true ∧ byte = 0xF0 then
        match rest with
        | flags :: addr :: cmd :: len :: body =>
            if len > 12 then scan false body
            else
              match body[len.toNat]? with
              | none => []
              | some check =>
                  let frame : Frame := ⟨flags, addr, cmd, len, body.take len.toNat⟩
                  (if check = crc8 frame.body then [frame] else []) ++
                    scan false (body.drop (len.toNat + 1))
        | _ => []
      else scan (byte = 0x55) rest
  termination_by bytes => bytes.length
  decreasing_by all_goals simp_wf; all_goals omega

/-- Outside a frame the reference parser skips a byte that does not start one. -/
theorem scan_skip {preamble : Bool} {byte : UInt8} (rest : List UInt8)
    (h : ¬(preamble = true ∧ byte = 0xF0)) :
    scan preamble (byte :: rest) = scan (byte = 0x55) rest := by
  rw [scan.eq_def]
  exact if_neg h

/-- A frame cut off inside its header holds no packet. -/
theorem scan_short {rest : List UInt8} (h : rest.length < 4) :
    scan true (pktSync :: rest) = [] := by
  match rest, h with
  | [], _ | [_], _ | [_, _], _ | [_, _, _], _ => simp [scan, pktSync]

/-- A frame with a complete header is dropped, cut off, or checked. -/
theorem scan_frame (flags addr cmd len : UInt8) (body : List UInt8) :
    scan true (pktSync :: flags :: addr :: cmd :: len :: body) =
      if len > 12 then scan false body
      else
        match body[len.toNat]? with
        | none => []
        | some check =>
            (if check = crc8 ([flags, addr, cmd, len] ++ body.take len.toNat) then
              [⟨flags, addr, cmd, len, body.take len.toNat⟩] else []) ++
              scan false (body.drop (len.toNat + 1)) := by
  rw [scan.eq_def]
  simp only [pktSync, and_self, if_true]
  rfl

/-- The client on one byte: take a packet that became ready, read it and free it. -/
def clientStep (p : Pkt) (byte : UInt8) : Option Frame × Pkt :=
  let (ready, p) := pktReady (pktParser p byte)
  if ready then (some p.rxbuf.frame, pktRxFree p) else (none, p)

/-- The packets a client obtains from a stream of bytes. -/
def deliveries : Pkt → List UInt8 → List Frame
  | _, [] => []
  | p, byte :: rest =>
      let (frame, p) := clientStep p byte
      frame.toList ++ deliveries p rest

/-- A byte after which no packet is ready delivers nothing. -/
theorem deliveries_cons_of_not_ready {p : Pkt} {byte : UInt8} (rest : List UInt8)
    (h : (pktParser p byte).readyPacket = false) :
    deliveries p (byte :: rest) = deliveries (pktParser p byte) rest := by
  have hsame : { pktParser p byte with readyPacket := false } = pktParser p byte := by
    rw [← h]
  simp [deliveries, clientStep, pktReady, h, hsame]

/-- The parser between frames, with nothing waiting and the buffer free. -/
structure Between (p : Pkt) : Prop where
  listening : Listening p
  free : p.rxbufInuse = false
  notReady : p.readyPacket = false

/-- The frame in a buffer that holds exactly the bytes of one. -/
theorem RxBuf.frame_of_take {buf : RxBuf} {flags addr cmd len : UInt8} {payload : List UInt8}
    (h : buf.toList.take (4 + len.toNat) = [flags, addr, cmd, len] ++ payload) :
    buf.frame = ⟨flags, addr, cmd, len, payload⟩ := by
  have h0 := BufferPrefix.getElem_of_take h (i := 0) (by simp) (by omega)
  have h1 := BufferPrefix.getElem_of_take h (i := 1) (by simp) (by omega)
  have h2 := BufferPrefix.getElem_of_take h (i := 2) (by simp) (by omega)
  have h3 := BufferPrefix.getElem_of_take h (i := 3) (by simp) (by omega)
  have hpay : (buf.toList.drop 4).take len.toNat = payload := by
    simpa [List.drop_take] using congrArg (List.drop 4) h
  simp_all [RxBuf.frame, RxBuf.flags, RxBuf.addr, RxBuf.cmd, RxBuf.len]

/-- Reading the rest of a payload: a stream that ends too early delivers nothing, and a longer one
leaves the parser waiting for the CRC byte. -/
theorem deliveries_payload (count : Nat) {p : Pkt} {got : List UInt8} (hp : InFrame p got)
    (hheader : 4 ≤ got.length) (hcount : got.length + count = 4 + (lenByte got).toNat)
    (rest : List UInt8) :
    (rest.length < count → deliveries p rest = []) ∧
      (count ≤ rest.length → ∃ q, InFrame q (got ++ rest.take count) ∧ q.state = .check ∧
        deliveries p rest = deliveries q (rest.drop count)) := by
  -- the induction is on the payload bytes still missing
  induction count generalizing p got rest with
  | zero =>
      exact ⟨fun h => absurd h (Nat.not_lt_zero _),
        fun _ => ⟨p, by simpa using hp, hp.check hcount, rfl⟩⟩
  | succ count ih =>
      cases rest with
      | nil => exact ⟨fun _ => rfl, fun h => absurd h (by simp)⟩
      | cons byte rest =>
          have hnext := hp.more (hp.not_check (by omega)) byte (fun h => by omega)
          obtain ⟨hshort, hlong⟩ := ih hnext (by simp; omega)
            (by rw [lenByte_append hheader]; simp; omega) rest
          rw [deliveries_cons_of_not_ready rest hnext.notReady]
          refine ⟨fun h => hshort (by simpa using h), fun h => ?_⟩
          obtain ⟨q, hq, hs, hdel⟩ := hlong (by simpa using h)
          exact ⟨q, by simpa using hq, hs, hdel⟩

/-- A stream that ends inside the header delivers nothing. -/
theorem deliveries_short {p : Pkt} {got : List UInt8} (hp : InFrame p got) (rest : List UInt8)
    (h : got.length + rest.length < 4) : deliveries p rest = [] := by
  induction rest generalizing p got with
  | nil => rfl
  | cons byte rest ih =>
      rw [List.length_cons] at h
      have hnext := hp.more (hp.not_check (by omega)) byte (fun h3 => by omega)
      rw [deliveries_cons_of_not_ready rest hnext.notReady]
      exact ih hnext (by simp; omega)

/-- The CRC byte delivers the packet exactly when it is right, and the parser is between frames
again. -/
theorem deliveries_check {p : Pkt} {got : List UInt8} (hp : InFrame p got) (hs : p.state = .check)
    (check : UInt8) (rest : List UInt8) :
    ∃ q, Between q ∧ q.state = .search ∧
      deliveries p (check :: rest) =
        (if check = crc8 got then [p.rxbuf.frame] else []) ++ deliveries q rest := by
  by_cases hcrc : check = crc8 got
  · subst hcrc
    refine ⟨{ p with state := .search, readyPacket := false, rxbufInuse := false },
      ⟨.inl rfl, rfl, rfl⟩, rfl, ?_⟩
    simp [deliveries, clientStep, pktReady, hp.accept hs, pktRxFree]
  · refine ⟨{ p with state := .search, rxbufInuse := false }, ⟨.inl rfl, rfl, hp.notReady⟩, rfl, ?_⟩
    rw [deliveries_cons_of_not_ready rest (by rw [hp.reject hs hcrc]; exact hp.notReady),
      hp.reject hs hcrc]
    simp [hcrc]

/-- Header bytes of a frame that leave the parser inside it. -/
theorem deliveries_header {p : Pkt} (hp : InFrame p []) (flags addr cmd len : UInt8)
    (body : List UInt8) :
    ∃ q, deliveries p (flags :: addr :: cmd :: len :: body) = deliveries q body ∧
      (12 < len.toNat → Between q ∧ q.state = .search) ∧
      (len.toNat ≤ 12 → InFrame q [flags, addr, cmd, len]) := by
  have h1 := hp.more (hp.not_check (Nat.lt_add_right _ (by simp))) flags (by simp)
  have h2 := h1.more (h1.not_check (Nat.lt_add_right _ (by simp))) addr (by simp)
  have h3 := h2.more (h2.not_check (Nat.lt_add_right _ (by simp))) cmd (by simp)
  have hnotcheck := h3.not_check (Nat.lt_add_right _ (by simp))
  refine ⟨pktParser (pktParser (pktParser (pktParser p flags) addr) cmd) len, ?_, ?_, ?_⟩
  · rw [deliveries_cons_of_not_ready _ h1.notReady, deliveries_cons_of_not_ready _ h2.notReady,
      deliveries_cons_of_not_ready _ h3.notReady, deliveries_cons_of_not_ready]
    by_cases hlen : len.toNat ≤ 12
    · exact (h3.more hnotcheck len (fun _ => hlen)).notReady
    · exact (h3.oversize (by simp) (by omega)).2.2
  · intro hlen
    obtain ⟨hs, hfree, hready⟩ := h3.oversize (by simp) hlen
    exact ⟨⟨.inl hs, hfree, hready⟩, hs⟩
  · intro hlen
    exact h3.more hnotcheck len (fun _ => hlen)

/-- After a sync byte the client obtains the packets of the reference parser, if it does so on every
shorter stream that starts between two frames. -/
theorem deliveries_frame {p : Pkt} (hp : InFrame p []) (rest : List UInt8)
    (ih : ∀ (q : Pkt) (bytes : List UInt8), bytes.length < rest.length → Between q →
      q.state = .search → deliveries q bytes = scan false bytes) :
    deliveries p rest = scan true (pktSync :: rest) := by
  by_cases hheader : rest.length < 4
  · rw [scan_short hheader, deliveries_short hp rest (by simpa using hheader)]
  match rest, hheader with
  | [], h | [_], h | [_, _], h | [_, _, _], h => simp at h
  | flags :: addr :: cmd :: len :: body, _ =>
      obtain ⟨q, hdel, hbig, hfit⟩ := deliveries_header hp flags addr cmd len body
      rw [hdel, scan_frame]
      by_cases hlen : len > 12
      · -- the length byte drops the frame
        obtain ⟨hq, hs⟩ := hbig hlen
        rw [if_pos hlen]
        exact ih q body (by simp; omega) hq hs
      · rw [if_neg hlen]
        have hq := hfit (Nat.not_lt.mp hlen)
        obtain ⟨hshort, hlong⟩ :=
          deliveries_payload len.toNat hq (by simp) (by simp [lenByte]) body
        by_cases hfull : len.toNat < body.length
        · obtain ⟨r, hr, hs, hbody⟩ := hlong (by omega)
          obtain ⟨t, ht, hst, hcheck⟩ := deliveries_check hr hs body[len.toNat]
            (body.drop (len.toNat + 1))
          have hlength : ([flags, addr, cmd, len] ++ body.take len.toNat).length =
              4 + len.toNat := by
            simp
            omega
          have hframe : r.rxbuf.frame = ⟨flags, addr, cmd, len, body.take len.toNat⟩ := by
            apply RxBuf.frame_of_take
            rw [← hlength]
            exact hr.bytes
          rw [hbody, List.getElem?_eq_getElem hfull, List.drop_eq_getElem_cons hfull, hcheck,
            ih t _ (by simp; omega) ht hst, hframe]
        · -- no CRC byte: the stream ends inside the payload or right behind it
          rw [List.getElem?_eq_none (by omega)]
          by_cases heq : body.length = len.toNat
          · obtain ⟨r, -, -, hbody⟩ := hlong (by omega)
            rw [hbody, ← heq, List.drop_length]
            rfl
          · exact hshort (by omega)

/-- From between two frames, the client obtains the packets of the reference parser. -/
theorem deliveries_eq_scan {p : Pkt} (hp : Between p) (bytes : List UInt8) :
    deliveries p bytes = scan (p.state = .sync) bytes := by
  -- every frame is consumed as a whole, so the induction is on the length of the stream
  induction hn : bytes.length using Nat.strongRecOn generalizing p bytes with
  | _ n ih =>
  cases bytes with
  | nil => simp [deliveries, scan]
  | cons byte rest =>
      have hlt : rest.length < n := by simp at hn; omega
      by_cases hstart : p.state = .sync ∧ byte = pktSync
      · obtain ⟨hs, rfl⟩ := hstart
        have hin := pktParser_start hs hp.free hp.notReady
        rw [deliveries_cons_of_not_ready rest hin.notReady, hs]
        refine deliveries_frame hin rest fun q bytes hbytes hq hsq => ?_
        rw [ih _ (by omega) hq bytes rfl, hsq]
        rfl
      · have hlisten := pktParser_listening hp.listening byte hstart
        have hq : Between (pktParser p byte) := by
          rw [hlisten]
          refine ⟨?_, hp.free, hp.notReady⟩
          by_cases h : byte = pktPreamble <;> simp [Listening, h]
        rw [scan_skip rest (by simpa [pktSync] using hstart),
          deliveries_cons_of_not_ready rest hq.notReady, ih _ hlt hq rest rfl, hlisten]
        by_cases h : byte = pktPreamble
        · rw [if_pos h, h]
          rfl
        · rw [if_neg h]
          have h55 : byte ≠ 0x55 := h
          simp [h55]

/-- From a reset of the packet module in any state, the client obtains exactly the packets the
reference parser finds in the stream. -/
theorem deliveries_reset (p : Pkt) (bytes : List UInt8) :
    deliveries (pktReset p) bytes = scan false bytes :=
  deliveries_eq_scan ⟨.inl rfl, rfl, rfl⟩ bytes

end BmsNode
