import BmsNode.Serial.Writer

/-!
# The transmit ring is a queue

The ring with its wrapping indices holds a queue of at most 31 bytes. A copied byte is
appended to it and the `USART0_DRE` handler takes its first byte to the data register, in
whatever order the two come. Over a whole run, what has been sent and what is still
queued are together the bytes the `ser_write` calls have accepted. A call leaves its loop
short of the end only at a full ring, and it returns after the steps it has left, whatever
the interrupts do between them.
-/

namespace BmsNode

open Transition

/-- The bytes in the transmit ring, oldest first. -/
def Ser.queued (s : Ser) : List UInt8 := Ring.contents s.txbuf s.tailp.toNat (bufCnt s).toNat

/-- Both indices are inside the ring. -/
structure Ser.Indexed (s : Ser) : Prop where
  headp : s.headp.toNat < 32
  tailp : s.tailp.toNat < 32

/-- The number of queued bytes. -/
theorem Ser.length_queued (s : Ser) : s.queued.length = (bufCnt s).toNat :=
  Ring.length_contents (by omega) ..

/-- Going on by one and masking is going on by one in the ring. -/
theorem toNat_advance (w : UInt8) : ((w + 1) &&& 0x1F).toNat = (w.toNat + 1) % 32 := by
  have hlt := w.toNat_lt
  rw [toNat_and_mask, UInt8.toNat_add]
  show (w.toNat + 1) % 256 % 32 = _
  omega

/-- The head is as far from the tail as there are bytes queued. -/
theorem Ser.Indexed.headp_eq {s : Ser} (h : s.Indexed) :
    s.headp.toNat = (s.tailp.toNat + (bufCnt s).toNat) % 32 := by
  have hhead := h.headp
  have htail := h.tailp
  rw [bufCnt, toNat_and_mask, UInt8.toNat_sub]
  omega

/-- The ring is empty exactly when nothing is queued. -/
theorem Ser.Indexed.bufNotempty_iff {s : Ser} (h : s.Indexed) :
    bufNotempty s = true ↔ (bufCnt s).toNat ≠ 0 := by
  have hhead := h.headp
  have htail := h.tailp
  have hcount := h.headp_eq
  have hlt := bufCnt_lt s
  rw [bufNotempty, decide_eq_true_iff, ne_eq, ← UInt8.toNat_inj]
  omega

/-- A copied byte keeps the indices in the ring. -/
theorem Ser.Indexed.serPut {s : Ser} (h : s.Indexed) (byte : UInt8) : (serPut s byte).Indexed := by
  refine ⟨?_, h.tailp⟩
  show ((s.headp + 1) &&& 0x1F).toNat < 32
  rw [toNat_advance]
  omega

/-- A copied byte is appended to the queue. -/
theorem Ser.Indexed.queued_serPut {s : Ser} (h : s.Indexed) (hroom : (bufCnt s).toNat < 31)
    (byte : UInt8) : (BmsNode.serPut s byte).queued = s.queued ++ [byte] := by
  rw [Ser.queued, bufCnt_serPut hroom]
  show Ring.contents (s.txbuf.setIfInBounds s.headp.toNat byte) s.tailp.toNat _ = _
  rw [h.headp_eq]
  exact Ring.contents_put _ _ (by omega)

/-- The byte the `USART0_DRE` handler writes to the data register: what a register that was free
holds after it. -/
def dreSends (s : Ser) : List UInt8 :=
  if s.usart.txdatal.isNone then (usart0DreVect s).usart.txdatal.toList else []

/-- The handler keeps the indices in the ring. -/
theorem Ser.Indexed.usart0DreVect {s : Ser} (h : s.Indexed) : (usart0DreVect s).Indexed := by
  rw [BmsNode.usart0DreVect]
  split
  · split
    · refine ⟨h.headp, ?_⟩
      show ((s.tailp + 1) &&& 0x1F).toNat < 32
      rw [toNat_advance]
      omega
    · exact h
  · exact ⟨h.headp, h.tailp⟩

/-- The handler takes the byte it writes from the front of the queue. -/
theorem Ser.Indexed.queued_usart0DreVect {s : Ser} (h : s.Indexed) :
    dreSends s ++ (BmsNode.usart0DreVect s).queued = s.queued := by
  rw [dreSends, BmsNode.usart0DreVect]
  by_cases hbytes : bufNotempty s = true
  · by_cases hfree : s.usart.txdatal.isNone = true
    · rw [if_pos hfree, if_pos hbytes, if_pos hfree]
      have hcount := h.bufNotempty_iff.mp hbytes
      have hhead := h.headp
      have htail := h.tailp
      obtain ⟨count, hsucc⟩ := Nat.exists_eq_succ_of_ne_zero hcount
      have hrest : ((s.headp - ((s.tailp + 1) &&& 0x1F)) &&& 0x1F).toNat = count := by
        rw [bufCnt, toNat_and_mask, UInt8.toNat_sub] at hsucc
        rw [toNat_and_mask, UInt8.toNat_sub, toNat_advance]
        omega
      show s.txbuf[s.tailp.toNat]?.toList ++ Ring.contents s.txbuf ((s.tailp + 1) &&& 0x1F).toNat
        ((s.headp - ((s.tailp + 1) &&& 0x1F)) &&& 0x1F).toNat = _
      rw [hrest, toNat_advance, Ser.queued, hsucc, Ring.contents_take _ htail]
    · rw [if_neg hfree, if_pos hbytes, if_neg hfree]
      rfl
  · rw [if_neg hbytes]
    cases hfree : s.usart.txdatal with
    | none =>
        rw [show (txintDisable s.usart).txdatal = none from hfree]
        rfl
    | some byte => rfl

/-- The `USART0_TXC` handler leaves the ring alone. -/
theorem usart0TxcVect_ring (s : Ser) :
    (usart0TxcVect s).headp = s.headp ∧ (usart0TxcVect s).tailp = s.tailp ∧
      (usart0TxcVect s).txbuf = s.txbuf := by
  rw [usart0TxcVect]
  split <;> exact ⟨rfl, rfl, rfl⟩

/-! ## Runs -/

/-- What can be observed of the ring: a byte sent to the data register, a `ser_write` call that
leaves its copy loop after `cnt` bytes while the ring holds `held`, and one that returns. -/
inductive RingEvent where
  | sent (byte : UInt8)
  | stopped (buf : List UInt8) (cnt : UInt8) (held : Nat)
  | returned (buf : List UInt8) (cnt : UInt8)
  deriving DecidableEq, Repr

/-- A call is in its copy loop. -/
def Transmitter.copying (t : Transmitter) : Bool := t.call.any fun call => call.point = .copy

/-- The end of the copy loop, at the step that leaves it. -/
def Transmitter.stopped (t : Transmitter) : List RingEvent :=
  if t.copying && !t.mainStep.copying then
    t.call.toList.map fun call => .stopped call.buf call.cnt t.ser.queued.length
  else []

/-- The events of an action. -/
def Transmitter.events (t : Transmitter) : TxAction → List RingEvent
  | .main => t.stopped ++ (t.returned .main).map fun (buf, cnt) => .returned buf cnt
  | .dre => (dreSends t.ser).map .sent
  | _ => []

/-- Only the last step of a call returns its count. -/
theorem Transmitter.mem_returned {t : Transmitter} {buf : List UInt8} {cnt : UInt8}
    (h : (buf, cnt) ∈ t.returned .main) :
    ∃ call ∈ t.call, call.point = .restore ∧ call.buf = buf ∧ call.cnt = cnt := by
  obtain ⟨ser, call⟩ := t
  cases call with
  | none => cases h
  | some call =>
      obtain ⟨buf', rest, cnt', point⟩ := call
      cases point with
      | restore =>
          obtain ⟨rfl, rfl⟩ := Prod.mk.inj (List.mem_singleton.mp h)
          exact ⟨_, rfl, rfl, rfl, rfl⟩
      | copy | rxDisable | txEnable | intEnable => cases h

/-- The bytes sent to the data register. -/
def sentBytes (events : List RingEvent) : List UInt8 :=
  events.flatMap fun
    | .sent byte => [byte]
    | _ => []

/-- The prefixes the returned calls have queued, one after the other. -/
def acceptedBytes (events : List RingEvent) : List UInt8 :=
  events.flatMap fun
    | .returned buf cnt => buf.take cnt.toNat
    | _ => []

/-- What the call in progress has queued so far. -/
def Transmitter.copied (t : Transmitter) : List UInt8 :=
  match t.call with
  | none => []
  | some call => call.buf.take call.cnt.toNat

/-- A call counts the bytes it has copied. -/
structure WriteCall.Counts (call : WriteCall) : Prop where
  split : call.buf = call.buf.take call.cnt.toNat ++ call.rest
  count : call.cnt.toNat + call.rest.length = call.buf.length
  small : call.buf.length < 256

/-- What holds of an event. -/
def RingEvent.Sound : RingEvent → Prop
  | .sent _ => True
  | .stopped buf cnt held => cnt.toNat < buf.length → held = 31
  | .returned buf cnt => cnt.toNat ≤ buf.length

/-- A call has left its loop after a number of bytes, and since then bytes were only sent. -/
def LeftLoop (events : List RingEvent) (buf : List UInt8) (cnt : UInt8) : Prop :=
  ∃ earlier held, ∃ bytes : List UInt8,
    events = earlier ++ .stopped buf cnt held :: bytes.map .sent

/-- The relation between the ring and the events so far. -/
structure Transmitter.Conserves (t : Transmitter) (events : List RingEvent) : Prop where
  indexed : t.ser.Indexed
  counts : ∀ call ∈ t.call, call.Counts
  bytes : sentBytes events ++ t.ser.queued = acceptedBytes events ++ t.copied
  sound : ∀ event ∈ events, event.Sound
  left : ∀ call ∈ t.call, call.point ≠ .copy → LeftLoop events call.buf call.cnt

/-- Bytes sent later change nothing. -/
theorem LeftLoop.sent {events : List RingEvent} {buf : List UInt8} {cnt : UInt8}
    (h : LeftLoop events buf cnt) (more : List UInt8) :
    LeftLoop (events ++ more.map .sent) buf cnt := by
  obtain ⟨earlier, held, bytes, rfl⟩ := h
  exact ⟨earlier, held, bytes ++ more, by simp⟩

/-- A call in the loop, one byte further. -/
theorem WriteCall.Counts.copy {buf rest : List UInt8} {byte cnt : UInt8} {point : WritePoint}
    (h : WriteCall.Counts ⟨buf, byte :: rest, cnt, point⟩) :
    WriteCall.Counts ⟨buf, rest, cnt + 1, point⟩ ∧
      buf.take (cnt + 1).toNat = buf.take cnt.toNat ++ [byte] := by
  obtain ⟨hsplit, hcount, hsmall⟩ := h
  simp only [List.length_cons] at hsplit hcount hsmall
  have hnext : (cnt + 1).toNat = cnt.toNat + 1 := by
    rw [UInt8.toNat_add]
    show (cnt.toNat + 1) % 256 = _
    omega
  have htake : buf.take (cnt + 1).toNat = buf.take cnt.toNat ++ [byte] := by
    have hlength : (buf.take cnt.toNat ++ [byte]).length = (cnt + 1).toNat := by
      rw [hnext, List.length_append, List.length_take]
      simp only [List.length_cons, List.length_nil]
      omega
    have hassoc : buf = (buf.take cnt.toNat ++ [byte]) ++ rest := by
      rw [List.append_assoc]
      exact hsplit
    calc buf.take (cnt + 1).toNat
        = ((buf.take cnt.toNat ++ [byte]) ++ rest).take (cnt + 1).toNat := by rw [← hassoc]
      _ = buf.take cnt.toNat ++ [byte] := List.take_left' hlength
  refine ⟨⟨?_, ?_, hsmall⟩, htake⟩
  · show buf = buf.take (cnt + 1).toNat ++ rest
    rw [htake, List.append_assoc]
    exact hsplit
  · show (cnt + 1).toNat + rest.length = buf.length
    rw [hnext]
    omega

/-- An action that sends, accepts and queues nothing keeps the relation. -/
theorem Transmitter.Conserves.quiet {t next : Transmitter} {events : List RingEvent}
    (h : t.Conserves events) (hhead : next.ser.headp = t.ser.headp)
    (htail : next.ser.tailp = t.ser.tailp) (hbuf : next.ser.txbuf = t.ser.txbuf)
    (hcopied : next.copied = t.copied) (hcounts : ∀ call ∈ next.call, call.Counts)
    (hleft : ∀ call ∈ next.call, call.point ≠ .copy → LeftLoop events call.buf call.cnt) :
    next.Conserves events := by
  have hqueued : next.ser.queued = t.ser.queued := by
    rw [Ser.queued, Ser.queued, bufCnt, bufCnt, hhead, htail, hbuf]
  refine ⟨⟨?_, ?_⟩, hcounts, ?_, h.sound, hleft⟩
  · rw [hhead]
    exact h.indexed.headp
  · rw [htail]
    exact h.indexed.tailp
  · rw [hqueued, hcopied]
    exact h.bytes

/-- The step that leaves the loop changes no total. -/
theorem Transmitter.Conserves.stopped {ser : Ser} {buf rest : List UInt8} {cnt : UInt8}
    {events : List RingEvent} (h : Transmitter.Conserves ⟨ser, some ⟨buf, rest, cnt, .copy⟩⟩ events)
    (hsound : cnt.toNat < buf.length → ser.queued.length = 31) :
    Transmitter.Conserves ⟨ser, some ⟨buf, rest, cnt, .rxDisable⟩⟩
      (events ++ [.stopped buf cnt ser.queued.length]) := by
  refine ⟨h.indexed, ?_, ?_, ?_, ?_⟩
  · intro call hcall
    cases hcall
    obtain ⟨hsplit, hcount, hsmall⟩ := h.counts _ rfl
    exact ⟨hsplit, hcount, hsmall⟩
  · rw [sentBytes, acceptedBytes, List.flatMap_append, List.flatMap_append]
    show (sentBytes events ++ []) ++ _ = (acceptedBytes events ++ []) ++ _
    rw [List.append_nil, List.append_nil]
    exact h.bytes
  · intro event hmem
    rcases List.mem_append.mp hmem with hmem | hmem
    · exact h.sound event hmem
    · rw [List.mem_singleton.mp hmem]
      exact hsound
  · intro call hcall _
    cases hcall
    exact ⟨events, _, [], rfl⟩

/-- A round of the copy loop appends a byte to the queue and to what the call has copied. -/
theorem Transmitter.Conserves.copy {ser : Ser} {buf rest : List UInt8} {byte cnt : UInt8}
    {events : List RingEvent}
    (h : Transmitter.Conserves ⟨ser, some ⟨buf, byte :: rest, cnt, .copy⟩⟩ events)
    (hroom : bufNotfull ser = true) :
    Transmitter.Conserves ⟨serPut ser byte, some ⟨buf, rest, cnt + 1, .copy⟩⟩ events := by
  obtain ⟨hcounts, htake⟩ := (h.counts _ rfl).copy
  have hless := (bufNotfull_iff ser).mp hroom
  refine ⟨h.indexed.serPut byte, ?_, ?_, h.sound, ?_⟩
  · intro call hcall
    cases hcall
    exact hcounts
  · show sentBytes events ++ (serPut ser byte).queued =
      acceptedBytes events ++ buf.take (cnt + 1).toNat
    rw [h.indexed.queued_serPut hless, htake, ← List.append_assoc, ← List.append_assoc]
    exact congrArg (fun bytes => bytes ++ [byte]) h.bytes
  · intro call hcall hpoint
    cases hcall
    exact absurd rfl hpoint

/-- The loop stops short of the end only at a full ring. -/
theorem held_of_full {ser : Ser} (hfull : ¬bufNotfull ser = true) : ser.queued.length = 31 := by
  have hlt := bufCnt_lt ser
  rw [bufNotfull_iff] at hfull
  rw [Ser.length_queued]
  omega

/-- A call behind its loop comes to another point without touching the ring. -/
theorem Transmitter.Conserves.advance {ser ser' : Ser} {buf rest : List UInt8} {cnt : UInt8}
    {point : WritePoint} {events : List RingEvent}
    (h : Transmitter.Conserves ⟨ser, some ⟨buf, rest, cnt, point⟩⟩ events) (hpoint : point ≠ .copy)
    (next : WritePoint) (hhead : ser'.headp = ser.headp) (htail : ser'.tailp = ser.tailp)
    (hbuf : ser'.txbuf = ser.txbuf) :
    Transmitter.Conserves ⟨ser', some ⟨buf, rest, cnt, next⟩⟩ events := by
  refine h.quiet hhead htail hbuf rfl ?_ ?_
  · intro call hmem
    cases hmem
    obtain ⟨hsplit, hcount, hsmall⟩ := h.counts _ rfl
    exact ⟨hsplit, hcount, hsmall⟩
  · intro call hmem _
    cases hmem
    exact h.left ⟨buf, rest, cnt, point⟩ rfl hpoint

/-- The copy loop takes the next byte, or stops at the end or at a full ring. -/
theorem Transmitter.Conserves.loop {ser : Ser} {buf rest : List UInt8} {cnt : UInt8}
    {events : List RingEvent}
    (h : Transmitter.Conserves ⟨ser, some ⟨buf, rest, cnt, .copy⟩⟩ events) :
    (Transmitter.mainStep ⟨ser, some ⟨buf, rest, cnt, .copy⟩⟩).Conserves
      (events ++ Transmitter.events ⟨ser, some ⟨buf, rest, cnt, .copy⟩⟩ .main) := by
  cases rest with
  | nil =>
      have hcount : cnt.toNat + 0 = buf.length := (h.counts _ rfl).count
      exact h.stopped fun hless => by omega
  | cons byte rest =>
      by_cases hroom : bufNotfull ser = true
      · have hevents : Transmitter.events ⟨ser, some ⟨buf, byte :: rest, cnt, .copy⟩⟩ .main =
            [] := by
          simp [Transmitter.events, Transmitter.stopped, Transmitter.copying,
            Transmitter.returned, Transmitter.mainStep_room hroom]
        rw [Transmitter.mainStep_room hroom, hevents, List.append_nil]
        exact h.copy hroom
      · have hevents : Transmitter.events ⟨ser, some ⟨buf, byte :: rest, cnt, .copy⟩⟩ .main =
            [.stopped buf cnt ser.queued.length] := by
          simp [Transmitter.events, Transmitter.stopped, Transmitter.copying,
            Transmitter.returned, Transmitter.mainStep_full hroom]
        rw [Transmitter.mainStep_full hroom, hevents]
        exact h.stopped fun _ => held_of_full hroom

/-- Each step of a call keeps the relation. -/
theorem Transmitter.Conserves.main {t : Transmitter} {events : List RingEvent}
    (h : t.Conserves events) : t.mainStep.Conserves (events ++ t.events .main) := by
  obtain ⟨ser, call⟩ := t
  cases call with
  | none =>
      show Transmitter.Conserves _ (events ++ [])
      rw [List.append_nil]
      exact h
  | some call =>
      obtain ⟨buf, rest, cnt, point⟩ := call
      cases point with
      | copy => exact h.loop
      | rxDisable =>
          show Transmitter.Conserves _ (events ++ [])
          rw [List.append_nil]
          exact h.advance (by simp) .txEnable rfl rfl rfl
      | txEnable =>
          show Transmitter.Conserves _ (events ++ [])
          rw [List.append_nil]
          exact h.advance (by simp) .intEnable rfl rfl rfl
      | intEnable =>
          show Transmitter.Conserves _ (events ++ [])
          rw [List.append_nil]
          exact h.advance (by simp) .restore rfl rfl rfl
      | restore =>
          -- what the call has copied is now what it has returned
          refine ⟨⟨h.indexed.headp, h.indexed.tailp⟩, ?_, ?_, ?_, ?_⟩
          · intro call hmem
            cases hmem
          · show sentBytes (events ++ [.returned buf cnt]) ++ ser.queued =
              acceptedBytes (events ++ [.returned buf cnt]) ++ []
            rw [sentBytes, acceptedBytes, List.flatMap_append, List.flatMap_append, List.append_nil]
            show (sentBytes events ++ []) ++ ser.queued =
              acceptedBytes events ++ (buf.take cnt.toNat ++ [])
            rw [List.append_nil, List.append_nil]
            exact h.bytes
          · intro event hmem
            rcases List.mem_append.mp hmem with hmem | hmem
            · exact h.sound event hmem
            · rw [List.mem_singleton.mp hmem]
              have hcount : cnt.toNat + rest.length = buf.length := (h.counts _ rfl).count
              show cnt.toNat ≤ buf.length
              omega
          · intro call hmem
            cases hmem

/-- The `USART0_DRE` handler moves a byte from the queue to what has been sent. -/
theorem Transmitter.Conserves.dre {t : Transmitter} {events : List RingEvent}
    (h : t.Conserves events) : (t.step .dre).Conserves (events ++ t.events .dre) := by
  have hsent : ∀ bytes : List UInt8, sentBytes (bytes.map .sent) = bytes := by
    intro bytes
    induction bytes with
    | nil => rfl
    | cons byte rest ih =>
        show byte :: sentBytes (rest.map .sent) = byte :: rest
        rw [ih]
  have haccepted : ∀ bytes : List UInt8, acceptedBytes (bytes.map .sent) = [] := by
    intro bytes
    induction bytes with
    | nil => rfl
    | cons byte rest ih => exact ih
  refine ⟨h.indexed.usart0DreVect, h.counts, ?_, ?_,
    fun call hmem hpoint => (h.left call hmem hpoint).sent _⟩
  · show sentBytes (events ++ (dreSends t.ser).map .sent) ++ (usart0DreVect t.ser).queued =
      acceptedBytes (events ++ (dreSends t.ser).map .sent) ++ t.copied
    rw [sentBytes, acceptedBytes, List.flatMap_append, List.flatMap_append]
    show (sentBytes events ++ sentBytes ((dreSends t.ser).map .sent)) ++ _ =
      (acceptedBytes events ++ acceptedBytes ((dreSends t.ser).map .sent)) ++ t.copied
    rw [hsent, haccepted, List.append_nil, List.append_assoc, h.indexed.queued_usart0DreVect]
    exact h.bytes
  · intro event hmem
    rcases List.mem_append.mp hmem with hmem | hmem
    · exact h.sound event hmem
    · obtain ⟨byte, -, rfl⟩ := List.mem_map.mp hmem
      trivial

/-- Every action keeps the relation. -/
theorem Transmitter.Conserves.step {t : Transmitter} {events : List RingEvent}
    (h : t.Conserves events) (action : TxAction) :
    (t.step action).Conserves (events ++ t.events action) := by
  cases action with
  | call buf len =>
      rw [show t.events (.call buf len) = [] from rfl, List.append_nil]
      obtain ⟨ser, call⟩ := t
      cases call with
      | some call => exact h
      | none =>
          refine h.quiet rfl rfl rfl rfl ?_ ?_
          · intro call hmem
            cases hmem
            refine ⟨rfl, Nat.zero_add _, ?_⟩
            exact Nat.lt_of_le_of_lt (List.length_take_le ..) len.toNat_lt
          · intro call hmem hpoint
            cases hmem
            exact absurd rfl hpoint
  | main => exact h.main
  | dre => exact h.dre
  | txc =>
      rw [show t.events .txc = [] from rfl, List.append_nil]
      obtain ⟨hhead, htail, hbuf⟩ := usart0TxcVect_ring t.ser
      exact h.quiet hhead htail hbuf rfl h.counts h.left
  | shift =>
      rw [show t.events .shift = [] from rfl, List.append_nil]
      exact h.quiet rfl rfl rfl rfl h.counts h.left

/-! ## Calls return -/

/-- The steps a call has left, if the ring always has room. -/
def WriteCall.left (call : WriteCall) : Nat :=
  match call.point with
  | .copy => call.rest.length + 5
  | .rxDisable => 4
  | .txEnable => 3
  | .intEnable => 2
  | .restore => 1

/-- A call has no more steps left than bytes to copy, and five. -/
theorem WriteCall.left_le (call : WriteCall) : call.left ≤ call.rest.length + 5 := by
  unfold left
  split <;> omega

/-- Each step of a call is its last one, which returns, or leaves it fewer steps. -/
theorem Transmitter.main_left (ser : Ser) (call : WriteCall) :
    (∃ cnt, Transmitter.returned ⟨ser, some call⟩ .main = [(call.buf, cnt)]) ∨
      ∃ ser' next, Transmitter.mainStep ⟨ser, some call⟩ = ⟨ser', some next⟩ ∧
        next.buf = call.buf ∧ next.left < call.left := by
  obtain ⟨buf, rest, cnt, point⟩ := call
  cases point with
  | copy =>
      right
      cases rest with
      | nil => exact ⟨_, _, rfl, rfl, Nat.lt_succ_self 4⟩
      | cons byte rest =>
          by_cases hroom : bufNotfull ser = true
          · exact ⟨_, _, mainStep_room hroom, rfl, Nat.lt_succ_self _⟩
          · refine ⟨_, _, mainStep_full hroom, rfl, ?_⟩
            simp only [WriteCall.left]
            omega
  | rxDisable => exact .inr ⟨_, _, rfl, rfl, Nat.lt_succ_self 3⟩
  | txEnable => exact .inr ⟨_, _, rfl, rfl, Nat.lt_succ_self 2⟩
  | intEnable => exact .inr ⟨_, _, rfl, rfl, Nat.lt_succ_self 1⟩
  | restore => exact .inl ⟨cnt, rfl⟩

/-- The other actions leave a call in progress alone. -/
theorem Transmitter.step_call (ser : Ser) (call : WriteCall) {action : TxAction}
    (hmain : action ≠ .main) :
    ∃ ser', Transmitter.step ⟨ser, some call⟩ action = ⟨ser', some call⟩ := by
  cases action with
  | main => exact absurd rfl hmain
  | call | dre | txc | shift => exact ⟨_, rfl⟩

/-- A call in progress returns once it has taken the steps it has left, by induction on what happens
from now on. -/
theorem Transmitter.returns (ser : Ser) (call : WriteCall) {more : List TxAction}
    (hsteps : call.left ≤ more.count .main) : ∃ cnt, .returned call.buf cnt ∈
      trace Transmitter.step Transmitter.events ⟨ser, some call⟩ more := by
  induction more generalizing ser call with
  | nil =>
      have hpos : 0 < call.left := by
        unfold WriteCall.left
        split <;> omega
      rw [List.count_nil] at hsteps
      omega
  | cons action rest ih =>
      by_cases hmain : action = .main
      · subst hmain
        rw [List.count_cons_self] at hsteps
        rcases Transmitter.main_left ser call with
          ⟨cnt, hreturned⟩ | ⟨ser', next, hstep, hbuf, hleft⟩
        · have hevent : RingEvent.returned call.buf cnt ∈
              Transmitter.events ⟨ser, some call⟩ .main := by
            simp [Transmitter.events, hreturned]
          exact ⟨cnt, List.mem_append_left _ hevent⟩
        · obtain ⟨cnt, hmem⟩ := ih ser' next (by omega)
          rw [hbuf] at hmem
          refine ⟨cnt, List.mem_append_right _ ?_⟩
          rw [Transmitter.step_main, hstep]
          exact hmem
      · rw [List.count_cons_of_ne hmain] at hsteps
        obtain ⟨ser', hstep⟩ := Transmitter.step_call ser call hmain
        obtain ⟨cnt, hmem⟩ := ih ser' call hsteps
        refine ⟨cnt, List.mem_append_right _ ?_⟩
        rw [hstep]
        exact hmem

/-- The transmit ring is a queue of at most 31 bytes: in every run, what has been sent and what is
still queued are the prefixes the calls have queued, in order. A call that is about to return the
length of its prefix has left its loop with that length, and since then bytes were only sent; it has
left the loop short of the end only while the ring held 31 bytes. A call returns, whatever the
interrupts do, after no more steps than it has bytes left to copy, and five; one that nothing
interrupts is `serWrite`. -/
theorem transmit_ring_fifo (actions : List TxAction) :
    let last := run Transmitter.step .start actions
    let events := trace Transmitter.step Transmitter.events .start actions
    sentBytes events ++ last.ser.queued = acceptedBytes events ++ last.copied ∧
      (∀ buf cnt, .returned buf cnt ∈ events → cnt.toNat ≤ buf.length) ∧
      (∀ buf cnt held, .stopped buf cnt held ∈ events → cnt.toNat < buf.length → held = 31) ∧
      (∀ buf cnt, (buf, cnt) ∈ last.returned .main →
        ∃ earlier held, ∃ bytes : List UInt8,
          events = earlier ++ .stopped buf cnt held :: bytes.map .sent ∧
            cnt.toNat ≤ buf.length ∧ (cnt.toNat < buf.length → held = 31)) ∧
      (∀ call ∈ last.call, ∀ more : List TxAction, call.rest.length + 5 ≤ more.count .main →
        ∃ cnt, .returned call.buf cnt ∈ trace Transmitter.step Transmitter.events last more) ∧
      (last.call = none → ∀ buf len, ∃ steps before,
        run Transmitter.step last (.call buf len :: List.replicate steps .main) = before ∧
          before.returned .main = [(buf.take len.toNat, (serWrite last.ser buf len).1)] ∧
          before.step .main = { ser := (serWrite last.ser buf len).2, call := none }) ∧
      last.ser.headp.toNat < 32 ∧ last.ser.tailp.toNat < 32 ∧ last.ser.queued.length ≤ 31 := by
  intro last events
  have hinit : Transmitter.start.Conserves [] := by
    refine ⟨⟨by decide, by decide⟩, ?_, rfl, ?_, ?_⟩
    · intro call hmem
      cases hmem
    · intro event hmem
      cases hmem
    · intro call hmem
      cases hmem
  have hlast : last.Conserves ([] ++ events) :=
    run_history (R := Transmitter.Conserves) (fun t action events h => h.step action) actions hinit
  rw [List.nil_append] at hlast
  refine ⟨hlast.bytes, ?_, ?_, ?_, ?_, ?_, hlast.indexed.headp, hlast.indexed.tailp, ?_⟩
  · intro buf cnt hmem
    exact hlast.sound _ hmem
  · intro buf cnt held hmem
    exact hlast.sound _ hmem
  · intro buf cnt hmem
    obtain ⟨call, hcall, hpoint, rfl, rfl⟩ := Transmitter.mem_returned hmem
    obtain ⟨earlier, held, bytes, hevents⟩ := hlast.left call hcall (by simp [hpoint])
    have hcount := (hlast.counts call hcall).count
    refine ⟨earlier, held, bytes, hevents, by omega, ?_⟩
    exact hlast.sound (.stopped call.buf call.cnt held) (by simp [hevents])
  · intro call hcall more hsteps
    have hleft := Nat.le_trans call.left_le hsteps
    generalize last = t at hcall
    obtain ⟨ser, current⟩ := t
    cases hcall
    exact Transmitter.returns ser call hleft
  · intro hnone buf len
    obtain ⟨steps, before, hrun, hreturned, hstep⟩ := run_serWrite last.ser buf len
    refine ⟨steps, before, ?_, hreturned, hstep⟩
    rw [← hrun, ← hnone]
  · have hlt := bufCnt_lt last.ser
    rw [Ser.length_queued]
    omega

/-- Twenty of forty bytes are copied, one of them is sent, and then the call goes on until it is
about to return. -/
def fortyBytes : List TxAction :=
  .call ((List.range 40).map UInt8.ofNat) 40 :: List.replicate 20 .main ++
    .dre :: List.replicate 16 .main

/-- The ring has taken 32 of them, and the call left its loop when the ring held 31. -/
theorem transmit_ring_fifo_forty :
    let buf := (List.range 40).map UInt8.ofNat
    let last := run Transmitter.step .start fortyBytes
    let events := trace Transmitter.step Transmitter.events .start fortyBytes
    (buf, 32) ∈ last.returned .main ∧ sentBytes events ++ last.ser.queued = buf.take 32 ∧
      ∃ earlier held, ∃ bytes : List UInt8,
        events = earlier ++ .stopped buf 32 held :: bytes.map .sent ∧ held = 31 := by
  intro buf last events
  have hreturned : (buf, (32 : UInt8)) ∈ last.returned .main := by decide +kernel
  obtain ⟨hbytes, -, -, hreturns, -⟩ := transmit_ring_fifo fortyBytes
  obtain ⟨earlier, held, bytes, hevents, -, hfull⟩ := hreturns buf 32 hreturned
  have hcopied : acceptedBytes events ++ last.copied = buf.take 32 := by decide +kernel
  exact ⟨hreturned, hbytes.trans hcopied, earlier, held, bytes, hevents, hfull (by decide +kernel)⟩

end BmsNode
