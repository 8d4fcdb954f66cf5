import BmsNode.Machine.Moves
import BmsNode.Machine.ReplyRoom
import BmsNode.Machine.Server
import BmsNode.Packet.Stream
import BmsNode.Serial.AllOrNothing

/-!
# What the bus hears of a node

The replies of a node go through the transmit buffer, the ring, the data register and the
shift register, while the main loop and the interrupts run on. What has left the shift
register is at any moment the bytes of the replies in the order they were given, and
another parser on the bus has obtained all of them but the one under way.
-/

namespace BmsNode

open Transition

/-- The bytes on their way out: in the shift register, in the data register and in the ring. -/
def Ser.inFlight (s : Ser) : List UInt8 :=
  s.usart.shifter.toList ++ s.usart.txdatal.toList ++ s.queued

/-- The byte that an action completes on the wire. -/
def shiftedOut (m : Machine) : Action → List UInt8
  | .shift => m.node.ser.usart.shifter.toList
  | _ => []

/-- The frames that an action hands to `pkt_send`. -/
def repliesGiven (p : Platform) (m : Machine) (action : Action) : List Frame :=
  (exchanges p m action).flatMap Exchange.replies

/-! ## The way out of the ring -/

/-- A transmitter at rest has nothing on its way. -/
theorem Ser.Resting.inFlight {s : Ser} (h : s.Resting) (hindexed : s.Indexed) :
    s.inFlight = [] := by
  have hidle := h.idle
  rw [Usart.sending, Bool.or_eq_false_iff, Option.isSome_eq_false_iff, Option.isSome_eq_false_iff,
    Option.isNone_iff_eq_none, Option.isNone_iff_eq_none] at hidle
  have hqueued : s.queued = [] :=
    List.eq_nil_of_length_eq_zero (s.length_queued.trans (h.count hindexed))
  rw [Ser.inFlight, hidle.1, hidle.2, hqueued]
  rfl

/-- The `USART0_DRE` handler, when its interrupt is pending, hands a byte on. -/
theorem Ser.Indexed.inFlight_dre {s : Ser} (h : s.Indexed) (hfree : s.usart.txdatal.isNone = true) :
    (BmsNode.usart0DreVect s).inFlight = s.inFlight := by
  have hqueued := h.queued_usart0DreVect
  have hshifter : (BmsNode.usart0DreVect s).usart.shifter = s.usart.shifter := by
    rw [BmsNode.usart0DreVect, if_pos hfree]
    split
    · rfl
    · rfl
  rw [dreSends, if_pos hfree] at hqueued
  rw [Option.isNone_iff_eq_none] at hfree
  rw [Ser.inFlight, Ser.inFlight, hshifter, hfree, List.append_assoc, hqueued, Option.toList_none,
    List.append_nil]

/-- The `USART0_TXC` handler moves no byte. -/
theorem inFlight_txc (s : Ser) : (usart0TxcVect s).inFlight = s.inFlight := by
  rw [usart0TxcVect]
  split
  · rfl
  · rfl

/-- The transmitter completes the byte in the shift register. -/
theorem inFlight_shift (s : Ser) :
    s.usart.shifter.toList ++ Ser.inFlight { s with usart := usartShift s.usart } = s.inFlight := by
  have hqueued : Ser.queued { s with usart := usartShift s.usart } = s.queued := rfl
  rw [Ser.inFlight, Ser.inFlight, hqueued, ← List.append_assoc, ← List.append_assoc]
  congr 1
  rcases Option.eq_none_or_eq_some s.usart.txdatal with hdata | ⟨byte, hdata⟩
  · rcases Option.eq_none_or_eq_some s.usart.shifter with hshift | ⟨last, hshift⟩
    · simp [usartShift, hdata, hshift]
    · simp [usartShift, hdata, hshift]
  · simp [usartShift, hdata]

/-- `pkt_send` of a frame there is room for adds its bytes. -/
theorem Ser.Indexed.inFlight_pktSend {s : Ser} (h : s.Indexed) {f : Frame} (hf : f.Fits)
    (hroom : (bufCnt s).toNat + f.sent.length ≤ 31) (t : TxPkt) :
    (pktSend t s f.flags f.addr f.cmd f.payload f.len).2.2.inFlight = s.inFlight ++ f.sent := by
  have hquiet : Ser.Indexed { s with usart := { s.usart with rxcie := false } } :=
    ⟨h.headp, h.tailp⟩
  have husart (bytes : List UInt8) := (serCopy_frame bytes hquiet).1
  have hqueued := h.queued_pktSend hf t
  rw [List.take_of_length_le (by rw [Frame.sent] at hroom; omega)] at hqueued
  rw [Ser.inFlight, hqueued, pktSend_eq t s f.flags f.addr f.cmd f.payload hf.max]
  simp only [serWrite, husart, txintEnable]
  rw [← List.append_assoc]
  rfl

/-- No frame is longer than the ring. -/
theorem Frame.Fits.length_sent {f : Frame} (hf : f.Fits) : f.sent.length ≤ 22 := by
  rw [Frame.sent, hf.sent_length]
  have hmax := hf.max
  omega

/-! ## Every action -/

/-- What holds of a node on a bus. -/
structure Talking (m : Machine) : Prop where
  owned : ∃ owner, Owned m owner
  room : ReplyRoom m
  looping : Looping m

/-- The firmware starts so. -/
theorem boot_talking (p : Platform) (eeprom : Config) : Talking (boot p eeprom) :=
  ⟨⟨.none, boot_owned p eeprom⟩, boot_replyRoom p eeprom, boot_looping p eeprom⟩

/-- The firmware starts with nothing on its way. -/
theorem boot_inFlight (p : Platform) (eeprom : Config) :
    (boot p eeprom).node.ser.inFlight = [] := by
  have hser : (boot p eeprom).node.ser = serFlush Ser.init := rfl
  rw [hser]
  rfl

/-- Every action on the bus keeps it so. -/
theorem Talking.step {p : Platform} {m : Machine} (h : Talking m) {action : Action}
    (hbus : OnBus m action) : Talking (BmsNode.step p m action) := by
  obtain ⟨owner, howned⟩ := h.owned
  obtain ⟨next, -, hnext⟩ := step_owned howned action
  exact ⟨⟨next, hnext⟩, h.room.step howned hbus, h.looping.step action⟩

/-- At a dispatch nothing is on its way, and what the handler sends is after it. -/
theorem Talking.dispatch {p : Platform} {n : Node} (h : Talking ⟨n, .dispatch⟩) :
    n.ser.inFlight = [] ∧ ∃ reply : Option Frame,
      sentFrames n (cmdDispatch p n.pkt.rxbuf n).2 = reply.toList ∧
      (∀ f ∈ reply.toList, f.Fits) ∧
      (cmdDispatch p n.pkt.rxbuf n).2.ser.inFlight = reply.toList.flatMap Frame.sent ∧
      ((cmdDispatch p n.pkt.rxbuf n).2.swrr = true → reply = none) := by
  have hresting := h.room.resting rfl
  have hindexed := h.room.wired.indexed
  have hempty := hresting.inFlight hindexed
  have hsends := (cmdDispatch_serves p n.pkt.rxbuf n).sends
  have hsent := hsends.sentFrames
  have hrestart := hsends.restart h.looping.swrr
  refine ⟨hempty, _, hsent, hsends.fits, ?_, hrestart⟩
  generalize (Registers.serve _ _ _ _).2 = reply at hsends
  generalize cmdDispatch p n.pkt.rxbuf n = result at hsends
  cases hsends with
  | nothing hsilent hser =>
      rw [hser, hempty]
      rfl
  | @frame before f hunsent hfits =>
      have hbefore : before.ser.Indexed := by
        rw [hunsent.ser]
        exact hindexed
      have hcount : (bufCnt before.ser).toNat + f.sent.length ≤ 31 := by
        have hshort := hfits.length_sent
        rw [hunsent.ser, hresting.count hindexed]
        omega
      show (pktSend before.txpkt before.ser f.flags f.addr f.cmd f.payload f.len).2.2.inFlight = _
      rw [hbefore.inFlight_pktSend hfits hcount, hunsent.ser, hempty]
      simp

/-- The replies of an action are those of the dispatch. -/
theorem repliesGiven_dispatch (p : Platform) (n : Node) (samples : Vector UInt16 4) :
    repliesGiven p ⟨n, .dispatch⟩ (.main samples) =
      sentFrames n (cmdDispatch p n.pkt.rxbuf n).2 := by
  show sentFrames n (cmdDispatch p n.pkt.rxbuf n).2 ++ [] = _
  rw [List.append_nil]

/-- A program point other than the dispatch gives no reply. -/
theorem repliesGiven_of_ne {p : Platform} {m : Machine} (samples : Vector UInt16 4)
    (hpc : m.pc ≠ .dispatch) : repliesGiven p m (.main samples) = [] := by
  rw [repliesGiven, exchanges_of_ne samples hpc]
  rfl

/-- An action gives no reply, or it gives one with nothing else on its way. -/
theorem Talking.replies_cases {p : Platform} {m : Machine} (h : Talking m) (action : Action) :
    repliesGiven p m action = [] ∨
      ∃ f, f.Fits ∧ repliesGiven p m action = [f] ∧ m.node.ser.inFlight = [] := by
  cases action with
  | tick | rx | dre | txc | shift => exact .inl rfl
  | main samples =>
      obtain ⟨n, pc⟩ := m
      by_cases hpc : pc = .dispatch
      · subst hpc
        obtain ⟨hempty, reply, hsent, hfits, -⟩ := h.dispatch (p := p)
        rw [repliesGiven_dispatch, hsent]
        cases reply with
        | none => exact .inl rfl
        | some f => exact .inr ⟨f, hfits f (by simp), rfl, hempty⟩
      · exact .inl (repliesGiven_of_ne samples hpc)

/-- A program point of the main loop puts the bytes of its reply behind those on their way. -/
theorem Talking.inFlight_main {p : Platform} {m : Machine} (h : Talking m)
    (samples : Vector UInt16 4) :
    (mainStep p samples m).node.ser.inFlight =
      m.node.ser.inFlight ++ (repliesGiven p m (.main samples)).flatMap Frame.sent := by
  have hstep := mainStep_loopStep p samples m
  generalize mainStep p samples m = m' at hstep ⊢
  cases hstep with
  | restart n hswrr =>
      -- the handler that asked for the restart has sent nothing
      obtain ⟨hempty, reply, hsent, -, -, hnone⟩ := h.dispatch (p := p)
      rw [repliesGiven_dispatch, hsent, hnone hswrr, hempty, boot_inFlight]
      rfl
  | returned n hswrr | handled n hswrr =>
      obtain ⟨hempty, reply, hsent, -, hinFlight, -⟩ := h.dispatch (p := p)
      rw [repliesGiven_dispatch, hsent, hempty]
      exact hinFlight
  | kissmRun n event held =>
      rw [repliesGiven_of_ne samples (by simp), (appRun_frame p event n).ser]
      exact (List.append_nil _).symm
  | ledRun | adcRun | expired | unexpired | ready | notReady | rxFree | overdue | waiting | active
  | inactive | giveUp | arm | freed | loop => exact (List.append_nil _).symm

/-- Every action takes the byte it completes from the front of those on their way, and puts the
bytes of its reply behind them. -/
theorem Talking.conserves {p : Platform} {m : Machine} (h : Talking m) (action : Action) :
    shiftedOut m action ++ (BmsNode.step p m action).node.ser.inFlight =
      m.node.ser.inFlight ++ (repliesGiven p m action).flatMap Frame.sent := by
  cases action with
  | tick | rx => exact (List.append_nil _).symm
  | dre =>
      show (BmsNode.step p m .dre).node.ser.inFlight = m.node.ser.inFlight ++ []
      rw [List.append_nil]
      simp only [BmsNode.step]
      split_ifs with hpending
      · rw [Bool.and_eq_true] at hpending
        exact h.room.wired.indexed.inFlight_dre hpending.2
      · rfl
  | txc =>
      show (BmsNode.step p m .txc).node.ser.inFlight = m.node.ser.inFlight ++ []
      rw [List.append_nil]
      simp only [BmsNode.step]
      split_ifs
      · exact inFlight_txc m.node.ser
      · rfl
  | shift => exact (inFlight_shift m.node.ser).trans (List.append_nil _).symm
  | main samples => exact h.inFlight_main samples

/-! ## Runs -/

/-- The replies given so far are frames, and what is on its way is of the last one at most. -/
structure InOrder (m : Machine) (replies : List Frame) : Prop where
  talking : Talking m
  fits : ∀ f ∈ replies, f.Fits
  last : m.node.ser.inFlight.length ≤ (replies.getLast?.map fun f => f.sent.length).getD 0

/-- Every action on the bus keeps the order. -/
theorem InOrder.step {p : Platform} {m : Machine} {replies : List Frame} (h : InOrder m replies)
    {action : Action} (hbus : OnBus m action) :
    InOrder (BmsNode.step p m action) (replies ++ repliesGiven p m action) := by
  have hbytes := congrArg List.length (h.talking.conserves (p := p) action)
  rw [List.length_append, List.length_append] at hbytes
  refine ⟨h.talking.step hbus, ?_, ?_⟩
  · intro f hf
    rcases h.talking.replies_cases (p := p) action with hnone | ⟨g, hfits, hone, -⟩
    · rw [hnone, List.append_nil] at hf
      exact h.fits f hf
    · rw [hone] at hf
      rcases List.mem_append.mp hf with hold | hnew
      · exact h.fits f hold
      · obtain rfl := List.mem_singleton.mp hnew
        exact hfits
  · rcases h.talking.replies_cases (p := p) action with hnone | ⟨g, -, hone, hempty⟩
    · have hlast := h.last
      rw [hnone, List.append_nil]
      rw [hnone, List.flatMap_nil, List.length_nil] at hbytes
      omega
    · rw [hone, List.flatMap_singleton, hempty, List.length_nil] at hbytes
      rw [hone, List.getLast?_concat, Option.map_some, Option.getD_some]
      omega

/-- The firmware starts with no reply given. -/
theorem boot_inOrder (p : Platform) (eeprom : Config) : InOrder (boot p eeprom) [] :=
  ⟨boot_talking p eeprom, by simp, by rw [boot_inFlight]; exact Nat.le_refl 0⟩

/-- In every run on the bus the bytes that have left the shift register and those still on their way
are together the bytes of the replies given. -/
theorem run_stream (p : Platform) (eeprom : Config) {actions : List Action}
    (hbus : Meets (step p) OnBus (boot p eeprom) actions) :
    trace (step p) shiftedOut (boot p eeprom) actions ++
        (run (step p) (boot p eeprom) actions).node.ser.inFlight =
      (trace (step p) (repliesGiven p) (boot p eeprom) actions).flatMap Frame.sent := by
  have hconserves := run_conserves (P := Talking)
    (fun m action => (repliesGiven p m action).flatMap Frame.sent) shiftedOut
    (fun m => m.node.ser.inFlight) (fun m action h hok => h.step hok)
    (fun m action h _ => h.conserves action) (boot_talking p eeprom) hbus
  rw [trace_flatMap, boot_inFlight, List.nil_append] at hconserves
  exact hconserves

/-- Replies on the wire: in every run on the bus, the bytes that have left the shift register and
those still on their way are together the bytes of the replies given, in order, each frame behind
four preambles; and any parser that has listened from between two frames on has obtained all these
replies, but for the last one as long as bytes of it are on their way. -/
theorem replies_on_wire (p : Platform) (eeprom : Config) (actions : List Action)
    (hbus : Meets (step p) OnBus (boot p eeprom) actions) :
    let inFlight := (run (step p) (boot p eeprom) actions).node.ser.inFlight
    let replies := trace (step p) (repliesGiven p) (boot p eeprom) actions
    let wire := trace (step p) shiftedOut (boot p eeprom) actions
    wire ++ inFlight = replies.flatMap Frame.sent ∧
      ∀ q, Between q → ∃ late : Option Frame,
        replies = deliveries q wire ++ late.toList ∧ (late = none ↔ inFlight = []) := by
  intro inFlight replies wire
  have hstream : wire ++ inFlight = replies.flatMap Frame.sent := run_stream p eeprom hbus
  have horder : InOrder (run (step p) (boot p eeprom) actions) ([] ++ replies) :=
    run_history_meets (fun m action _ h hok => h.step hok) (boot_inOrder p eeprom) hbus
  rw [List.nil_append] at horder
  refine ⟨hstream, fun q hq => ?_⟩
  obtain ⟨late, hreplies, hempty, cut, hmissing, hcut⟩ :=
    hq.deliveries_stream horder.fits hstream
  match late with
  | [] => exact ⟨none, hreplies, by simpa using hempty⟩
  | [f] => exact ⟨some f, hreplies, by simpa using hempty⟩
  | f :: g :: rest =>
      -- then all of the last reply would be on its way, and a byte before it
      exfalso
      have hlast := horder.last
      have hcut := List.length_pos_iff.mpr (hcut (by simp))
      obtain ⟨init, last, hsplit⟩ := (List.eq_nil_or_concat' (g :: rest)).resolve_left (by simp)
      have hmissing := congrArg List.length hmissing
      rw [List.tail_cons, hsplit, List.flatMap_append, List.flatMap_singleton, List.length_append,
        List.length_append] at hmissing
      rw [hreplies, hsplit, ← List.singleton_append, ← List.append_assoc, ← List.append_assoc,
        List.getLast?_concat, Option.map_some, Option.getD_some] at hlast
      change inFlight.length ≤ last.sent.length at hlast
      omega

/-- Of two PINGs the first is answered and the second is not yet. -/
theorem replies_on_wire_second :
    let inFlight := (run (step benchBoard) (boot benchBoard (freshNode benchBoard 1).cfg.eeprom)
      pingTwice).node.ser.inFlight
    let replies := trace (step benchBoard) (repliesGiven benchBoard)
      (boot benchBoard (freshNode benchBoard 1).cfg.eeprom) pingTwice
    let wire := trace (step benchBoard) shiftedOut
      (boot benchBoard (freshNode benchBoard 1).cfg.eeprom) pingTwice
    wire ++ inFlight = replies.flatMap Frame.sent ∧
      ∀ q, Between q → ∃ late : Option Frame,
        replies = deliveries q wire ++ late.toList ∧ (late = none ↔ inFlight = []) :=
  replies_on_wire benchBoard _ pingTwice (by decide +kernel)

/-! ## The node on the bus -/

/-- A node is a server of registers: in every run from any EEPROM image on, whatever is received and
whenever interrupts come, the packets dispatched and the frames handed to `pkt_send` for them are
exchanges of the server that starts with the registers of that image, one after the other, and the
node's registers are the server's. If the run is on the bus, these frames go out whole: their bytes
are the ones that have left the shift register and those still on their way. -/
theorem node_serves (p : Platform) (eeprom : Config) (actions : List Action) :
    let served := trace (step p) (exchanges p) (boot p eeprom) actions
    let n := (run (step p) (boot p eeprom) actions).node
    follow (Registers.take p.identity) eeprom.storedRegisters served = some n.registers ∧
      (Meets (step p) OnBus (boot p eeprom) actions →
        trace (step p) shiftedOut (boot p eeprom) actions ++ n.ser.inFlight =
          (served.flatMap Exchange.replies).flatMap Frame.sent) := by
  intro served n
  obtain ⟨r, hfollow, hholding⟩ := run_holding p eeprom actions
  refine ⟨?_, fun hbus => ?_⟩
  · rw [hfollow, ← hholding.registers]
  · rw [← trace_flatMap]
    exact run_stream p eeprom hbus

/-- The reply to a PING has gone out whole, and it is what the server answers. -/
theorem node_serves_ping :
    let eeprom := (freshNode benchBoard 1).cfg.eeprom
    let actions := pingTwice.take 36
    let served := trace (step benchBoard) (exchanges benchBoard) (boot benchBoard eeprom) actions
    served.flatMap Exchange.replies = [⟨pktFlagReply, 1, Cmd.ping, 0, []⟩] ∧
      trace (step benchBoard) shiftedOut (boot benchBoard eeprom) actions =
        Frame.sent ⟨pktFlagReply, 1, Cmd.ping, 0, []⟩ := by
  intro eeprom actions served
  have hreplies : served.flatMap Exchange.replies = [⟨pktFlagReply, 1, Cmd.ping, 0, []⟩] := by
    decide +kernel
  have hempty :
      (run (step benchBoard) (boot benchBoard eeprom) actions).node.ser.inFlight = [] := by
    decide +kernel
  have hout := (node_serves benchBoard eeprom actions).2 (by decide +kernel)
  rw [hempty, List.append_nil] at hout
  refine ⟨hreplies, hout.trans ?_⟩
  show (served.flatMap Exchange.replies).flatMap Frame.sent = _
  rw [hreplies]
  rfl

end BmsNode
