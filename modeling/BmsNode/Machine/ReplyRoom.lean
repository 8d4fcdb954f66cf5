import BmsNode.Command.Server
import BmsNode.Machine.Ownership
import BmsNode.Serial.AllOrNothing
import BmsNode.Serial.Duplex

/-!
# Room for replies

A reply turns the bus around, and the receiver stays off until the reply is out. So no
packet can be accepted meanwhile, the next handler runs with an empty ring, and the one
frame it may send fits. The invariant has two phases: the transmitter is at rest, or a
reply is under way and no packet is waiting or being handled.
-/

namespace BmsNode

open Transition

/-! ## What a handler sends -/

/-- The dispatch of a packet sends nothing and leaves the serial module alone, or it ends by sending
one frame and returns what `pkt_send` returns. -/
theorem cmdDispatch_sendsOnce (p : Platform) (pkt : RxBuf) (n : Node) :
    (Silent n (cmdDispatch p pkt n).2 ∧ (cmdDispatch p pkt n).2.ser = n.ser) ∨
      ∃ before flags addr cmd payload len, Silent n before ∧ before.ser = n.ser ∧ len.toNat ≤ 12 ∧
        cmdDispatch p pkt n = before.send flags addr cmd payload len := by
  have hsends := (cmdDispatch_serves p pkt n).sends
  generalize (Registers.serve _ _ _ _).2 = reply at hsends
  generalize cmdDispatch p pkt n = result at hsends
  cases hsends with
  | nothing hsilent hser => exact .inl ⟨hsilent, hser⟩
  | @frame before f hunsent hfits =>
      exact .inr ⟨before, _, _, _, _, _, hunsent.silent, hunsent.ser, hfits.max, rfl⟩

/-! ## The two phases -/

/-- The transmitter is at rest: nothing to send, its interrupts off and the receiver on. -/
structure Ser.Resting (s : Ser) : Prop where
  empty : bufNotempty s = false
  idle : s.usart.sending = false
  dreie : s.usart.dreie = false
  txcie : s.usart.txcie = false
  rxen : s.usart.rxen = true

/-- The ring of a transmitter at rest holds nothing. -/
theorem Ser.Resting.count {s : Ser} (h : s.Resting) (hindexed : s.Indexed) :
    (bufCnt s).toNat = 0 := by
  by_contra hne
  have hbytes := hindexed.bufNotempty_iff.mpr hne
  rw [h.empty] at hbytes
  cases hbytes

/-- A reply is under way: the receiver is off, and no packet is waiting or being handled. -/
structure Replying (m : Machine) : Prop where
  rxen : m.node.ser.usart.rxen = false
  notReady : m.node.pkt.readyPacket = false
  pc : m.pc ≠ .dispatch

/-- The invariant of the reply path. -/
structure ReplyRoom (m : Machine) : Prop where
  wired : m.node.ser.Wired
  phase : m.node.ser.Resting ∨ Replying m

/-- The copy loop touches no register and keeps the indices in the ring. -/
theorem serCopy_frame (bytes : List UInt8) {s : Ser} (h : s.Indexed) :
    (serCopy s bytes).2.usart = s.usart ∧ (serCopy s bytes).2.Indexed := by
  induction bytes generalizing s with
  | nil => exact ⟨rfl, h⟩
  | cons byte rest ih =>
      rw [serCopy]
      split
      · exact ih (h.serPut byte)
      · exact ⟨rfl, h⟩

/-- `ser_write` keeps the wiring. -/
theorem Ser.Wired.serWrite {s : Ser} (h : s.Wired) (buf : List UInt8) (len : UInt8) :
    (serWrite s buf len).2.Wired := by
  let quiet := { s with usart := { s.usart with rxcie := false } }
  have hquiet : quiet.Indexed := ⟨h.indexed.headp, h.indexed.tailp⟩
  obtain ⟨husart, hindexed⟩ := serCopy_frame (buf.take len.toNat) hquiet
  refine ⟨⟨hindexed.headp, hindexed.tailp⟩, ?_⟩
  show (serCopy quiet (buf.take len.toNat)).2.usart.sending = true →
    (serCopy quiet (buf.take len.toNat)).2.usart.txcif = false
  rw [husart]
  exact h.flag

/-- `pkt_send` keeps the wiring, and turns the receiver off when it sends. -/
theorem Ser.Wired.pktSend {s : Ser} (h : s.Wired) (t : TxPkt) (flags addr cmd : UInt8)
    (payload : List UInt8) {len : UInt8} (hlen : len.toNat ≤ 12) :
    (pktSend t s flags addr cmd payload len).2.2.Wired ∧
      (pktSend t s flags addr cmd payload len).2.2.usart.rxen = false := by
  rw [pktSend_eq t s flags addr cmd payload hlen]
  exact ⟨h.serWrite _ _, rfl⟩

/-! ## Every action keeps the invariant -/

/-- What is assumed of the hardware: no byte reaches the parser while the receiver is off, and the
DRE interrupt is served before the TXC interrupt. -/
def OnBus (m : Machine) : Action → Prop
  | .rx _ => m.node.ser.usart.rxen = true
  | .txc => drePending m.node.ser = false
  | _ => True

/-- The assumption can be checked. -/
instance (m : Machine) : ∀ action, Decidable (OnBus m action)
  | .rx _ => inferInstanceAs (Decidable (_ = _))
  | .txc => inferInstanceAs (Decidable (_ = _))
  | .tick | .dre | .shift | .main _ => isTrue trivial

/-- A step that leaves the serial module alone keeps the invariant, unless it comes to the dispatch
of a packet. -/
theorem ReplyRoom.keep {m m' : Machine} (h : ReplyRoom m) (hser : m'.node.ser = m.node.ser)
    (hready : m.node.pkt.readyPacket = false → m.pc ≠ .dispatch →
      m'.node.pkt.readyPacket = false ∧ m'.pc ≠ .dispatch) : ReplyRoom m' := by
  refine ⟨?_, ?_⟩
  · rw [hser]
    exact h.wired
  · rcases h.phase with hrest | hreply
    · left
      rw [hser]
      exact hrest
    · obtain ⟨hnot, hpc⟩ := hready hreply.notReady hreply.pc
      refine .inr ⟨?_, hnot, hpc⟩
      rw [hser]
      exact hreply.rxen

/-- The `USART0_DRE` handler, when its interrupt is pending. -/
theorem ReplyRoom.dre {m : Machine} (h : ReplyRoom m) (hpending : drePending m.node.ser = true) :
    ReplyRoom { m with node := { m.node with ser := usart0DreVect m.node.ser } } := by
  have hline := h.wired.dre hpending
  refine ⟨hline.wired h.wired, ?_⟩
  rcases h.phase with hrest | hreply
  · rw [drePending, hrest.dreie] at hpending
    cases hpending
  · refine .inr ⟨?_, hreply.notReady, hreply.pc⟩
    have hkeep : ∀ s, (usart0DreVect s).usart.rxen = s.usart.rxen := by
      intro s
      rw [usart0DreVect]
      split
      · split
        · rfl
        · rfl
      · rfl
    exact (hkeep _).trans hreply.rxen

/-- The `USART0_TXC` handler, when its interrupt is taken: it ends a reply once the ring is empty,
and by then the DRE interrupt is off. -/
theorem ReplyRoom.txc {m : Machine} (h : ReplyRoom m) (hpending : txcPending m.node.ser = true) :
    ReplyRoom { m with node := { m.node with ser := usart0TxcVect m.node.ser } } := by
  have hline := h.wired.txc hpending
  rw [txcPending, Bool.and_eq_true, Bool.and_eq_true, Bool.not_eq_true'] at hpending
  obtain ⟨⟨htxcie, hflag⟩, hdre⟩ := hpending
  refine ⟨hline.wired h.wired, ?_⟩
  rcases h.phase with hrest | hreply
  · rw [hrest.txcie] at htxcie
    cases htxcie
  · have hidle : m.node.ser.usart.sending = false := by
      cases hsending : m.node.ser.usart.sending with
      | true => exact absurd (h.wired.flag hsending) (by simp [hflag])
      | false => rfl
    cases hbytes : bufNotempty m.node.ser with
    | true =>
        refine .inr ⟨?_, hreply.notReady, hreply.pc⟩
        show (usart0TxcVect m.node.ser).usart.rxen = false
        rw [usart0TxcVect, hbytes]
        exact hreply.rxen
    | false =>
        left
        have hdone : usart0TxcVect m.node.ser =
            { m.node.ser with
              usart := { m.node.ser.usart with txcie := false, txen := false, rxen := true } } := by
          rw [usart0TxcVect, hbytes]
          rfl
        have hfree : m.node.ser.usart.txdatal.isNone = true := by
          rw [Usart.sending, Bool.or_eq_false_iff] at hidle
          simpa using hidle.1
        show (usart0TxcVect m.node.ser).Resting
        rw [hdone]
        refine ⟨hbytes, hidle, ?_, rfl, rfl⟩
        simpa [drePending, hfree] using hdre

/-- The transmitter. -/
theorem ReplyRoom.shift {m : Machine} (h : ReplyRoom m) :
    ReplyRoom { m with node :=
      { m.node with ser := { m.node.ser with usart := usartShift m.node.ser.usart } } } := by
  refine ⟨(shift_line m.node.ser).wired h.wired, ?_⟩
  rcases h.phase with hrest | hreply
  · have hstay : usartShift m.node.ser.usart = m.node.ser.usart := by
      have hidle := hrest.idle
      rw [Usart.sending, Bool.or_eq_false_iff, Option.isSome_eq_false_iff,
        Option.isSome_eq_false_iff, Option.isNone_iff_eq_none, Option.isNone_iff_eq_none] at hidle
      rw [usartShift, hidle.1, hidle.2]
    left
    show Ser.Resting { m.node.ser with usart := usartShift m.node.ser.usart }
    rw [hstay]
    exact hrest
  · refine .inr ⟨?_, hreply.notReady, hreply.pc⟩
    have hkeep : ∀ u, (usartShift u).rxen = u.rxen := by
      intro u
      rw [usartShift]
      split
      · rfl
      · rfl
      · rfl
    exact (hkeep _).trans hreply.rxen

/-- The firmware starts with the transmitter at rest. -/
theorem boot_replyRoom (p : Platform) (eeprom : Config) : ReplyRoom (boot p eeprom) := by
  have hser : (boot p eeprom).node.ser = serFlush Ser.init := rfl
  refine ⟨?_, .inl ?_⟩
  · rw [hser]
    exact ⟨⟨by decide, by decide⟩, fun _ => rfl⟩
  · rw [hser]
    exact ⟨rfl, rfl, rfl, rfl, rfl⟩

/-- The dispatch of a packet runs with the transmitter at rest. -/
theorem ReplyRoom.resting {m : Machine} (h : ReplyRoom m) (hpc : m.pc = .dispatch) :
    m.node.ser.Resting := by
  rcases h.phase with hrest | hreply
  · exact hrest
  · exact absurd hpc hreply.pc

/-- The dispatch of a packet leaves the transmitter at rest or starts the one reply. -/
theorem ReplyRoom.dispatch {p : Platform} {n : Node} {owner : Owner} {pc : Control}
    (h : ReplyRoom { node := n, pc := .dispatch }) (howned : Owned { node := n, pc := .dispatch } owner)
    (hpc : pc ≠ .dispatch) : ReplyRoom { node := (cmdDispatch p n.pkt.rxbuf n).2, pc := pc } := by
  have hready : (cmdDispatch p n.pkt.rxbuf n).2.pkt.readyPacket = false := by
    have hclient := howned.client rfl
    subst hclient
    rw [(cmdDispatch_frame p n.pkt.rxbuf n).pkt]
    exact howned.1.2.2.1
  rcases cmdDispatch_sendsOnce p n.pkt.rxbuf n with
    ⟨-, hser⟩ | ⟨before, flags, addr, cmd, payload, len, -, hser, hlen, hresult⟩
  · exact h.keep hser fun _ _ => ⟨hready, hpc⟩
  · have hwired : before.ser.Wired := by
      rw [hser]
      exact h.wired
    obtain ⟨hafter, hoff⟩ := hwired.pktSend before.txpkt flags addr cmd payload hlen
    have hsent : (cmdDispatch p n.pkt.rxbuf n).2.ser =
        (pktSend before.txpkt before.ser flags addr cmd payload len).2.2 := by
      rw [hresult]
      rfl
    rw [← hsent] at hafter hoff
    exact ⟨hafter, .inr ⟨hoff, hready, hpc⟩⟩

/-- Every program point keeps the invariant. -/
theorem ReplyRoom.main {p : Platform} {m : Machine} {owner : Owner} (h : ReplyRoom m)
    (howned : Owned m owner) (samples : Vector UInt16 4) : ReplyRoom (mainStep p samples m) := by
  have hstep := mainStep_loopStep p samples m
  generalize mainStep p samples m = m' at hstep ⊢
  cases hstep with
  | ledRun | adcRun | expired | unexpired | notReady | rxFree | overdue | waiting | active | inactive
  | arm | freed | loop => exact h.keep rfl fun hready _ => ⟨hready, by simp⟩
  | ready n hready =>
      -- without a packet ready there is none to dispatch
      refine h.keep rfl fun hnot _ => ?_
      have hcontra : n.pkt.readyPacket = false := hnot
      rw [hready] at hcontra
      cases hcontra
  | restart => exact boot_replyRoom p _
  | returned | handled => exact h.dispatch howned (by simp)
  | giveUp => exact h.keep rfl fun _ _ => ⟨rfl, by simp⟩
  | kissmRun n event held =>
      have hframe := appRun_frame p event n
      refine h.keep hframe.ser fun hready _ => ⟨?_, by simp⟩
      show (appRun p event n).pkt.readyPacket = false
      rw [hframe.pkt]
      exact hready

/-- Every action keeps the invariant. -/
theorem ReplyRoom.step {p : Platform} {m : Machine} {owner : Owner} (h : ReplyRoom m)
    (howned : Owned m owner) {action : Action} (hbus : OnBus m action) :
    ReplyRoom (step p m action) := by
  cases action with
  | tick => exact h.keep rfl fun hready hpc => ⟨hready, hpc⟩
  | rx byte =>
      -- the receiver is on, so no reply is under way
      have hon : m.node.ser.usart.rxen = true := hbus
      rcases h.phase with hrest | hreply
      · refine ⟨⟨⟨h.wired.indexed.headp, h.wired.indexed.tailp⟩, h.wired.flag⟩, .inl ?_⟩
        exact ⟨hrest.empty, hrest.idle, hrest.dreie, hrest.txcie, hrest.rxen⟩
      · rw [hreply.rxen] at hon
        cases hon
  | dre =>
      simp only [BmsNode.step]
      split_ifs with hpending
      · exact h.dre hpending
      · exact h
  | txc =>
      simp only [BmsNode.step]
      split_ifs with hpending
      · refine h.txc ?_
        have hdre : drePending m.node.ser = false := hbus
        rw [txcPending, hpending, hdre]
        rfl
      · exact h
  | shift => exact h.shift
  | main samples => exact h.main howned samples

/-- Replies are never truncated: whenever a packet is dispatched the ring is empty and no transmit
interrupt is enabled, so `pkt_send` returns true and the ring then holds the whole frame behind its
preambles, and nothing else. A handler that sends does so once, into the empty ring. -/
theorem replies_whole (p : Platform) (eeprom : Config) (actions : List Action)
    (hbus : Meets (step p) OnBus (boot p eeprom) actions)
    (hpc : (run (step p) (boot p eeprom) actions).pc = .dispatch) :
    let n := (run (step p) (boot p eeprom) actions).node
    (bufNotempty n.ser = false ∧ n.ser.usart.dreie = false ∧ n.ser.usart.txcie = false) ∧
      (∀ txpkt flags addr cmd payload (len : UInt8), len.toNat ≤ 12 →
        (pktSend txpkt n.ser flags addr cmd payload len).1 = true) ∧
      (∀ txpkt (f : Frame), f.Fits →
        (pktSend txpkt n.ser f.flags f.addr f.cmd f.payload f.len).2.2.queued =
          List.replicate 4 pktPreamble ++ f.wire) ∧
      ((Silent n (cmdDispatch p n.pkt.rxbuf n).2 ∧ (cmdDispatch p n.pkt.rxbuf n).2.ser = n.ser) ∨
        ∃ before flags addr cmd payload len, Silent n before ∧ before.ser = n.ser ∧
          cmdDispatch p n.pkt.rxbuf n = before.send flags addr cmd payload len ∧
          (before.send flags addr cmd payload len).1 = true) := by
  intro n
  have hinv := run_invariant (P := fun m => (∃ owner, Owned m owner) ∧ ReplyRoom m) (by
    rintro m action ⟨⟨owner, howned⟩, hroom⟩ hok
    obtain ⟨next, -, hnext⟩ := step_owned howned action
    exact ⟨⟨next, hnext⟩, hroom.step howned hok⟩)
    ⟨⟨.none, boot_owned p eeprom⟩, boot_replyRoom p eeprom⟩ hbus
  have hrest : n.ser.Resting := hinv.2.resting hpc
  have hindexed : n.ser.Indexed := hinv.2.wired.indexed
  have hcount := hrest.count hindexed
  have hroom : ∀ txpkt flags addr cmd payload (len : UInt8), len.toNat ≤ 12 →
      (pktSend txpkt n.ser flags addr cmd payload len).1 = true := by
    intro txpkt flags addr cmd payload len hlen
    rw [pktSend_iff _ _ _ _ _ _ _ hlen, hcount]
    omega
  have hwhole : ∀ txpkt (f : Frame), f.Fits →
      (pktSend txpkt n.ser f.flags f.addr f.cmd f.payload f.len).2.2.queued =
        List.replicate 4 pktPreamble ++ f.wire := by
    intro txpkt f hf
    have hempty : n.ser.queued = [] :=
      List.eq_nil_of_length_eq_zero (n.ser.length_queued.trans hcount)
    have hshort := hf.max
    rw [hindexed.queued_pktSend hf, hempty, hcount, List.nil_append, List.take_of_length_le]
    rw [hf.sent_length]
    omega
  refine ⟨⟨hrest.empty, hrest.dreie, hrest.txcie⟩, hroom, hwhole, ?_⟩
  rcases cmdDispatch_sendsOnce p n.pkt.rxbuf n with
    hquiet | ⟨before, flags, addr, cmd, payload, len, hsilent, hser, hlen, hresult⟩
  · exact .inl hquiet
  · refine .inr ⟨before, flags, addr, cmd, payload, len, hsilent, hser, hresult, ?_⟩
    show (pktSend before.txpkt before.ser flags addr cmd payload len).1 = true
    rw [hser]
    exact hroom _ _ _ _ _ _ hlen

/-- A PING for the node at address 1, its reply sent out, and a second PING up to its dispatch. -/
def pingTwice : List Action :=
  let ping : List Action := (pktPreamble :: (Frame.mk 0 1 Cmd.ping 0 []).wire).map .rx
  let dispatch : List Action := List.replicate 4 (.main (Vector.replicate 4 0))
  let reply : List Action := (List.replicate 10 [.dre, .shift]).flatten ++ [.dre, .shift, .txc]
  ping ++ dispatch ++ List.replicate 3 (.main (Vector.replicate 4 0)) ++ reply ++ ping ++ dispatch

/-- The second reply finds the ring empty. -/
theorem replies_whole_second :
    let n := (run (step benchBoard) (boot benchBoard (freshNode benchBoard 1).cfg.eeprom)
      pingTwice).node
    (bufNotempty n.ser = false ∧ n.ser.usart.dreie = false ∧ n.ser.usart.txcie = false) ∧
      (∀ txpkt flags addr cmd payload (len : UInt8), len.toNat ≤ 12 →
        (pktSend txpkt n.ser flags addr cmd payload len).1 = true) ∧
      (∀ txpkt (f : Frame), f.Fits →
        (pktSend txpkt n.ser f.flags f.addr f.cmd f.payload f.len).2.2.queued =
          List.replicate 4 pktPreamble ++ f.wire) ∧
      ((Silent n (cmdDispatch benchBoard n.pkt.rxbuf n).2 ∧
          (cmdDispatch benchBoard n.pkt.rxbuf n).2.ser = n.ser) ∨
        ∃ before flags addr cmd payload len, Silent n before ∧ before.ser = n.ser ∧
          cmdDispatch benchBoard n.pkt.rxbuf n = before.send flags addr cmd payload len ∧
          (before.send flags addr cmd payload len).1 = true) :=
  replies_whole benchBoard _ pingTwice (by decide +kernel) (by decide +kernel)

end BmsNode
