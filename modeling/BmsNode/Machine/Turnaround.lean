import BmsNode.Machine.Transmission
import BmsNode.Transition.Progress

/-!
# Every reply is completed

While a reply is under way the receiver is off. The transmit interrupts and the
transmitter cannot stall: one of them can always go on until the receiver is on again,
and `workLeft` bounds how often they can. Nothing that the main loop does in between adds
to the work, since no packet is dispatched before the reply is out.
-/

namespace BmsNode

open Transition

/-- The steps that are left for the transmit interrupts and the transmitter, at most: a queued byte
takes three, and each of the two interrupts has to be turned off. -/
def Ser.workLeft (s : Ser) : Nat :=
  3 * s.queued.length + 2 * s.usart.txdatal.toList.length + s.usart.shifter.toList.length +
    s.usart.dreie.toNat + s.usart.txcie.toNat

/-- An interrupt or a step of the transmitter, not of the main loop and not from outside. -/
def Action.isTransmit : Action → Bool
  | .dre | .txc | .shift => true
  | _ => false

/-- A transmit step that does something. -/
def transmits (p : Platform) (m : Machine) (action : Action) : Bool :=
  action.isTransmit && decide (step p m action ≠ m)

/-! ## What a transmit step does to the work -/

/-- The serial module with another transmitter. -/
theorem queued_usart (s : Ser) (usart : Usart) : Ser.queued { s with usart := usart } = s.queued :=
  rfl

/-- The `USART0_DRE` handler does a step of the work. -/
theorem Ser.Wired.workLeft_dre {s : Ser} (h : s.Wired) (hpending : drePending s = true) :
    (usart0DreVect s).workLeft < s.workLeft := by
  rw [drePending, Bool.and_eq_true] at hpending
  obtain ⟨hdreie, hfree⟩ := hpending
  have hnone := Option.isNone_iff_eq_none.mp hfree
  cases hbytes : bufNotempty s with
  | true =>
      have hqueued := congrArg List.length h.indexed.queued_usart0DreVect
      obtain ⟨byte, husart⟩ : ∃ byte, (usart0DreVect s).usart =
          { s.usart with txcif := false, txdatal := some byte } := by
        rw [usart0DreVect, if_pos hbytes, if_pos hfree, Vector.getElem?_eq_getElem h.indexed.tailp]
        exact ⟨_, rfl⟩
      rw [dreSends, if_pos hfree, husart, List.length_append] at hqueued
      simp only [Ser.workLeft, husart, hnone, Option.toList_some, Option.toList_none,
        List.length_singleton, List.length_nil] at hqueued ⊢
      omega
  | false =>
      have hdone : usart0DreVect s = { s with usart := txintDisable s.usart } := by
        rw [usart0DreVect, hbytes]
        rfl
      rw [hdone]
      simp only [Ser.workLeft, queued_usart, txintDisable, hdreie, Bool.toNat_true,
        Bool.toNat_false]
      omega

/-- The `USART0_TXC` handler of a serial module whose receiver is off turns the bus around, or finds
more to send and changes nothing. -/
theorem Ser.Armed.workLeft_txc {s : Ser} (h : s.Armed) (htxcie : s.usart.txcie = true) :
    usart0TxcVect s = s ∨ (usart0TxcVect s).workLeft < s.workLeft := by
  cases hbytes : bufNotempty s with
  | true =>
      left
      have husart : txintEnable s.usart = s.usart := by
        calc txintEnable s.usart
            = { s.usart with dreie := s.usart.dreie, txcie := s.usart.txcie } := by
              rw [h.dreie hbytes, htxcie]
              rfl
          _ = s.usart := rfl
      rw [usart0TxcVect, if_pos hbytes, husart]
  | false =>
      right
      have hdone : usart0TxcVect s =
          { s with usart := { s.usart with txcie := false, txen := false, rxen := true } } := by
        rw [usart0TxcVect, hbytes]
        rfl
      rw [hdone]
      simp only [Ser.workLeft, queued_usart, htxcie, Bool.toNat_true, Bool.toNat_false]
      omega

/-- The transmitter does a step of the work, unless it has nothing to do. -/
theorem workLeft_shift (s : Ser) :
    usartShift s.usart = s.usart ∨
      Ser.workLeft { s with usart := usartShift s.usart } < s.workLeft := by
  rcases Option.eq_none_or_eq_some s.usart.txdatal with hdata | ⟨byte, hdata⟩
  · rcases Option.eq_none_or_eq_some s.usart.shifter with hshift | ⟨last, hshift⟩
    · exact .inl (by rw [usartShift, hdata, hshift])
    · right
      simp only [Ser.workLeft, queued_usart, usartShift, hdata, hshift, Option.toList_some,
        Option.toList_none, List.length_singleton, List.length_nil]
      omega
  · right
    simp only [Ser.workLeft, queued_usart, usartShift, hdata, Option.toList_some,
      Option.toList_none, List.length_singleton, List.length_nil]
    omega

/-- A transmitter that has nothing to do is empty. -/
theorem usartShift_stays {u : Usart} (h : usartShift u = u) : u.sending = false := by
  rw [usartShift] at h
  rw [Usart.sending]
  split at h
  · next byte last hdata =>
      have hcontra := congrArg Usart.txdatal h
      rw [hdata] at hcontra
      cases hcontra
  · next last hdata hshift =>
      have hcontra := congrArg Usart.shifter h
      rw [hshift] at hcontra
      cases hcontra
  · next hdata hshift =>
      rw [hdata, hshift]
      rfl

/-- A byte is outstanding exactly when one is on its way. -/
theorem Ser.Indexed.outstanding_iff {s : Ser} (h : s.Indexed) :
    s.outstanding = true ↔ s.inFlight ≠ [] := by
  have hqueued : bufNotempty s = true ↔ s.queued ≠ [] := by
    rw [h.bufNotempty_iff, ← s.length_queued, ne_eq, List.length_eq_zero_iff]
  rw [Ser.outstanding, Usart.sending, Bool.or_eq_true, hqueued, Ser.inFlight]
  cases s.usart.shifter <;> cases s.usart.txdatal <;> simp

/-! ## Every action -/

/-- While the receiver is off the transmit interrupts are on as they are needed, and no more is left
to do than for the longest reply. -/
def Ser.Bounded (s : Ser) : Prop := s.usart.rxen = false → s.Armed ∧ s.workLeft ≤ 68

/-- A reply that was just queued, by a transmitter at rest. -/
theorem Ser.Resting.bounded_pktSend {s : Ser} (h : s.Resting) (hindexed : s.Indexed) {f : Frame}
    (hf : f.Fits) (t : TxPkt) :
    (pktSend t s f.flags f.addr f.cmd f.payload f.len).2.2.Bounded := by
  intro _
  have hshort := hf.length_sent
  have hinFlight := hindexed.inFlight_pktSend hf (by rw [h.count hindexed]; omega) t
  rw [h.inFlight hindexed, List.nil_append] at hinFlight
  have hqueued := congrArg List.length hinFlight
  have hafter : (pktSend t s f.flags f.addr f.cmd f.payload f.len).2.2.Indexed ∧
      (pktSend t s f.flags f.addr f.cmd f.payload f.len).2.2.usart.dreie = true ∧
      (pktSend t s f.flags f.addr f.cmd f.payload f.len).2.2.usart.txcie = true := by
    have hquiet : Ser.Indexed { s with usart := { s.usart with rxcie := false } } :=
      ⟨hindexed.headp, hindexed.tailp⟩
    rw [pktSend_eq t s f.flags f.addr f.cmd f.payload hf.max]
    have hcopied := (serCopy_frame ((pktFrame t f.flags f.addr f.cmd f.payload f.len).take
      (4 + 1 + 4 + f.len + 1).toNat) hquiet).2
    exact ⟨⟨hcopied.headp, hcopied.tailp⟩, rfl, rfl⟩
  generalize (pktSend t s f.flags f.addr f.cmd f.payload f.len).2.2 = s' at hinFlight hqueued hafter
  obtain ⟨hindexed', hdreie, htxcie⟩ := hafter
  refine ⟨⟨fun _ => htxcie, fun _ => hdreie, fun _ => .inl ?_⟩, ?_⟩
  · rw [hindexed'.outstanding_iff, hinFlight]
    simp [Frame.sent]
  · rw [Ser.inFlight, List.length_append, List.length_append] at hqueued
    rw [Ser.workLeft, hdreie, htxcie, Bool.toNat_true]
    omega

/-- What the transmit steps do to the serial module: nothing, or a step of the work that leaves the
interrupts on as they are needed. -/
structure Works (s s' : Ser) : Prop where
  bounded : s.Bounded → s'.Bounded
  work : s' = s ∨ s.usart.rxen = true ∨ s'.workLeft < s.workLeft

/-- A line step that does some of the work. -/
theorem LineStep.works {s s' : Ser} (h : LineStep s s') (hrxen : s'.usart.rxen = false →
    s.usart.rxen = false) (hwork : s' = s ∨ s'.workLeft < s.workLeft) : Works s s' := by
  refine ⟨fun hbounded hoff => ?_, hwork.imp_right .inr⟩
  obtain ⟨harmed, hbound⟩ := hbounded (hrxen hoff)
  refine ⟨h.armed harmed, ?_⟩
  rcases hwork with rfl | hless
  · exact hbound
  · omega

/-- A step of the transmitter keeps the receiver as it is. -/
theorem usartShift_rxen (u : Usart) : (usartShift u).rxen = u.rxen := by
  rw [usartShift]
  split
  · rfl
  · rfl
  · rfl

/-- The `USART0_DRE` handler keeps the receiver as it is. -/
theorem usart0DreVect_rxen (s : Ser) : (usart0DreVect s).usart.rxen = s.usart.rxen := by
  rw [usart0DreVect]
  split
  · split
    · rfl
    · rfl
  · rfl

/-- The `USART0_TXC` handler never turns the receiver off. -/
theorem usart0TxcVect_rxen {s : Ser} (h : (usart0TxcVect s).usart.rxen = false) :
    s.usart.rxen = false := by
  rw [usart0TxcVect] at h
  split at h
  · exact h
  · cases h

/-- A transmit step touches the serial module only. -/
theorem step_transmit {p : Platform} {m : Machine} {action : Action}
    (htransmit : action.isTransmit = true) : BmsNode.step p m action =
      { m with node := { m.node with ser := (BmsNode.step p m action).node.ser } } := by
  cases action with
  | tick | rx | main => cases htransmit
  | shift => rfl
  | dre | txc =>
      simp only [BmsNode.step]
      split_ifs
      · rfl
      · rfl

/-- A transmit step works. -/
theorem Talking.works {p : Platform} {m : Machine} (h : Talking m) (hbounded : m.node.ser.Bounded)
    {action : Action} (htransmit : action.isTransmit = true) (hbus : OnBus m action) :
    Works m.node.ser (BmsNode.step p m action).node.ser := by
  have hwired := h.room.wired
  have hsame : Works m.node.ser m.node.ser := ⟨id, .inl rfl⟩
  cases action with
  | tick | rx | main => cases htransmit
  | dre =>
      simp only [BmsNode.step]
      split_ifs with hpending
      · have hstep := hwired.dre hpending
        exact hstep.works (fun hoff => (usart0DreVect_rxen _).symm.trans hoff)
          (.inr (hwired.workLeft_dre hpending))
      · exact hsame
  | txc =>
      simp only [BmsNode.step]
      split_ifs with hpending
      · have hstep : LineStep m.node.ser (usart0TxcVect m.node.ser) := by
          refine hwired.txc ?_
          have hdre : drePending m.node.ser = false := hbus
          rw [txcPending, hpending, hdre]
          rfl
        cases hrxen : m.node.ser.usart.rxen with
        | true =>
            refine ⟨fun _ hoff => ?_, .inr (.inl hrxen)⟩
            have hcontra := usart0TxcVect_rxen hoff
            rw [hrxen] at hcontra
            cases hcontra
        | false =>
            rw [Bool.and_eq_true] at hpending
            exact hstep.works usart0TxcVect_rxen ((hbounded hrxen).1.workLeft_txc hpending.1)
      · exact hsame
  | shift =>
      refine (shift_line m.node.ser).works (fun hoff => (usartShift_rxen _).symm.trans hoff) ?_
      refine (workLeft_shift m.node.ser).imp_left fun hstay => ?_
      show { m.node.ser with usart := usartShift m.node.ser.usart } = m.node.ser
      rw [hstay]

/-- Every other action keeps the bound, and leaves a reply that is under way alone. -/
theorem Talking.waits {p : Platform} {m : Machine} (h : Talking m) (hbounded : m.node.ser.Bounded)
    {action : Action} (htransmit : action.isTransmit = false) (hbus : OnBus m action) :
    (BmsNode.step p m action).node.ser.Bounded ∧
      (m.node.ser.usart.rxen = false → (BmsNode.step p m action).node.ser = m.node.ser) := by
  cases action with
  | dre | txc | shift => cases htransmit
  | tick => exact ⟨hbounded, fun _ => rfl⟩
  | rx byte =>
      have hon : m.node.ser.usart.rxen = true := hbus
      refine ⟨fun hoff => ?_, fun hoff => ?_⟩
      · have hcontra : m.node.ser.usart.rxen = false := hoff
        rw [hon] at hcontra
        cases hcontra
      · rw [hon] at hoff
        cases hoff
  | main samples =>
      have hstep := mainStep_loopStep p samples m
      show (mainStep p samples m).node.ser.Bounded ∧
        (_ → (mainStep p samples m).node.ser = m.node.ser)
      generalize mainStep p samples m = m' at hstep ⊢
      cases hstep with
      | ledRun | adcRun | expired | unexpired | ready | notReady | rxFree | overdue | waiting
      | active | inactive | giveUp | arm | freed | loop => exact ⟨hbounded, fun _ => rfl⟩
      | kissmRun n event held =>
          have hser : (appRun p event n).ser = n.ser := (appRun_frame p event n).ser
          rw [hser]
          exact ⟨hbounded, fun _ => rfl⟩
      | restart n =>
          have hon := (h.room.resting rfl).rxen
          refine ⟨fun hoff => (by cases hoff), fun hoff => ?_⟩
          rw [hon] at hoff
          cases hoff
      | returned n | handled n =>
          have hresting := h.room.resting rfl
          refine ⟨?_, fun hoff => ?_⟩
          · have hsends := (cmdDispatch_serves p n.pkt.rxbuf n).sends
            generalize (Registers.serve _ _ _ _).2 = reply at hsends
            generalize cmdDispatch p n.pkt.rxbuf n = result at hsends
            cases hsends with
            | nothing hsilent hser =>
                rw [hser]
                exact hbounded
            | @frame before f hunsent hfits =>
                have hbefore : before.ser.Resting ∧ before.ser.Indexed := by
                  rw [hunsent.ser]
                  exact ⟨hresting, h.room.wired.indexed⟩
                exact hbefore.1.bounded_pktSend hbefore.2 hfits before.txpkt
          · rw [hresting.rxen] at hoff
            cases hoff

/-! ## Runs -/

/-- What holds at every moment on the bus. -/
structure Turning (m : Machine) : Prop where
  talking : Talking m
  bounded : m.node.ser.Bounded

/-- The firmware starts with the receiver on. -/
theorem boot_turning (p : Platform) (eeprom : Config) : Turning (boot p eeprom) :=
  ⟨boot_talking p eeprom, fun hoff => by cases hoff⟩

/-- Every action on the bus keeps it. -/
theorem Turning.step {p : Platform} {m : Machine} (h : Turning m) {action : Action}
    (hbus : OnBus m action) : Turning (BmsNode.step p m action) := by
  refine ⟨h.talking.step hbus, ?_⟩
  cases htransmit : action.isTransmit with
  | true => exact (h.talking.works h.bounded htransmit hbus).bounded h.bounded
  | false => exact (h.talking.waits h.bounded htransmit hbus).1

/-- A transmitter that is not at rest is replying. -/
theorem Turning.replying {m : Machine} (h : Turning m) (hbusy : ¬m.node.ser.Resting) :
    m.node.ser.usart.rxen = false ∧ m.node.ser.Armed ∧ m.node.ser.workLeft ≤ 68 := by
  have hoff := (h.talking.room.phase.resolve_left hbusy).rxen
  exact ⟨hoff, h.bounded hoff⟩

/-- A transmit step of a replying node lowers the work that is left, and nothing raises it. -/
theorem Turning.workLeft {p : Platform} {m : Machine} (h : Turning m) {action : Action}
    (hbus : OnBus m action) (hbusy : ¬m.node.ser.Resting) :
    (BmsNode.step p m action).node.ser.workLeft + (transmits p m action).toNat ≤
      m.node.ser.workLeft := by
  obtain ⟨hoff, -, -⟩ := h.replying hbusy
  cases htransmit : action.isTransmit with
  | false =>
      rw [(h.talking.waits h.bounded htransmit hbus).2 hoff, transmits, htransmit]
      exact Nat.le_refl _
  | true =>
      rcases (h.talking.works (p := p) h.bounded htransmit hbus).work with hser | hon | hless
      · -- a transmit step that leaves the serial module alone does nothing at all
        have hsame : BmsNode.step p m action = m := by
          rw [step_transmit htransmit, hser]
        rw [hser, transmits, hsame, decide_eq_false (not_not_intro rfl), Bool.and_false]
        exact Nat.le_refl _
      · rw [hoff] at hon
        cases hon
      · have hone := Bool.toNat_le (transmits p m action)
        omega

/-- A node that is replying can always go on with it. -/
theorem Turning.enabled {p : Platform} {m : Machine} (h : Turning m)
    (hbusy : ¬m.node.ser.Resting) :
    ∃ action, OnBus m action ∧ transmits p m action = true := by
  obtain ⟨hoff, harmed, -⟩ := h.replying hbusy
  have heffective {action : Action} (htransmit : action.isTransmit = true)
      (hser : (BmsNode.step p m action).node.ser ≠ m.node.ser) : transmits p m action = true := by
    rw [transmits, htransmit, Bool.true_and, decide_eq_true_iff]
    exact fun hsame => hser (by rw [hsame])
  have hless {ser : Ser} (hwork : ser.workLeft < m.node.ser.workLeft) : ser ≠ m.node.ser := by
    rintro rfl
    exact absurd hwork (Nat.lt_irrefl _)
  cases hpending : drePending m.node.ser with
  | true =>
      refine ⟨.dre, trivial, heffective rfl ?_⟩
      have hdre : (BmsNode.step p m .dre).node.ser = usart0DreVect m.node.ser := by
        rw [drePending] at hpending
        simp only [BmsNode.step, hpending, if_true]
      rw [hdre]
      exact hless (h.talking.room.wired.workLeft_dre hpending)
  | false =>
      rcases workLeft_shift m.node.ser with hstay | hwork
      · -- nothing in the transmitter, so the ring is empty as well and the TXC interrupt is due
        have hidle := usartShift_stays hstay
        rw [Usart.sending, Bool.or_eq_false_iff] at hidle
        have hempty : bufNotempty m.node.ser = false := by
          cases hbytes : bufNotempty m.node.ser with
          | false => rfl
          | true =>
              rw [drePending, harmed.dreie hbytes, Bool.true_and, Option.isNone_eq_false_iff,
                hidle.1] at hpending
              cases hpending
        have hdone : m.node.ser.outstanding = false := by
          rw [Ser.outstanding, Usart.sending, hempty, hidle.1, hidle.2]
          rfl
        rcases harmed.served hoff with hout | ⟨hflag, htxcie⟩
        · rw [hdone] at hout
          cases hout
        · refine ⟨.txc, hpending, heffective rfl ?_⟩
          have htxc : (BmsNode.step p m .txc).node.ser = usart0TxcVect m.node.ser := by
            simp only [BmsNode.step, hflag, htxcie, Bool.and_self, if_true]
          rw [htxc, usart0TxcVect, hempty]
          intro hsame
          have hcontra := congrArg (fun ser => ser.usart.rxen) hsame
          rw [hoff] at hcontra
          cases hcontra
      · exact ⟨.shift, trivial, heffective rfl (hless hwork)⟩

/-- Replies do not get stuck: at every moment of every run on the bus (outside the body of
`ser_write`, which is part of the handler's program point) the transmitter is at rest, with the
receiver on, or one of its interrupts or steps can go on; and no continuation takes more than 68 of
these steps without coming to a moment at which the transmitter is at rest, whatever else happens in
between. -/
theorem reply_completes (p : Platform) (eeprom : Config) (actions : List Action)
    (hbus : Meets (step p) OnBus (boot p eeprom) actions) :
    let m := run (step p) (boot p eeprom) actions
    (m.node.ser.Resting ∨ ∃ action, OnBus m action ∧ transmits p m action = true) ∧
      ∀ more, Meets (step p) OnBus m more → 68 < countOf (step p) (transmits p) m more →
        ∃ done rest, more = done ++ rest ∧ (run (step p) m done).node.ser.Resting := by
  intro m
  have hturning : Turning m :=
    run_invariant (fun m action h hok => h.step hok) (boot_turning p eeprom) hbus
  by_cases hresting : m.node.ser.Resting
  · exact ⟨.inl hresting, fun more _ _ => ⟨[], more, rfl, hresting⟩⟩
  · refine ⟨.inr (hturning.enabled hresting), fun more hmore hmany => ?_⟩
    obtain ⟨-, -, hbound⟩ := hturning.replying hresting
    exact run_progress (P := Turning) (fun m => m.node.ser.Resting)
      (fun m => m.node.ser.workLeft)
      (fun m action h hok hbusy => .inr ⟨h.step hok, h.workLeft hok hbusy⟩) hturning hmore
      (Nat.lt_of_le_of_lt hbound hmany)

/-- While the reply to a PING is under way. -/
theorem reply_completes_ping :
    let m := run (step benchBoard) (boot benchBoard (freshNode benchBoard 1).cfg.eeprom)
      (pingTwice.take 20)
    (m.node.ser.Resting ∨ ∃ action, OnBus m action ∧ transmits benchBoard m action = true) ∧
      ∀ more, Meets (step benchBoard) OnBus m more →
        68 < countOf (step benchBoard) (transmits benchBoard) m more →
        ∃ done rest, more = done ++ rest ∧ (run (step benchBoard) m done).node.ser.Resting :=
  reply_completes benchBoard _ (pingTwice.take 20) (by decide +kernel)

end BmsNode
