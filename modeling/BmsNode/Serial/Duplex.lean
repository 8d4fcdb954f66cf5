import BmsNode.Serial.Fifo

/-!
# Half-duplex switching

The receiver is off from the register writes of `ser_write` until the `USART0_TXC`
handler finds nothing left to send. `LineStep` lists what the transmit interrupts and the
transmitter can do to the serial module; each of the facts behind the switching is kept
by every line step, and the steps of `ser_write` establish them one after the other. The
TXC flag left over from the previous reply does no harm, since the flag is down whenever
a byte is in the transmitter and the handler looks at the ring.
-/

namespace BmsNode

open Transition

/-- A byte has been taken from the ring and not completely shifted out. -/
def Usart.sending (u : Usart) : Bool := u.txdatal.isSome || u.shifter.isSome

/-- A byte is in the ring or on its way out. -/
def Ser.outstanding (s : Ser) : Bool := bufNotempty s || s.usart.sending

/-- The DRE interrupt is enabled and the data register is empty. -/
def drePending (s : Ser) : Bool := s.usart.dreie && s.usart.txdatal.isNone

/-- The TXC interrupt is enabled, its flag is set, and the DRE interrupt does not come first. -/
def txcPending (s : Ser) : Bool := s.usart.txcie && s.usart.txcif && !drePending s

/-! ## What the transmit interrupts and the transmitter do -/

/-- A step of an interrupt handler or of the transmitter. -/
inductive LineStep (s : Ser) : Ser → Prop where
  | send (byte : UInt8) (hbytes : bufNotempty s = true) :
      LineStep s
        { s with
          usart := { s.usart with txcif := false, txdatal := some byte }
          tailp := (s.tailp + 1) &&& 0x1F }
  | drained (hempty : bufNotempty s = false) :
      LineStep s { s with usart := txintDisable s.usart }
  | refill (hbytes : bufNotempty s = true) : LineStep s { s with usart := txintEnable s.usart }
  | turn (hdone : s.outstanding = false) (hflag : s.usart.txcif = true) :
      LineStep s { s with usart := { s.usart with txcie := false, txen := false, rxen := true } }
  | load (byte : UInt8) (hbyte : s.usart.txdatal = some byte) :
      LineStep s { s with usart := { s.usart with shifter := some byte, txdatal := none } }
  | finish (hlast : s.usart.txdatal = none) (hbyte : s.usart.shifter.isSome = true) :
      LineStep s { s with usart := { s.usart with shifter := none, txcif := true } }
  | stay : LineStep s s

/-- The indices are in the ring, and the TXC flag is down while a byte is in the transmitter. -/
structure Ser.Wired (s : Ser) : Prop where
  indexed : s.Indexed
  flag : s.usart.sending = true → s.usart.txcif = false

/-- The `USART0_DRE` handler, when its interrupt is pending. -/
theorem Ser.Wired.dre {s : Ser} (h : s.Wired) (hpending : drePending s = true) :
    LineStep s (usart0DreVect s) := by
  have hfree : s.usart.txdatal.isNone = true := by
    rw [drePending, Bool.and_eq_true] at hpending
    exact hpending.2
  rw [usart0DreVect]
  cases hbytes : bufNotempty s with
  | true =>
      rw [if_pos rfl, if_pos hfree, Vector.getElem?_eq_getElem h.indexed.tailp]
      exact .send _ hbytes
  | false => exact .drained hbytes

/-- The `USART0_TXC` handler, when its interrupt is taken. -/
theorem Ser.Wired.txc {s : Ser} (h : s.Wired) (hpending : txcPending s = true) :
    LineStep s (usart0TxcVect s) := by
  have hflag : s.usart.txcif = true := by
    rw [txcPending, Bool.and_eq_true, Bool.and_eq_true] at hpending
    exact hpending.1.2
  have hidle : s.usart.sending = false := by
    cases hsending : s.usart.sending with
    | true => exact absurd (h.flag hsending) (by simp [hflag])
    | false => rfl
  rw [usart0TxcVect]
  cases hbytes : bufNotempty s with
  | true => exact .refill hbytes
  | false => exact .turn (by rw [Ser.outstanding, hbytes, hidle]; rfl) hflag

/-- The transmitter. -/
theorem shift_line (s : Ser) : LineStep s { s with usart := usartShift s.usart } := by
  rcases Option.eq_none_or_eq_some s.usart.txdatal with hdata | ⟨byte, hdata⟩
  · rcases Option.eq_none_or_eq_some s.usart.shifter with hshift | ⟨byte, hshift⟩
    · have heq : usartShift s.usart = s.usart := by rw [usartShift, hdata, hshift]
      rw [heq]
      exact .stay
    · have heq : usartShift s.usart = { s.usart with shifter := none, txcif := true } := by
        simp only [usartShift, hdata, hshift]
      rw [heq]
      exact .finish hdata (by rw [hshift]; rfl)
  · have heq : usartShift s.usart = { s.usart with shifter := some byte, txdatal := none } := by
      rw [usartShift, hdata]
    rw [heq]
    exact .load byte hdata

/-! ## The facts behind the switching -/

/-- Something is left to do for the transmit interrupts: a byte to send or a TXC flag to serve. -/
def Ser.Owes (s : Ser) : Prop := s.outstanding = true ∨ s.usart.txcif = true

/-- The receiver is off while there is something to send. -/
def Ser.Deaf (s : Ser) : Prop := s.outstanding = true → s.usart.rxen = false

/-- The transmitter is on while there is something to send. -/
def Ser.Driving (s : Ser) : Prop := s.outstanding = true → s.usart.txen = true

/-- The interrupts that get the bytes out and the receiver back on are enabled. -/
structure Ser.Armed (s : Ser) : Prop where
  txcie : s.outstanding = true → s.usart.txcie = true
  dreie : bufNotempty s = true → s.usart.dreie = true
  served : s.usart.rxen = false → s.outstanding = true ∨ (s.usart.txcif = true ∧ s.usart.txcie = true)

variable {s s' : Ser}

/-- A byte in the transmitter is outstanding. -/
theorem outstanding_of_sending (h : s.usart.sending = true) : s.outstanding = true := by
  rw [Ser.outstanding, h, Bool.or_true]

/-- A byte in the ring is outstanding. -/
theorem outstanding_of_bufNotempty (h : bufNotempty s = true) : s.outstanding = true := by
  rw [Ser.outstanding, h, Bool.true_or]

/-- A line step brings no new byte. -/
theorem LineStep.outstanding (h : LineStep s s') (hout : s'.outstanding = true) :
    s.outstanding = true := by
  cases h with
  | send byte hbytes => exact outstanding_of_bufNotempty hbytes
  | drained _ => exact hout
  | refill _ => exact hout
  | turn _ _ => exact hout
  | load byte hbyte =>
      apply outstanding_of_sending
      rw [Usart.sending, hbyte]
      rfl
  | finish hlast hbyte =>
      apply outstanding_of_sending
      rw [Usart.sending, hbyte, Bool.or_true]
  | stay => exact hout

/-- A line step keeps the wiring. -/
theorem LineStep.wired (h : LineStep s s') (hwired : s.Wired) : s'.Wired := by
  obtain ⟨hindexed, hflag⟩ := hwired
  cases h with
  | send byte hbytes =>
      refine ⟨⟨hindexed.headp, ?_⟩, fun _ => rfl⟩
      show ((s.tailp + 1) &&& 0x1F).toNat < 32
      rw [toNat_advance]
      omega
  | drained _ => exact ⟨⟨hindexed.headp, hindexed.tailp⟩, hflag⟩
  | refill _ => exact ⟨⟨hindexed.headp, hindexed.tailp⟩, hflag⟩
  | turn _ _ => exact ⟨⟨hindexed.headp, hindexed.tailp⟩, hflag⟩
  | load byte hbyte =>
      refine ⟨⟨hindexed.headp, hindexed.tailp⟩, fun _ => hflag ?_⟩
      rw [Usart.sending, hbyte]
      rfl
  | finish hlast _ =>
      refine ⟨⟨hindexed.headp, hindexed.tailp⟩, fun hsending => ?_⟩
      change s.usart.txdatal.isSome || false at hsending
      rw [hlast] at hsending
      cases hsending
  | stay => exact ⟨hindexed, hflag⟩

/-- A line step leaves something to do until the TXC handler has turned the bus around. -/
theorem LineStep.owes (h : LineStep s s') (howes : s.Owes) : s'.Owes := by
  cases h with
  | send byte _ => exact .inl (outstanding_of_sending rfl)
  | drained _ => exact howes
  | refill _ => exact howes
  | turn _ hflag => exact .inr hflag
  | load byte _ => exact .inl (outstanding_of_sending (Bool.or_true _))
  | finish _ _ => exact .inr rfl
  | stay => exact howes

/-- A line step turns the receiver on only when nothing is left to send. -/
theorem LineStep.deaf (h : LineStep s s') (hdeaf : s.Deaf) : s'.Deaf := by
  intro hout
  have hbefore := hdeaf (h.outstanding hout)
  cases h with
  | send byte _ => exact hbefore
  | drained _ => exact hbefore
  | refill _ => exact hbefore
  | turn hdone _ =>
      change s.outstanding = true at hout
      rw [hdone] at hout
      cases hout
  | load byte _ => exact hbefore
  | finish _ _ => exact hbefore
  | stay => exact hbefore

/-- A line step turns the transmitter off only when nothing is left to send. -/
theorem LineStep.driving (h : LineStep s s') (hdriving : s.Driving) : s'.Driving := by
  intro hout
  have hbefore := hdriving (h.outstanding hout)
  cases h with
  | send byte _ => exact hbefore
  | drained _ => exact hbefore
  | refill _ => exact hbefore
  | turn hdone _ =>
      change s.outstanding = true at hout
      rw [hdone] at hout
      cases hout
  | load byte _ => exact hbefore
  | finish _ _ => exact hbefore
  | stay => exact hbefore

/-- A line step keeps the interrupts enabled that are still needed. -/
theorem LineStep.armed (h : LineStep s s') (harmed : s.Armed) : s'.Armed := by
  have hout := h.outstanding
  obtain ⟨htxcie, hdreie, hserved⟩ := harmed
  cases h with
  | send byte hbytes =>
      refine ⟨fun hafter => htxcie (hout hafter), fun _ => hdreie hbytes, fun _ => ?_⟩
      exact .inl (outstanding_of_sending rfl)
  | drained hempty =>
      refine ⟨htxcie, fun hbytes => ?_, hserved⟩
      change bufNotempty s = true at hbytes
      rw [hempty] at hbytes
      cases hbytes
  | refill hbytes =>
      exact ⟨fun _ => rfl, fun _ => rfl, fun _ => .inl (outstanding_of_bufNotempty hbytes)⟩
  | turn hdone _ =>
      refine ⟨fun hafter => ?_, fun hbytes => ?_, fun hoff => by cases hoff⟩
      · change s.outstanding = true at hafter
        rw [hdone] at hafter
        cases hafter
      · change bufNotempty s = true at hbytes
        rw [outstanding_of_bufNotempty hbytes] at hdone
        cases hdone
  | load byte _ =>
      refine ⟨fun hafter => htxcie (hout hafter), hdreie, fun _ => ?_⟩
      exact .inl (outstanding_of_sending (Bool.or_true _))
  | finish _ hbyte =>
      refine ⟨fun hafter => htxcie (hout hafter), hdreie, fun _ => .inr ⟨rfl, ?_⟩⟩
      apply htxcie
      apply outstanding_of_sending
      rw [Usart.sending, hbyte, Bool.or_true]
  | stay => exact ⟨htxcie, hdreie, hserved⟩

/-! ## The steps of `ser_write` -/

/-- What holds while `ser_write` stands at a point, with the bytes it has still to copy. -/
def WritePoint.Holds : WritePoint → List UInt8 → Ser → Prop
  | .copy, rest, s => s.Owes ∨ rest ≠ []
  | .rxDisable, _, s => s.Owes
  | .txEnable, _, s => s.Owes ∧ s.Deaf
  | .intEnable, _, s => s.Owes ∧ s.Deaf ∧ s.Driving
  | .restore, _, s => s.Deaf ∧ s.Driving ∧ s.Armed

/-- The invariant of the transmitter. -/
structure Transmitter.Duplex (t : Transmitter) : Prop where
  wired : t.ser.Wired
  outside : t.call = none → t.ser.Deaf ∧ t.ser.Driving ∧ t.ser.Armed
  inside : ∀ call ∈ t.call, call.point.Holds call.rest t.ser

/-- A line step keeps what holds at a point. -/
theorem LineStep.holds (h : LineStep s s') {point : WritePoint} {rest : List UInt8}
    (hholds : point.Holds rest s) : point.Holds rest s' := by
  cases point with
  | copy => exact hholds.imp_left h.owes
  | rxDisable => exact h.owes hholds
  | txEnable => exact ⟨h.owes hholds.1, h.deaf hholds.2⟩
  | intEnable => exact ⟨h.owes hholds.1, h.deaf hholds.2.1, h.driving hholds.2.2⟩
  | restore => exact ⟨h.deaf hholds.1, h.driving hholds.2.1, h.armed hholds.2.2⟩

/-- A line step keeps the invariant, in whatever state `ser_write` is. -/
theorem Transmitter.Duplex.line {t : Transmitter} (h : t.Duplex) {ser : Ser}
    (hline : LineStep t.ser ser) : Transmitter.Duplex { t with ser := ser } := by
  refine ⟨hline.wired h.wired, ?_, ?_⟩
  · intro hnone
    obtain ⟨hdeaf, hdriving, harmed⟩ := h.outside hnone
    exact ⟨hline.deaf hdeaf, hline.driving hdriving, hline.armed harmed⟩
  · intro call hmem
    exact hline.holds (h.inside call hmem)

/-- A ring with no room for a byte has bytes to send. -/
theorem Ser.Indexed.owes_of_full (h : s.Indexed) (hfull : ¬bufNotfull s = true) : s.Owes := by
  have hheld := held_of_full hfull
  rw [Ser.length_queued] at hheld
  exact .inl (outstanding_of_bufNotempty (h.bufNotempty_iff.mpr (by omega)))

/-- A byte copied is a byte to send. -/
theorem Ser.Indexed.owes_serPut (h : s.Indexed) (hroom : bufNotfull s = true) (byte : UInt8) :
    (BmsNode.serPut s byte).Owes := by
  have hless := (bufNotfull_iff s).mp hroom
  refine .inl (outstanding_of_bufNotempty ((h.serPut byte).bufNotempty_iff.mpr ?_))
  rw [bufCnt_serPut hless]
  omega

/-- The invariant inside a call. -/
theorem Transmitter.Duplex.of_call {call : WriteCall} (hwired : s.Wired)
    (hholds : call.point.Holds call.rest s) : Transmitter.Duplex ⟨s, some call⟩ := by
  refine ⟨hwired, ?_, ?_⟩
  · intro hnone
    cases hnone
  · intro other hmem
    cases hmem
    exact hholds

/-- Each step of `ser_write` establishes what holds at the point behind it. -/
theorem Transmitter.Duplex.main {t : Transmitter} (h : t.Duplex) : t.mainStep.Duplex := by
  obtain ⟨ser, call⟩ := t
  cases call with
  | none => exact h
  | some call =>
      obtain ⟨buf, rest, cnt, point⟩ := call
      have hholds := h.inside _ rfl
      obtain ⟨⟨hhead, htail⟩, hflag⟩ := h.wired
      cases point with
      | copy =>
          cases rest with
          | nil =>
              refine .of_call ⟨⟨hhead, htail⟩, hflag⟩ ?_
              exact hholds.resolve_right (not_not_intro rfl)
          | cons byte rest =>
              have hindexed : ser.Indexed := ⟨hhead, htail⟩
              by_cases hroom : bufNotfull ser = true
              · rw [Transmitter.mainStep_room hroom]
                refine .of_call ⟨hindexed.serPut byte, hflag⟩ ?_
                exact .inl (hindexed.owes_serPut hroom byte)
              · rw [Transmitter.mainStep_full hroom]
                refine .of_call ⟨hindexed, hflag⟩ ?_
                exact hindexed.owes_of_full hroom
      | rxDisable =>
          have howes : ser.Owes := hholds
          refine .of_call ⟨⟨hhead, htail⟩, hflag⟩ ?_
          exact ⟨howes, fun _ => rfl⟩
      | txEnable =>
          obtain ⟨howes, hdeaf⟩ := hholds
          refine .of_call ⟨⟨hhead, htail⟩, hflag⟩ ?_
          exact ⟨howes, hdeaf, fun _ => rfl⟩
      | intEnable =>
          obtain ⟨howes, hdeaf, hdriving⟩ := hholds
          refine .of_call ⟨⟨hhead, htail⟩, hflag⟩ ?_
          refine ⟨hdeaf, hdriving, fun _ => rfl, fun _ => rfl, fun _ => ?_⟩
          exact howes.imp_right fun hset => ⟨hset, rfl⟩
      | restore =>
          obtain ⟨hdeaf, hdriving, htxcie, hdreie, hserved⟩ := hholds
          refine ⟨⟨⟨hhead, htail⟩, hflag⟩, fun _ => ⟨hdeaf, hdriving, htxcie, hdreie, hserved⟩, ?_⟩
          intro call hmem
          cases hmem

/-- What the hardware and the callers of `ser_write` promise: at least one byte a call, and an
interrupt handler runs when its interrupt is the one to take. -/
def Transmitter.Allowed (t : Transmitter) : TxAction → Prop
  | .call buf len => buf.take len.toNat ≠ []
  | .dre => drePending t.ser = true
  | .txc => txcPending t.ser = true
  | .main => True
  | .shift => True

/-- The promises can be checked. -/
instance (t : Transmitter) : ∀ action, Decidable (t.Allowed action)
  | .call _ _ => inferInstanceAs (Decidable (_ ≠ _))
  | .dre => inferInstanceAs (Decidable (_ = _))
  | .txc => inferInstanceAs (Decidable (_ = _))
  | .main => isTrue trivial
  | .shift => isTrue trivial

/-- Every allowed action keeps the invariant. -/
theorem Transmitter.Duplex.step {t : Transmitter} (h : t.Duplex) {action : TxAction}
    (hallowed : t.Allowed action) : (t.step action).Duplex := by
  cases action with
  | call buf len =>
      obtain ⟨ser, call⟩ := t
      cases call with
      | some call => exact h
      | none =>
          obtain ⟨⟨hhead, htail⟩, hflag⟩ := h.wired
          refine .of_call ⟨⟨hhead, htail⟩, hflag⟩ ?_
          exact .inr hallowed
  | main => exact h.main
  | dre => exact h.line (h.wired.dre hallowed)
  | txc => exact h.line (h.wired.txc hallowed)
  | shift => exact h.line (shift_line t.ser)

/-- The firmware starts with nothing to send. -/
theorem Transmitter.start_duplex : Transmitter.start.Duplex := by
  refine ⟨⟨⟨by decide, by decide⟩, fun _ => rfl⟩, fun _ => ⟨?_, fun _ => rfl, ?_⟩, ?_⟩
  · intro hout
    cases hout
  · constructor
    · intro hout
      cases hout
    · intro hbytes
      cases hbytes
    · intro hoff
      cases hoff
  · intro call hmem
    cases hmem

/-- Half-duplex switching: outside `ser_write`, a byte in the ring or in the transmitter keeps the
transmitter on, the receiver off and the module active; and a receiver that is off is waiting for
such a byte, with the DRE interrupt on while the ring holds any, or for a TXC interrupt that is
pending and turns the receiver on. That the bytes get out in a bounded number of steps is shown for
the node in `Machine.Turnaround`. -/
theorem half_duplex (actions : List TxAction)
    (hallowed : Meets Transmitter.step Transmitter.Allowed .start actions)
    (houtside : (run Transmitter.step .start actions).call = none) :
    let ser := (run Transmitter.step .start actions).ser
    ((bufNotempty ser = true ∨ ser.usart.sending = true) →
        ser.usart.txen = true ∧ ser.usart.rxen = false ∧ serIsActive ser = true) ∧
      (ser.usart.rxen = false →
        ((bufNotempty ser = true ∨ ser.usart.sending = true) ∧
            (bufNotempty ser = true → ser.usart.dreie = true)) ∨
          (ser.usart.txcif = true ∧ ser.usart.txcie = true ∧
            (usart0TxcVect ser).usart.rxen = true)) := by
  intro ser
  have hlast := run_invariant (fun t action h hok => h.step hok) Transmitter.start_duplex hallowed
  obtain ⟨hdeaf, hdriving, harmed⟩ := hlast.outside houtside
  have houtstanding : ser.outstanding = true ↔
      (bufNotempty ser = true ∨ ser.usart.sending = true) := by
    rw [Ser.outstanding, Bool.or_eq_true]
  rw [← houtstanding]
  constructor
  · intro hout
    refine ⟨hdriving hout, hdeaf hout, ?_⟩
    rw [serIsActive, harmed.txcie hout, Bool.or_true, Bool.true_or]
  · intro hoff
    cases hout : ser.outstanding with
    | true => exact .inl ⟨rfl, harmed.dreie⟩
    | false =>
        rcases harmed.served hoff with htrue | ⟨hflag, htxcie⟩
        · rw [hout] at htrue
          cases htrue
        · refine .inr ⟨hflag, htxcie, ?_⟩
          have hempty : bufNotempty ser = false := by
            rw [Ser.outstanding, Bool.or_eq_false_iff] at hout
            exact hout.1
          rw [usart0TxcVect, hempty]
          rfl

/-- The first of two bytes is in the transmitter, the second in the ring. -/
theorem half_duplex_sending :
    let actions : List TxAction :=
      [.call [0x55, 0xF0] 2, .main, .main, .main, .main, .main, .main, .main, .dre, .shift]
    let ser := (run Transmitter.step .start actions).ser
    ((bufNotempty ser = true ∨ ser.usart.sending = true) →
        ser.usart.txen = true ∧ ser.usart.rxen = false ∧ serIsActive ser = true) ∧
      (ser.usart.rxen = false →
        ((bufNotempty ser = true ∨ ser.usart.sending = true) ∧
            (bufNotempty ser = true → ser.usart.dreie = true)) ∨
          (ser.usart.txcif = true ∧ ser.usart.txcie = true ∧
            (usart0TxcVect ser).usart.rxen = true)) :=
  half_duplex _ (by decide) (by decide)

end BmsNode
