import BmsNode.Bytes.Ring
import BmsNode.Serial.Queue
import BmsNode.Transition.Run

/-!
# The transmitter and its interrupts

`ser_write` one step at a time, so that the transmit interrupts can fire between any two
bytes it copies and between the register writes that follow the loop. Each copied byte,
each register write and each handler is one action; the transmitter itself shifts bytes
out between them. A run of `ser_write` that nothing interrupts is `serWrite`.
-/

namespace BmsNode

open Transition

/-- Where `ser_write` stands: at the test of the copy loop or before one of the register writes
behind it. -/
inductive WritePoint where
  | copy
  | rxDisable
  | txEnable
  | intEnable
  | restore
  deriving DecidableEq, Repr

/-- A `ser_write` call in progress: the bytes it was given, those still to copy and `cnt`. -/
structure WriteCall where
  buf : List UInt8
  rest : List UInt8
  cnt : UInt8
  point : WritePoint
  deriving DecidableEq, Repr

/-- The serial module with the `ser_write` call in progress. -/
structure Transmitter where
  ser : Ser
  call : Option WriteCall
  deriving DecidableEq, Repr

/-- What can happen next: a call of `ser_write`, its next step, one of the transmit interrupt
handlers, or the transmitter shifting on. -/
inductive TxAction where
  | call (buf : List UInt8) (len : UInt8)
  | main
  | dre
  | txc
  | shift
  deriving DecidableEq, Repr

namespace Transmitter

/-- The module before its first use. -/
def start : Transmitter := { ser := .init, call := none }

/-- The next step of the call in progress. -/
def mainStep (t : Transmitter) : Transmitter :=
  match t.call with
  | none => t
  | some call =>
      match call.point, call.rest with
      | .copy, byte :: rest =>
          if bufNotfull t.ser then
            { ser := serPut t.ser byte
              call := some { call with rest := rest, cnt := call.cnt + 1 } }
          else { t with call := some { call with point := .rxDisable } }
      | .copy, [] => { t with call := some { call with point := .rxDisable } }
      | .rxDisable, _ =>
          { ser := { t.ser with usart := { t.ser.usart with rxen := false } }
            call := some { call with point := .txEnable } }
      | .txEnable, _ =>
          { ser := { t.ser with usart := { t.ser.usart with txen := true } }
            call := some { call with point := .intEnable } }
      | .intEnable, _ =>
          { ser := { t.ser with usart := txintEnable t.ser.usart }
            call := some { call with point := .restore } }
      | .restore, _ =>
          { ser := { t.ser with usart := { t.ser.usart with rxcie := true } }
            call := none }

/-- One action. A call is made only when none is in progress. -/
def step (t : Transmitter) : TxAction → Transmitter
  | .call buf len =>
      if t.call.isNone then
        { ser := { t.ser with usart := { t.ser.usart with rxcie := false } }
          call := some
            { buf := buf.take len.toNat, rest := buf.take len.toNat, cnt := 0, point := .copy } }
      else t
  | .main => t.mainStep
  | .dre => { t with ser := usart0DreVect t.ser }
  | .txc => { t with ser := usart0TxcVect t.ser }
  | .shift => { t with ser := { t.ser with usart := usartShift t.ser.usart } }

/-- The value a step returns to the caller of `ser_write`, with the bytes of the call. -/
def returned (t : Transmitter) : TxAction → List (List UInt8 × UInt8)
  | .main =>
      match t.call with
      | some { buf, rest := _, cnt, point := .restore } => [(buf, cnt)]
      | _ => []
  | _ => []

/-- A step of the main program is the next step of the call. -/
@[simp] theorem step_main (t : Transmitter) : t.step .main = t.mainStep := rfl

end Transmitter

/-! ## A call that nothing interrupts -/

/-- The copy loop takes the next byte while the ring has room. -/
theorem Transmitter.mainStep_room {ser : Ser} {buf rest : List UInt8} {byte cnt : UInt8}
    (hroom : bufNotfull ser = true) :
    Transmitter.mainStep ⟨ser, some ⟨buf, byte :: rest, cnt, .copy⟩⟩ =
      ⟨serPut ser byte, some ⟨buf, rest, cnt + 1, .copy⟩⟩ := if_pos hroom

/-- The copy loop stops at a full ring. -/
theorem Transmitter.mainStep_full {ser : Ser} {buf rest : List UInt8} {byte cnt : UInt8}
    (hfull : ¬bufNotfull ser = true) :
    Transmitter.mainStep ⟨ser, some ⟨buf, byte :: rest, cnt, .copy⟩⟩ =
      ⟨ser, some ⟨buf, byte :: rest, cnt, .rxDisable⟩⟩ := if_neg hfull

/-- A call never counts past the bytes it was given. -/
theorem serCopy_le (bytes : List UInt8) (ser : Ser) :
    (serCopy ser bytes).1.toNat ≤ bytes.length ∧ (serCopy ser bytes).1.toNat ≤ 31 := by
  rw [serCopy_count]
  omega

/-- The copy loop on its own, by induction on the bytes still to copy. -/
theorem run_copy (rest : List UInt8) (ser : Ser) (buf : List UInt8) (cnt : UInt8) :
    ∃ left, run Transmitter.step { ser := ser, call := some ⟨buf, rest, cnt, .copy⟩ }
        (List.replicate ((serCopy ser rest).1.toNat + 1) .main) =
      { ser := (serCopy ser rest).2
        call := some ⟨buf, left, cnt + (serCopy ser rest).1, .rxDisable⟩ } := by
  induction rest generalizing ser cnt with
  | nil =>
      refine ⟨[], ?_⟩
      rw [serCopy, UInt8.add_zero]
      rfl
  | cons byte rest ih =>
      by_cases hroom : bufNotfull ser = true
      · have hcopy : serCopy ser (byte :: rest) =
            ((serCopy (serPut ser byte) rest).1 + 1, (serCopy (serPut ser byte) rest).2) := by
          rw [serCopy, if_pos hroom]
        have hcount : ((serCopy (serPut ser byte) rest).1 + 1).toNat =
            (serCopy (serPut ser byte) rest).1.toNat + 1 := by
          have hle := (serCopy_le rest (serPut ser byte)).2
          rw [UInt8.toNat_add]
          show (_ + 1) % 256 = _
          omega
        obtain ⟨left, hrun⟩ := ih (serPut ser byte) (cnt + 1)
        refine ⟨left, ?_⟩
        rw [hcopy, hcount, List.replicate_succ, run_cons, Transmitter.step_main,
          Transmitter.mainStep_room hroom, hrun]
        rw [UInt8.add_assoc, UInt8.add_comm 1]
      · refine ⟨byte :: rest, ?_⟩
        rw [serCopy, if_neg hroom, UInt8.add_zero]
        exact Transmitter.mainStep_full hroom

/-- A call that nothing interrupts comes to its last step, which returns what `serWrite` returns
and leaves the module as `serWrite` leaves it. -/
theorem run_serWrite (ser : Ser) (buf : List UInt8) (len : UInt8) :
    ∃ steps last, run Transmitter.step { ser := ser, call := none }
        (.call buf len :: List.replicate steps .main) = last ∧
      last.returned .main = [(buf.take len.toNat, (serWrite ser buf len).1)] ∧
      last.step .main = { ser := (serWrite ser buf len).2, call := none } := by
  let quiet := { ser with usart := { ser.usart with rxcie := false } }
  obtain ⟨left, hcopy⟩ := run_copy (buf.take len.toNat) quiet (buf.take len.toNat) 0
  have hcall : Transmitter.step { ser := ser, call := none } (.call buf len) =
      { ser := quiet, call := some ⟨buf.take len.toNat, buf.take len.toNat, 0, .copy⟩ } := rfl
  refine ⟨(serCopy quiet (buf.take len.toNat)).1.toNat + 1 + 3, _, rfl, ?_⟩
  rw [run_cons, List.replicate_add, run_append, hcall, hcopy, UInt8.zero_add]
  exact ⟨rfl, rfl⟩

end BmsNode
