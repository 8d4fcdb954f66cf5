import BmsNode.Firmware.Led
import BmsNode.Timers.Operations
import BmsNode.Transition.Clock

/-!
# The waveform of an LED

The two LEDs run from one table and one `led_run`, and each is a system of its own:
`Lamp` is one instance with its pin, and `lamp_ledCall` says that a call does to it what
`Lamp.call` does, which is nothing for a call of the other LED. The waveforms are then
invariants of a lamp. While it blinks, its timeout ends the phase it is in, and the
phases follow each other without drift; after a one-shot call it is on until the
duration of the call is over.
-/

namespace BmsNode

open Transition

/-! ## The two LEDs -/

/-- What a client asks of an LED. -/
inductive LedOp where
  | on
  | off
  | blink (on off : UInt16)
  | oneshot (on : UInt16)
  deriving DecidableEq, Repr

/-- The calls of `led.h`. -/
inductive LedCall where
  | run
  | led (idx : LedIndex) (op : LedOp)
  deriving DecidableEq, Repr

/-- What a call does to the table and the pins. -/
def ledCall (now : Nat) (s : Leds × Gpio) : LedCall → Leds × Gpio
  | .run => ledRun (UInt16.ofNat now) s.1 s.2
  | .led idx .on => ledOn idx s.1 s.2
  | .led idx .off => ledOff idx s.1 s.2
  | .led idx (.blink on off) => ledBlink (UInt16.ofNat now) idx on off s.1 s.2
  | .led idx (.oneshot on) => ledOneshot (UInt16.ofNat now) idx on s.1 s.2

/-- `led_run` is the pass. -/
def LedCall.isRun : LedCall → Bool
  | .run => true
  | .led _ _ => false

/-- The call asks something of this LED. -/
def LedCall.isFor (idx : LedIndex) : LedCall → Bool
  | .run => false
  | .led other _ => other = idx

/-- The call asks something of the other LED. -/
def LedCall.isForOther (idx : LedIndex) : LedCall → Bool
  | .run => false
  | .led other _ => other ≠ idx

/-- The pin of an LED. -/
def Gpio.led (g : Gpio) : LedIndex → Bool
  | .green => g.green
  | .blue => g.blue

/-! ## One lamp -/

/-- One LED with its pin. -/
structure Lamp where
  led : Led
  level : Bool
  deriving DecidableEq, Repr

/-- An LED of the table with its pin. -/
def lamp (idx : LedIndex) (s : Leds × Gpio) : Lamp := { led := s.1.get idx, level := s.2.led idx }

/-- Turn a lamp on or off for good. -/
def Lamp.set (v : Lamp) (mode : LedMode) (level : Bool) : Lamp :=
  { led := { v.led with mode := mode }, level := level }

/-- What an LED does that is asked something. -/
def Lamp.op (ticks : UInt16) (v : Lamp) : LedOp → Lamp
  | .on => v.set .on true
  | .off => v.set .off false
  | .blink on off =>
      if on = 0 then v.set .off false
      else if off = 0 then v.set .on true
      else
        { led := { ton := on, toff := off, tmr := tmrSet ticks on, mode := .blinkOn }
          level := true }
  | .oneshot on =>
      if on ≠ 0 then
        { led := { v.led with mode := .oneshot, tmr := tmrSet ticks on }, level := true }
      else v.set .off false

/-- What an LED does in a pass. -/
def Lamp.process (ticks : UInt16) (v : Lamp) : Lamp :=
  if tmrExpired ticks v.led.tmr then
    match v.led.mode with
    | .blinkOff =>
        { led := { v.led with tmr := v.led.tmr + v.led.ton, mode := .blinkOn }, level := true }
    | .blinkOn =>
        { led := { v.led with tmr := v.led.tmr + v.led.toff, mode := .blinkOff }, level := false }
    | .oneshot => v.set .off false
    | _ => v
  else v

/-- What a call does to one LED. -/
def Lamp.call (idx : LedIndex) (now : Nat) (v : Lamp) : LedCall → Lamp
  | .run => v.process (UInt16.ofNat now)
  | .led other op => if other = idx then v.op (UInt16.ofNat now) op else v

/-- What is stored for an LED, in the table and at its pin, is what its lamp is. -/
theorem lamp_set_self (idx : LedIndex) (l : Leds) (g : Gpio) (led : Led) (level : Bool) :
    lamp idx (l.set idx led, g.setLed idx level) = { led := led, level := level } := by
  cases idx <;> rfl

/-- What is stored for an LED is not seen at the other one. -/
theorem lamp_set_other {idx other : LedIndex} (h : other ≠ idx) (l : Leds) (g : Gpio) (led : Led)
    (level : Bool) : lamp idx (l.set other led, g.setLed other level) = lamp idx (l, g) := by
  cases idx <;> cases other <;> first | rfl | exact absurd rfl h

/-- The blink machine of an LED. -/
theorem lamp_ledProcess_self (idx : LedIndex) (ticks : UInt16) (l : Leds) (g : Gpio) :
    lamp idx (ledProcess ticks idx l g) = (lamp idx (l, g)).process ticks := by
  have hled : (lamp idx (l, g)).led = l.get idx := rfl
  by_cases hexpired : tmrExpired ticks (l.get idx).tmr = true
  · simp only [ledProcess, Lamp.process, hled, hexpired, if_true]
    cases hmode : (l.get idx).mode with
    | blinkOff | blinkOn | oneshot => exact lamp_set_self ..
    | on | off => rfl
  · simp only [ledProcess, Lamp.process, hled, if_neg hexpired]

/-- The blink machine of the other LED. -/
theorem lamp_ledProcess_other {idx other : LedIndex} (h : other ≠ idx) (ticks : UInt16) (l : Leds)
    (g : Gpio) : lamp idx (ledProcess ticks other l g) = lamp idx (l, g) := by
  by_cases hexpired : tmrExpired ticks (l.get other).tmr = true
  · simp only [ledProcess, hexpired, if_true]
    cases hmode : (l.get other).mode with
    | blinkOff | blinkOn | oneshot => exact lamp_set_other h ..
    | on | off => rfl
  · simp only [ledProcess, if_neg hexpired]

/-- A pass runs the blink machine of each LED once. -/
theorem lamp_ledRun (idx : LedIndex) (ticks : UInt16) (l : Leds) (g : Gpio) :
    lamp idx (ledRun ticks l g) = (lamp idx (l, g)).process ticks := by
  cases idx with
  | green =>
      exact (lamp_ledProcess_other (by decide) ticks _ _).trans
        (lamp_ledProcess_self .green ticks l g)
  | blue =>
      have hgreen : lamp .blue (ledProcess ticks .green l g) = lamp .blue (l, g) :=
        lamp_ledProcess_other (by decide) ticks l g
      exact (lamp_ledProcess_self .blue ticks _ _).trans (congrArg (Lamp.process ticks) hgreen)

/-- What is asked of an LED. -/
theorem lamp_op_self (idx : LedIndex) (now : Nat) (s : Leds × Gpio) (op : LedOp) :
    lamp idx (ledCall now s (.led idx op)) = (lamp idx s).op (UInt16.ofNat now) op := by
  cases op with
  | on | off => exact lamp_set_self ..
  | blink on off =>
      simp only [ledCall, ledBlink, Lamp.op]
      split_ifs <;> exact lamp_set_self ..
  | oneshot on =>
      simp only [ledCall, ledOneshot, Lamp.op]
      split_ifs
      · cases idx <;> rfl
      · exact lamp_set_self ..

/-- What is asked of the other LED. -/
theorem lamp_op_other {idx other : LedIndex} (h : other ≠ idx) (now : Nat) (s : Leds × Gpio)
    (op : LedOp) : lamp idx (ledCall now s (.led other op)) = lamp idx s := by
  cases op with
  | on | off => exact lamp_set_other h ..
  | blink on off =>
      simp only [ledCall, ledBlink]
      split_ifs <;> exact lamp_set_other h ..
  | oneshot on =>
      simp only [ledCall, ledOneshot]
      split_ifs
      · cases idx <;> cases other <;> first | rfl | exact absurd rfl h
      · exact lamp_set_other h ..

/-- A call does to an LED of the table what it does to the lamp. -/
theorem lamp_ledCall (idx : LedIndex) (now : Nat) (s : Leds × Gpio) (call : LedCall) :
    lamp idx (ledCall now s call) = (lamp idx s).call idx now call := by
  cases call with
  | run => exact lamp_ledRun idx (UInt16.ofNat now) s.1 s.2
  | led other op =>
      by_cases hsame : other = idx
      · subst hsame
        rw [lamp_op_self, Lamp.call, if_pos rfl]
      · rw [lamp_op_other hsame, Lamp.call, if_neg hsame]

/-! ## Blinking -/

section Blink

variable {start first last now : Nat} {on off : UInt16} {v : Lamp}

/-- A lamp that blinks since a tick, in a phase from one tick to another. -/
structure Blinking (start : Nat) (on off : UInt16) (first last : Nat) (v : Lamp) : Prop where
  ton : v.led.ton = on
  toff : v.led.toff = off
  tmr : v.led.tmr = UInt16.ofNat last
  phase : ∃ cycles, let base := start + (on.toNat + off.toNat) * cycles
    (v.led.mode = .blinkOn ∧ v.level = true ∧ first = base ∧ last = base + on.toNat) ∨
    (v.led.mode = .blinkOff ∧ v.level = false ∧ first = base + on.toNat ∧
      last = base + on.toNat + off.toNat)

/-- A call of `led_blink` starts with the lamp on. -/
theorem Lamp.blink_blinking (start : Nat) (v : Lamp) (hon : on ≠ 0) (hoff : off ≠ 0) :
    Blinking start on off start (start + on.toNat) (v.op (UInt16.ofNat start) (.blink on off)) := by
  simp only [Lamp.op, if_neg hon, if_neg hoff]
  exact ⟨rfl, rfl, tmrSet_ofNat start on, 0, .inl ⟨rfl, rfl, by simp, by simp⟩⟩

/-- A phase lasts no longer than half the range of the tick counter. -/
theorem Blinking.length_le (h : Blinking start on off first last v) (hon : on.toNat ≤ 32767)
    (hoff : off.toNat ≤ 32767) : last ≤ first + 32767 := by
  obtain ⟨cycles, ⟨-, -, hfirst, hlast⟩ | ⟨-, -, hfirst, hlast⟩⟩ := h.phase
  · omega
  · omega

/-- Within the phase a pass changes nothing. -/
theorem Blinking.wait (h : Blinking start on off first last v) (hon : on.toNat ≤ 32767)
    (hoff : off.toNat ≤ 32767) (hfirst : first ≤ now) (hlast : now < last) :
    v.process (UInt16.ofNat now) = v := by
  have hlength := h.length_le hon hoff
  have hrunning : ¬tmrExpired (UInt16.ofNat now) v.led.tmr = true := by
    rw [h.tmr, tmrExpired_ofNat (by omega) (by omega)]
    omega
  rw [Lamp.process, if_neg hrunning]

/-- At the end of the phase a pass starts the other one. -/
theorem Blinking.switch (h : Blinking start on off first last v) (hon : on ≠ 0) (hoff : off ≠ 0) :
    ∃ next, last < next ∧ Blinking start on off last next (v.process (UInt16.ofNat last)) := by
  have hexpired : tmrExpired (UInt16.ofNat last) v.led.tmr = true := by
    rw [h.tmr]
    exact (tmrExpired_ofNat (by omega) (by omega)).mpr (Nat.le_refl last)
  have hnext (duration : UInt16) :
      v.led.tmr + duration = UInt16.ofNat (last + duration.toNat) := by
    rw [h.tmr, ← tmrSet_ofNat]
    rfl
  have hpos {duration : UInt16} (hne : duration ≠ 0) : 0 < duration.toNat :=
    Nat.pos_of_ne_zero fun hzero => hne (UInt16.toNat_inj.mp hzero)
  obtain ⟨cycles, ⟨hmode, -, -, hlast⟩ | ⟨hmode, -, -, hlast⟩⟩ := h.phase
  · refine ⟨last + off.toNat, by have := hpos hoff; omega, ?_⟩
    simp only [Lamp.process, hexpired, if_true, hmode]
    refine ⟨h.ton, h.toff, ?_, cycles, .inr ⟨rfl, rfl, hlast, by rw [hlast]⟩⟩
    rw [h.toff]
    exact hnext off
  · refine ⟨last + on.toNat, by have := hpos hon; omega, ?_⟩
    simp only [Lamp.process, hexpired, if_true, hmode]
    have hbase : last = start + (on.toNat + off.toNat) * (cycles + 1) := by
      rw [hlast, Nat.mul_succ]
      omega
    refine ⟨h.ton, h.toff, ?_, cycles + 1, .inl ⟨rfl, rfl, hbase, by rw [hbase]⟩⟩
    rw [h.ton]
    exact hnext on

/-- Within its phase the lamp is on for the first part of each period. -/
theorem Blinking.level_iff (h : Blinking start on off first last v) (hfirst : first ≤ now)
    (hlast : now < last) :
    v.level = true ↔ (now - start) % (on.toNat + off.toNat) < on.toNat := by
  obtain ⟨cycles, ⟨-, hlevel, hlow, hhigh⟩ | ⟨-, hlevel, hlow, hhigh⟩⟩ := h.phase
  · obtain ⟨into, rfl⟩ := Nat.exists_eq_add_of_le (hlow ▸ hfirst)
    have hmod : (start + (on.toNat + off.toNat) * cycles + into - start) %
        (on.toNat + off.toNat) = into := by
      rw [Nat.add_assoc, Nat.add_sub_cancel_left, Nat.mul_add_mod, Nat.mod_eq_of_lt (by omega)]
    rw [hlevel, hmod]
    exact iff_of_true rfl (by omega)
  · obtain ⟨into, rfl⟩ := Nat.exists_eq_add_of_le (hlow ▸ hfirst)
    have hmod : (start + (on.toNat + off.toNat) * cycles + on.toNat + into - start) %
        (on.toNat + off.toNat) = on.toNat + into := by
      rw [Nat.add_assoc, Nat.add_assoc, Nat.add_sub_cancel_left, Nat.mul_add_mod,
        Nat.mod_eq_of_lt (by omega)]
    rw [hlevel, hmod]
    exact iff_of_false Bool.false_ne_true (by omega)

/-- Before the pass of a tick, the end of a phase may not have been seen. -/
def BlinksBefore (start : Nat) (on off : UInt16) (now : Nat) (v : Lamp) : Prop :=
  ∃ first last, Blinking start on off first last v ∧ first ≤ now ∧ now ≤ last

/-- After the pass of a tick, the lamp is in the phase of the tick. -/
def BlinksAfter (start : Nat) (on off : UInt16) (now : Nat) (v : Lamp) : Prop :=
  ∃ first last, Blinking start on off first last v ∧ first ≤ now ∧ now < last

/-- A pass ends the phase that is over. -/
theorem BlinksBefore.process (h : BlinksBefore start on off now v) (hon : on ≠ 0) (hoff : off ≠ 0)
    (hshort : on.toNat ≤ 32767 ∧ off.toNat ≤ 32767) :
    BlinksAfter start on off now (v.process (UInt16.ofNat now)) := by
  obtain ⟨first, last, hblink, hfirst, hlast⟩ := h
  by_cases hend : now = last
  · obtain ⟨next, hnext, hswitch⟩ := hblink.switch hon hoff
    rw [hend]
    exact ⟨last, next, hswitch, Nat.le_refl last, hnext⟩
  · have hwithin : now < last := by omega
    rw [hblink.wait hshort.1 hshort.2 hfirst hwithin]
    exact ⟨first, last, hblink, hfirst, hwithin⟩

end Blink

/-! ## One shot -/

section Oneshot

variable {asked now : Nat} {on : UInt16} {v : Lamp}

/-- A lamp that a one-shot call keeps on up to a tick. -/
structure Shining (last : Nat) (v : Lamp) : Prop where
  mode : v.led.mode = .oneshot
  level : v.level = true
  tmr : v.led.tmr = UInt16.ofNat last

/-- A lamp that is off for good. -/
structure Dark (v : Lamp) : Prop where
  mode : v.led.mode = .off
  level : v.level = false

/-- Before the pass of a tick, the end of the duration may not have been seen. -/
def ShinesBefore (asked : Nat) (on : UInt16) (now : Nat) (v : Lamp) : Prop :=
  asked ≤ now ∧ ((Shining (asked + on.toNat) v ∧ now ≤ asked + on.toNat) ∨
    (Dark v ∧ asked + on.toNat ≤ now))

/-- After the pass of a tick, the lamp is on within the duration and off after it. -/
def ShinesAfter (asked : Nat) (on : UInt16) (now : Nat) (v : Lamp) : Prop :=
  asked ≤ now ∧ ((Shining (asked + on.toNat) v ∧ now < asked + on.toNat) ∨
    (Dark v ∧ asked + on.toNat ≤ now))

/-- A call of `led_oneshot` turns the lamp on, whatever it did before. -/
theorem Lamp.oneshot_shining (asked : Nat) (v : Lamp) (hon : on ≠ 0) :
    Shining (asked + on.toNat) (v.op (UInt16.ofNat asked) (.oneshot on)) := by
  simp only [Lamp.op, if_pos hon]
  exact ⟨rfl, rfl, tmrSet_ofNat asked on⟩

/-- A lamp that is off for good stays off. -/
theorem Dark.process (h : Dark v) (ticks : UInt16) : v.process ticks = v := by
  simp only [Lamp.process, h.mode]
  split_ifs <;> rfl

/-- A pass turns the lamp off when the duration is over. -/
theorem ShinesBefore.process (h : ShinesBefore asked on now v) (hshort : on.toNat ≤ 32767) :
    ShinesAfter asked on now (v.process (UInt16.ofNat now)) := by
  obtain ⟨hasked, ⟨hshining, hlast⟩ | ⟨hdark, hover⟩⟩ := h
  · have hexpired : tmrExpired (UInt16.ofNat now) v.led.tmr = true ↔ asked + on.toNat ≤ now := by
      rw [hshining.tmr]
      exact tmrExpired_ofNat (by omega) (by omega)
    by_cases hend : asked + on.toNat ≤ now
    · refine ⟨hasked, .inr ⟨?_, hend⟩⟩
      simp only [Lamp.process, hexpired.mpr hend, if_true, hshining.mode]
      exact ⟨rfl, rfl⟩
    · rw [Lamp.process, if_neg (fun hcontra => hend (hexpired.mp hcontra))]
      exact ⟨hasked, .inl ⟨hshining, by omega⟩⟩
  · rw [hdark.process]
    exact ⟨hasked, .inr ⟨hdark, hover⟩⟩

end Oneshot

/-! ## Runs of a lamp -/

/-- A call that asks nothing of an LED is a pass, or does nothing to it. -/
theorem Lamp.call_of_not_isFor {idx : LedIndex} {call : LedCall} (h : call.isFor idx = false)
    (now : Nat) (v : Lamp) :
    (call.isRun = true ∧ v.call idx now call = v.process (UInt16.ofNat now)) ∨
      (call.isRun = false ∧ v.call idx now call = v) := by
  cases call with
  | run => exact .inl ⟨rfl, rfl⟩
  | led other op => exact .inr ⟨rfl, if_neg (by simpa [LedCall.isFor] using h)⟩

/-- The invariant rule of a lamp that nothing is asked of while every tick has its pass. -/
theorem run_undisturbed {idx : LedIndex} {Before After : Nat → Lamp → Prop}
    (htick : ∀ now v, After now v → Before (now + 1) v)
    (hagain : ∀ now v, After now v → Before now v)
    (hprocess : ∀ now v, Before now v → After now (v.process (UInt16.ofNat now)))
    {c : Clocked Lamp} {events : List (ClockEvent LedCall)} (hinit : c.Within Before After)
    (hevents : Meets (Clocked.step (Lamp.call idx) LedCall.isRun)
      (Clocked.Timely fun call => call.isFor idx = false) c events) :
    (run (Clocked.step (Lamp.call idx) LedCall.isRun) c events).Within Before After := by
  refine Clocked.run_within htick ?_ ?_ ?_ hinit hevents
  · intro now v call hcall hpass h
    rcases Lamp.call_of_not_isFor hcall now v with ⟨-, heq⟩ | ⟨hnone, -⟩
    · rw [heq]
      exact hprocess now v h
    · rw [hpass] at hnone
      cases hnone
  · intro now v call hcall hpass h
    rcases Lamp.call_of_not_isFor hcall now v with ⟨hcontra, -⟩ | ⟨-, heq⟩
    · rw [hpass] at hcontra
      cases hcontra
    · rw [heq]
      exact h
  · intro now v call hcall h
    rcases Lamp.call_of_not_isFor hcall now v with ⟨-, heq⟩ | ⟨-, heq⟩
    · rw [heq]
      exact hprocess now v (hagain now v h)
    · rw [heq]
      exact h

/-- The waveform of a lamp that blinks. -/
theorem run_blinking {idx : LedIndex} {start : Nat} {on off : UInt16} {c : Clocked Lamp}
    {events : List (ClockEvent LedCall)} (hon : on ≠ 0) (hoff : off ≠ 0)
    (hshort : on.toNat ≤ 32767 ∧ off.toNat ≤ 32767)
    (hinit : c.Within (BlinksBefore start on off) (BlinksAfter start on off))
    (hevents : Meets (Clocked.step (Lamp.call idx) LedCall.isRun)
      (Clocked.Timely fun call => call.isFor idx = false) c events) :
    let last := run (Clocked.step (Lamp.call idx) LedCall.isRun) c events
    last.passed = true →
      (last.state.level = true ↔ (last.now - start) % (on.toNat + off.toNat) < on.toNat) := by
  intro last hpassed
  have hwithin : last.Within (BlinksBefore start on off) (BlinksAfter start on off) := by
    refine run_undisturbed ?_ ?_ (fun now v h => h.process hon hoff hshort) hinit hevents
    · rintro now v ⟨first, last, hblink, hfirst, hlast⟩
      exact ⟨first, last, hblink, by omega, by omega⟩
    · rintro now v ⟨first, last, hblink, hfirst, hlast⟩
      exact ⟨first, last, hblink, hfirst, Nat.le_of_lt hlast⟩
  rw [Clocked.Within, if_pos hpassed] at hwithin
  obtain ⟨first, last, hblink, hfirst, hlast⟩ := hwithin
  exact hblink.level_iff hfirst hlast

/-- The waveform of a lamp after a one-shot call. -/
theorem run_shining {idx : LedIndex} {asked : Nat} {on : UInt16} {c : Clocked Lamp}
    {events : List (ClockEvent LedCall)} (hshort : on.toNat ≤ 32767)
    (hinit : c.Within (ShinesBefore asked on) (ShinesAfter asked on))
    (hevents : Meets (Clocked.step (Lamp.call idx) LedCall.isRun)
      (Clocked.Timely fun call => call.isFor idx = false) c events) :
    let last := run (Clocked.step (Lamp.call idx) LedCall.isRun) c events
    last.passed = true → (last.state.level = true ↔ last.now < asked + on.toNat) := by
  intro last hpassed
  have hwithin : last.Within (ShinesBefore asked on) (ShinesAfter asked on) := by
    refine run_undisturbed ?_ ?_ (fun now v h => h.process hshort) hinit hevents
    · rintro now v ⟨hasked, ⟨hshining, hlast⟩ | ⟨hdark, hover⟩⟩
      · exact ⟨by omega, .inl ⟨hshining, by omega⟩⟩
      · exact ⟨by omega, .inr ⟨hdark, by omega⟩⟩
    · rintro now v ⟨hasked, ⟨hshining, hlast⟩ | ⟨hdark, hover⟩⟩
      · exact ⟨hasked, .inl ⟨hshining, Nat.le_of_lt hlast⟩⟩
      · exact ⟨hasked, .inr ⟨hdark, hover⟩⟩
  rw [Clocked.Within, if_pos hpassed] at hwithin
  obtain ⟨-, ⟨hshining, hlast⟩ | ⟨hdark, hover⟩⟩ := hwithin
  · exact iff_of_true hshining.level hlast
  · rw [hdark.level]
    exact iff_of_false Bool.false_ne_true (by omega)

/-! ## The waveforms -/

section Waveform

variable (idx : LedIndex) (s : Leds × Gpio) (start : Nat)

/-- A duration of at least a tick is not the zero that turns an LED on or off for good. -/
theorem duration_ne_zero {duration : UInt16} (h : 1 ≤ duration.toNat) : duration ≠ 0 := by
  rintro rfl
  exact absurd h (by decide)

/-- After `led_blink` the LED is on in the first part of each period. -/
theorem ledBlink_waveform {on off : UInt16} (hon : 1 ≤ on.toNat ∧ on.toNat ≤ 32767)
    (hoff : 1 ≤ off.toNat ∧ off.toNat ≤ 32767) {events : List (ClockEvent LedCall)}
    (hevents : Meets (Clocked.step ledCall LedCall.isRun)
      (Clocked.Timely fun call => call.isFor idx = false)
      (.start start (ledCall start s (.led idx (.blink on off)))) events) :
    let c := run (Clocked.step ledCall LedCall.isRun)
      (.start start (ledCall start s (.led idx (.blink on off)))) events
    c.passed = true →
      (c.state.2.led idx = true ↔ (c.now - start) % (on.toNat + off.toNat) < on.toNat) := by
  let blinking := Clocked.start start (ledCall start s (.led idx (.blink on off)))
  have hne := duration_ne_zero hon.1
  have hne' := duration_ne_zero hoff.1
  have hinit : (blinking.map (lamp idx)).Within (BlinksBefore start on off)
      (BlinksAfter start on off) := by
    refine Clocked.start_within
      ⟨start, start + on.toNat, ?_, Nat.le_refl start, Nat.lt_add_of_pos_right hon.1⟩
    have hstate : lamp idx blinking.state = _ := lamp_op_self idx start s (.blink on off)
    rw [hstate]
    exact (lamp idx s).blink_blinking start hne hne'
  have hwave := run_blinking hne hne' ⟨hon.2, hoff.2⟩ hinit
    ((Clocked.meets_map (lamp_ledCall idx) blinking events).mpr hevents)
  rw [← Clocked.map_run (lamp_ledCall idx)] at hwave
  exact hwave

/-- After `led_oneshot`, in any state, the LED is on for the duration of the call. -/
theorem ledOneshot_waveform (c : Clocked (Leds × Gpio)) {on : UInt16}
    (hon : 1 ≤ on.toNat ∧ on.toNat ≤ 32767) {events : List (ClockEvent LedCall)} :
    let asked := Clocked.step ledCall LedCall.isRun c (.call (.led idx (.oneshot on)))
    Meets (Clocked.step ledCall LedCall.isRun) (Clocked.Timely fun call => call.isFor idx = false)
      asked events →
      let last := run (Clocked.step ledCall LedCall.isRun) asked events
      last.passed = true → (last.state.2.led idx = true ↔ last.now < asked.now + on.toNat) := by
  intro asked hevents
  have hshining : Shining (asked.now + on.toNat) (lamp idx asked.state) := by
    have hstate : lamp idx asked.state = _ := lamp_op_self idx _ _ (.oneshot on)
    rw [hstate]
    exact Lamp.oneshot_shining _ _ (duration_ne_zero hon.1)
  have hinit : (asked.map (lamp idx)).Within (ShinesBefore asked.now on)
      (ShinesAfter asked.now on) :=
    Clocked.within_of_both ⟨Nat.le_refl _, .inl ⟨hshining, Nat.le_add_right _ _⟩⟩
      ⟨Nat.le_refl _, .inl ⟨hshining, Nat.lt_add_of_pos_right hon.1⟩⟩
  have hwave := run_shining hon.2 hinit
    ((Clocked.meets_map (lamp_ledCall idx) asked events).mpr hevents)
  rw [← Clocked.map_run (lamp_ledCall idx)] at hwave
  exact hwave

/-- The output of an LED is that of its lamp, run on its own. -/
theorem led_run_eq_lamp (events : List (ClockEvent LedCall)) :
    (run (Clocked.step ledCall LedCall.isRun) (.start start s) events).state.2.led idx =
      (run (Clocked.step (Lamp.call idx) LedCall.isRun) (.start start (lamp idx s))
        events).state.level := by
  have hmap :
      (run (Clocked.step ledCall LedCall.isRun) (.start start s) events).map (lamp idx) = _ :=
    Clocked.map_run (lamp_ledCall idx) (.start start s) events
  exact congrArg (fun c => c.state.level) hmap

/-- The calls of the other LED can be left out. -/
theorem led_run_without (events : List (ClockEvent LedCall)) :
    (run (Clocked.step ledCall LedCall.isRun) (.start start s) events).state.2.led idx =
      (run (Clocked.step ledCall LedCall.isRun) (.start start s)
        (Clocked.without (LedCall.isForOther idx) events)).state.2.led idx := by
  rw [led_run_eq_lamp, led_run_eq_lamp, Clocked.run_without]
  · intro now v call hskip
    cases call with
    | run => cases hskip
    | led other op => exact if_neg (by simpa [LedCall.isForOther] using hskip)
  · intro call hskip
    cases call with
    | run => cases hskip
    | led other op => rfl

end Waveform

/-- The waveform of each LED, from any state and any tick on. After `led_blink`, while nothing is
asked of the LED and every tick has its `led_run`, it is on in the first part of each period,
without drift. After the last of any calls that is a `led_oneshot` for it, it is on for the duration
of that call. And what is asked of one LED does not change the output of the other. -/
theorem led_waveform (idx : LedIndex) (s : Leds × Gpio) (start : Nat) :
    let system := Clocked.step ledCall LedCall.isRun
    let undisturbed := Meets system (Clocked.Timely fun call => call.isFor idx = false)
    (∀ on off : UInt16, 1 ≤ on.toNat ∧ on.toNat ≤ 32767 → 1 ≤ off.toNat ∧ off.toNat ≤ 32767 →
      let blinking := Clocked.start start (ledCall start s (.led idx (.blink on off)))
      ∀ events, undisturbed blinking events →
        let c := run system blinking events
        c.passed = true →
          (c.state.2.led idx = true ↔ (c.now - start) % (on.toNat + off.toNat) < on.toNat)) ∧
      (∀ before, ∀ on : UInt16, 1 ≤ on.toNat ∧ on.toNat ≤ 32767 →
        let asked := system (run system (.start start s) before) (.call (.led idx (.oneshot on)))
        ∀ events, undisturbed asked events →
          let c := run system asked events
          c.passed = true → (c.state.2.led idx = true ↔ c.now < asked.now + on.toNat)) ∧
      ∀ events, (run system (.start start s) events).state.2.led idx =
        (run system (.start start s)
          (Clocked.without (LedCall.isForOther idx) events)).state.2.led idx := by
  intro system undisturbed
  refine ⟨?_, ?_, ?_⟩
  · intro on off hon hoff blinking events hevents
    exact ledBlink_waveform idx s start hon hoff hevents
  · intro before on hon asked events hevents
    exact ledOneshot_waveform idx _ hon hevents
  · intro events
    exact led_run_without idx s start events

/-- The green LED blinks 100 ticks on and 300 off from tick 65530 on, and is on again 70000 ticks
later. -/
theorem led_waveform_green :
    let blinking := Clocked.start 65530
      (ledCall 65530 (Leds.init, Gpio.init) (.led .green (.blink 100 300)))
    let c := run (Clocked.step ledCall LedCall.isRun) blinking (Clocked.everyTick .run 70000)
    c.now = 65530 + 70000 ∧ c.state.2.led .green = true := by
  obtain ⟨htimely, hnow, hpassed⟩ := @Clocked.everyTick_timely (Leds × Gpio) LedCall ledCall
    LedCall.isRun (fun call => call.isFor .green = false) .run rfl rfl 70000
    (.start 65530 (ledCall 65530 (Leds.init, Gpio.init) (.led .green (.blink 100 300)))) rfl
  have hwave := (led_waveform .green (Leds.init, Gpio.init) 65530).1 100 300 (by decide) (by decide)
    _ htimely hpassed
  dsimp only at hwave ⊢
  rw [Clocked.start] at hnow hwave ⊢
  rw [hnow] at hwave ⊢
  exact ⟨rfl, hwave.mpr (by decide)⟩

end BmsNode
