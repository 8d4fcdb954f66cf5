import Mathlib.Data.List.Basic

/-!
# The timer module

A model of `tmr.c`: timeouts on the wrapping 16-bit tick counter and the list of
scheduled timers. Functions take the tick count they read as their first argument.
The intrusive list is the list of its timers in link order; `ptr` is the address of
the caller's `struct tmr`.
-/

namespace BmsNode

/-- A scheduled `struct tmr`. -/
structure Tmr where
  ptr : Nat
  timeout : UInt16
  periodic : UInt16
  id : UInt8
  deriving DecidableEq, Repr

/-- `tmr_set`: the tick at which a timeout set now expires. -/
def tmrSet (ticks millisec : UInt16) : UInt16 := ticks + millisec

/-- `tmr_expired`. -/
def tmrExpired (ticks tmrset : UInt16) : Bool := ticks - tmrset < 32768

/-- `tmr_unschedule`: unlink the timer if it is in the list. -/
def tmrUnschedule (tmrlist : List Tmr) (ptr : Nat) : List Tmr :=
  tmrlist.eraseP fun tmr => tmr.ptr = ptr

/-- `tmr_schedule`: unlink the timer, fill it in and put it at the front. -/
def tmrSchedule (ticks : UInt16) (tmrlist : List Tmr) (ptr : Nat) (id : UInt8) (duration : UInt16)
    (periodic : Bool) : List Tmr :=
  { ptr := ptr
    timeout := tmrSet ticks duration
    periodic := if periodic then duration else 0
    id := id } :: tmrUnschedule tmrlist ptr

/-- `tmr_process`: the first expired timer, refreshed when it is periodic and unlinked when it is
not. -/
def tmrProcess (ticks : UInt16) : List Tmr → Option Tmr × List Tmr
  | [] => (none, [])
  | tmr :: rest =>
      if tmrExpired ticks tmr.timeout then
        if tmr.periodic ≠ 0 then
          let tmr := { tmr with timeout := tmr.timeout + tmr.periodic }
          (some tmr, tmr :: rest)
        else (some tmr, rest)
      else
        let (expired, rest) := tmrProcess ticks rest
        (expired, tmr :: rest)

end BmsNode
