import BmsNode.Firmware.List
import BmsNode.Firmware.Tmr

/-!
# The timer module on its own memory

`Firmware.Tmr` models the scheduled timers as a list. Here `tmr.c` works, as in the
source, on the callers' `struct tmr` records chained through `p_next` from the list head
`tmrlist`. A record that was never scheduled holds whatever its caller left in it.
-/

namespace BmsNode

/-- The address of a list node: the list head of the module or a caller's `struct tmr`. -/
inductive TmrAddr where
  | tmrlist
  | tmr (ptr : Nat)
  deriving DecidableEq, Repr

/-- The memory `tmr.c` works on, one function for each member of `struct tmr`. -/
structure TmrHeap where
  systick : UInt16
  p_next : TmrAddr → Option TmrAddr
  timeout : TmrAddr → UInt16
  periodic : TmrAddr → UInt16
  id : TmrAddr → UInt8

namespace TmrHeap

/-- `tmr_init`. -/
def tmrInit (heap : TmrHeap) : TmrHeap :=
  { heap with p_next := Function.update heap.p_next .tmrlist none }

/-- `tmr_unschedule`. -/
def tmrUnschedule (fuel : Nat) (heap : TmrHeap) (p_tmr : TmrAddr) : Option TmrHeap :=
  (listRemove fuel heap.p_next .tmrlist p_tmr).map fun p_next => { heap with p_next := p_next }

/-- `tmr_schedule`. -/
def tmrSchedule (fuel : Nat) (heap : TmrHeap) (p_tmr : TmrAddr) (id : UInt8) (duration : UInt16)
    (periodic : Bool) : Option TmrHeap :=
  (heap.tmrUnschedule fuel p_tmr).map fun heap =>
    { heap with
      id := Function.update heap.id p_tmr id
      periodic := Function.update heap.periodic p_tmr (if periodic then duration else 0)
      timeout := Function.update heap.timeout p_tmr (tmrSet heap.systick duration)
      p_next := listAdd heap.p_next .tmrlist p_tmr }

/-- The branch of `tmr_process` for an expired timer. -/
def tmrProcessExpired (fuel : Nat) (heap : TmrHeap) (p_tmr : TmrAddr) :
    Option (Option TmrAddr × TmrHeap) :=
  if heap.periodic p_tmr ≠ 0 then
    let timeout := heap.timeout p_tmr + heap.periodic p_tmr
    some (some p_tmr, { heap with timeout := Function.update heap.timeout p_tmr timeout })
  else
    (listRemove fuel heap.p_next .tmrlist p_tmr).map fun p_next =>
      (some p_tmr, { heap with p_next := p_next })

/-- The loop of `tmr_process`, at the timer `p_tmr`. -/
def tmrProcessLoop (limit : Nat) (heap : TmrHeap) :
    Nat → Option TmrAddr → Option (Option TmrAddr × TmrHeap)
  | 0, _ => none
  | _ + 1, none => some (none, heap)
  | fuel + 1, some p_tmr =>
      if tmrExpired heap.systick (heap.timeout p_tmr) then heap.tmrProcessExpired limit p_tmr
      else tmrProcessLoop limit heap fuel (listIter heap.p_next (some p_tmr))

/-- `tmr_process`. -/
def tmrProcess (fuel : Nat) (heap : TmrHeap) : Option (Option TmrAddr × TmrHeap) :=
  heap.tmrProcessLoop fuel fuel (listIter heap.p_next (some .tmrlist))

end TmrHeap

end BmsNode
