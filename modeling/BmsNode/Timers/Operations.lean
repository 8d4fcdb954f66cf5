import BmsNode.Bytes.Word
import BmsNode.Firmware.Tmr
import Mathlib.Data.List.Basic

/-!
# The timer module as a system

The calls a client makes of the timer module and the tick interrupt, on the list of
scheduled timers. `TmrState.step` and `TmrState.result` are the effect and the result
of one operation, and the lemmas here say what `tmr_process` and `tmr_unschedule` do to
the list, so that later proofs need not unfold them.
-/

namespace BmsNode

/-- An operation on the timer module. -/
inductive TmrOp where
  | tick
  | schedule (ptr : Nat) (id : UInt8) (duration : UInt16) (periodic : Bool)
  | unschedule (ptr : Nat)
  | process
  deriving DecidableEq, Repr

/-- The state of the timer module: the tick counter and the scheduled timers in list order. -/
structure TmrState where
  systick : UInt16
  tmrlist : List Tmr
  deriving DecidableEq, Repr

/-- The effect of an operation. -/
def TmrState.step (timers : TmrState) : TmrOp → TmrState
  | .tick => { timers with systick := timers.systick + 1 }
  | .schedule ptr id duration periodic =>
      { timers with
        tmrlist := tmrSchedule timers.systick timers.tmrlist ptr id duration periodic }
  | .unschedule ptr => { timers with tmrlist := tmrUnschedule timers.tmrlist ptr }
  | .process => { timers with tmrlist := (tmrProcess timers.systick timers.tmrlist).2 }

/-- The pointer an operation returns, `none` for `NULL` and for an operation without a result. -/
def TmrState.result (timers : TmrState) : TmrOp → Option Nat
  | .process => (tmrProcess timers.systick timers.tmrlist).1.map Tmr.ptr
  | _ => none

/-- A timeout does not end before its duration has passed. -/
theorem tmrSet_running (now duration : UInt16) {k : Nat} (hk : k < duration.toNat)
    (hduration : duration.toNat ≤ 32768) :
    tmrExpired (now + UInt16.ofNat k) (tmrSet now duration) = false := by
  rw [tmrExpired, tmrSet, decide_eq_false_iff_not]
  exact Word.not_sub_lt_half now duration hk hduration

/-- A timeout set at a count of a counter that wraps is the count it ends at, wrapped. -/
theorem tmrSet_ofNat (now : Nat) (duration : UInt16) :
    tmrSet (UInt16.ofNat now) duration = UInt16.ofNat (now + duration.toNat) := by
  rw [tmrSet, UInt16.ofNat_add, UInt16.ofNat_toNat]

/-- A timeout is expired exactly when the count it ends at has been reached, when this is less than
half the range of the word away. -/
theorem tmrExpired_ofNat {now deadline : Nat} (hlead : deadline ≤ now + 32768)
    (hlag : now < deadline + 32768) :
    tmrExpired (UInt16.ofNat now) (UInt16.ofNat deadline) = true ↔ deadline ≤ now := by
  rw [tmrExpired, decide_eq_true_iff]
  exact Word.sub_lt_half_iff hlead hlag

/-- A refreshed periodic timer. -/
def Tmr.refresh (tmr : Tmr) : Tmr := { tmr with timeout := tmr.timeout + tmr.periodic }

/-- What `tmr_process` does when it finds no expired timer. -/
theorem tmrProcess_of_none {ticks : UInt16} {tmrlist : List Tmr}
    (h : tmrlist.find? (fun tmr => tmrExpired ticks tmr.timeout) = none) :
    tmrProcess ticks tmrlist = (none, tmrlist) := by
  induction tmrlist with
  | nil => rfl
  | cons tmr rest ih =>
      rw [List.find?_cons] at h
      cases hexpired : tmrExpired ticks tmr.timeout with
      | true => simp [hexpired] at h
      | false =>
          simp only [hexpired] at h
          simp [tmrProcess, hexpired, ih h]

/-- What `tmr_process` does with the first expired timer it finds. -/
theorem tmrProcess_of_some {ticks : UInt16} {tmrlist : List Tmr} {tmr : Tmr}
    (h : tmrlist.find? (fun tmr => tmrExpired ticks tmr.timeout) = some tmr) :
    ∃ before after, tmrlist = before ++ tmr :: after ∧
      tmrProcess ticks tmrlist =
        if tmr.periodic ≠ 0 then (some tmr.refresh, before ++ tmr.refresh :: after)
        else (some tmr, before ++ after) := by
  induction tmrlist with
  | nil => simp at h
  | cons first rest ih =>
      rw [List.find?_cons] at h
      cases hexpired : tmrExpired ticks first.timeout with
      | true =>
          have heq : first = tmr := by simpa [hexpired] using h
          subst heq
          refine ⟨[], rest, rfl, ?_⟩
          show (if tmrExpired ticks first.timeout then _ else _) = _
          rw [if_pos hexpired]
          rfl
      | false =>
          obtain ⟨before, after, hsplit, hprocess⟩ := ih (by simpa [hexpired] using h)
          refine ⟨first :: before, after, by rw [hsplit]; rfl, ?_⟩
          show (if tmrExpired ticks first.timeout then _ else _) = _
          rw [if_neg (by simp [hexpired]), hprocess]
          by_cases hperiodic : tmr.periodic ≠ 0
          · rw [if_pos hperiodic, if_pos hperiodic]
            rfl
          · rw [if_neg hperiodic, if_neg hperiodic]
            rfl

/-- Unscheduling a timer removes its address from the list of addresses. -/
theorem map_ptr_tmrUnschedule (tmrlist : List Tmr) (ptr : Nat) :
    (tmrUnschedule tmrlist ptr).map Tmr.ptr = (tmrlist.map Tmr.ptr).erase ptr := by
  rw [List.erase_eq_eraseP', List.eraseP_map]
  rfl

end BmsNode
