import BmsNode.Timers.Operations
import BmsNode.Transition.Run
import Mathlib.Data.List.Forall2

/-!
# The timers as ideal timers

The purpose of the timer module, free of its 16-bit counter: an unbounded clock and
timers with deadlines that are natural numbers. The module refines this machine as long
as it is polled often enough, that is, when no more than 32767 ticks pass without a
`tmr_process` call that returns `NULL`. The invariant bounds every deadline from both
sides: it lies after the last such call and at most 32767 ticks ahead of the clock, which
keeps the wrapped comparison of `tmr_expired` exact.
-/

namespace BmsNode

open Transition

/-- An ideal timer, which is periodic when it has a period. -/
structure IdealTmr where
  ptr : Nat
  deadline : Nat
  period : Option Nat
  deriving DecidableEq, Repr

/-- The ideal timer machine: the ticks counted and the timers in list order. -/
structure Ideal where
  now : Nat
  timers : List IdealTmr
  deriving DecidableEq, Repr

namespace Ideal

/-- The first timer whose deadline has been reached; a periodic one is moved on by its period and
a one-shot leaves the list. -/
def process (now : Nat) : List IdealTmr → Option IdealTmr × List IdealTmr
  | [] => (none, [])
  | timer :: rest =>
      if timer.deadline ≤ now then
        match timer.period with
        | some period =>
            let timer := { timer with deadline := timer.deadline + period }
            (some timer, timer :: rest)
        | none => (some timer, rest)
      else
        let (reached, rest) := process now rest
        (reached, timer :: rest)

/-- The timers without the one at `ptr`. -/
def remove (timers : List IdealTmr) (ptr : Nat) : List IdealTmr :=
  timers.eraseP fun timer => timer.ptr = ptr

/-- The effect of an operation on the ideal machine. -/
def step (ideal : Ideal) : TmrOp → Ideal
  | .tick => { ideal with now := ideal.now + 1 }
  | .schedule ptr _ duration periodic =>
      { ideal with
        timers :=
          { ptr := ptr
            deadline := ideal.now + duration.toNat
            period := if periodic then some duration.toNat else none } ::
            remove ideal.timers ptr }
  | .unschedule ptr => { ideal with timers := remove ideal.timers ptr }
  | .process => { ideal with timers := (process ideal.now ideal.timers).2 }

/-- The timer each `tmr_process` call is to return. -/
def returned (ideal : Ideal) : TmrOp → List (Option Nat)
  | .process => [(process ideal.now ideal.timers).1.map IdealTmr.ptr]
  | _ => []

end Ideal

/-- The timer module with the number of ticks since `tmr_process` last returned `NULL`. -/
structure PolledTmr where
  timers : TmrState
  since : Nat
  deriving DecidableEq, Repr

namespace PolledTmr

/-- The timer module at a count of its tick counter, with no timer scheduled. -/
def start (systick : UInt16) : PolledTmr :=
  { timers := { systick := systick, tmrlist := [] }, since := 0 }

/-- An operation on the timer module. -/
def step (polled : PolledTmr) (op : TmrOp) : PolledTmr where
  timers := polled.timers.step op
  since :=
    match op with
    | .tick => polled.since + 1
    | .process => if polled.timers.result .process = none then 0 else polled.since
    | _ => polled.since

/-- The timer each `tmr_process` call returns. -/
def returned (polled : PolledTmr) : TmrOp → List (Option Nat)
  | .process => [polled.timers.result .process]
  | _ => []

/-- What the clients promise: durations in the documented range, and a `tmr_process` call that
returns `NULL` in every 32767 ticks. -/
def Timely (polled : PolledTmr) : TmrOp → Prop
  | .tick => polled.since < 32767
  | .schedule _ _ duration _ => 0 < duration ∧ duration ≤ 32767
  | .unschedule _ => True
  | .process => True

/-- The promise can be checked. -/
instance (polled : PolledTmr) : ∀ op, Decidable (polled.Timely op)
  | .tick => inferInstanceAs (Decidable (_ < _))
  | .schedule _ _ _ _ => inferInstanceAs (Decidable (_ ∧ _))
  | .unschedule _ => isTrue trivial
  | .process => isTrue trivial

end PolledTmr

/-- A timer tracks an ideal timer: it has the same owner and period, its timeout is the deadline
wrapped, and the deadline lies between the last empty poll and 32767 ticks from now. -/
structure Tmr.Tracks (last now : Nat) (tmr : Tmr) (ideal : IdealTmr) : Prop where
  ptr : tmr.ptr = ideal.ptr
  timeout : tmr.timeout = UInt16.ofNat ideal.deadline
  periodic : tmr.periodic = UInt16.ofNat (ideal.period.getD 0)
  period : ∀ period ∈ ideal.period, 0 < period ∧ period ≤ 32767
  later : last < ideal.deadline
  near : ideal.deadline ≤ now + 32767

/-- The timer is expired exactly when the deadline has been reached. -/
theorem Tmr.Tracks.expired_iff {last now : Nat} {tmr : Tmr} {ideal : IdealTmr}
    (h : tmr.Tracks last now ideal) (hpolled : now ≤ last + 32767) :
    tmrExpired (UInt16.ofNat now) tmr.timeout = true ↔ ideal.deadline ≤ now := by
  have hlater := h.later
  have hnear := h.near
  rw [h.timeout]
  exact tmrExpired_ofNat (by omega) (by omega)

/-- A timer is refreshed exactly when it has a period. -/
theorem Tmr.Tracks.periodic_ne_zero {last now : Nat} {tmr : Tmr} {ideal : IdealTmr}
    (h : tmr.Tracks last now ideal) : tmr.periodic ≠ 0 ↔ ideal.period.isSome := by
  rw [h.periodic]
  cases hperiod : ideal.period with
  | none => simp
  | some period =>
      have hrange := h.period period hperiod
      simp only [Option.getD_some, Option.isSome_some, iff_true]
      intro hzero
      have hnat := congrArg UInt16.toNat hzero
      rw [UInt16.toNat_ofNat'] at hnat
      change period % 65536 = 0 at hnat
      omega

/-- A later clock and the same last empty poll leave a timer tracking. -/
theorem Tmr.Tracks.tick {last now : Nat} {tmr : Tmr} {ideal : IdealTmr}
    (h : tmr.Tracks last now ideal) : tmr.Tracks last (now + 1) ideal :=
  { h with near := by have hnear := h.near; omega }

/-- Moving a reached deadline on by the period keeps a timer tracking. -/
theorem Tmr.Tracks.refresh {last now : Nat} {tmr : Tmr} {ideal : IdealTmr} {period : Nat}
    (h : tmr.Tracks last now ideal) (hperiod : ideal.period = some period)
    (hreached : ideal.deadline ≤ now) :
    tmr.refresh.Tracks last now { ideal with deadline := ideal.deadline + period } := by
  have hrange := h.period period hperiod
  have hlater := h.later
  refine ⟨h.ptr, ?_, h.periodic, h.period, ?_, ?_⟩
  · show tmr.timeout + tmr.periodic = UInt16.ofNat (ideal.deadline + period)
    rw [h.timeout, h.periodic, hperiod, UInt16.ofNat_add]
    rfl
  · show last < ideal.deadline + period
    omega
  · show ideal.deadline + period ≤ now + 32767
    omega

/-- A timer scheduled now tracks the ideal timer scheduled now. -/
theorem Tmr.Tracks.scheduled {last now : Nat} (ptr : Nat) (id : UInt8) {duration : UInt16}
    (periodic : Bool) (hlast : last ≤ now) (hduration : 0 < duration ∧ duration ≤ 32767) :
    Tmr.Tracks last now
      { ptr := ptr
        timeout := tmrSet (UInt16.ofNat now) duration
        periodic := if periodic then duration else 0
        id := id }
      { ptr := ptr
        deadline := now + duration.toNat
        period := if periodic then some duration.toNat else none } := by
  have hpos : 0 < duration.toNat := UInt16.lt_iff_toNat_lt.mp hduration.1
  have hmax : duration.toNat ≤ 32767 := UInt16.le_iff_toNat_le.mp hduration.2
  refine ⟨rfl, ?_, ?_, ?_, ?_, ?_⟩
  · exact tmrSet_ofNat now duration
  · cases periodic with
    | true => exact UInt16.ofNat_toNat.symm
    | false => rfl
  · intro period hmem
    cases periodic with
    | true =>
        have heq : duration.toNat = period := Option.some.inj hmem
        omega
    | false => cases hmem
  · show last < now + duration.toNat
    omega
  · show now + duration.toNat ≤ now + 32767
    omega

/-- The lists of timers, entry by entry. -/
def Tracking (last now : Nat) (tmrlist : List Tmr) (timers : List IdealTmr) : Prop :=
  List.Forall₂ (Tmr.Tracks last now) tmrlist timers

/-- The lists are in the same order. -/
theorem Tracking.map_ptr {last now : Nat} {tmrlist : List Tmr} {timers : List IdealTmr}
    (h : Tracking last now tmrlist timers) :
    tmrlist.map Tmr.ptr = timers.map IdealTmr.ptr := by
  induction h with
  | nil => rfl
  | cons hfirst _ ih => rw [List.map_cons, List.map_cons, hfirst.ptr, ih]

/-- Removing the timer at an address keeps the lists tracking. -/
theorem Tracking.remove {last now : Nat} {tmrlist : List Tmr} {timers : List IdealTmr}
    (h : Tracking last now tmrlist timers) (ptr : Nat) :
    Tracking last now (tmrUnschedule tmrlist ptr) (Ideal.remove timers ptr) := by
  unfold tmrUnschedule Ideal.remove
  induction h with
  | nil => exact .nil
  | @cons tmr ideal rest others hfirst hrest ih =>
      rw [List.eraseP_cons, List.eraseP_cons, hfirst.ptr]
      cases decide (ideal.ptr = ptr) with
      | true => exact hrest
      | false => exact .cons hfirst ih

/-- `tmr_process` returns the timer the ideal machine returns and keeps the lists tracking; when it
returns none, every deadline is still ahead. -/
theorem Tracking.process {last now : Nat} {tmrlist : List Tmr} {timers : List IdealTmr}
    (h : Tracking last now tmrlist timers) (hpolled : now ≤ last + 32767) :
    (tmrProcess (UInt16.ofNat now) tmrlist).1.map Tmr.ptr =
        (Ideal.process now timers).1.map IdealTmr.ptr ∧
      Tracking last now (tmrProcess (UInt16.ofNat now) tmrlist).2 (Ideal.process now timers).2 ∧
      ((Ideal.process now timers).1 = none →
        Tracking now now (tmrProcess (UInt16.ofNat now) tmrlist).2
          (Ideal.process now timers).2) := by
  induction h with
  | nil => exact ⟨rfl, .nil, fun _ => .nil⟩
  | @cons tmr ideal rest others hfirst hrest ih =>
      rw [tmrProcess, Ideal.process]
      by_cases hreached : ideal.deadline ≤ now
      · rw [if_pos ((hfirst.expired_iff hpolled).mpr hreached), if_pos hreached]
        cases hperiod : ideal.period with
        | some period =>
            rw [if_pos (hfirst.periodic_ne_zero.mpr (by rw [hperiod]; rfl))]
            have hrefresh := hfirst.refresh hperiod hreached
            rw [hperiod] at hrefresh
            exact ⟨congrArg some hfirst.ptr, .cons hrefresh hrest, fun hnone => by cases hnone⟩
        | none =>
            rw [if_neg (mt hfirst.periodic_ne_zero.mp (by rw [hperiod]; simp))]
            exact ⟨congrArg some hfirst.ptr, hrest, fun hnone => by cases hnone⟩
      · rw [if_neg (mt (hfirst.expired_iff hpolled).mp hreached), if_neg hreached]
        obtain ⟨hresult, htracking, hahead⟩ := ih
        refine ⟨hresult, .cons hfirst htracking, fun hnone => ?_⟩
        exact .cons { hfirst with later := Nat.lt_of_not_le hreached } (hahead hnone)

/-- The relation between the timer module and the ideal machine. -/
structure PolledTmr.Refines (polled : PolledTmr) (ideal : Ideal) : Prop where
  systick : polled.timers.systick = UInt16.ofNat ideal.now
  polls : polled.since ≤ 32767 ∧ polled.since ≤ ideal.now
  tracking : Tracking (ideal.now - polled.since) ideal.now polled.timers.tmrlist ideal.timers

/-- Every timely operation returns what the ideal machine returns and keeps the relation. -/
theorem PolledTmr.Refines.step {polled : PolledTmr} {ideal : Ideal} {op : TmrOp}
    (h : polled.Refines ideal) (htimely : polled.Timely op) :
    polled.returned op = ideal.returned op ∧ (polled.step op).Refines (ideal.step op) := by
  obtain ⟨hmax, hstart⟩ := h.polls
  cases op with
  | tick =>
      have hroom : polled.since < 32767 := htimely
      refine ⟨rfl, ?_, ?_, ?_⟩
      · show polled.timers.systick + 1 = UInt16.ofNat (ideal.now + 1)
        rw [h.systick, UInt16.ofNat_add]
        rfl
      · show polled.since + 1 ≤ 32767 ∧ polled.since + 1 ≤ ideal.now + 1
        omega
      · show Tracking (ideal.now + 1 - (polled.since + 1)) (ideal.now + 1) _ _
        rw [Nat.add_sub_add_right]
        exact h.tracking.imp fun tmr timer htracks => htracks.tick
  | schedule ptr id duration periodic =>
      refine ⟨rfl, h.systick, h.polls, ?_⟩
      show Tracking _ _ (_ :: tmrUnschedule _ ptr) (_ :: Ideal.remove _ ptr)
      refine .cons ?_ (h.tracking.remove ptr)
      rw [h.systick]
      exact Tmr.Tracks.scheduled ptr id periodic (Nat.sub_le ..) htimely
  | unschedule ptr => exact ⟨rfl, h.systick, h.polls, h.tracking.remove ptr⟩
  | process =>
      obtain ⟨hresult, htracking, hahead⟩ := h.tracking.process (by omega)
      rw [← h.systick] at hresult htracking hahead
      refine ⟨congrArg (fun result => [result]) hresult, h.systick, ?_, ?_⟩
      · show (if _ then _ else _) ≤ _ ∧ (if _ then _ else _) ≤ _
        split
        · exact ⟨Nat.zero_le _, Nat.zero_le _⟩
        · exact h.polls
      · show Tracking (ideal.now - if _ then _ else _) ideal.now _ _
        split
        · rename_i hnull
          have hnone : (Ideal.process ideal.now ideal.timers).1 = none := by
            rw [TmrState.result, hresult] at hnull
            exact Option.map_eq_none_iff.mp hnull
          exact hahead hnone
        · exact htracking

/-- The 16-bit timers refine ideal timers: in every timely run, from any count of the tick counter,
every `tmr_process` call returns the timer the ideal machine returns, and the timers stay in the
ideal machine's order. -/
theorem tmr_refines_ideal (systick : UInt16) (ops : List TmrOp)
    (htimely : Meets PolledTmr.step PolledTmr.Timely (PolledTmr.start systick) ops) :
    let ideal : Ideal := { now := systick.toNat, timers := [] }
    trace PolledTmr.step PolledTmr.returned (PolledTmr.start systick) ops =
        trace Ideal.step Ideal.returned ideal ops ∧
      (run PolledTmr.step (PolledTmr.start systick) ops).timers.tmrlist.map Tmr.ptr =
        (run Ideal.step ideal ops).timers.map IdealTmr.ptr := by
  intro ideal
  have hinit : (PolledTmr.start systick).Refines ideal :=
    ⟨UInt16.ofNat_toNat.symm, ⟨Nat.zero_le _, Nat.zero_le _⟩, .nil⟩
  have hstep : ∀ polled ideal op, PolledTmr.Refines polled ideal → polled.Timely op →
      polled.returned op = ideal.returned op ∧ (polled.step op).Refines (ideal.step op) :=
    fun polled ideal op h hop => h.step hop
  obtain ⟨hreturned, hlast⟩ := run_lockstep hstep hinit htimely
  exact ⟨hreturned, hlast.tracking.map_ptr⟩

/-- A periodic timer and a one-shot across the wrap of the tick counter. -/
theorem tmr_refines_ideal_wrap :
    let ops := [.schedule 1 1 1 true, .schedule 2 2 2 false, .tick, .process, .process, .tick,
      .process, .process, .process]
    let ideal : Ideal := { now := 65535, timers := [] }
    trace PolledTmr.step PolledTmr.returned (PolledTmr.start 65535) ops =
        trace Ideal.step Ideal.returned ideal ops ∧
      (run PolledTmr.step (PolledTmr.start 65535) ops).timers.tmrlist.map Tmr.ptr =
        (run Ideal.step ideal ops).timers.map IdealTmr.ptr :=
  tmr_refines_ideal 65535 _ (by decide)

end BmsNode
