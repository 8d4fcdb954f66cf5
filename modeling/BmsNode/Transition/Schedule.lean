import Mathlib.Algebra.Order.Group.Nat
import Mathlib.Tactic.NormNum

/-!
# Periodic schedules

A job is due at a first tick and then one period after the other. It is done by polling:
a poll does it once if its next deadline has been reached, and moves that deadline by one
period, whatever tick it is. Polls no further apart than a period keep up with the
deadlines, so the number of jobs done at a poll is the number of deadlines up to it: a
late poll delays its job and none of the later ones.

A schedule that begins with its deadlines long over catches up, one job a poll. `finish`
bounds when a number of jobs will be done in any case, and no poll puts it off.
-/

namespace Transition

/-- A periodic job with the number of times it was done. -/
structure Schedule where
  first : Nat
  period : Nat
  taken : Nat
  deriving DecidableEq, Repr

namespace Schedule

/-- The next deadline. -/
def due (s : Schedule) : Nat := s.first + s.period * s.taken

/-- A poll does the job if its deadline has been reached. -/
def poll (now : Nat) (s : Schedule) : Schedule :=
  if s.due ≤ now then { s with taken := s.taken + 1 } else s

/-- Exactly the deadlines up to a tick have been met. -/
structure UpTo (tick : Nat) (s : Schedule) : Prop where
  ahead : tick < s.due
  met : 0 < s.taken → s.due ≤ tick + s.period

/-- The deadlines up to a tick. -/
def count (tick : Nat) (s : Schedule) : Nat :=
  if tick < s.first then 0 else (tick - s.first) / s.period + 1

/-- A job done moves its deadline by one period. -/
theorem due_taken (s : Schedule) : due { s with taken := s.taken + 1 } = s.due + s.period := by
  simp only [due, Nat.mul_add]
  omega

/-- Polling changes neither the first deadline nor the period. -/
theorem poll_frame (now : Nat) (s : Schedule) :
    (s.poll now).first = s.first ∧ (s.poll now).period = s.period := by
  unfold poll
  split_ifs
  · exact ⟨rfl, rfl⟩
  · exact ⟨rfl, rfl⟩

/-- A schedule that begins after a tick has met its deadlines up to it. -/
theorem UpTo.begin {tick first : Nat} (h : tick < first) (period : Nat) :
    UpTo tick ⟨first, period, 0⟩ := by
  refine ⟨?_, fun hpos => ?_⟩
  · simpa [due] using h
  · simp at hpos

/-- A poll within a period of the last one meets the deadlines up to itself. -/
theorem UpTo.poll {tick now : Nat} {s : Schedule} (h : UpTo tick s) (hle : tick ≤ now)
    (hnear : now ≤ tick + s.period) : UpTo now (s.poll now) := by
  have hahead := h.ahead
  unfold Schedule.poll
  split_ifs with hdue
  · have hnext := due_taken s
    refine ⟨?_, fun _ => ?_⟩
    · omega
    · rw [hnext]
      exact Nat.add_le_add_right hdue _
  · refine ⟨by omega, fun hpos => ?_⟩
    have hmet := h.met hpos
    omega

/-- The number of jobs done is the number of deadlines met. -/
theorem UpTo.taken_eq {tick : Nat} {s : Schedule} (h : UpTo tick s) (hperiod : 0 < s.period) :
    s.taken = s.count tick := by
  have hahead : tick < s.first + s.period * s.taken := h.ahead
  unfold count
  split_ifs with hfirst
  · -- before the first deadline nothing can have been done
    by_contra hne
    have hmet : s.first + s.period * s.taken ≤ tick + s.period := h.met (Nat.pos_of_ne_zero hne)
    have hone : s.period * 1 ≤ s.period * s.taken :=
      Nat.mul_le_mul_left _ (Nat.pos_of_ne_zero hne)
    omega
  · have hne : s.taken ≠ 0 := by
      intro hzero
      rw [hzero] at hahead
      omega
    obtain ⟨before, hbefore⟩ : ∃ before, s.taken = before + 1 :=
      Nat.exists_eq_succ_of_ne_zero hne
    have hmet : s.first + s.period * s.taken ≤ tick + s.period := h.met (Nat.pos_of_ne_zero hne)
    rw [hbefore, Nat.mul_add] at hahead hmet
    rw [hbefore, Nat.add_right_cancel_iff, eq_comm, Nat.div_eq_iff hperiod]
    rw [Nat.mul_comm before]
    omega

/-- The tick from which on a number of jobs are done, if polls go on to come within a period of each
other. -/
def finish (jobs polled : Nat) (s : Schedule) : Nat :=
  max s.due polled + s.period * (jobs - 1 - s.taken)

/-- A poll does not put it off. -/
theorem finish_poll {jobs polled now : Nat} {s : Schedule} (hle : polled ≤ now)
    (hnear : now ≤ polled + s.period) (hmore : (s.poll now).taken < jobs) :
    (s.poll now).finish jobs now ≤ s.finish jobs polled := by
  unfold Schedule.poll at hmore ⊢
  split_ifs at hmore ⊢ with hdue
  · obtain ⟨left, hleft⟩ : ∃ left, jobs - 1 - s.taken = left + 1 := by
      have htaken : s.taken + 1 < jobs := hmore
      exact ⟨jobs - 1 - s.taken - 1, by omega⟩
    have hnext : jobs - 1 - (s.taken + 1) = left := by omega
    have hdone : s.due + s.period = due { s with taken := s.taken + 1 } := (s.due_taken).symm
    rw [finish, finish, hleft, Nat.mul_succ]
    dsimp only
    rw [hnext]
    omega
  · rw [finish, finish]
    omega

/-- Until then it is not over. -/
theorem polled_le_finish (jobs polled : Nat) (s : Schedule) : polled ≤ s.finish jobs polled :=
  Nat.le_trans (Nat.le_max_right ..) (Nat.le_add_right ..)

end Schedule

end Transition
