import Mathlib.Data.List.Basic
import Mathlib.Data.List.Nodup

/-!
# Polling a list of jobs

`poll serve` walks a list of jobs up to the first one that is ready and serves it once.
What is left of the job, if anything, keeps its place. Polling starts at the front each
time, so a job that stays ready hides the ones behind it. `drain` polls until no job is
ready. `Turns` says how often a single job is served and what is left of it then, and
`drain_eq` that a list whose jobs all come to an end is drained in that many calls, every
job getting its turns.
-/

namespace Polling

variable {α ν : Type*} {serve : α → Option (Option α)} {name : α → ν}

/-- Serve the first job that is ready: the job served, and the list afterwards. -/
def poll (serve : α → Option (Option α)) : List α → Option α × List α
  | [] => (none, [])
  | job :: rest =>
      match serve job with
      | some left => (some job, left.toList ++ rest)
      | none =>
          let (served, rest) := poll serve rest
          (served, job :: rest)

/-- Poll until no job is ready, for a number of calls at most: the names of the jobs served, in
order, and the list afterwards. -/
def drain (serve : α → Option (Option α)) (name : α → ν) : Nat → List α → Option (List ν × List α)
  | 0, _ => none
  | calls + 1, jobs =>
      match poll serve jobs with
      | (none, jobs) => some ([], jobs)
      | (some job, jobs) =>
          (drain serve name calls jobs).map fun (served, last) => (name job :: served, last)

/-- Polling never makes the list longer. -/
theorem length_poll_le (serve : α → Option (Option α)) (jobs : List α) :
    (poll serve jobs).2.length ≤ jobs.length := by
  induction jobs with
  | nil => exact Nat.le_refl _
  | cons job rest ih =>
      cases hserve : serve job with
      | none =>
          simp only [poll, hserve, List.length_cons]
          omega
      | some left =>
          cases left <;> simp [poll, hserve]

/-- A job is served this often until it is not ready, and this is what is left of it. -/
inductive Turns (serve : α → Option (Option α)) : α → Nat → Option α → Prop where
  | idle {job : α} : serve job = none → Turns serve job 0 (some job)
  | done {job : α} : serve job = some none → Turns serve job 1 none
  | again {job left : α} {turns : Nat} {last : Option α} :
      serve job = some (some left) → Turns serve left turns last →
      Turns serve job (turns + 1) last

/-- What is left of a job at the end is not ready. -/
theorem Turns.idle_last {job : α} {turns : Nat} {last : Option α} (h : Turns serve job turns last) :
    ∀ left ∈ last, serve left = none := by
  induction h with
  | idle hidle =>
      rintro left hleft
      rwa [← Option.some.inj hleft]
  | done => simp
  | again _ _ ih => exact ih

/-- A job that is ready is served before all others. -/
theorem drain_ready {job : α} {left : Option α} (h : serve job = some left) (calls : Nat)
    (rest : List α) :
    drain serve name (calls + 1) (job :: rest) =
      (drain serve name calls (left.toList ++ rest)).map fun (served, last) =>
        (name job :: served, last) := by
  simp [drain, poll, h]

/-- A job that is not ready is passed over. -/
theorem drain_idle {job : α} (h : serve job = none) (calls : Nat) (rest : List α) :
    drain serve name calls (job :: rest) =
      (drain serve name calls rest).map fun (served, last) => (served, job :: last) := by
  induction calls generalizing rest with
  | zero => rfl
  | succ calls ih =>
      have hpoll : poll serve (job :: rest) =
          ((poll serve rest).1, job :: (poll serve rest).2) := by simp [poll, h]
      rw [drain, drain, hpoll]
      cases hfirst : poll serve rest with
      | mk served after =>
          cases served with
          | none => rfl
          | some other =>
              simp only [ih, Option.map_map]
              rfl

/-- The first job gets all its turns before the others. -/
theorem Turns.drain {job : α} {turns : Nat} {last : Option α} (h : Turns serve job turns last)
    (hname : ∀ job left, serve job = some (some left) → name left = name job) {calls : Nat}
    {rest after : List α} {served : List ν}
    (hrest : drain serve name calls rest = some (served, after)) :
    Polling.drain serve name (turns + calls) (job :: rest) =
      some (List.replicate turns (name job) ++ served, last.toList ++ after) := by
  induction h with
  | idle hidle =>
      rw [drain_idle hidle, Nat.zero_add, hrest]
      rfl
  | done hdone =>
      rw [Nat.add_comm, drain_ready hdone]
      exact congrArg _ hrest
  | again hagain _ ih =>
      rw [Nat.add_right_comm, drain_ready hagain]
      simp [ih, hname _ _ hagain, List.replicate_succ]

/-- Draining ends when every job comes to an end. The jobs are served in list order, each as often
as it has turns, and what is left of them keeps the order. -/
theorem drain_eq {turns : α → Nat} {last : α → Option α} {jobs : List α}
    (hname : ∀ job left, serve job = some (some left) → name left = name job)
    (hturns : ∀ job ∈ jobs, Turns serve job (turns job) (last job)) :
    let served := jobs.flatMap fun job => List.replicate (turns job) (name job)
    drain serve name (served.length + 1) jobs = some (served, jobs.filterMap last) := by
  induction jobs with
  | nil => rfl
  | cons job rest ih =>
      have hrest := ih fun other hmem => hturns other (List.mem_cons_of_mem _ hmem)
      have hjob := (hturns job (List.mem_cons_self ..)).drain hname hrest
      rw [← Nat.add_assoc] at hjob
      simp only [List.flatMap_cons, List.length_append, List.length_replicate]
      rw [hjob]
      cases hlast : last job <;> simp [hlast]

/-- Among jobs of different names, each name occurs as often as its job has turns. -/
theorem count_turns [DecidableEq ν] {turns : α → Nat} {jobs : List α}
    (hnodup : (jobs.map name).Nodup) {job : α} (hjob : job ∈ jobs) :
    (jobs.flatMap fun job => List.replicate (turns job) (name job)).count (name job) =
      turns job := by
  induction jobs with
  | nil => cases hjob
  | cons first rest ih =>
      rw [List.map_cons, List.nodup_cons] at hnodup
      rw [List.flatMap_cons, List.count_append, List.count_replicate]
      rcases List.mem_cons.mp hjob with rfl | hrest
      · have hout : name job ∉ rest.flatMap fun job => List.replicate (turns job) (name job) := by
          intro hmem
          obtain ⟨other, hother, hsame⟩ := List.mem_flatMap.mp hmem
          rw [List.eq_of_mem_replicate hsame] at hnodup
          exact hnodup.1 (List.mem_map_of_mem hother)
        simp [List.count_eq_zero.mpr hout]
      · have hne : name first ≠ name job := by
          intro heq
          rw [heq] at hnodup
          exact hnodup.1 (List.mem_map_of_mem hrest)
        simp [hne, ih hnodup.2 hrest]

end Polling
