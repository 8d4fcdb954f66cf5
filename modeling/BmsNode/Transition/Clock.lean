import BmsNode.Transition.Run

/-!
# Systems with a clock

A system whose calls read an unbounded clock that the tick event advances. Some calls
are passes, the periodic work that has to be done in every tick. `Timely` says that no
tick ends without one, and `run_within` is the invariant rule for such runs: one
predicate for a tick whose pass has been made, one for a tick whose pass is still to
come, and what each kind of event does to the two.
-/

namespace Transition

variable {σ τ α : Type*} {apply : Nat → σ → α → σ} {image : Nat → τ → α → τ} {pass : α → Bool}
  {allowed : α → Prop}

/-- What happens to a system with a clock: a tick, or a call. -/
inductive ClockEvent (α : Type*) where
  | tick
  | call (action : α)
  deriving DecidableEq

/-- The state of a system with the ticks counted, and whether a pass was made in this tick. -/
structure Clocked (σ : Type*) where
  state : σ
  now : Nat
  passed : Bool
  deriving DecidableEq

namespace Clocked

/-- A system at a tick that needs no pass any more. -/
def start (now : Nat) (state : σ) : Clocked σ := { state := state, now := now, passed := true }

/-- One event. -/
def step (apply : Nat → σ → α → σ) (pass : α → Bool) (c : Clocked σ) : ClockEvent α → Clocked σ
  | .tick => { c with now := c.now + 1, passed := false }
  | .call action =>
      { c with state := apply c.now c.state action, passed := c.passed || pass action }

/-- No tick ends without a pass, and every call is an allowed one. -/
def Timely (allowed : α → Prop) (c : Clocked σ) : ClockEvent α → Prop
  | .tick => c.passed = true
  | .call action => allowed action

/-- Whether an event is timely can be checked. -/
instance decidableTimely [DecidablePred allowed] : ∀ (c : Clocked σ) event,
    Decidable (Timely allowed c event)
  | c, .tick => inferInstanceAs (Decidable (c.passed = true))
  | _, .call action => inferInstanceAs (Decidable (allowed action))

/-- What holds of a tick's state before its first pass, and what after it. -/
def Within (Before After : Nat → σ → Prop) (c : Clocked σ) : Prop :=
  if c.passed then After c.now c.state else Before c.now c.state

variable {Before After : Nat → σ → Prop}

/-- A system that needs no pass any more is judged by what holds after one. -/
theorem start_within {now : Nat} {state : σ} (h : After now state) :
    (start now state).Within Before After := h

/-- What holds before and after the pass holds whether it was made or not. -/
theorem within_of_both {c : Clocked σ} (hbefore : Before c.now c.state)
    (hafter : After c.now c.state) : c.Within Before After := by
  rw [Within]
  split_ifs
  · exact hafter
  · exact hbefore

/-- The invariant rule of runs in which every tick has its pass. -/
theorem run_within (htick : ∀ now state, After now state → Before (now + 1) state)
    (hpass : ∀ now state action, allowed action → pass action = true → Before now state →
      After now (apply now state action))
    (hearly : ∀ now state action, allowed action → pass action = false → Before now state →
      Before now (apply now state action))
    (hlate : ∀ now state action, allowed action → After now state →
      After now (apply now state action))
    {c : Clocked σ} {events : List (ClockEvent α)} (hinit : c.Within Before After)
    (htimely : Meets (step apply pass) (Timely allowed) c events) :
    (run (step apply pass) c events).Within Before After := by
  refine run_invariant (P := Within Before After) (fun c event h hevent => ?_) hinit htimely
  obtain ⟨state, now, passed⟩ := c
  cases event with
  | tick =>
      obtain rfl : passed = true := hevent
      exact htick now state h
  | call action =>
      cases passed with
      | true => exact hlate now state action hevent h
      | false =>
          cases hkind : pass action with
          | true =>
              have hafter := hpass now state action hevent hkind h
              simpa [step, Within, hkind] using hafter
          | false =>
              have hbefore := hearly now state action hevent hkind h
              simpa [step, Within, hkind] using hbefore

/-! ## Parts of a system -/

/-- A part of the state, at the same tick. -/
def map (part : σ → τ) (c : Clocked σ) : Clocked τ :=
  { state := part c.state, now := c.now, passed := c.passed }

/-- An event on a part that its calls determine. -/
theorem map_step {part : σ → τ}
    (hpart : ∀ now state action, part (apply now state action) = image now (part state) action)
    (c : Clocked σ) (event : ClockEvent α) :
    (step apply pass c event).map part = step image pass (c.map part) event := by
  cases event with
  | tick => rfl
  | call action => simp only [step, map, hpart]

/-- A part that its calls determine runs on its own. -/
theorem map_run {part : σ → τ}
    (hpart : ∀ now state action, part (apply now state action) = image now (part state) action)
    (c : Clocked σ) (events : List (ClockEvent α)) :
    (run (step apply pass) c events).map part = run (step image pass) (c.map part) events :=
  run_map (map_step hpart) c events

/-- A run of the system is timely exactly when the run of the part is. -/
theorem meets_map {part : σ → τ}
    (hpart : ∀ now state action, part (apply now state action) = image now (part state) action)
    (c : Clocked σ) (events : List (ClockEvent α)) :
    Meets (step image pass) (Timely allowed) (c.map part) events ↔
      Meets (step apply pass) (Timely allowed) c events := by
  induction events generalizing c with
  | nil => exact Iff.rfl
  | cons event rest ih =>
      rw [Meets, Meets, ← map_step hpart, ih]
      cases event <;> rfl

/-- The events without the calls of a kind. -/
def without (skip : α → Bool) (events : List (ClockEvent α)) : List (ClockEvent α) :=
  events.filter fun event =>
    match event with
    | .tick => true
    | .call action => !skip action

/-- Calls that do nothing, and are no passes, can be left out. -/
theorem run_without {skip : α → Bool}
    (hskip : ∀ now state action, skip action = true → apply now state action = state)
    (hpass : ∀ action, skip action = true → pass action = false) (c : Clocked σ)
    (events : List (ClockEvent α)) :
    run (step apply pass) c (without skip events) = run (step apply pass) c events := by
  induction events generalizing c with
  | nil => rfl
  | cons event rest ih =>
      cases event with
      | tick => exact ih _
      | call action =>
          cases hkind : skip action with
          | false =>
              have hkeep : without skip (.call action :: rest) =
                  .call action :: without skip rest := by simp [without, hkind]
              rw [hkeep, run_cons, run_cons, ih]
          | true =>
              have hdrop : without skip (.call action :: rest) = without skip rest := by
                simp [without, hkind]
              have hnothing : step apply pass c (.call action) = c := by
                simp [step, hskip _ _ _ hkind, hpass _ hkind]
              rw [hdrop, run_cons, hnothing, ih]

/-! ## A pass in every tick -/

/-- A number of ticks with the same call in each. -/
def everyTick (action : α) : Nat → List (ClockEvent α)
  | 0 => []
  | ticks + 1 => .tick :: .call action :: everyTick action ticks

/-- A pass in every tick is timely and only moves the clock. -/
theorem everyTick_timely {action : α} (hallowed : allowed action) (hpass : pass action = true)
    (ticks : Nat) {c : Clocked σ} (hpassed : c.passed = true) :
    Meets (step apply pass) (Timely allowed) c (everyTick action ticks) ∧
      (run (step apply pass) c (everyTick action ticks)).now = c.now + ticks ∧
      (run (step apply pass) c (everyTick action ticks)).passed = true := by
  induction ticks generalizing c with
  | zero => exact ⟨trivial, rfl, hpassed⟩
  | succ ticks ih =>
      let next := step apply pass (step apply pass c .tick) (.call action)
      have hnext : next.passed = true := by
        show (false || pass action) = true
        rw [hpass]
        rfl
      obtain ⟨hmeets, hnow, hlast⟩ := ih hnext
      refine ⟨⟨hpassed, hallowed, hmeets⟩, hnow.trans ?_, hlast⟩
      show c.now + 1 + ticks = c.now + (ticks + 1)
      omega

end Clocked

end Transition
