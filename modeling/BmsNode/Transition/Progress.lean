import BmsNode.Transition.Run

/-!
# Progress of a system by counted actions

Some actions of a run count: those that do a piece of the work that is left. `rank`
bounds the pieces. When no other action adds work, more counted actions than the rank
cannot be taken without the goal being reached, in whatever order the actions come.
-/

namespace Transition

variable {σ α : Type*} {step : σ → α → σ} {counts : σ → α → Bool}

/-- The number of actions of a run that count in the state they are taken in. -/
def countOf (step : σ → α → σ) (counts : σ → α → Bool) : σ → List α → Nat
  | _, [] => 0
  | state, action :: rest =>
      (counts state action).toNat + countOf step counts (step state action) rest

/-- Actions that count in every state are those of the list. -/
theorem countOf_countP {q : α → Bool} (state : σ) (actions : List α) :
    countOf step (fun _ action => q action) state actions = actions.countP q := by
  induction actions generalizing state with
  | nil => rfl
  | cons action rest ih =>
      rw [countOf, ih, List.countP_cons, Nat.add_comm]
      cases q action with
      | true => rfl
      | false => rfl

/-- The progress rule: when up to an action the run waits for each counted action lowers the rank
and no other raises it, a run with more counted actions than the rank comes to that action. -/
theorem run_awaits {cond : σ → α → Prop} {P : σ → Prop} (awaited : σ → α → Prop) (rank : σ → Nat)
    (hstep : ∀ state action, P state → cond state action → ¬awaited state action →
      P (step state action) ∧ rank (step state action) + (counts state action).toNat ≤ rank state)
    {state : σ} {actions : List α} (hinit : P state) (hmeets : Meets step cond state actions)
    (hmany : rank state < countOf step counts state actions) :
    ∃ done action rest, actions = done ++ action :: rest ∧
      Meets step (fun state action => P state ∧ ¬awaited state action) state done ∧
      P (run step state done) ∧ awaited (run step state done) action := by
  -- the induction is on the run, with the rank of the state it starts from
  induction actions generalizing state with
  | nil => exact absurd hmany (Nat.not_lt_zero _)
  | cons action rest ih =>
      by_cases hawaited : awaited state action
      · exact ⟨[], action, rest, rfl, trivial, hinit, hawaited⟩
      · obtain ⟨hnext, hrank⟩ := hstep state action hinit hmeets.1 hawaited
        rw [countOf] at hmany
        obtain ⟨done, last, later, hsplit, hdone, hlast⟩ := ih hnext hmeets.2 (by omega)
        exact ⟨action :: done, last, later, by rw [hsplit]; rfl, ⟨⟨hinit, hawaited⟩, hdone⟩, hlast⟩

/-- The progress rule for a state to be reached. -/
theorem run_progress {cond : σ → α → Prop} {P : σ → Prop} (goal : σ → Prop) (rank : σ → Nat)
    (hstep : ∀ state action, P state → cond state action → ¬goal state →
      goal (step state action) ∨
        P (step state action) ∧
          rank (step state action) + (counts state action).toNat ≤ rank state)
    {state : σ} {actions : List α} (hinit : P state) (hmeets : Meets step cond state actions)
    (hmany : rank state < countOf step counts state actions) :
    ∃ done rest, actions = done ++ rest ∧ goal (run step state done) := by
  obtain ⟨done, action, rest, hsplit, -, -, hbefore | hafter⟩ :=
    run_awaits (fun state action => goal state ∨ goal (step state action)) rank
      (fun state action h hok hawaited =>
        (hstep state action h hok (mt .inl hawaited)).resolve_left (mt .inr hawaited))
      hinit hmeets hmany
  · exact ⟨done, action :: rest, hsplit, hbefore⟩
  · refine ⟨done ++ [action], rest, ?_, ?_⟩
    · rw [hsplit, List.append_assoc]
      rfl
    · rw [run_concat]
      exact hafter

/-- A run that ends in a state with a property comes to a first such state. -/
theorem run_first {cond : σ → α → Prop} {P : σ → Prop} (goal : σ → Prop)
    (hstep : ∀ state action, P state → cond state action → ¬goal state → P (step state action))
    {state : σ} {actions : List α} (hinit : P state) (hmeets : Meets step cond state actions)
    (hend : goal (run step state actions)) :
    ∃ done rest, actions = done ++ rest ∧
      Meets step (fun state _ => P state ∧ ¬goal state) state done ∧
      P (run step state done) ∧ goal (run step state done) := by
  induction actions generalizing state with
  | nil => exact ⟨[], [], rfl, trivial, hinit, hend⟩
  | cons action rest ih =>
      by_cases hgoal : goal state
      · exact ⟨[], action :: rest, rfl, trivial, hinit, hgoal⟩
      · obtain ⟨done, later, hsplit, hdone, hlast⟩ :=
          ih (hstep state action hinit hmeets.1 hgoal) hmeets.2 hend
        exact ⟨action :: done, later, by rw [hsplit]; rfl, ⟨⟨hinit, hgoal⟩, hdone⟩, hlast⟩

end Transition
