import Mathlib.Logic.Basic
import Mathlib.Data.List.Basic

/-!
# Runs of a system driven by actions

A system is a total step function on states `σ` and actions `α`. `run` folds it over a
list of actions, `Meets` says that every action of a run meets a condition in the
state it is taken in, and `trace` collects the events a run emits. An invariant needs
to be preserved only by the steps that meet the condition. `follow` is the run of a
partial specification automaton on events, and `run_simulation` is the simulation rule
between the two; `run_lockstep` compares two systems driven by the same actions.
-/

namespace Transition

variable {σ α ε τ : Type*} {step : σ → α → σ}

/-- The state after a list of actions. -/
def run (step : σ → α → σ) : σ → List α → σ
  | state, [] => state
  | state, action :: rest => run step (step state action) rest

/-- Every action of the run meets the condition in the state it is taken in. -/
def Meets (step : σ → α → σ) (cond : σ → α → Prop) : σ → List α → Prop
  | _, [] => True
  | state, action :: rest => cond state action ∧ Meets step cond (step state action) rest

/-- A decidable condition can be checked along a run. -/
instance decidableMeets {cond : σ → α → Prop} [∀ state action, Decidable (cond state action)] :
    ∀ state actions, Decidable (Meets step cond state actions)
  | _, [] => isTrue trivial
  | state, action :: rest =>
      have : Decidable (Meets step cond (step state action) rest) := decidableMeets _ rest
      inferInstanceAs (Decidable (cond state action ∧ Meets step cond (step state action) rest))

/-- The events emitted along a run. -/
def trace (step : σ → α → σ) (emit : σ → α → List ε) : σ → List α → List ε
  | _, [] => []
  | state, action :: rest => emit state action ++ trace step emit (step state action) rest

/-- The run of a specification automaton on a list of events, which stops at an event it does not
allow. -/
def follow (spec : τ → ε → Option τ) : τ → List ε → Option τ
  | state, [] => some state
  | state, event :: rest => (spec state event).bind fun next => follow spec next rest

@[simp] theorem run_nil (state : σ) : run step state [] = state := rfl

@[simp] theorem run_cons (state : σ) (action : α) (rest : List α) :
    run step state (action :: rest) = run step (step state action) rest := rfl

/-- A run of two lists is a run of the first and then of the second. -/
theorem run_append (state : σ) (first second : List α) :
    run step state (first ++ second) = run step (run step state first) second := by
  induction first generalizing state with
  | nil => rfl
  | cons action rest ih => exact ih (step state action)

/-- The last action of a run is a single step. -/
@[simp] theorem run_concat (state : σ) (actions : List α) (action : α) :
    run step state (actions ++ [action]) = step (run step state actions) action := by
  rw [run_append, run_cons, run_nil]

/-- A part of the state that its own step determines runs on its own. -/
theorem run_map {part : σ → τ} {other : τ → α → τ}
    (hpart : ∀ state action, part (step state action) = other (part state) action) (state : σ)
    (actions : List α) : part (run step state actions) = run other (part state) actions := by
  induction actions generalizing state with
  | nil => rfl
  | cons action rest ih => rw [run_cons, run_cons, ih, hpart]

/-- The events of two lists are those of the first and then those of the second. -/
theorem trace_append {emit : σ → α → List ε} (state : σ) (first second : List α) :
    trace step emit state (first ++ second) =
      trace step emit state first ++ trace step emit (run step state first) second := by
  induction first generalizing state with
  | nil => rfl
  | cons action rest ih =>
      rw [List.cons_append, trace, trace, ih, run_cons, List.append_assoc]

/-- Each event of a run replaced by a list. -/
theorem trace_flatMap {β : Type*} {emit : σ → α → List ε} (f : ε → List β) (state : σ)
    (actions : List α) :
    trace step (fun state action => (emit state action).flatMap f) state actions =
      (trace step emit state actions).flatMap f := by
  induction actions generalizing state with
  | nil => rfl
  | cons action rest ih => rw [trace, trace, List.flatMap_append, ih]

/-- What holds of all events that the actions of a run can emit holds of the events of the run. -/
theorem trace_forall {emit : σ → α → List ε} {P : ε → Prop} {actions : List α}
    (hemit : ∀ action ∈ actions, ∀ state, ∀ event ∈ emit state action, P event) (state : σ) :
    ∀ event ∈ trace step emit state actions, P event := by
  induction actions generalizing state with
  | nil => simp [trace]
  | cons action rest ih =>
      intro event hmem
      rcases List.mem_append.mp hmem with hfirst | hrest
      · exact hemit action (List.mem_cons_self ..) state event hfirst
      · exact ih (fun other hother => hemit other (List.mem_cons_of_mem _ hother)) _ event hrest

/-- A run whose actions emit nothing has no events. -/
theorem trace_eq_nil {cond : σ → α → Prop} {emit : σ → α → List ε}
    (hemit : ∀ state action, cond state action → emit state action = []) {state : σ}
    {actions : List α} (hmeets : Meets step cond state actions) :
    trace step emit state actions = [] := by
  induction actions generalizing state with
  | nil => rfl
  | cons action rest ih => rw [trace, hemit state action hmeets.1, ih hmeets.2, List.nil_append]

/-- A condition met along two lists is met along their concatenation, and conversely. -/
theorem meets_append {cond : σ → α → Prop} (state : σ) (first second : List α) :
    Meets step cond state (first ++ second) ↔
      Meets step cond state first ∧ Meets step cond (run step state first) second := by
  induction first generalizing state with
  | nil => simp [Meets]
  | cons action rest ih => simp [Meets, ih, and_assoc]

/-- A condition is met along a run when it holds of every action in the state the run takes it
in. -/
theorem meets_iff {cond : σ → α → Prop} (state : σ) (actions : List α) :
    Meets step cond state actions ↔
      ∀ done action rest, actions = done ++ action :: rest →
        cond (run step state done) action := by
  induction actions generalizing state with
  | nil => simp [Meets]
  | cons first actions ih =>
      rw [Meets, ih]
      constructor
      · rintro ⟨hfirst, hrest⟩ done action rest heq
        cases done with
        | nil =>
            obtain ⟨rfl, -⟩ := List.cons.inj heq
            exact hfirst
        | cons head done =>
            obtain ⟨rfl, htail⟩ := List.cons.inj heq
            exact hrest done action rest htail
      · intro h
        exact ⟨h [] first actions rfl, fun done action rest heq =>
          h (first :: done) action rest (by rw [heq]; rfl)⟩

/-- A condition on the actions alone is met along every run of them. -/
theorem meets_of_forall {cond : α → Prop} {actions : List α} (h : ∀ action ∈ actions, cond action)
    (state : σ) : Meets step (fun _ => cond) state actions := by
  rw [meets_iff]
  rintro done action rest rfl
  exact h action (by simp)

/-- Two conditions met along a run are met together. -/
theorem Meets.and {cond other : σ → α → Prop} {state : σ} {actions : List α}
    (h : Meets step cond state actions) (hother : Meets step other state actions) :
    Meets step (fun state action => cond state action ∧ other state action) state actions := by
  rw [meets_iff] at h hother ⊢
  exact fun done action rest heq => ⟨h done action rest heq, hother done action rest heq⟩

/-- The invariant rule: what holds at the start and is preserved by every step that meets the
condition holds at the end of every run that meets it. -/
theorem run_invariant {cond : σ → α → Prop} {P : σ → Prop}
    (hstep : ∀ state action, P state → cond state action → P (step state action))
    {state : σ} {actions : List α} (hinit : P state) (hmeets : Meets step cond state actions) :
    P (run step state actions) := by
  induction actions generalizing state with
  | nil => exact hinit
  | cons action rest ih => exact ih (hstep state action hinit hmeets.1) hmeets.2

/-- The invariant rule without a condition on the steps. -/
theorem run_invariant_always {P : σ → Prop}
    (hstep : ∀ state action, P state → P (step state action))
    {state : σ} (actions : List α) (hinit : P state) : P (run step state actions) := by
  induction actions generalizing state with
  | nil => exact hinit
  | cons action rest ih => exact ih (hstep state action hinit)

/-- The history rule: a relation between the state and the events emitted so far that every step
extends holds at the end of every run. -/
theorem run_history {emit : σ → α → List ε} {R : σ → List ε → Prop}
    (hstep : ∀ state action events, R state events →
      R (step state action) (events ++ emit state action))
    {state : σ} {events : List ε} (actions : List α) (hinit : R state events) :
    R (run step state actions) (events ++ trace step emit state actions) := by
  induction actions generalizing state events with
  | nil => simpa [trace] using hinit
  | cons action rest ih =>
      have hrest := ih (hstep state action events hinit)
      rw [List.append_assoc] at hrest
      exact hrest

/-- The history rule for the runs that meet a condition. -/
theorem run_history_meets {cond : σ → α → Prop} {emit : σ → α → List ε} {R : σ → List ε → Prop}
    (hstep : ∀ state action events, R state events → cond state action →
      R (step state action) (events ++ emit state action))
    {state : σ} {events : List ε} {actions : List α} (hinit : R state events)
    (hmeets : Meets step cond state actions) :
    R (run step state actions) (events ++ trace step emit state actions) := by
  induction actions generalizing state events with
  | nil => simpa [trace] using hinit
  | cons action rest ih =>
      have hrest := ih (hstep state action events hinit hmeets.1) hmeets.2
      rw [List.append_assoc] at hrest
      exact hrest

/-- The conservation rule of a queue: when every step hands out from the front of what the state
holds and adds what it takes in at the back, what was handed out over a run and what is still held
are what was held before and what was taken in. -/
theorem run_conserves {cond : σ → α → Prop} {P : σ → Prop} (into out : σ → α → List ε)
    (held : σ → List ε)
    (hkeep : ∀ state action, P state → cond state action → P (step state action))
    (hstep : ∀ state action, P state → cond state action →
      out state action ++ held (step state action) = held state ++ into state action)
    {state : σ} {actions : List α} (hinit : P state) (hmeets : Meets step cond state actions) :
    trace step out state actions ++ held (run step state actions) =
      held state ++ trace step into state actions := by
  induction actions generalizing state with
  | nil => simp [trace]
  | cons action rest ih =>
      have hrest := ih (hkeep state action hinit hmeets.1) hmeets.2
      rw [trace, trace, run_cons, List.append_assoc, hrest, ← List.append_assoc,
        hstep state action hinit hmeets.1, List.append_assoc]

/-- Following two lists is following the first and then the second. -/
theorem follow_append (spec : τ → ε → Option τ) (state : τ) (first second : List ε) :
    follow spec state (first ++ second) =
      (follow spec state first).bind fun next => follow spec next second := by
  induction first generalizing state with
  | nil => rfl
  | cons event rest ih =>
      simp only [List.cons_append, follow]
      cases spec state event with
      | none => rfl
      | some next => exact ih next

/-- The invariant rule of a specification: what each event keeps holds after all of them. -/
theorem follow_invariant {spec : τ → ε → Option τ} {P : τ → Prop} {events : List ε}
    (hkeep : ∀ event ∈ events, ∀ state next, P state → spec state event = some next → P next)
    {state last : τ} (hinit : P state) (hfollow : follow spec state events = some last) :
    P last := by
  induction events generalizing state with
  | nil =>
      obtain rfl := Option.some.inj hfollow
      exact hinit
  | cons event rest ih =>
      obtain ⟨next, hevent, hrest⟩ := Option.bind_eq_some_iff.mp hfollow
      exact ih (fun other hother => hkeep other (List.mem_cons_of_mem _ hother))
        (hkeep event (List.mem_cons_self ..) state next hinit hevent) hrest

/-- The simulation rule: when every step's events can be followed by the specification and lead to
related states again, so can the events of every run. -/
theorem run_simulation {emit : σ → α → List ε} {spec : τ → ε → Option τ} {R : σ → τ → Prop}
    (hstep : ∀ state action other, R state other →
      ∃ next, follow spec other (emit state action) = some next ∧ R (step state action) next)
    {state : σ} {other : τ} (actions : List α) (hinit : R state other) :
    ∃ last, follow spec other (trace step emit state actions) = some last ∧
      R (run step state actions) last := by
  induction actions generalizing state other with
  | nil => exact ⟨other, rfl, hinit⟩
  | cons action rest ih =>
      obtain ⟨next, hfollow, hrel⟩ := hstep state action other hinit
      obtain ⟨last, hrest, hlast⟩ := ih hrel
      refine ⟨last, ?_, hlast⟩
      rw [trace, follow_append, hfollow]
      exact hrest

/-- The lockstep rule: when the steps that meet the condition emit the same events in related states
and lead to related states, so do the runs that meet it. -/
theorem run_lockstep {cond : σ → α → Prop} {emit : σ → α → List ε} {other : τ → α → τ}
    {emitOther : τ → α → List ε} {R : σ → τ → Prop}
    (hstep : ∀ state image action, R state image → cond state action →
      emit state action = emitOther image action ∧ R (step state action) (other image action))
    {state : σ} {image : τ} {actions : List α} (hinit : R state image)
    (hmeets : Meets step cond state actions) :
    trace step emit state actions = trace other emitOther image actions ∧
      R (run step state actions) (run other image actions) := by
  induction actions generalizing state image with
  | nil => exact ⟨rfl, hinit⟩
  | cons action rest ih =>
      obtain ⟨hemit, hnext⟩ := hstep state image action hinit hmeets.1
      obtain ⟨hrest, hlast⟩ := ih hnext hmeets.2
      refine ⟨?_, hlast⟩
      rw [trace, trace, hemit, hrest]

end Transition
