import Mathlib.Data.List.Basic

/-!
# The state machine engine

A model of `kissm.c` over an arbitrary application: `σ` are its states, `ε` its
events and `ω` the data its handlers read and change. A handler returns the next
state, or `none` where the source returns `NULL`.
-/

namespace BmsNode

variable {σ ε ω : Type*}

/-- The engine's present state: its own initial state or one of the application's. -/
inductive KissmState (σ : Type*) where
  | initial
  | app (state : σ)
  deriving DecidableEq

/-- The handler of a present state. The initial state passes on to `app_init_state`. -/
def kissmHandler (init : σ) (handler : σ → ε → ω → Option σ × ω) :
    KissmState σ → ε → ω → Option (KissmState σ) × ω
  | .initial, _, data => (some (.app init), data)
  | .app state, event, data =>
      let (next, data) := handler state event data
      (next.map .app, data)

/-- `kissm_run`: give the event to the present state, and exit it and enter the next one when the
handler returns a different state. -/
def kissmRun [DecidableEq σ] (init : σ) (handler : σ → ε → ω → Option σ × ω) (exit entry : ε)
    (ps : KissmState σ) (event : ε) (data : ω) : KissmState σ × ω :=
  match kissmHandler init handler ps event data with
  | (none, data) => (ps, data)
  | (some ns, data) =>
      if ns ≠ ps then
        let (_, data) := kissmHandler init handler ps exit data
        let (_, data) := kissmHandler init handler ns entry data
        (ns, data)
      else (ps, data)

section Rules

variable [DecidableEq σ] (init : σ) (handler : σ → ε → ω → Option σ × ω) (exit entry : ε)

/-- What `kissm_run` does: the handler of the present state alone, or also the exit action and the
entry action of a different next state. -/
theorem kissmRun_cases (ps : KissmState σ) (event : ε) (data : ω) :
    let first := kissmHandler init handler ps event data
    (kissmRun init handler exit entry ps event data = (ps, first.2) ∧
        (first.1 = none ∨ first.1 = some ps)) ∨
      ∃ ns, first.1 = some ns ∧ ns ≠ ps ∧
        kissmRun init handler exit entry ps event data =
          (ns, (kissmHandler init handler ns entry
            (kissmHandler init handler ps exit first.2).2).2) := by
  cases hfirst : kissmHandler init handler ps event data with
  | mk next data' =>
  cases next with
  | none => exact .inl ⟨by simp [kissmRun, hfirst], .inl rfl⟩
  | some ns =>
      by_cases hns : ns = ps
      · exact .inl ⟨by simp [kissmRun, hfirst, hns], .inr (by simp [hns])⟩
      · exact .inr ⟨ns, rfl, hns, by simp [kissmRun, hfirst, hns]⟩

/-- What every handler preserves, `kissm_run` preserves. -/
theorem kissmRun_preserves {P : ω → Prop}
    (hhandler : ∀ state event data, P data → P (handler state event data).2)
    (ps : KissmState σ) (event : ε) {data : ω} (hdata : P data) :
    P (kissmRun init handler exit entry ps event data).2 := by
  have hkissm (ps : KissmState σ) (event : ε) (data : ω) (h : P data) :
      P (kissmHandler init handler ps event data).2 := by
    cases ps with
    | initial => exact h
    | app state => exact hhandler state event data h
  obtain ⟨heq, -⟩ | ⟨ns, -, -, heq⟩ :=
    kissmRun_cases init handler exit entry ps event data
  · rw [heq]
    exact hkissm ps event data hdata
  · rw [heq]
    exact hkissm ns entry _ (hkissm ps exit _ (hkissm ps event data hdata))

end Rules

end BmsNode
