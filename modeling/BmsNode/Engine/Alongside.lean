import BmsNode.Firmware.Kissm

/-!
# Data beside the data of the handlers

The handlers of an application can act on something they never read. `alongside` gives
such data to every invocation of a handler, and `passed` is what becomes of them in one
call of `kissm_run`, which then depends only on the states before and after the call.
-/

namespace BmsNode

variable {σ ε ω τ : Type*}

/-- A handler that also changes data it does not read. -/
def alongside (handler : σ → ε → ω → Option σ × ω) (update : σ → ε → τ → τ) (state : σ) (event : ε)
    (data : ω × τ) : Option σ × (ω × τ) :=
  let (returned, next) := handler state event data.1
  (returned, (next, update state event data.2))

/-- The changes of one call of `kissm_run` that leads from one state of the engine to another. -/
def passed [DecidableEq σ] (update : σ → ε → τ → τ) (exit entry : ε) (event : ε) :
    KissmState σ → KissmState σ → τ → τ
  | .initial, .initial, extra => extra
  | .initial, .app next, extra => update next entry extra
  | .app state, .initial, extra => update state event extra
  | .app state, .app next, extra =>
      if next = state then update state event extra
      else update next entry (update state exit (update state event extra))

/-- The engine does what it does without the other data, and these change along. -/
theorem kissmRun_alongside [DecidableEq σ] (init : σ) (handler : σ → ε → ω → Option σ × ω)
    (update : σ → ε → τ → τ) (exit entry : ε) (ps : KissmState σ) (event : ε) (data : ω)
    (extra : τ) :
    let plain := kissmRun init handler exit entry ps event data
    kissmRun init (alongside handler update) exit entry ps event (data, extra) =
      (plain.1, (plain.2, passed update exit entry event ps plain.1 extra)) := by
  cases ps with
  | initial => simp [kissmRun, kissmHandler, alongside, passed]
  | app state =>
      cases hcall : handler state event data with
      | mk returned next =>
          cases returned with
          | none => simp [kissmRun, kissmHandler, alongside, passed, hcall]
          | some other =>
              by_cases hsame : other = state
              · simp [kissmRun, kissmHandler, alongside, passed, hcall, hsame]
              · simp [kissmRun, kissmHandler, alongside, passed, hcall, hsame]

end BmsNode
