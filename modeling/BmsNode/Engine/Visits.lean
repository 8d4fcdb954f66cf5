import BmsNode.Firmware.Kissm
import BmsNode.Transition.Run
import Mathlib.Data.List.Induction

/-!
# Visits to the states of the engine

`kissm_run` brackets the time in a state by its entry and exit actions. `recording` logs
every invocation of a handler with what it returned, and a `Visit` is what the log has
to look like while the engine is in one state. By induction on the events passed to
`kissm_run` the log is a sequence of finished visits and the present one, with each
event in exactly one of them.
-/

namespace BmsNode

open Transition

variable {σ ε ω : Type*}

/-! ## The log -/

/-- An invocation of the handler of an application state, with what it returned. -/
structure Invocation (σ ε : Type*) where
  state : σ
  event : ε
  returned : Option σ
  deriving DecidableEq

/-- A handler that also logs its invocations. -/
def recording (handler : σ → ε → ω → Option σ × ω) (state : σ) (event : ε)
    (data : ω × List (Invocation σ ε)) : Option σ × (ω × List (Invocation σ ε)) :=
  let (returned, next) := handler state event data.1
  (returned, (next, data.2 ++ [{ state := state, event := event, returned := returned }]))

/-- `kissm_run` on the engine's state and the data of the handlers. -/
def kissmStep [DecidableEq σ] (init : σ) (handler : σ → ε → ω → Option σ × ω) (exit entry : ε)
    (s : KissmState σ × ω) (event : ε) : KissmState σ × ω :=
  kissmRun init handler exit entry s.1 event s.2

/-- The engine without its log. -/
def unlogged (s : KissmState σ × (ω × List (Invocation σ ε))) : KissmState σ × ω := (s.1, s.2.1)

/-! ## Visits -/

/-- A visit to a state that has not ended: the entry action, and the events given to the state so
far, none of which was answered with another state. -/
structure Visit (σ ε : Type*) where
  state : σ
  entered : Option σ
  steps : List (ε × Option σ)
  stays : ∀ step ∈ steps, step.2 = none ∨ step.2 = some state

/-- A visit that an event has ended by an answer with another state, which led to the exit
action. -/
structure FinishedVisit (σ ε : Type*) extends Visit σ ε where
  event : ε
  next : σ
  left : Option σ
  moves : next ≠ state

/-- The invocations of a visit that has not ended. -/
def Visit.log (entry : ε) (v : Visit σ ε) : List (Invocation σ ε) :=
  ⟨v.state, entry, v.entered⟩ :: v.steps.map fun step => ⟨v.state, step.1, step.2⟩

/-- The invocations of a finished visit. -/
def FinishedVisit.log (exit entry : ε) (v : FinishedVisit σ ε) : List (Invocation σ ε) :=
  v.toVisit.log entry ++ [⟨v.state, v.event, some v.next⟩, ⟨v.state, exit, v.left⟩]

/-- The events given to the state in a visit. -/
def Visit.events (v : Visit σ ε) : List ε := v.steps.map Prod.fst

/-- The events given to the state in a finished visit. -/
def FinishedVisit.events (v : FinishedVisit σ ε) : List ε := v.toVisit.events ++ [v.event]

/-- A visit that has just begun. -/
def Visit.begin (state : σ) (entered : Option σ) : Visit σ ε :=
  { state := state, entered := entered, steps := [], stays := nofun }

/-- A visit after one more event that was not answered with another state. -/
def Visit.stay (v : Visit σ ε) (event : ε) (returned : Option σ)
    (h : returned = none ∨ returned = some v.state) : Visit σ ε :=
  { v with
    steps := v.steps ++ [(event, returned)]
    stays := by
      intro step hstep
      rcases List.mem_append.mp hstep with hold | hnew
      · exact v.stays step hold
      · rw [List.mem_singleton.mp hnew]
        exact h }

/-- What has happened since the first event: finished visits, each followed by one to the state it
ended with, and the present visit. -/
structure History (init : σ) (exit entry : ε) (events : List ε) (state : KissmState σ)
    (log : List (Invocation σ ε)) (finished : List (FinishedVisit σ ε)) (present : Visit σ ε) :
    Prop where
  state : state = .app present.state
  log : log = finished.flatMap (FinishedVisit.log exit entry) ++ present.log entry
  chain : init :: finished.map FinishedVisit.next =
    finished.map (fun v => v.state) ++ [present.state]
  events : finished.flatMap FinishedVisit.events ++ present.events = events

/-! ## The history after one more event -/

section History

variable {init : σ} {exit entry : ε} {events : List ε} {state : KissmState σ}
  {log : List (Invocation σ ε)} {finished : List (FinishedVisit σ ε)} {present : Visit σ ε}

/-- The first event begins the history. -/
theorem History.first (entered : Option σ) :
    History init exit entry [] (.app init) [⟨init, entry, entered⟩] [] (.begin init entered) :=
  ⟨rfl, rfl, rfl, rfl⟩

/-- The events of the visits are events passed to the engine. -/
theorem History.mem_events {event : ε}
    (h : History init exit entry events state log finished present)
    (hevent : (∃ v ∈ finished, event ∈ v.events) ∨ event ∈ present.events) : event ∈ events := by
  rw [← h.events, List.mem_append, List.mem_flatMap]
  exact hevent

/-- An event that is not answered with another state extends the present visit. -/
theorem History.stay {event : ε} {returned : Option σ}
    (h : History init exit entry events state log finished present)
    (hstay : returned = none ∨ returned = some present.state) :
    History init exit entry (events ++ [event]) (.app present.state)
      (log ++ [⟨present.state, event, returned⟩]) finished (present.stay event returned hstay) := by
  refine ⟨rfl, ?_, h.chain, ?_⟩
  · rw [h.log]
    simp [Visit.log, Visit.stay]
  · rw [← h.events]
    simp [Visit.events, Visit.stay]

/-- An event that is answered with another state ends the present visit and begins the next. -/
theorem History.move {event : ε} {next : σ}
    (h : History init exit entry events state log finished present) (hne : next ≠ present.state)
    (left entered : Option σ) :
    History init exit entry (events ++ [event]) (.app next)
      (log ++ [⟨present.state, event, some next⟩, ⟨present.state, exit, left⟩,
        ⟨next, entry, entered⟩])
      (finished ++ [{ present with event := event, next := next, left := left, moves := hne }])
      (.begin next entered) := by
  refine ⟨rfl, ?_, ?_, ?_⟩
  · rw [h.log]
    simp [FinishedVisit.log, Visit.log, Visit.begin]
  · have hchain := congrArg (· ++ [next]) h.chain
    simpa [Visit.begin] using hchain
  · rw [← h.events]
    simp [FinishedVisit.events, Visit.events, Visit.begin]

end History

/-! ## One call of `kissm_run` -/

section Step

variable [DecidableEq σ] (init : σ) (handler : σ → ε → ω → Option σ × ω) (exit entry : ε)

/-- The first event enters the application's initial state, and no handler sees it. -/
theorem kissmStep_first (event : ε) (data : ω) (log : List (Invocation σ ε)) :
    ∃ entered data', kissmStep init (recording handler) exit entry (.initial, (data, log)) event =
      (.app init, (data', log ++ [⟨init, entry, entered⟩])) := by
  refine ⟨(handler init entry data).1, (handler init entry data).2, ?_⟩
  simp [kissmStep, kissmRun, kissmHandler, recording]

/-- An event answered with `NULL` or the state itself is the only invocation. -/
theorem kissmStep_stay {handler : σ → ε → ω → Option σ × ω} {state : σ} {event : ε} {data : ω}
    (log : List (Invocation σ ε))
    (h : (handler state event data).1 = none ∨ (handler state event data).1 = some state) :
    ∃ data', kissmStep init (recording handler) exit entry (.app state, (data, log)) event =
      (.app state, (data', log ++ [⟨state, event, (handler state event data).1⟩])) := by
  refine ⟨(handler state event data).2, ?_⟩
  cases hcall : handler state event data with
  | mk returned data' =>
      rw [hcall] at h
      rcases h with rfl | rfl
      · simp [kissmStep, kissmRun, kissmHandler, recording, hcall]
      · simp [kissmStep, kissmRun, kissmHandler, recording, hcall]

/-- An event answered with another state leads to the exit action of the one and the entry action of
the other, whatever these return. -/
theorem kissmStep_move {handler : σ → ε → ω → Option σ × ω} {state next : σ} {event : ε}
    {data : ω} (log : List (Invocation σ ε))
    (h : (handler state event data).1 = some next) (hne : next ≠ state) :
    ∃ left entered data',
      kissmStep init (recording handler) exit entry (.app state, (data, log)) event =
        (.app next, (data', log ++ [⟨state, event, some next⟩, ⟨state, exit, left⟩,
          ⟨next, entry, entered⟩])) := by
  let first := (handler state event data).2
  let second := handler state exit first
  let third := handler next entry second.2
  refine ⟨second.1, third.1, third.2, ?_⟩
  cases hcall : handler state event data with
  | mk returned data' =>
      rw [hcall] at h
      subst h
      simp [kissmStep, kissmRun, kissmHandler, recording, hcall, hne, first, second, third]

/-- A call of `kissm_run` continues the history. -/
theorem History.step {events : List ε} {s : KissmState σ × (ω × List (Invocation σ ε))}
    {finished : List (FinishedVisit σ ε)} {present : Visit σ ε}
    (h : History init exit entry events s.1 s.2.2 finished present) (event : ε) :
    let s' := kissmStep init (recording handler) exit entry s event
    ∃ finished' present',
      History init exit entry (events ++ [event]) s'.1 s'.2.2 finished' present' := by
  intro s'
  obtain ⟨ps, data, log⟩ := s
  obtain rfl : ps = .app present.state := h.state
  by_cases hstay : (handler present.state event data).1 = none ∨
      (handler present.state event data).1 = some present.state
  · obtain ⟨data', hstep⟩ := kissmStep_stay init exit entry log hstay
    rw [show s' = _ from hstep]
    exact ⟨_, _, h.stay hstay⟩
  · rw [not_or] at hstay
    obtain ⟨next, hnext⟩ := Option.ne_none_iff_exists'.mp hstay.1
    have hne : next ≠ present.state := fun heq => hstay.2 (by rw [hnext, heq])
    obtain ⟨left, entered, data', hstep⟩ := kissmStep_move init exit entry log hnext hne
    rw [show s' = _ from hstep]
    exact ⟨_, _, h.move hne left entered⟩

/-- Every run of the engine has a history. -/
theorem run_visits (data : ω) (first : ε) (events : List ε) :
    let s := run (kissmStep init (recording handler) exit entry) (.initial, (data, []))
      (first :: events)
    ∃ finished present, History init exit entry events s.1 s.2.2 finished present := by
  induction events using List.reverseRecOn with
  | nil =>
      obtain ⟨entered, data', hstep⟩ := kissmStep_first init handler exit entry first data []
      rw [run_cons, run_nil, hstep]
      exact ⟨_, _, History.first entered⟩
  | append_singleton events event ih =>
      obtain ⟨finished, present, hhistory⟩ := ih
      rw [← List.cons_append, run_concat]
      exact hhistory.step init handler exit entry event

/-- Logging changes nothing of what the engine does. -/
theorem kissmStep_recording (s : KissmState σ × (ω × List (Invocation σ ε))) (event : ε) :
    unlogged (kissmStep init (recording handler) exit entry s event) =
      kissmStep init handler exit entry (unlogged s) event := by
  obtain ⟨ps, data, log⟩ := s
  cases ps with
  | initial => simp [unlogged, kissmStep, kissmRun, kissmHandler, recording]
  | app state =>
      cases hcall : handler state event data with
      | mk returned data' =>
          cases returned with
          | none => simp [unlogged, kissmStep, kissmRun, kissmHandler, recording, hcall]
          | some next =>
              by_cases hsame : next = state
              · simp [unlogged, kissmStep, kissmRun, kissmHandler, recording, hcall, hsame]
              · simp [unlogged, kissmStep, kissmRun, kissmHandler, recording, hcall, hsame]

end Step

/-! ## Every run -/

/-- The engine brackets every state, for handlers that answer anything and change any data, and for
any events passed to `kissm_run`. The handlers' invocations are the logs of visits: each begins with
the entry action of its state, goes on with events answered with `NULL` or the state itself, and
ends when an event is answered with another state, with the exit action, right before the visit to
that state begins. The visits share the events after the first among them, in order and each once,
so that no other entry or exit action comes between when none is passed to `kissm_run`. What entry
and exit actions return plays no part. The log is that of the engine without logging. -/
theorem kissm_visits [DecidableEq σ] (init : σ) (handler : σ → ε → ω → Option σ × ω)
    (exit entry : ε) (data : ω) (first : ε) (events : List ε) :
    let recorded := run (kissmStep init (recording handler) exit entry) (.initial, (data, []))
      (first :: events)
    unlogged recorded =
        run (kissmStep init handler exit entry) (.initial, data) (first :: events) ∧
      ∃ (finished : List (FinishedVisit σ ε)) (present : Visit σ ε),
        recorded.1 = .app present.state ∧
          recorded.2.2 = finished.flatMap (FinishedVisit.log exit entry) ++ present.log entry ∧
          init :: finished.map FinishedVisit.next =
            finished.map (fun v => v.state) ++ [present.state] ∧
          finished.flatMap FinishedVisit.events ++ present.events = events ∧
          ((∀ event ∈ events, event ≠ entry ∧ event ≠ exit) →
            (∀ v ∈ finished, ∀ event ∈ v.events, event ≠ entry ∧ event ≠ exit) ∧
              ∀ event ∈ present.events, event ≠ entry ∧ event ≠ exit) := by
  intro recorded
  refine ⟨?_, ?_⟩
  · exact run_map (kissmStep_recording init handler exit entry) _ (first :: events)
  · obtain ⟨finished, present, h⟩ := run_visits init handler exit entry data first events
    refine ⟨finished, present, h.state, h.log, h.chain, h.events, fun hplain => ⟨?_, ?_⟩⟩
    · intro v hv event hevent
      exact hplain event (h.mem_events (.inl ⟨v, hv, hevent⟩))
    · intro event hevent
      exact hplain event (h.mem_events (.inr hevent))

end BmsNode
