import BmsNode.Transition.Broadcast

/-!
# Rounds on a broadcast bus

A round puts one frame on the bus and ends when no party has anything left to process.
`settled` says what a round with one responder leaves behind, whatever the order in
which the parties processed their messages. `Rounds` are rounds one after the other, with
a condition on the actions in them, and `Rounds.refines` is the simulation rule between
them and the runs of a system that takes one frame at a step.
-/

namespace Broadcast

open Transition

variable {ι σ φ β τ : Type*} [DecidableEq ι] {react : ι → σ → φ → σ × List (Sending φ)}
  {work : σ → β → σ}

/-- No party has anything left to process. -/
def State.Quiet (s : State ι σ φ) : Prop := ∀ i, s.inbox i = []

/-- The frames sent. -/
def State.frames (s : State ι σ φ) : List φ := s.log.map Sent.frame

/-- Every frame sent went out. -/
def State.AllOut (s : State ι σ φ) : Prop := ∀ sent ∈ s.log, sent.out = true

/-- A party whose frames go out keeps it so. -/
theorem State.AllOut.next {s : State ι σ φ} (h : s.AllOut) {action : Action ι β}
    (hout : ∀ i message rest, action = .process i → s.inbox i = message :: rest →
      ∀ r ∈ (react i (s.parties i) message.frame).2, r.out = true) :
    (step react work s action).AllOut := by
  cases action with
  | other i job => exact h
  | process i =>
      cases hinbox : s.inbox i with
      | nil => simpa [step, hinbox] using h
      | cons message rest =>
          have hnew := hout i message rest rfl hinbox
          simp only [step, hinbox]
          intro sent hsent
          rcases List.mem_append.mp hsent with hold | hnewer
          · exact h sent hold
          · obtain ⟨r, hr, rfl⟩ := List.mem_map.mp hnewer
            exact hnew r hr

/-- When frames go out under a condition on the actions, every frame of a run that meets it went
out. -/
theorem run_allOut {ok : State ι σ φ → Action ι β → Prop} {parties : ι → σ} {frame : φ}
    {actions : List (Action ι β)}
    (hok : Meets (step react work) ok (start parties frame) actions)
    (hout : ∀ s i message rest, ok s (.process i) → s.inbox i = message :: rest →
      ∀ r ∈ (react i (s.parties i) message.frame).2, r.out = true) :
    (run (step react work) (start parties frame) actions).AllOut := by
  refine run_invariant (P := State.AllOut) (fun s action h hok => h.next ?_) ?_ hok
  · rintro i message rest rfl hinbox
    exact hout s i message rest hok hinbox
  · intro sent hsent
    cases hsent

section Responder

variable {frame : φ} {responder : ι} {fresh idle : ι → σ → Prop} {answer : φ → Prop}
  {done : σ → List φ → Prop} {s : State ι σ φ}

/-- What the responder is like once it has processed the frame, with the frames it has sent. -/
structure Finishes (react : ι → σ → φ → σ × List (Sending φ)) (work : σ → β → σ) (frame : φ)
    (responder : ι) (fresh : ι → σ → Prop) (done : σ → List φ → Prop) : Prop where
  work_done : ∀ party job frames, done party frames → done (work party job) frames
  reaches : ∀ party, fresh responder party →
    done (react responder party frame).1 ((react responder party frame).2.map Sending.frame)

/-- The responder has the frame still before it, or is done. -/
def Finished (responder : ι) (done : σ → List φ → Prop) (s : State ι σ φ) : Prop :=
  s.inbox responder = [] → done (s.parties responder) s.frames

/-- A party other than the responder sends nothing and does not concern the responder. -/
theorem OneResponder.other_silent (h : OneResponder frame responder fresh idle answer s)
    (hrules : Rules react work frame responder fresh idle answer) {j : ι} (hj : j ≠ responder) :
    let next := step react work s (.process j : Action ι β)
    next.parties responder = s.parties responder ∧
      (next.inbox responder = [] → s.inbox responder = []) ∧ next.log = s.log := by
  intro next
  obtain ⟨answers, hanswers, hwait⟩ := h.others j hj
  cases hinbox : s.inbox j with
  | nil =>
      have hsame : next = s := by simp [next, step, hinbox]
      rw [hsame]
      exact ⟨rfl, id, rfl⟩
  | cons message rest =>
      have hsilent : (react j (s.parties j) message.frame).2 = [] := by
        rcases hwait with ⟨hfirst, hfresh⟩ | ⟨hfirst, hidle⟩
        · obtain ⟨rfl, -⟩ := List.cons.inj (hinbox.symm.trans hfirst)
          exact (hrules.silent j _ hj hfresh).1
        · cases answers with
          | nil => rw [hinbox] at hfirst; cases hfirst
          | cons r answers =>
              obtain ⟨rfl, -⟩ := List.cons.inj (hinbox.symm.trans hfirst)
              exact (hrules.ignore j _ r hj hidle (hanswers r (by simp))).1
      have hnext : next = _ := step_silent hinbox hsilent
      rw [hnext]
      refine ⟨Function.update_of_ne hj.symm .., ?_, rfl⟩
      intro hempty
      simpa [hj.symm] using hempty

/-- Every action keeps a responder that is done so. -/
theorem Finished.next (h : Finished responder done s)
    (hone : OneResponder frame responder fresh idle answer s)
    (hrules : Rules react work frame responder fresh idle answer)
    (hfinishes : Finishes react work frame responder fresh done) (action : Action ι β) :
    Finished responder done (step react work s action) := by
  cases action with
  | other i job =>
      intro hempty
      have hdone := h hempty
      by_cases hi : responder = i
      · subst hi
        simpa [step, State.frames] using hfinishes.work_done _ job _ hdone
      · simpa [step, State.frames, Function.update_of_ne hi] using hdone
  | process i =>
      by_cases hi : i = responder
      · subst hi
        intro _
        rcases hone.self with ⟨hinbox, hfresh, hlog⟩ | ⟨hinbox, -⟩
        · have hreaches := hfinishes.reaches _ hfresh
          simpa [step, hinbox, hlog, State.frames, Function.comp_def] using hreaches
        · have hdone := h hinbox
          simpa [step, hinbox] using hdone
      · obtain ⟨hparties, hinbox, hlog⟩ := hone.other_silent hrules hi
        intro hempty
        rw [State.frames, hparties, hlog]
        exact h (hinbox hempty)

/-- The end of a round with one responder: it is done, the others are idle, and it was answered once
at most. -/
theorem settled {parties : ι → σ} (hrules : Rules react work frame responder fresh idle answer)
    (hfinishes : Finishes react work frame responder fresh done)
    (hinit : ∀ i, fresh i (parties i)) (actions : List (Action ι β)) :
    let last := run (step react work) (start parties frame) actions
    last.Quiet → (∀ j, j ≠ responder → idle j (last.parties j)) ∧
      done (last.parties responder) last.frames ∧ AnsweredOnce last := by
  intro last hquiet
  have hstart : OneResponder frame responder fresh idle answer (start parties frame) :=
    ⟨fun j _ => ⟨[], by simp, .inl ⟨rfl, hinit j⟩⟩, .inl ⟨rfl, hinit responder, rfl⟩⟩
  obtain ⟨hone, hfinished⟩ : OneResponder frame responder fresh idle answer last ∧
      Finished responder done last :=
    run_invariant_always (P := fun s => OneResponder frame responder fresh idle answer s ∧
        Finished responder done s)
      (fun _ action h => ⟨h.1.next hrules action, h.2.next h.1 hrules hfinishes action⟩) actions
      ⟨hstart, fun hempty => by cases hempty⟩
  refine ⟨fun j hj => ?_, hfinished (hquiet responder),
    responder_invariant hrules hinit actions⟩
  obtain ⟨answers, -, ⟨hinbox, -⟩ | ⟨-, hidle⟩⟩ := hone.others j hj
  · rw [hquiet j] at hinbox
    cases hinbox
  · exact hidle

end Responder

/-! ## Round after round -/

/-- Rounds on a bus whose actions meet a condition, each with the frame that was put on it and what
was sent then. -/
inductive Rounds (react : ι → σ → φ → σ × List (Sending φ)) (work : σ → β → σ)
    (ok : State ι σ φ → Action ι β → Prop) :
    (ι → σ) → List (φ × State ι σ φ) → (ι → σ) → Prop where
  | none (parties : ι → σ) : Rounds react work ok parties [] parties
  | round {parties last : ι → σ} {rounds : List (φ × State ι σ φ)} (frame : φ)
      (actions : List (Action ι β))
      (hok : Meets (step react work) ok (start parties frame) actions)
      (hquiet : (run (step react work) (start parties frame) actions).Quiet)
      (hrest : Rounds react work ok (run (step react work) (start parties frame) actions).parties
        rounds last) :
      Rounds react work ok parties
        ((frame, run (step react work) (start parties frame) actions) :: rounds) last

/-- The simulation rule: when every round whose frame meets the condition leads to a related state
of the system and ends well, so do rounds one after the other. -/
theorem Rounds.refines {ok : State ι σ φ → Action ι β → Prop} {R : (ι → σ) → τ → Prop}
    {next : τ → φ → τ} {cond : τ → φ → Prop} {good : τ → φ → State ι σ φ → Prop}
    (hround : ∀ parties state frame (actions : List (Action ι β)), R parties state →
      cond state frame → Meets (step react work) ok (start parties frame) actions →
      let last := run (step react work) (start parties frame) actions
      last.Quiet → R last.parties (next state frame) ∧ good state frame last)
    {parties last : ι → σ} {rounds : List (φ × State ι σ φ)} {state : τ}
    (hrounds : Rounds react work ok parties rounds last) (hinit : R parties state)
    (hmeets : Meets next cond state (rounds.map Prod.fst)) :
    R last (run next state (rounds.map Prod.fst)) ∧
      ∀ done frame s rest, rounds = done ++ (frame, s) :: rest →
        good (run next state (done.map Prod.fst)) frame s := by
  induction hrounds generalizing state with
  | none parties => exact ⟨hinit, by simp⟩
  | round first actions hok hquiet hrest ih =>
      obtain ⟨hnext, hgood⟩ := hround _ state first actions hinit hmeets.1 hok hquiet
      obtain ⟨hlast, hall⟩ := ih hnext hmeets.2
      refine ⟨hlast, fun done frame s rest hsplit => ?_⟩
      cases done with
      | nil =>
          obtain ⟨hround, -⟩ := List.cons.inj hsplit
          obtain ⟨rfl, rfl⟩ := Prod.mk.inj hround
          exact hgood
      | cons head done =>
          obtain ⟨hhead, htail⟩ := List.cons.inj hsplit
          subst hhead
          exact hall done frame s rest htail

end Broadcast
