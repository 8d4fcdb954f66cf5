import BmsNode.Transition.Run
import Mathlib.Data.List.Basic
import Mathlib.Logic.Function.Basic

/-!
# Parties on a broadcast bus

Every party reacts to the frames it receives, in order, and every frame a party sends
reaches all the others, unless the party fails to put it on the bus. Parties process at
their own pace and change their own state in between. `responder_invariant` is the rule
for a single frame put on the bus from outside when at most one party answers it and no
party answers an answer.
-/

namespace Broadcast

open Transition

variable {ι σ φ β : Type*} [DecidableEq ι]

/-- A frame on its way to a party. The sender is `none` outside the parties. -/
structure Message (ι φ : Type*) where
  sender : Option ι
  frame : φ
  deriving DecidableEq

/-- A frame a party sends, and whether it goes out on the bus. -/
structure Sending (φ : Type*) where
  frame : φ
  out : Bool
  deriving DecidableEq

/-- A frame a party has sent, with the party, the message it was processing, and whether the frame
went out. -/
structure Sent (ι φ : Type*) where
  party : ι
  cause : Message ι φ
  frame : φ
  out : Bool
  deriving DecidableEq

/-- The parties, what each of them has yet to process, and everything the parties sent so far, also
what did not go out. -/
structure State (ι σ φ : Type*) where
  parties : ι → σ
  inbox : ι → List (Message ι φ)
  log : List (Sent ι φ)

/-- A party processes its next message, or does some other work. -/
inductive Action (ι β : Type*) where
  | process (i : ι)
  | other (i : ι) (job : β)

/-- One action. `react` is how a party processes a frame, `work` the other work. -/
def step (react : ι → σ → φ → σ × List (Sending φ)) (work : σ → β → σ) (s : State ι σ φ) :
    Action ι β → State ι σ φ
  | .process i =>
      match s.inbox i with
      | [] => s
      | message :: rest =>
          let (party, sendings) := react i (s.parties i) message.frame
          { parties := Function.update s.parties i party
            inbox := fun j =>
              if j = i then rest
              else s.inbox j ++ (sendings.filter (·.out)).map fun r => ⟨some i, r.frame⟩
            log := s.log ++ sendings.map fun r => ⟨i, message, r.frame, r.out⟩ }
  | .other i job =>
      { s with parties := Function.update s.parties i (work (s.parties i) job) }

/-- A single frame from outside is on its way to every party. -/
def start (parties : ι → σ) (frame : φ) : State ι σ φ :=
  { parties := parties, inbox := fun _ => [⟨none, frame⟩], log := [] }

/-- Nothing was sent in answer to another party's frame, and at most one frame in all. -/
def AnsweredOnce (s : State ι σ φ) : Prop :=
  (∀ sent ∈ s.log, sent.cause.sender = none) ∧ s.log.length ≤ 1

instance (s : State ι σ φ) : Decidable (AnsweredOnce s) :=
  inferInstanceAs (Decidable (_ ∧ _))

section Responder

variable {react : ι → σ → φ → σ × List (Sending φ)} {work : σ → β → σ} {frame : φ} {responder : ι}
  {fresh idle : ι → σ → Prop} {answer : φ → Prop} {s : State ι σ φ}

/-- What the parties other than the responder have left: the frame and answers of the responder, or
such answers only. -/
def Waiting (frame : φ) (responder : ι) (fresh idle : ι → σ → Prop) (answer : φ → Prop) (j : ι)
    (party : σ) (inbox : List (Message ι φ)) : Prop :=
  ∃ answers : List φ, (∀ r ∈ answers, answer r) ∧
    ((inbox = ⟨none, frame⟩ :: answers.map (fun r => ⟨some responder, r⟩) ∧ fresh j party) ∨
      (inbox = answers.map (fun r => ⟨some responder, r⟩) ∧ idle j party))

/-- The state of a bus with one responder: the others wait, and the responder has the frame still
before it and sent nothing, or is done. -/
structure OneResponder (frame : φ) (responder : ι) (fresh idle : ι → σ → Prop) (answer : φ → Prop)
    (s : State ι σ φ) : Prop where
  others : ∀ j, j ≠ responder → Waiting frame responder fresh idle answer j (s.parties j)
    (s.inbox j)
  self : (s.inbox responder = [⟨none, frame⟩] ∧ fresh responder (s.parties responder) ∧
      s.log = []) ∨
    (s.inbox responder = [] ∧ AnsweredOnce s)

/-- The premises on the parties: other work keeps them fresh or idle, only the responder answers the
frame, with one answer at most, and the others answer no answer. -/
structure Rules (react : ι → σ → φ → σ × List (Sending φ)) (work : σ → β → σ) (frame : φ) (responder : ι)
    (fresh idle : ι → σ → Prop) (answer : φ → Prop) : Prop where
  work_fresh : ∀ i party job, fresh i party → fresh i (work party job)
  work_idle : ∀ i party job, idle i party → idle i (work party job)
  silent : ∀ j party, j ≠ responder → fresh j party →
    (react j party frame).2 = [] ∧ idle j (react j party frame).1
  answers : ∀ party, fresh responder party →
    (react responder party frame).2.length ≤ 1 ∧
      ∀ r ∈ (react responder party frame).2, answer r.frame
  ignore : ∀ j party r, j ≠ responder → idle j party → answer r →
    (react j party r).2 = [] ∧ idle j (react j party r).1

/-- A message that gets no answer moves only the party that processed it. -/
theorem step_silent {i : ι} {message : Message ι φ}
    {rest : List (Message ι φ)} (hinbox : s.inbox i = message :: rest)
    (hsilent : (react i (s.parties i) message.frame).2 = []) :
    step react work s (.process i : Action ι β) =
      { parties := Function.update s.parties i (react i (s.parties i) message.frame).1
        inbox := fun j => if j = i then rest else s.inbox j
        log := s.log } := by
  simp [step, hinbox, hsilent]

/-- A party other than the responder processes its next message silently. -/
theorem OneResponder.process_other (h : OneResponder frame responder fresh idle answer s)
    (hrules : Rules react work frame responder fresh idle answer) {j : ι} (hj : j ≠ responder) :
    OneResponder frame responder fresh idle answer (step react work s (.process j : Action ι β)) := by
  obtain ⟨answers, hanswers, hwait⟩ := h.others j hj
  -- in both cases the next message is processed silently and leaves the party idle
  have hnext : s.inbox j = [] ∨ ∃ message rest, s.inbox j = message :: rest ∧
      (react j (s.parties j) message.frame).2 = [] ∧
      Waiting frame responder fresh idle answer j (react j (s.parties j) message.frame).1 rest := by
    rcases hwait with ⟨hinbox, hfresh⟩ | ⟨hinbox, hidle⟩
    · obtain ⟨hsilent, hnow⟩ := hrules.silent j (s.parties j) hj hfresh
      exact .inr ⟨_, _, hinbox, hsilent, answers, hanswers, .inr ⟨rfl, hnow⟩⟩
    · cases answers with
      | nil => exact .inl hinbox
      | cons r answers =>
          obtain ⟨hsilent, hnow⟩ :=
            hrules.ignore j (s.parties j) r hj hidle (hanswers r (by simp))
          exact .inr ⟨_, _, hinbox, hsilent, answers,
            fun r hr => hanswers r (by simp [hr]), .inr ⟨rfl, hnow⟩⟩
  rcases hnext with hempty | ⟨message, rest, hinbox, hsilent, hwaiting⟩
  · have hsame : step react work s (.process j : Action ι β) = s := by simp [step, hempty]
    rw [hsame]
    exact h
  · rw [step_silent hinbox hsilent]
    refine ⟨fun k hk => ?_, ?_⟩
    · by_cases hkj : k = j
      · subst hkj
        simpa using hwaiting
      · simpa [hkj] using h.others k hk
    · simpa [Function.update_of_ne hj.symm, hj.symm, AnsweredOnce] using h.self

/-- The responder processes the frame, once. -/
theorem OneResponder.process_self (h : OneResponder frame responder fresh idle answer s)
    (hrules : Rules react work frame responder fresh idle answer) :
    OneResponder frame responder fresh idle answer
      (step react work s (.process responder : Action ι β)) := by
  rcases h.self with ⟨hinbox, hfresh, hlog⟩ | ⟨hinbox, honce⟩
  · obtain ⟨hlength, hanswer⟩ := hrules.answers (s.parties responder) hfresh
    simp only [step, hinbox]
    generalize react responder (s.parties responder) frame = result at hlength hanswer
    obtain ⟨party, sendings⟩ := result
    refine ⟨fun k hk => ?_, .inr ⟨by simp, ?_, ?_⟩⟩
    · obtain ⟨answers, hanswers, hwait⟩ := h.others k hk
      refine ⟨answers ++ (sendings.filter (·.out)).map (·.frame), fun r hr => ?_, ?_⟩
      · rcases List.mem_append.mp hr with hr | hr
        · exact hanswers r hr
        · obtain ⟨sending, hsending, rfl⟩ := List.mem_map.mp hr
          exact hanswer sending (List.mem_of_mem_filter hsending)
      · simp only [Function.update_of_ne hk, if_neg hk, List.map_append, List.map_map]
        rcases hwait with ⟨hinbox, hstate⟩ | ⟨hinbox, hstate⟩
        · exact .inl ⟨by rw [hinbox]; rfl, hstate⟩
        · exact .inr ⟨by rw [hinbox]; rfl, hstate⟩
    · intro sent hsent
      simp only [hlog, List.nil_append, List.mem_map] at hsent
      obtain ⟨r, -, rfl⟩ := hsent
      rfl
    · simpa [hlog] using hlength
  · have hsame : step react work s (.process responder : Action ι β) = s := by simp [step, hinbox]
    rw [hsame]
    exact h

/-- Other work changes nothing that matters. -/
theorem OneResponder.other (h : OneResponder frame responder fresh idle answer s)
    (hrules : Rules react work frame responder fresh idle answer) (i : ι) (job : β) :
    OneResponder frame responder fresh idle answer (step react work s (.other i job)) := by
  refine ⟨fun k hk => ?_, ?_⟩
  · obtain ⟨answers, hanswers, hwait⟩ := h.others k hk
    refine ⟨answers, hanswers, ?_⟩
    by_cases hki : k = i
    · subst hki
      simp only [step, Function.update_self]
      rcases hwait with ⟨hinbox, hstate⟩ | ⟨hinbox, hstate⟩
      · exact .inl ⟨hinbox, hrules.work_fresh k _ job hstate⟩
      · exact .inr ⟨hinbox, hrules.work_idle k _ job hstate⟩
    · simpa [step, Function.update_of_ne hki] using hwait
  · rcases h.self with ⟨hinbox, hfresh, hlog⟩ | hdone
    · refine .inl ⟨hinbox, ?_, hlog⟩
      by_cases hi : responder = i
      · subst hi
        simpa [step] using hrules.work_fresh responder _ job hfresh
      · simpa [step, Function.update_of_ne hi] using hfresh
    · exact .inr hdone

/-- Every action keeps the bus with one responder. -/
theorem OneResponder.next (h : OneResponder frame responder fresh idle answer s)
    (hrules : Rules react work frame responder fresh idle answer) (action : Action ι β) :
    OneResponder frame responder fresh idle answer (step react work s action) := by
  cases action with
  | process i =>
      by_cases hi : i = responder
      · rw [hi]
        exact h.process_self hrules
      · exact h.process_other hrules hi
  | other i job => exact h.other hrules i job

/-- The rule: with one responder, every run from a single frame is answered once at most, and no
answer is answered. -/
theorem responder_invariant {parties : ι → σ}
    (hrules : Rules react work frame responder fresh idle answer)
    (hinit : ∀ i, fresh i (parties i)) (actions : List (Action ι β)) :
    AnsweredOnce (run (step react work) (start parties frame) actions) := by
  have hstart : OneResponder frame responder fresh idle answer (start parties frame) :=
    ⟨fun j _ => ⟨[], by simp, .inl ⟨rfl, hinit j⟩⟩, .inl ⟨rfl, hinit responder, rfl⟩⟩
  have hrun : OneResponder frame responder fresh idle answer
      (run (step react work) (start parties frame) actions) :=
    run_invariant_always (fun _ action h => h.next hrules action) actions hstart
  rcases hrun.self with ⟨-, -, hlog⟩ | ⟨-, honce⟩
  · exact ⟨by simp [hlog], by simp [hlog]⟩
  · exact honce

end Responder

end Broadcast
