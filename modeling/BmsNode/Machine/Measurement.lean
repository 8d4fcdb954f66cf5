import BmsNode.Machine.Analog
import BmsNode.Sampling.Filter

/-!
# Measured values in real time

The samples of `Machine.Analog` go through the filter of `Sampling.Filter`. While the
samples of a channel stay within a band, its result moves between what the two ends of
the band would make of it. After 22 samples nothing is left of where it started, and
with one sample every 100 ticks this takes 2300 ticks. Then the result is within the
band, up to the rounding of the filter: one below it, or two above.
-/

namespace BmsNode

open Transition Settling

/-! ## The filter between two samples -/

/-- The filter rises with the sample and with the value before. -/
theorem smooth_mono {sample sample' smoothed smoothed' : Nat} (hsample : sample ≤ sample')
    (hsmoothed : smoothed ≤ smoothed') : smooth sample smoothed ≤ smooth sample' smoothed' := by
  simp only [smooth]
  omega

/-- For one sample the filter is monotone. -/
theorem smooth_monotone (sample : Nat) : Monotone (smooth sample) :=
  fun _ _ hle => smooth_mono (Nat.le_refl sample) hle

/-- What is left after one sample of the distance from below. -/
def gapBelow (gap : Nat) : Nat := (gap * 3 + 1) / 4

/-- What is left after one sample of the distance from above. -/
def gapAbove (gap : Nat) : Nat := (gap * 3 + 2) / 4

/-- A smaller distance leaves less. -/
theorem gapBelow_monotone : Monotone gapBelow := by
  intro gap gap' hle
  simp only [gapBelow]
  omega

/-- A smaller distance leaves less. -/
theorem gapAbove_monotone : Monotone gapAbove := by
  intro gap gap' hle
  simp only [gapAbove]
  omega

/-- After 22 samples one is left of the distance from below, whatever it was. -/
theorem iterate_smooth_below {sample k : Nat} (first : Nat) (hsample : sample ≤ 1023)
    (hk : 22 ≤ k) : sample - (smooth sample)^[k] first ≤ 1 := by
  have hstep (smoothed : Nat) : sample - smooth sample smoothed ≤ gapBelow (sample - smoothed) := by
    simp only [smooth, gapBelow]
    omega
  have hgap := size_iterate_le (fun smoothed => sample - smoothed) gapBelow_monotone hstep k first
  have hmost : gapBelow^[22] 1023 ≤ 1 := by decide
  exact Nat.le_trans hgap (iterate_le_fixed gapBelow_monotone rfl hmost hk (by omega))

/-- After 22 samples two are left of the distance from above. -/
theorem iterate_smooth_above {first k : Nat} (sample : Nat) (hfirst : first ≤ 1023) (hk : 22 ≤ k) :
    (smooth sample)^[k] first - sample ≤ 2 := by
  have hstep (smoothed : Nat) : smooth sample smoothed - sample ≤ gapAbove (smoothed - sample) := by
    simp only [smooth, gapAbove]
    omega
  have hgap := size_iterate_le (fun smoothed => smoothed - sample) gapAbove_monotone hstep k first
  have hmost : gapAbove^[22] 1023 ≤ 2 := by decide
  exact Nat.le_trans hgap (iterate_le_fixed gapAbove_monotone rfl hmost hk (by omega))

/-! ## Steps of the machine -/

/-- The results of the converter survive sleep. -/
theorem appRun_results {p : Platform} {event : Event} {n : Node} (hevent : event.FromLoop) :
    (appRun p event n).adc.results = n.adc.results := by
  by_cases hps : n.ps = .app .sleep
  · rw [appRun_awaken hevent hps]
    rfl
  · by_cases hnext : (appRun p event n).ps = .app .sleep
    · rw [appRun_asleep hevent hps hnext]
      rfl
    · rw [appRun_adc hps hnext]

namespace Sampled

/-- The result of a channel. -/
def result (g : Sampled) (ch : AdcChannel) : UInt16 := g.machine.node.adc.result ch

/-- What a step does to the results and to the schedule of the samples: a restart clears the
results, `adc_run` filters a sample into each of them when it collects, and no other step changes
them. -/
inductive Measures (p : Platform) (g g' : Sampled) : Action → Prop where
  | restarted (samples : Vector UInt16 4) (hrestart : restarts p g.machine = true)
      (hresults : ∀ ch, g'.result ch = 0) : Measures p g g' (.main samples)
  | collected (samples : Vector UInt16 4) (s : Schedule) (hschedule : g.schedule = some s)
      (hnext : g'.schedule = some { s with taken := s.taken + 1 })
      (hresults : ∀ ch, g'.result ch = adcFilter (ch.sample samples) (g.result ch)) :
      Measures p g g' (.main samples)
  | kept (action : Action) (hresults : ∀ ch, g'.result ch = g.result ch)
      (hschedule : g.schedule ≠ none → g'.machine.node.ps ≠ .app .sleep →
        g'.schedule = g.schedule) : Measures p g g' action

/-- A call of `adc_run`. -/
theorem Follows.measures_adcRun {p : Platform} {n : Node} {now polled : Nat}
    {schedule : Option Schedule} (h : Follows ⟨⟨n, .adcRun⟩, now, polled, schedule⟩)
    (samples : Vector UInt16 4) :
    Measures p ⟨⟨n, .adcRun⟩, now, polled, schedule⟩
      ⟨mainStep p samples ⟨n, .adcRun⟩, now, now, schedule.map (Schedule.poll now)⟩
      (.main samples) := by
  have hcollects := h.collects
  by_cases hdue : Due ⟨⟨n, .adcRun⟩, now, polled, schedule⟩
  · obtain ⟨s, rfl, hreached⟩ := hdue
    refine .collected samples s rfl ?_ fun ch => ?_
    · show (some s).map (Schedule.poll now) = _
      rw [Option.map_some, Schedule.poll, if_pos hreached]
    · show (BmsNode.adcRun n.systick samples n.adc).result ch = _
      rw [BmsNode.adcRun, if_pos (hcollects.mpr ⟨s, rfl, hreached⟩), adcCollect_result]
      rfl
  · refine .kept _ (fun ch => ?_) fun _ _ => ?_
    · show (BmsNode.adcRun n.systick samples n.adc).result ch = _
      rw [BmsNode.adcRun, if_neg (mt hcollects.mp hdue)]
      rfl
    · cases schedule with
      | none => rfl
      | some s =>
          show (some s).map (Schedule.poll now) = some s
          rw [Option.map_some, Schedule.poll, if_neg fun hreached => hdue ⟨s, rfl, hreached⟩]

/-- A pass of the state machine. -/
theorem Follows.measures_pass {p : Platform} {n : Node} {event : Event} {held : Bool}
    {now polled : Nat} {schedule : Option Schedule}
    (h : Follows ⟨⟨n, .kissmRun event held⟩, now, polled, schedule⟩) (action : Action) :
    Measures p ⟨⟨n, .kissmRun event held⟩, now, polled, schedule⟩
      (passed ⟨⟨n, .kissmRun event held⟩, now, polled, schedule⟩
        ⟨appRun p event n, .loopFree held⟩) action := by
  have hresults : (appRun p event n).adc.results = n.adc.results :=
    appRun_results (h.looping.event event held rfl)
  have hresult (ch : AdcChannel) : (appRun p event n).adc.result ch = n.adc.result ch := by
    rw [Adc.result, hresults, Adc.result]
  refine .kept _ (fun ch => ?_) fun hsome hnext => ?_
  · unfold passed
    split_ifs
    · exact hresult ch
    · exact hresult ch
    · exact hresult ch
  · have hps : n.ps ≠ .app .sleep := mt h.awake.mpr hsome
    unfold passed at hnext ⊢
    split_ifs at hnext ⊢ with hasleep
    · exact absurd hasleep hnext
    · rfl

/-- The other program points. -/
theorem measures_other {p : Platform} {g : Sampled} (samples : Vector UInt16 4)
    (hadc : g.machine.pc ≠ .adcRun) (hkissm : ∀ event held, g.machine.pc ≠ .kissmRun event held)
    (hrestart : restarts p g.machine = false) :
    Measures p g { g with machine := mainStep p samples g.machine } (.main samples) := by
  have hframe := mainStep_analog samples hadc hkissm hrestart
  refine .kept _ (fun ch => ?_) fun _ _ => rfl
  show (mainStep p samples g.machine).node.adc.result ch = _
  rw [hframe.adc]
  rfl

/-- What every step does. -/
theorem Follows.measures {p : Platform} {g : Sampled} (h : Follows g) (action : Action) :
    Measures p g (g.step p action) action := by
  cases action with
  | tick | rx | shift => exact .kept _ (fun _ => rfl) fun _ _ => rfl
  | dre | txc =>
      refine .kept _ (fun ch => ?_) fun _ _ => rfl
      simp only [Sampled.step, BmsNode.step]
      split_ifs
      · rfl
      · rfl
  | main samples =>
      obtain ⟨⟨n, pc⟩, now, polled, schedule⟩ := g
      cases hrestart : restarts p ⟨n, pc⟩ with
      | true =>
          refine .restarted samples hrestart fun ch => ?_
          obtain ⟨eeprom, hboot⟩ := mainStep_restart samples hrestart
          rw [result, step_machine]
          show (mainStep p samples ⟨n, pc⟩).node.adc.result ch = 0
          rw [hboot]
          cases ch <;> rfl
      | false =>
          cases pc with
          | adcRun => exact h.measures_adcRun (p := p) samples
          | kissmRun event held => exact h.measures_pass (.main samples)
          | dispatch =>
              have hstep : Sampled.step p ⟨⟨n, .dispatch⟩, now, polled, schedule⟩ (.main samples) =
                  ⟨mainStep p samples ⟨n, .dispatch⟩, now, polled, schedule⟩ := by
                simp [Sampled.step, BmsNode.step, hrestart]
              rw [hstep]
              exact measures_other samples (by simp) (by simp) hrestart
          | _ => exact measures_other samples (by simp) (by simp) hrestart

/-! ## Runs -/

/-- An action finds a sample of the channel that meets a condition, if it is given any. -/
def Finds (ch : AdcChannel) (cond : UInt16 → Prop) : Action → Prop
  | .main samples => cond (ch.sample samples)
  | _ => True

/-- Whether it does can be checked. -/
instance (ch : AdcChannel) (cond : UInt16 → Prop) [DecidablePred cond] :
    DecidablePred (Finds ch cond)
  | .main samples => inferInstanceAs (Decidable (cond (ch.sample samples)))
  | .tick | .rx _ | .dre | .txc | .shift => isTrue trivial

/-- An action that does not restart the firmware. -/
def Continues (p : Platform) (g : Sampled) : Action → Prop
  | .main _ => restarts p g.machine = false
  | _ => True

/-- Whether it does can be checked. -/
instance (p : Platform) (g : Sampled) : ∀ action, Decidable (Continues p g action)
  | .main _ => inferInstanceAs (Decidable (_ = _))
  | .tick | .rx _ | .dre | .txc | .shift => isTrue trivial

/-- An action that neither restarts the firmware nor puts the node to sleep. -/
def Undisturbed (p : Platform) (g : Sampled) (action : Action) : Prop :=
  Continues p g action ∧ (g.step p action).machine.node.ps ≠ .app .sleep

/-- Whether it does can be checked. -/
instance (p : Platform) (g : Sampled) (action : Action) : Decidable (Undisturbed p g action) :=
  inferInstanceAs (Decidable (_ ∧ _))

/-- Samples of ten bits keep a result of ten bits. -/
theorem Measures.le {p : Platform} {g g' : Sampled} {ch : AdcChannel} {action : Action}
    (h : Measures p g g' action) (hsample : Finds ch (·.toNat ≤ 1023) action)
    (hresult : (g.result ch).toNat ≤ 1023) : (g'.result ch).toNat ≤ 1023 := by
  cases h with
  | restarted samples hrestart hresults =>
      rw [hresults]
      exact Nat.zero_le _
  | collected samples s hschedule hnext hresults =>
      have hbetween := smooth_between (ch.sample samples).toNat (g.result ch).toNat
      rw [hresults, adcFilter_toNat hsample hresult]
      have hsample : (ch.sample samples).toNat ≤ 1023 := hsample
      omega
  | kept action hresults hschedule =>
      rw [hresults]
      exact hresult

/-- Since an earlier moment with a schedule, as many samples between two bounds were filtered into
the result as the schedule has moved on. -/
structure Banded (lo hi : Nat) (ch : AdcChannel) (s : Schedule) (first : Nat) (g : Sampled) :
    Prop where
  schedule : ∃ k, g.schedule = some { s with taken := s.taken + k } ∧
    Bracketed (smooth lo) (smooth hi) first k (g.result ch).toNat
  le : (g.result ch).toNat ≤ 1023

/-- Nothing was filtered yet. -/
theorem Banded.start {g : Sampled} {ch : AdcChannel} {s : Schedule}
    (hschedule : g.schedule = some s) (hle : (g.result ch).toNat ≤ 1023) (lo hi : Nat) :
    Banded lo hi ch s (g.result ch).toNat g :=
  ⟨⟨0, hschedule, .start ..⟩, hle⟩

/-- One more step keeps count of the samples. -/
theorem Banded.step {p : Platform} {g : Sampled} {lo hi first : Nat} {ch : AdcChannel}
    {s : Schedule} {action : Action} (h : Banded lo hi ch s first g) (hfollows : Follows g)
    (hhi : hi ≤ 1023) (hsample : Finds ch (fun x => lo ≤ x.toNat ∧ x.toNat ≤ hi) action)
    (hundisturbed : Undisturbed p g action) : Banded lo hi ch s first (g.step p action) := by
  obtain ⟨k, hschedule, hbracketed⟩ := h.schedule
  have hmeasures := hfollows.measures (p := p) action
  have hle : ((g.step p action).result ch).toNat ≤ 1023 := by
    refine hmeasures.le ?_ h.le
    cases action with
    | main samples => exact Nat.le_trans hsample.2 hhi
    | tick | rx | dre | txc | shift => trivial
  obtain ⟨hcontinues, hawake⟩ := hundisturbed
  refine ⟨?_, hle⟩
  generalize g.step p action = g' at *
  cases hmeasures with
  | restarted samples hrestart _ =>
      rw [show restarts p g.machine = false from hcontinues] at hrestart
      cases hrestart
  | collected samples s' hs' hnext hresults =>
      obtain rfl : _ = s' := Option.some.inj (hschedule.symm.trans hs')
      refine ⟨k + 1, hnext, ?_⟩
      have hten : (ch.sample samples).toNat ≤ 1023 := Nat.le_trans hsample.2 hhi
      rw [hresults, adcFilter_toNat hten h.le]
      exact hbracketed.step (smooth_monotone lo) (smooth_monotone hi)
        (smooth_mono hsample.1 (Nat.le_refl _)) (smooth_mono hsample.2 (Nat.le_refl _))
  | kept action hresults hkept =>
      refine ⟨k, ?_, ?_⟩
      · rw [hkept (by simp [hschedule]) hawake]
        exact hschedule
      · rw [hresults]
        exact hbracketed

end Sampled

/-- Measured values in real time, for every run in which, while the node is awake, no more than 100
ticks come between two calls of `adc_run` and the samples of a channel have ten bits. From any
moment on, while the node neither restarts nor sleeps and the samples of the channel stay within a
band, its result stays between what the filter would make of the two ends of the band, with one
sample for each deadline of the schedule. After 2300 ticks it is at most one below the band and at
most two above. -/
theorem measurement_settles (p : Platform) (eeprom : Config) (ch : AdcChannel) {lo hi : Nat}
    (hlo : lo ≤ hi) (hhi : hi ≤ 1023) (before after : List Action)
    (hprompt : Meets (Sampled.step p) Sampled.Prompt (.start (boot p eeprom)) (before ++ after))
    (hten : ∀ action ∈ before, Sampled.Finds ch (·.toNat ≤ 1023) action)
    (hband : ∀ action ∈ after, Sampled.Finds ch (fun x => lo ≤ x.toNat ∧ x.toNat ≤ hi) action)
    (hundisturbed : Meets (Sampled.step p) (Sampled.Undisturbed p)
      (run (Sampled.step p) (.start (boot p eeprom)) before) after) :
    let r := run (Sampled.step p) (.start (boot p eeprom)) before
    let t := run (Sampled.step p) r after
    let result := (t.machine.node.adc.result ch).toNat
    ∀ s, r.schedule = some s →
      Bracketed (smooth lo) (smooth hi) (r.machine.node.adc.result ch).toNat
          (s.count t.polled - s.count r.polled) result ∧
        (r.now + 2300 ≤ t.now → lo ≤ result + 1 ∧ result ≤ hi + 2) := by
  intro r t result s hs
  obtain ⟨hbefore, hafter⟩ := (meets_append _ before after).mp hprompt
  have hinit : ((Sampled.start (boot p eeprom)).result ch).toNat ≤ 1023 := by
    cases ch <;> exact Nat.zero_le _
  have hr : Sampled.Follows r ∧ (r.result ch).toNat ≤ 1023 :=
    run_invariant (P := fun g => Sampled.Follows g ∧ (g.result ch).toNat ≤ 1023)
      (fun g action h hok => ⟨h.1.step action hok.1, (h.1.measures action).le hok.2 h.2⟩)
      ⟨Sampled.boot_follows p eeprom, hinit⟩ (hbefore.and (meets_of_forall hten _))
  have ht : Sampled.Follows t ∧ Sampled.Banded lo hi ch s (r.result ch).toNat t :=
    run_invariant
      (P := fun g => Sampled.Follows g ∧ Sampled.Banded lo hi ch s (r.result ch).toNat g)
      (fun g action h hok => ⟨h.1.step action hok.1, h.2.step h.1 hhi hok.2.1 hok.2.2⟩)
      ⟨hr.1, .start hs hr.2 lo hi⟩ (hafter.and ((meets_of_forall hband r).and hundisturbed))
  obtain ⟨⟨k, hschedule, hbracketed⟩, hle⟩ := ht.2
  obtain ⟨-, hperiod, hupto, hnear⟩ := hr.1.timeout s hs
  obtain ⟨-, -, hupto', -⟩ := ht.1.timeout _ hschedule
  have hcount : s.count t.polled - s.count r.polled = k := by
    have htaken := hupto.taken_eq (by omega)
    have htaken' : s.taken + k = s.count t.polled := hupto'.taken_eq (by
      show 0 < s.period
      omega)
    omega
  rw [hcount]
  refine ⟨hbracketed, fun hlong => ?_⟩
  have hk : 22 ≤ k := by
    have hahead : t.polled < s.first + s.period * (s.taken + k) := hupto'.ahead
    have hdue : s.first + s.period * s.taken ≤ r.polled + 100 := hnear
    have hpolls := hr.1.polls
    have hgap := ht.1.gap (by simp [hschedule])
    rw [hperiod] at hahead hdue
    omega
  have hbelow := iterate_smooth_below (r.result ch).toNat (Nat.le_trans hlo hhi) hk
  have habove := iterate_smooth_above hi hr.2 hk
  have hlower : _ ≤ result := hbracketed.lower
  have hupper : result ≤ _ := hbracketed.upper
  omega

/-- A tenth of a second on the bus, with the start of a packet that keeps the node awake. -/
def tenth (sample : UInt16) : List Action :=
  .rx pktPreamble :: .rx pktSync :: (List.replicate 100 .tick ++
    List.replicate 8 (.main (Vector.replicate 4 sample)))

/-- 2400 ticks with samples that go up and down. -/
def noisy : List Action := (List.replicate 12 (tenth 700 ++ tenth 800)).flatten

/-- A cell that reads 700 and 800 in turn, after it read 300, is measured between 699 and 802. -/
theorem measurement_settles_noisy :
    let r := run (Sampled.step benchBoard)
      (.start (boot benchBoard (Vector.replicate 26 0xFF))) (tenth 300)
    let t := run (Sampled.step benchBoard) r noisy
    let result := (t.machine.node.adc.result .cellv).toNat
    700 ≤ result + 1 ∧ result ≤ 802 := by
  have hband : ∀ action ∈ noisy,
      Sampled.Finds .cellv (fun x => 700 ≤ x.toNat ∧ x.toNat ≤ 800) action := by decide +kernel
  have hsettles := measurement_settles benchBoard (Vector.replicate 26 0xFF) .cellv
    (by decide) (by decide) (tenth 300) noisy (by decide +kernel) (by decide +kernel) hband
    (by decide +kernel) ⟨3, 100, 1⟩ (by decide +kernel)
  exact hsettles.2 (by decide +kernel)

end BmsNode
