import BmsNode.Firmware.Adc
import BmsNode.Transition.Run
import BmsNode.Transition.Settling

/-!
# The smoothing filter

The results of the ADC module over any calls of its clients. On 10-bit values
`adc_filter` does not overflow and is the function `smooth` on numbers, which approaches
the sample. A channel's result is the fold of the filter over the samples collected for
it, so with a constant sample it is an iterate of `smooth` and settles on a fixed point:
at the sample, one below it, or at most two above.
-/

namespace BmsNode

open Settling Transition

/-! ## The filter on numbers -/

/-- `adc_filter` without overflow. -/
def smooth (sample smoothed : Nat) : Nat := (sample * 8 + smoothed * 24 + 16) / 32

/-- The filter moves towards the sample. -/
theorem smooth_approaches (sample : Nat) : Approaches (smooth sample) sample := by
  constructor
  · intro smoothed hle
    simp only [smooth]
    omega
  · intro smoothed hle
    simp only [smooth]
    omega

/-- The filter stops short of the sample: the dead band of its rounding. -/
theorem smooth_eq_self_iff (sample smoothed : Nat) :
    smooth sample smoothed = smoothed ↔ sample ≤ smoothed + 1 ∧ smoothed ≤ sample + 2 := by
  simp only [smooth]
  omega

/-- The filter stays between the result and the sample. -/
theorem smooth_between (sample smoothed : Nat) :
    min smoothed sample ≤ smooth sample smoothed ∧
      smooth sample smoothed ≤ max smoothed sample := by
  simp only [smooth]
  omega

/-- On 10-bit values the products and sums of `adc_filter` fit into their 16 bits. -/
theorem adcFilter_toNat {sample smoothed : UInt16} (hsample : sample.toNat ≤ 1023)
    (hsmoothed : smoothed.toNat ≤ 1023) :
    (adcFilter sample smoothed).toNat = smooth sample.toNat smoothed.toNat := by
  rw [adcFilter, show (32 - 8 : UInt16) = 24 from rfl, UInt16.toNat_div, UInt16.toNat_add,
    UInt16.toNat_add, UInt16.toNat_mul, UInt16.toNat_mul, smooth]
  show ((sample.toNat * 8 % 65536 + smoothed.toNat * 24 % 65536) % 65536 + 16) % 65536 / 32 = _
  omega

/-! ## The calls of the module -/

/-- The calls that reach the results of `adc.c`. -/
inductive AdcCall where
  | powerup (ticks : UInt16)
  | powerdown
  | collect (samples : Vector UInt16 4)
  | run (ticks : UInt16) (samples : Vector UInt16 4)
  deriving DecidableEq, Repr

/-- What a call does to the module. -/
def adcCall (s : Adc) : AdcCall → Adc
  | .powerup ticks => adcPowerup ticks s
  | .powerdown => adcPowerdown s
  | .collect samples => adcCollect samples s
  | .run ticks samples => adcRun ticks samples s

/-- The samples the converter has ready at a call. -/
def AdcCall.samples : AdcCall → List (Vector UInt16 4)
  | .powerup _ | .powerdown => []
  | .collect samples | .run _ samples => [samples]

/-- The samples a call collects: `adc_run` does when the converter is on and its time has come. -/
def adcCollected (s : Adc) : AdcCall → List (Vector UInt16 4)
  | .powerup _ | .powerdown => []
  | .collect samples => [samples]
  | .run ticks samples => if s.enabled && tmrExpired ticks s.adcTimeout then [samples] else []

/-- How often the calls collect. -/
def adcCollections (s : Adc) (calls : List AdcCall) : Nat :=
  (trace adcCall adcCollected s calls).length

/-- The sample of a channel. -/
def AdcChannel.sample (ch : AdcChannel) (samples : Vector UInt16 4) : UInt16 :=
  samples.get ch.index

/-- The result of a channel after the samples of a list were collected. -/
def AdcChannel.filtered (ch : AdcChannel) (smoothed : UInt16) (samples : List (Vector UInt16 4)) :
    UInt16 :=
  samples.foldl (fun smoothed samples => adcFilter (ch.sample samples) smoothed) smoothed

/-- A call collects no samples but those that are ready. -/
theorem adcCollected_subset (s : Adc) (call : AdcCall) : adcCollected s call ⊆ call.samples := by
  cases call with
  | powerup | powerdown | collect => exact List.Subset.refl _
  | run ticks samples =>
      simp only [adcCollected, AdcCall.samples]
      split_ifs
      · exact List.Subset.refl _
      · exact List.nil_subset _

/-- Collecting filters each channel on its own. -/
theorem adcCollect_result (samples : Vector UInt16 4) (s : Adc) (ch : AdcChannel) :
    (adcCollect samples s).result ch = adcFilter (ch.sample samples) (s.result ch) := by
  cases ch <;> rfl

/-- A call changes the results by the samples it collects and by nothing else. -/
theorem adcCall_result (s : Adc) (call : AdcCall) (ch : AdcChannel) :
    (adcCall s call).result ch = ch.filtered (s.result ch) (adcCollected s call) := by
  cases call with
  | powerup | powerdown => rfl
  | collect samples => exact adcCollect_result samples s ch
  | run ticks samples =>
      simp only [adcCall, adcRun, adcCollected]
      split_ifs
      · exact adcCollect_result samples _ ch
      · rfl

/-- After any calls, a channel's result is the filter over the samples collected. -/
theorem run_adcCall_result (s : Adc) (calls : List AdcCall) (ch : AdcChannel) :
    (run adcCall s calls).result ch =
      ch.filtered (s.result ch) (trace adcCall adcCollected s calls) := by
  induction calls generalizing s with
  | nil => rfl
  | cons call calls ih =>
      rw [run_cons, ih, adcCall_result, trace, AdcChannel.filtered, AdcChannel.filtered,
        AdcChannel.filtered, List.foldl_append]

/-! ## Runs of the filter -/

/-- 10-bit samples keep a 10-bit result. -/
theorem filtered_le {ch : AdcChannel} {smoothed : UInt16} {samples : List (Vector UInt16 4)}
    (hsmoothed : smoothed.toNat ≤ 1023)
    (hsamples : ∀ sample ∈ samples, (ch.sample sample).toNat ≤ 1023) :
    (ch.filtered smoothed samples).toNat ≤ 1023 := by
  induction samples generalizing smoothed with
  | nil => exact hsmoothed
  | cons first rest ih =>
      have hfirst := hsamples first (List.mem_cons_self ..)
      have hbetween := smooth_between (ch.sample first).toNat smoothed.toNat
      rw [← adcFilter_toNat hfirst hsmoothed] at hbetween
      have hnext : (adcFilter (ch.sample first) smoothed).toNat ≤ 1023 := by omega
      exact ih hnext fun sample hmem => hsamples sample (List.mem_cons_of_mem _ hmem)

/-- A constant sample iterates the filter. -/
theorem filtered_constant {ch : AdcChannel} {sample smoothed : UInt16}
    {samples : List (Vector UInt16 4)} (hsample : sample.toNat ≤ 1023)
    (hsmoothed : smoothed.toNat ≤ 1023) (hsame : ∀ other ∈ samples, ch.sample other = sample) :
    (ch.filtered smoothed samples).toNat =
      (smooth sample.toNat)^[samples.length] smoothed.toNat := by
  induction samples generalizing smoothed with
  | nil => rfl
  | cons first rest ih =>
      have hfirst : ch.sample first = sample := hsame first (List.mem_cons_self ..)
      have hstep := adcFilter_toNat hsample hsmoothed
      have hbetween := smooth_between sample.toNat smoothed.toNat
      have hnext : (adcFilter sample smoothed).toNat ≤ 1023 := by omega
      have hrest := ih hnext fun other hmem =>
        hsame other (List.mem_cons_of_mem _ hmem)
      rw [hstep] at hrest
      rw [AdcChannel.filtered, List.foldl_cons, hfirst, List.length_cons,
        Function.iterate_succ_apply, ← hrest]
      rfl

/-- All samples of a channel that the calls find ready meet a condition. -/
def AdcChannel.Sampled (ch : AdcChannel) (cond : UInt16 → Prop) (calls : List AdcCall) : Prop :=
  ∀ call ∈ calls, ∀ samples ∈ call.samples, cond (ch.sample samples)

/-- Then so do the samples collected. -/
theorem AdcChannel.Sampled.collected {ch : AdcChannel} {cond : UInt16 → Prop}
    {calls : List AdcCall} (h : ch.Sampled cond calls) (s : Adc) :
    ∀ samples ∈ trace adcCall adcCollected s calls, cond (ch.sample samples) :=
  trace_forall (P := fun samples => cond (ch.sample samples))
    (fun call hcall s samples hmem => h call hcall samples (adcCollected_subset s call hmem)) s

/-- A call collects once or not at all. -/
theorem length_adcCollected (s : Adc) (call : AdcCall) : (adcCollected s call).length ≤ 1 := by
  cases call with
  | powerup | powerdown | collect => simp [adcCollected]
  | run ticks samples =>
      simp only [adcCollected]
      split_ifs <;> simp

/-- One more call either collects nothing and keeps the result, or filters one sample into it. -/
theorem adcCall_filters (s : Adc) (call : AdcCall) (ch : AdcChannel) :
    (adcCollected s call = [] → (adcCall s call).result ch = s.result ch) ∧
      ∀ samples ∈ adcCollected s call,
        (adcCall s call).result ch = adcFilter (ch.sample samples) (s.result ch) := by
  rw [adcCall_result]
  have hlength := length_adcCollected s call
  cases hcollected : adcCollected s call with
  | nil => exact ⟨fun _ => rfl, nofun⟩
  | cons first rest =>
      rw [hcollected, List.length_cons] at hlength
      obtain rfl : rest = [] := List.eq_nil_of_length_eq_zero (by omega)
      refine ⟨nofun, fun samples hmem => ?_⟩
      rw [List.mem_singleton.mp hmem]
      rfl

/-- The samples found before the last call are among all samples found. -/
theorem AdcChannel.Sampled.before {ch : AdcChannel} {cond : UInt16 → Prop} {calls : List AdcCall}
    {call : AdcCall} (h : ch.Sampled cond (calls ++ [call])) : ch.Sampled cond calls :=
  fun other hmem => h other (List.mem_append_left _ hmem)

/-- Any calls that find 10-bit samples keep a 10-bit result. -/
theorem run_adcCall_le {s : Adc} {ch : AdcChannel} {calls : List AdcCall}
    (hstart : (s.result ch).toNat ≤ 1023) (hcalls : ch.Sampled (·.toNat ≤ 1023) calls) :
    ((run adcCall s calls).result ch).toNat ≤ 1023 := by
  rw [run_adcCall_result]
  exact filtered_le hstart (hcalls.collected s)

/-- Calls that always find the same sample iterate the filter. -/
theorem run_adcCall_constant {s : Adc} {ch : AdcChannel} {sample : UInt16} {calls : List AdcCall}
    (hstart : (s.result ch).toNat ≤ 1023) (hsample : sample.toNat ≤ 1023)
    (hcalls : ch.Sampled (· = sample) calls) :
    ((run adcCall s calls).result ch).toNat =
      (smooth sample.toNat)^[adcCollections s calls] (s.result ch).toNat := by
  rw [run_adcCall_result]
  exact filtered_constant hsample hstart (hcalls.collected s)

/-- One more call repeats the filter at most once. -/
theorem adcCollections_concat (s : Adc) (calls : List AdcCall) (call : AdcCall) :
    adcCollections s (calls ++ [call]) = adcCollections s calls ∨
      adcCollections s (calls ++ [call]) = adcCollections s calls + 1 := by
  have hone := length_adcCollected (run adcCall s calls) call
  simp only [adcCollections, trace_append, trace, List.append_nil, List.length_append]
  omega

/-- While the sample stays the same, the result moves in one direction. -/
theorem run_adcCall_monotone {s : Adc} {ch : AdcChannel} {sample : UInt16}
    (hstart : (s.result ch).toNat ≤ 1023) (hsample : sample.toNat ≤ 1023) :
    let result (calls : List AdcCall) := ((run adcCall s calls).result ch).toNat
    (∀ calls call, ch.Sampled (· = sample) (calls ++ [call]) →
        result calls ≤ result (calls ++ [call])) ∨
      (∀ calls call, ch.Sampled (· = sample) (calls ++ [call]) →
        result (calls ++ [call]) ≤ result calls) := by
  intro result
  have hiterate {calls : List AdcCall} (hcalls : ch.Sampled (· = sample) calls) :
      result calls = _ := run_adcCall_constant hstart hsample hcalls
  refine ((smooth_approaches sample.toNat).monotone (s.result ch).toNat).imp ?_ ?_
  · intro hup calls call hcalls
    rw [hiterate hcalls.before, hiterate hcalls]
    rcases adcCollections_concat s calls call with hsame | hmore
    · rw [hsame]
    · rw [hmore]
      exact hup _
  · intro hdown calls call hcalls
    rw [hiterate hcalls.before, hiterate hcalls]
    rcases adcCollections_concat s calls call with hsame | hmore
    · rw [hsame]
    · rw [hmore]
      exact hdown _

/-- The smoothing filter, from 10-bit results and over any calls that find 10-bit samples. The sum
never overflows, a result stays within 10 bits and between the result before and the sample. While
the sample stays the same the result moves in one direction, and after finitely many collections it
stays at one value, from one below the sample to two above. -/
theorem adc_filter_settles (s : Adc) (ch : AdcChannel) (hstart : (s.result ch).toNat ≤ 1023) :
    let result (calls : List AdcCall) := ((run adcCall s calls).result ch).toNat
    (∀ calls call, ch.Sampled (·.toNat ≤ 1023) (calls ++ [call]) →
      result (calls ++ [call]) ≤ 1023 ∧
        (adcCollected (run adcCall s calls) call = [] →
          result (calls ++ [call]) = result calls) ∧
        ∀ samples ∈ adcCollected (run adcCall s calls) call,
          let sample := (ch.sample samples).toNat
          sample * 8 + result calls * 24 + 16 ≤ 65535 ∧
            min (result calls) sample ≤ result (calls ++ [call]) ∧
            result (calls ++ [call]) ≤ max (result calls) sample) ∧
      ∀ sample : UInt16, sample.toNat ≤ 1023 →
        ((∀ calls call, ch.Sampled (· = sample) (calls ++ [call]) →
            result calls ≤ result (calls ++ [call])) ∨
          (∀ calls call, ch.Sampled (· = sample) (calls ++ [call]) →
            result (calls ++ [call]) ≤ result calls)) ∧
        ∃ last, sample.toNat ≤ last + 1 ∧ last ≤ sample.toNat + 2 ∧
          ∃ enough, ∀ calls, ch.Sampled (· = sample) calls →
            enough ≤ adcCollections s calls → result calls = last := by
  intro result
  refine ⟨fun calls call hcalls => ?_, fun sample hsample => ?_⟩
  · have hbefore : result calls ≤ 1023 := run_adcCall_le hstart hcalls.before
    have hrun : run adcCall s (calls ++ [call]) = adcCall (run adcCall s calls) call :=
      run_concat s calls call
    obtain ⟨hidle, hfilter⟩ := adcCall_filters (run adcCall s calls) call ch
    rw [← hrun] at hidle hfilter
    refine ⟨run_adcCall_le hstart hcalls, fun hnil => congrArg UInt16.toNat (hidle hnil),
      fun samples hmem => ?_⟩
    have hsample := hcalls call (by simp) samples (adcCollected_subset _ _ hmem)
    have hresult : result (calls ++ [call]) = _ :=
      (congrArg UInt16.toNat (hfilter samples hmem)).trans (adcFilter_toNat hsample hbefore)
    rw [hresult]
    refine ⟨?_, smooth_between _ _⟩
    omega
  · obtain ⟨last, hfixed, hlast⟩ := (smooth_approaches sample.toNat).settled (s.result ch).toNat
    obtain ⟨hlow, hhigh⟩ := (smooth_eq_self_iff sample.toNat last).mp hfixed
    refine ⟨run_adcCall_monotone hstart hsample, last, hlow, hhigh,
      Nat.dist (s.result ch).toNat sample.toNat, fun calls hcalls henough => ?_⟩
    exact (run_adcCall_constant hstart hsample hcalls).trans (hlast _ henough)

/-- The cell voltage after power up, under a constant sample of 1000. -/
theorem adc_filter_settles_rising :
    ∃ last, 1000 ≤ last + 1 ∧ last ≤ 1002 ∧ ∃ enough, ∀ calls,
      AdcChannel.cellv.Sampled (· = 1000) calls →
        enough ≤ adcCollections Adc.init calls →
          ((run adcCall Adc.init calls).result .cellv).toNat = last :=
  ((adc_filter_settles Adc.init .cellv (by decide)).2 1000 (by decide)).2

end BmsNode
