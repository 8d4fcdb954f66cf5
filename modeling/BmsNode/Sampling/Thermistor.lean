import BmsNode.Firmware.Adc
import BmsNode.Sampling.Interpolation

/-!
# The thermistor table

`adc_to_temp` interpolates in `therm_table`, whose entries are four degrees apart. For a
reading of ten bits none of its 16-bit operations overflows and its search ends at the
segment that covers the reading, so it computes the value of the interpolation library.
-/

namespace BmsNode

open Interpolation

/-- The table of `thermistor_table.c`. -/
def thermCurve : Table where
  points := fun idx => ((thermTable.getD idx 0).toNat : Int)
  segments := 19
  step := 4

/-- Its entries are in order. -/
theorem thermCurve_increasing : thermCurve.Increasing :=
  ⟨by decide, by decide⟩

/-! ## The search -/

/-- A search that ends at an index has passed the entries up to it and stands before the next. -/
theorem thermSearch_some {adc : UInt16} {start count idx : Nat}
    (h : thermSearch adc start count = some idx) :
    start ≤ idx ∧ idx < start + count ∧ adc < thermTable.getD (idx + 1) 0 ∧
      (thermTable.getD start 0 ≤ adc → thermTable.getD idx 0 ≤ adc) := by
  induction count generalizing start with
  | zero => cases h
  | succ count ih =>
      unfold thermSearch at h
      split_ifs at h with hfound
      · obtain rfl := Option.some.inj h
        exact ⟨Nat.le_refl _, by omega, hfound, id⟩
      · obtain ⟨hstart, hcount, hbelow, habove⟩ := ih h
        exact ⟨by omega, by omega, hbelow, fun _ => habove (UInt16.not_lt.mp hfound)⟩

/-- A search that does not end has passed all entries. -/
theorem thermSearch_none {adc : UInt16} {start count : Nat} (h : thermSearch adc start count = none)
    {idx : Nat} (hidx : start ≤ idx ∧ idx < start + count) : thermTable.getD (idx + 1) 0 ≤ adc := by
  induction count generalizing start with
  | zero => omega
  | succ count ih =>
      unfold thermSearch at h
      split_ifs at h with hfound
      by_cases hfirst : idx = start
      · rw [hfirst]
        exact UInt16.not_lt.mp hfound
      · exact ih h (by omega)

/-! ## The arithmetic -/

/-- What `adc_to_temp` computes on a segment. -/
def thermValue (idx : Nat) (adc : UInt16) : Int16 :=
  let delta := adc.toInt16 - thermAt idx
  let range := thermAt (idx + 1) - thermAt idx
  let halfDigit := range >>> 1
  (delta * 4 + halfDigit) / range + Int16.ofNat (idx * 4)

/-- The entries of a segment as signed words. -/
theorem thermAt_toInt : ∀ idx < 19,
    (thermAt idx).toInt = thermCurve.points idx ∧ 0 ≤ thermCurve.points idx ∧
      thermCurve.points idx ≤ 859 ∧
      (thermAt (idx + 1) - thermAt idx).toInt = thermCurve.range idx ∧
      0 < thermCurve.range idx ∧ thermCurve.range idx ≤ 40 ∧
      ((thermAt (idx + 1) - thermAt idx) >>> 1).toInt = thermCurve.range idx / 2 ∧
      (Int16.ofNat (idx * 4)).toInt = idx * thermCurve.step := by
  decide

/-- A small unsigned word read as a signed one. -/
theorem toInt_toInt16 {x : UInt16} (h : x.toNat < 32768) : (x.toInt16.toInt : Int) = x.toNat := by
  have hcond := BitVec.toInt_eq_toNat_cond x.toBitVec
  have hint : x.toInt16.toInt = x.toBitVec.toInt := rfl
  have hnat : x.toNat = x.toBitVec.toNat := rfl
  rw [hint, hcond, hnat, if_pos (by omega)]

/-- On a segment `adc_to_temp` computes as with integers: none of its 16-bit operations overflows,
and the divisor is not zero. -/
structure ThermExact (idx : Nat) (adc : UInt16) : Prop where
  reading : adc.toInt16.toInt = adc.toNat
  entry : (thermAt idx).toInt = thermCurve.points idx
  delta : (adc.toInt16 - thermAt idx).toInt = adc.toNat - thermCurve.points idx
  range : (thermAt (idx + 1) - thermAt idx).toInt = thermCurve.range idx
  divisor : 0 < thermCurve.range idx
  scaled : ((adc.toInt16 - thermAt idx) * (4 : Int16)).toInt =
    (adc.toNat - thermCurve.points idx) * thermCurve.step
  sum :
    ((adc.toInt16 - thermAt idx) * (4 : Int16) + (thermAt (idx + 1) - thermAt idx) >>> 1).toInt =
      (adc.toNat - thermCurve.points idx) * thermCurve.step + thermCurve.range idx / 2
  quotient :
    (((adc.toInt16 - thermAt idx) * (4 : Int16) + (thermAt (idx + 1) - thermAt idx) >>> 1) /
      (thermAt (idx + 1) - thermAt idx)).toInt =
    ((adc.toNat - thermCurve.points idx) * thermCurve.step + thermCurve.range idx / 2).tdiv
      (thermCurve.range idx)
  temp : (thermValue idx adc).toInt = thermCurve.value idx adc.toNat

/-- For a reading of ten bits no operation overflows. -/
theorem thermValue_exact {idx : Nat} (hidx : idx < 19) {adc : UInt16} (hadc : adc ≤ 1023) :
    ThermExact idx adc := by
  obtain ⟨hpoint, hlow, hhigh, hrange, hpos, hlength, hhalf, hbase⟩ := thermAt_toInt idx hidx
  have hbits : adc.toNat ≤ 1023 := UInt16.le_iff_toNat_le.mp hadc
  have hword := toInt_toInt16 (x := adc) (by omega)
  have hdelta : (adc.toInt16 - thermAt idx).toInt = adc.toNat - thermCurve.points idx := by
    rw [Int16.toInt_sub, hword, hpoint, Int.bmod_eq_of_le] <;> omega
  have hfour : thermCurve.step = 4 := rfl
  have hscaled : ((adc.toInt16 - thermAt idx) * (4 : Int16)).toInt =
      (adc.toNat - thermCurve.points idx) * thermCurve.step := by
    rw [Int16.toInt_mul, hdelta, show (4 : Int16).toInt = 4 from rfl, hfour,
      Int.bmod_eq_of_le] <;> omega
  have hsum :
      ((adc.toInt16 - thermAt idx) * (4 : Int16) + (thermAt (idx + 1) - thermAt idx) >>> 1).toInt =
        (adc.toNat - thermCurve.points idx) * thermCurve.step + thermCurve.range idx / 2 := by
    rw [Int16.toInt_add, hscaled, hhalf, hfour, Int.bmod_eq_of_le] <;> omega
  have hquot :
      (((adc.toInt16 - thermAt idx) * (4 : Int16) + (thermAt (idx + 1) - thermAt idx) >>> 1) /
        (thermAt (idx + 1) - thermAt idx)).toInt =
      ((adc.toNat - thermCurve.points idx) * thermCurve.step + thermCurve.range idx / 2).tdiv
        (thermCurve.range idx) := by
    rw [Int16.toInt_div_of_ne_right, hsum, hrange]
    intro hminus
    rw [hminus] at hrange
    have hneg : (-1 : Int16).toInt = -1 := by decide
    omega
  refine ⟨hword, hpoint, hdelta, hrange, hpos, hscaled, hsum, hquot, ?_⟩
  -- the quotient is no larger than the dividend
  have hsmall := Int.natAbs_tdiv_le_natAbs
    ((adc.toNat - thermCurve.points idx) * thermCurve.step + thermCurve.range idx / 2)
    (thermCurve.range idx)
  unfold thermValue Table.value
  dsimp only
  rw [Int16.toInt_add, hquot, hbase]
  generalize Int.tdiv _ _ = quot at hsmall ⊢
  rw [hfour] at hsmall ⊢
  rw [Int.bmod_eq_of_le] <;> omega

/-- Between the first and the last entry the search finds one above the reading. -/
theorem thermSearch_ends {adc : UInt16} (habove : thermTable.getD 0 0 ≤ adc)
    (hbelow : adc < thermTable.getD 19 0) :
    ∃ idx < 19, thermSearch adc 0 19 = some idx ∧ thermTable.getD idx 0 ≤ adc ∧
      adc < thermTable.getD (idx + 1) 0 := by
  cases hsearch : thermSearch adc 0 19 with
  | none =>
      -- the last entry is above the reading
      have hpassed := thermSearch_none hsearch (show 0 ≤ 18 ∧ 18 < 0 + 19 by omega)
      exact absurd hbelow (UInt16.not_lt.mpr hpassed)
  | some idx =>
      obtain ⟨-, hidx, hnext, hpassed⟩ := thermSearch_some hsearch
      exact ⟨idx, by omega, rfl, hpassed habove, hnext⟩

/-- `adc_to_temp` computes on a segment that covers the reading. -/
theorem adcToTemp_covers (adc : UInt16) : ∃ idx,
    thermCurve.Covers idx adc.toNat ∧ adcToTemp adc = thermValue idx adc := by
  have hentry (idx : Nat) : thermCurve.points idx = (thermTable.getD idx 0).toNat := rfl
  have hlast : thermCurve.segments = 19 := rfl
  by_cases hcold : adc < thermTable.getD 0 0
  · refine ⟨0, ⟨by omega, .inl ?_, .inr rfl⟩, ?_⟩
    · have hfirst := thermCurve_increasing.points 0 (by omega)
      rw [UInt16.lt_iff_toNat_lt] at hcold
      rw [hentry] at hfirst
      omega
    · rw [adcToTemp, if_pos hcold]
      rfl
  by_cases hhot : adc ≥ thermTable.getD 19 0
  · refine ⟨18, ⟨by omega, .inr rfl, .inl ?_⟩, ?_⟩
    · have hprev : thermCurve.points 18 < thermCurve.points 19 :=
        thermCurve_increasing.points 18 (by omega)
      rw [ge_iff_le, UInt16.le_iff_toNat_le] at hhot
      rw [hentry, hentry] at hprev
      rw [hentry]
      omega
    · rw [adcToTemp, if_neg hcold, if_pos hhot]
      rfl
  · obtain ⟨idx, hidx, hsearch, hlow, hbelow⟩ :=
      thermSearch_ends (UInt16.not_lt.mp hcold) (UInt16.not_le.mp hhot)
    rw [UInt16.lt_iff_toNat_lt] at hbelow
    rw [UInt16.le_iff_toNat_le] at hlow
    refine ⟨idx, ⟨by omega, .inl ?_, .inl ?_⟩, ?_⟩
    · rw [hentry]
      omega
    · rw [hentry]
      omega
    · rw [adcToTemp, if_neg hcold, if_neg hhot, hsearch]
      rfl

/-! ## The temperature -/

/-- The segment that covers a reading gives its temperature. -/
theorem adcToTemp_toInt {adc : UInt16} (hadc : adc ≤ 1023) {idx : Nat}
    (hcovers : thermCurve.Covers idx adc.toNat) (htemp : adcToTemp adc = thermValue idx adc) :
    (adcToTemp adc).toInt = thermCurve.value idx adc.toNat := by
  rw [htemp]
  exact (thermValue_exact hcovers.1 hadc).temp

/-- The temperature is monotone in the reading. -/
theorem adcToTemp_mono {a b : UInt16} (hle : a ≤ b) (hmax : b ≤ 1023) :
    adcToTemp a ≤ adcToTemp b := by
  have hmin := UInt16.le_trans hle hmax
  obtain ⟨i, hi, ha⟩ := adcToTemp_covers a
  obtain ⟨j, hj, hb⟩ := adcToTemp_covers b
  have horder : (a.toNat : Int) ≤ b.toNat := Int.ofNat_le.mpr (UInt16.le_iff_toNat_le.mp hle)
  rw [Int16.le_iff_toInt_le, adcToTemp_toInt hmin hi ha, adcToTemp_toInt hmax hj hb]
  exact thermCurve_increasing.monotone hi hj horder

/-- No other segment than the one that covers a reading gives its temperature. -/
theorem adcToTemp_eq {adc : UInt16} (hadc : adc ≤ 1023) {idx : Nat}
    (hcovers : thermCurve.Covers idx adc.toNat) :
    (adcToTemp adc).toInt = thermCurve.value idx adc.toNat := by
  obtain ⟨i, hi, htemp⟩ := adcToTemp_covers adc
  have hle := thermCurve_increasing.covers_le hi hcovers (Int.le_refl _)
  have hge := thermCurve_increasing.covers_le hcovers hi (Int.le_refl _)
  rw [adcToTemp_toInt hadc hi htemp, Nat.le_antisymm hle hge]

/-- At an entry of the table the temperature is exact. -/
theorem adcToTemp_entry {idx : Nat} (hidx : idx < 20) (hadc : thermTable.getD idx 0 ≤ 1023) :
    (adcToTemp (thermTable.getD idx 0)).toInt = idx * 4 := by
  have hpoint : thermCurve.points idx = (thermTable.getD idx 0).toNat := rfl
  by_cases hlast : idx = 19
  · subst hlast
    have hcovers : thermCurve.Covers 18 (thermTable.getD 19 0).toNat :=
      ⟨by decide, .inr rfl, .inl (by decide)⟩
    rw [adcToTemp_eq hadc hcovers]
    exact thermCurve_increasing.value_right (by decide : 18 < 19)
  · have hsegment : idx < 19 := by omega
    have hcovers : thermCurve.Covers idx (thermTable.getD idx 0).toNat :=
      ⟨hsegment, .inl (thermCurve_increasing.points idx hsegment), .inl (Int.le_refl _)⟩
    rw [adcToTemp_eq hadc hcovers, ← hpoint]
    exact thermCurve_increasing.value_left hsegment

/-- `adc_to_temp` over the readings of ten bits. It is monotone. From the first entry of the table
on it is the linear interpolation between the two entries around the reading, or the extrapolation
of the last segment, rounded to a nearest degree. At the entries it is exact. Between the first and
the last entry its search ends. It computes on the segment that covers the reading, and on no
segment does a 16-bit operation overflow. -/
theorem adc_to_temp_interpolates {adc : UInt16} (hadc : adc ≤ 1023) :
    (∀ other, adc ≤ other → other ≤ 1023 → adcToTemp adc ≤ adcToTemp other) ∧
      (∀ idx < 19, thermTable.getD idx 0 ≤ adc →
        adc < thermTable.getD (idx + 1) 0 ∨ idx = 18 →
        let x : Int := adc.toNat - (thermTable.getD idx 0).toNat
        let range : Int := (thermTable.getD (idx + 1) 0).toNat - (thermTable.getD idx 0).toNat
        2 * |range * ((adcToTemp adc).toInt - idx * 4) - x * 4| ≤ range) ∧
      (∀ idx < 20, adc = thermTable.getD idx 0 → (adcToTemp adc).toInt = idx * 4) ∧
      (thermTable.getD 0 0 ≤ adc → adc < thermTable.getD 19 0 →
        ∃ idx < 19, thermSearch adc 0 19 = some idx ∧ adcToTemp adc = thermValue idx adc) ∧
      (∃ idx < 19, thermCurve.Covers idx adc.toNat ∧ adcToTemp adc = thermValue idx adc) ∧
      ∀ idx < 19, ThermExact idx adc := by
  refine ⟨fun other hle hmax => adcToTemp_mono hle hmax, fun idx hidx habove hbelow => ?_, ?_,
    fun habove hbelow => ?_, ?_, fun idx hidx => thermValue_exact hidx hadc⟩
  · have hleft : thermCurve.points idx ≤ adc.toNat :=
      Int.ofNat_le.mpr (UInt16.le_iff_toNat_le.mp habove)
    have hcovers : thermCurve.Covers idx adc.toNat := by
      refine ⟨hidx, ?_, .inl hleft⟩
      rcases hbelow with hbelow | rfl
      · exact .inl (Int.ofNat_lt.mpr (UInt16.lt_iff_toNat_lt.mp hbelow))
      · exact .inr rfl
    intro x range
    rw [adcToTemp_eq hadc hcovers]
    exact thermCurve_increasing.value_near hidx hleft
  · rintro idx hidx rfl
    exact adcToTemp_entry hidx hadc
  · obtain ⟨idx, hidx, hsearch, -⟩ := thermSearch_ends habove hbelow
    refine ⟨idx, hidx, hsearch, ?_⟩
    rw [adcToTemp, if_neg (UInt16.not_lt.mpr habove), if_neg (UInt16.not_le.mpr hbelow), hsearch]
    rfl
  · obtain ⟨idx, hcovers, htemp⟩ := adcToTemp_covers adc
    exact ⟨idx, hcovers.1, hcovers, htemp⟩

/-- A reading of 600 lies between the entries for 32 and 36 degrees and reads as 35 degrees, which
is within half a degree of 34.5. -/
theorem adc_to_temp_interpolates_warm :
    adcToTemp 600 = 35 ∧ 2 * |(35 : Int) * (35 - 32) - 22 * 4| ≤ 35 :=
  ⟨by decide, (adc_to_temp_interpolates (show (600 : UInt16) ≤ 1023 by decide)).2.1 8 (by decide)
    (by decide) (by decide)⟩

end BmsNode
