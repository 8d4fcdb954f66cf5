import Mathlib.Algebra.Order.Ring.Int
import Mathlib.Tactic.Linarith
import Mathlib.Tactic.Ring

/-!
# Interpolation in a table

A table gives the points at which a function takes equally spaced values. Between two
points the function is interpolated linearly and rounded, by a division that truncates
as in C, and the first and the last segment extend to the outside. With points in
increasing order the result is monotone over all segments, it is exact at the points, and
from the left end of a segment on it is within one half of the line.
-/

namespace Interpolation

/-- The points of a table, the number of segments between them, and the distance of the values. -/
structure Table where
  points : Nat → Int
  segments : Nat
  step : Int

namespace Table

/-- The length of a segment. -/
def range (t : Table) (i : Nat) : Int := t.points (i + 1) - t.points i

/-- The rounded value at a point of a segment, or of the line through it. -/
def value (t : Table) (i : Nat) (x : Int) : Int :=
  ((x - t.points i) * t.step + t.range i / 2).tdiv (t.range i) + i * t.step

/-- The points are in order, and so are the values. -/
structure Increasing (t : Table) : Prop where
  points : ∀ i < t.segments, t.points i < t.points (i + 1)
  step : 0 ≤ t.step

/-- The segment a point belongs to. -/
structure Covers (t : Table) (i : Nat) (x : Int) : Prop where
  segment : i < t.segments
  below : x < t.points (i + 1) ∨ i + 1 = t.segments
  above : t.points i ≤ x ∨ i = 0

section Lemmas

variable {t : Table} {i j : Nat} {x y : Int}

/-- A segment of an increasing table has a length. -/
theorem Increasing.range_pos (h : t.Increasing) (hi : i < t.segments) : 0 < t.range i :=
  Int.sub_pos_of_lt (h.points i hi)

/-- The points are in order over several segments. -/
theorem Increasing.points_mono (h : t.Increasing) (hij : i ≤ j) (hj : j ≤ t.segments) :
    t.points i ≤ t.points j := by
  induction j, hij using Nat.le_induction with
  | base => exact Int.le_refl _
  | succ j _ ih => exact Int.le_trans (ih (by omega)) (Int.le_of_lt (h.points j (by omega)))

/-- On one line the value is monotone. -/
theorem Increasing.value_mono (h : t.Increasing) (hi : i < t.segments) (hxy : x ≤ y) :
    t.value i x ≤ t.value i y := by
  have hproduct := Int.mul_le_mul_of_nonneg_right (Int.sub_le_sub_right hxy (t.points i)) h.step
  unfold value
  exact Int.add_le_add_right
    (Int.tdiv_le_tdiv (h.range_pos hi) (Int.add_le_add_right hproduct _)) _

/-- At the left end of a segment the value is that of the table. -/
theorem Increasing.value_left (h : t.Increasing) (hi : i < t.segments) :
    t.value i (t.points i) = i * t.step := by
  have hrange := h.range_pos hi
  have hhalf : (t.range i / 2).tdiv (t.range i) = 0 :=
    Int.tdiv_eq_zero_of_lt (by omega) (by omega)
  rw [value, Int.sub_self, Int.zero_mul, Int.zero_add, hhalf, Int.zero_add]

/-- At the right end of a segment the value is that of the table. -/
theorem Increasing.value_right (h : t.Increasing) (hi : i < t.segments) :
    t.value i (t.points (i + 1)) = (i + 1 : Nat) * t.step := by
  have hrange := h.range_pos hi
  have hhalf : (t.range i / 2).tdiv (t.range i) = 0 :=
    Int.tdiv_eq_zero_of_lt (by omega) (by omega)
  have hstep := h.step
  have hwhole : ((t.range i) * t.step + t.range i / 2).tdiv (t.range i) = t.step := by
    rw [Int.tdiv_eq_ediv_of_nonneg (by positivity), Int.mul_comm,
      Int.add_comm, Int.add_mul_ediv_right _ _ (by omega), Int.ediv_eq_zero_of_lt (by omega)
        (by omega), Int.zero_add]
  rw [value, ← range, hwhole]
  push_cast
  ring

/-- A point to the right of another one belongs to the same segment or to a later one. -/
theorem Increasing.covers_le (h : t.Increasing) (hx : t.Covers i x) (hy : t.Covers j y)
    (hxy : x ≤ y) : i ≤ j := by
  by_contra hlater
  have hbelow : y < t.points (j + 1) := hy.below.resolve_right (by have := hx.segment; omega)
  have habove : t.points i ≤ x := hx.above.resolve_right (by omega)
  have hpoints := h.points_mono (i := j + 1) (j := i) (by omega) (Nat.le_of_lt hx.segment)
  omega

/-- The value is monotone over all segments. -/
theorem Increasing.monotone (h : t.Increasing) (hx : t.Covers i x) (hy : t.Covers j y)
    (hxy : x ≤ y) : t.value i x ≤ t.value j y := by
  rcases Nat.lt_or_eq_of_le (h.covers_le hx hy hxy) with hlater | rfl
  · -- between the two lie the right end of the one segment and the left end of the other
    have hx1 : x < t.points (i + 1) :=
      hx.below.resolve_right (by have := hy.segment; omega)
    have hy0 : t.points j ≤ y := hy.above.resolve_right (by omega)
    calc t.value i x ≤ t.value i (t.points (i + 1)) := h.value_mono hx.segment (Int.le_of_lt hx1)
      _ = (i + 1 : Nat) * t.step := h.value_right hx.segment
      _ ≤ j * t.step := Int.mul_le_mul_of_nonneg_right (by omega) h.step
      _ = t.value j (t.points j) := (h.value_left hy.segment).symm
      _ ≤ t.value j y := h.value_mono hy.segment hy0
  · exact h.value_mono hx.segment hxy

/-- From the left end of its segment on, the value is within one half of the line. -/
theorem Increasing.value_near (h : t.Increasing) (hi : i < t.segments) (hx : t.points i ≤ x) :
    2 * |t.range i * (t.value i x - i * t.step) - (x - t.points i) * t.step| ≤ t.range i := by
  have hrange := h.range_pos hi
  have hline : 0 ≤ (x - t.points i) * t.step := Int.mul_nonneg (by omega) h.step
  unfold value
  rw [Int.add_sub_cancel, Int.tdiv_eq_ediv_of_nonneg (by omega)]
  have hdiv := Int.emod_add_mul_ediv ((x - t.points i) * t.step + t.range i / 2) (t.range i)
  have hlow := Int.emod_nonneg ((x - t.points i) * t.step + t.range i / 2) (Int.ne_of_gt hrange)
  have hhigh := Int.emod_lt_of_pos ((x - t.points i) * t.step + t.range i / 2) hrange
  generalize ((x - t.points i) * t.step + t.range i / 2) / t.range i = quot at *
  generalize ((x - t.points i) * t.step + t.range i / 2) % t.range i = rest at *
  generalize t.range i * quot = product at *
  have habs : |product - (x - t.points i) * t.step| ≤ t.range i / 2 :=
    abs_le.mpr ⟨by omega, by omega⟩
  omega

end Lemmas

end Table

end Interpolation
