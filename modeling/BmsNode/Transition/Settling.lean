import Mathlib.Data.Nat.Dist
import Mathlib.Logic.Function.Iterate
import Mathlib.Order.Monotone.Basic

/-!
# Iterations that settle

A function on numbers approaches a target when it moves every number towards the target
and never beyond it. Its iterates then move in one direction only, and since they can
move only so often they settle: `Approaches.settled` is a fixed point that is reached
after at most as many steps as the target is away, and never left again. The fixed point
need not be the target, since a function may stop short of it.

With an input that varies within a band, the iterated step lies between two functions,
those of the ends of the band, and the values between their iterates: `Bracketed`. How
near the iterates come to the band is the iteration of a bound on one step.
-/

namespace Settling

variable {f : Nat → Nat} {target : Nat}

/-- The function moves towards the target and not beyond. -/
structure Approaches (f : Nat → Nat) (target : Nat) : Prop where
  up {n : Nat} : n ≤ target → n ≤ f n ∧ f n ≤ target
  down {n : Nat} : target ≤ n → target ≤ f n ∧ f n ≤ n

/-- Iterates from below stay below and only grow. -/
theorem Approaches.iterate_up (h : Approaches f target) {n : Nat} (hn : n ≤ target) (k : Nat) :
    f^[k] n ≤ f^[k + 1] n ∧ f^[k] n ≤ target := by
  induction k generalizing n with
  | zero => exact ⟨(h.up hn).1, hn⟩
  | succ k ih => exact ih (h.up hn).2

/-- Iterates from above stay above and only shrink. -/
theorem Approaches.iterate_down (h : Approaches f target) {n : Nat} (hn : target ≤ n) (k : Nat) :
    f^[k + 1] n ≤ f^[k] n ∧ target ≤ f^[k] n := by
  induction k generalizing n with
  | zero => exact ⟨(h.down hn).2, hn⟩
  | succ k ih => exact ih (h.down hn).1

/-- Iterates move in one direction. -/
theorem Approaches.monotone (h : Approaches f target) (n : Nat) :
    (∀ k, f^[k] n ≤ f^[k + 1] n) ∨ (∀ k, f^[k + 1] n ≤ f^[k] n) := by
  rcases Nat.le_total n target with hn | hn
  · exact .inl fun k => (h.iterate_up hn k).1
  · exact .inr fun k => (h.iterate_down hn k).1

/-- A step that moves brings the target nearer. -/
theorem Approaches.dist_lt (h : Approaches f target) {n : Nat} (hmove : f n ≠ n) :
    Nat.dist (f n) target < Nat.dist n target := by
  rcases Nat.le_total n target with hn | hn
  · have hup := h.up hn
    rw [Nat.dist_eq_sub_of_le hn, Nat.dist_eq_sub_of_le hup.2]
    omega
  · have hdown := h.down hn
    rw [Nat.dist_eq_sub_of_le_right hn, Nat.dist_eq_sub_of_le_right hdown.1]
    omega

/-- After as many steps as the target is away the iteration stands still, by induction on that
distance. -/
theorem Approaches.fixed (h : Approaches f target) {n k : Nat} (hk : Nat.dist n target ≤ k) :
    f (f^[k] n) = f^[k] n := by
  induction k generalizing n with
  | zero =>
      by_contra hmove
      have := h.dist_lt hmove
      rw [Function.iterate_zero_apply] at this
      omega
  | succ k ih =>
      rw [Function.iterate_succ_apply]
      by_cases hmove : f n = n
      · rw [hmove, Function.iterate_fixed hmove, hmove]
      · have := h.dist_lt hmove
        exact ih (by omega)

/-- The iteration settles on a fixed point, and stays there. -/
theorem Approaches.settled (h : Approaches f target) (n : Nat) :
    ∃ last, f last = last ∧ ∀ k, Nat.dist n target ≤ k → f^[k] n = last := by
  have hfixed : f _ = _ := h.fixed (n := n) (Nat.le_refl _)
  refine ⟨f^[Nat.dist n target] n, hfixed, fun k hk => ?_⟩
  obtain ⟨more, rfl⟩ := Nat.exists_eq_add_of_le hk
  rw [Nat.add_comm, Function.iterate_add_apply, Function.iterate_fixed hfixed]

section Band

variable {α : Type*} [Preorder α] {low high : α → α} {first value next : α} {k : Nat}

/-- A value between the iterates of two functions. -/
structure Bracketed (low high : α → α) (first : α) (k : Nat) (value : α) : Prop where
  lower : low^[k] first ≤ value
  upper : value ≤ high^[k] first

/-- The value at the start. -/
theorem Bracketed.start (low high : α → α) (first : α) : Bracketed low high first 0 first :=
  ⟨le_refl first, le_refl first⟩

/-- A step between the two functions. -/
theorem Bracketed.step (h : Bracketed low high first k value) (hlow : Monotone low)
    (hhigh : Monotone high) (hlower : low value ≤ next) (hupper : next ≤ high value) :
    Bracketed low high first (k + 1) next := by
  constructor
  · rw [Function.iterate_succ_apply']
    exact le_trans (hlow h.lower) hlower
  · rw [Function.iterate_succ_apply']
    exact le_trans hupper (hhigh h.upper)

variable {β σ : Type*} [Preorder β] {step : σ → σ} {bound : β → β} {most last : β} {enough : Nat}

/-- A bound on the size after one step, iterated, is one on the size after many. -/
theorem size_iterate_le (size : σ → β) (hbound : Monotone bound)
    (hstep : ∀ x, size (step x) ≤ bound (size x)) (k : Nat) (x : σ) :
    size (step^[k] x) ≤ bound^[k] (size x) := by
  induction k generalizing x with
  | zero => exact le_refl _
  | succ k ih =>
      rw [Function.iterate_succ_apply, Function.iterate_succ_apply]
      exact le_trans (ih (step x)) (hbound.iterate k (hstep x))

/-- A bound that has come down to a fixed point stays there. -/
theorem iterate_le_fixed (hbound : Monotone bound) (hfixed : bound last = last)
    (henough : bound^[enough] most ≤ last) (hk : enough ≤ k) {b : β} (hb : b ≤ most) :
    bound^[k] b ≤ last := by
  obtain ⟨more, rfl⟩ := Nat.exists_eq_add_of_le hk
  rw [Nat.add_comm, Function.iterate_add_apply]
  calc bound^[more] (bound^[enough] b)
      ≤ bound^[more] (bound^[enough] most) := hbound.iterate more (hbound.iterate enough hb)
    _ ≤ bound^[more] last := hbound.iterate more henough
    _ = last := Function.iterate_fixed hfixed more

end Band

end Settling
