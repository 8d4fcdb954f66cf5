import Mathlib.Algebra.Group.Nat.Defs
import Mathlib.Order.Basic

/-!
# Machine words as numbers

Reading a signed word as an unsigned one, sums and products that do not wrap, and the
motion of a counter by at most one towards a target.
-/

namespace Word

/-- A signed word read as an unsigned one: a negative value appears above the positive ones. -/
theorem toNat_toUInt16 (x : Int16) :
    (x.toUInt16.toNat : Int) = if 0 ≤ x.toInt then x.toInt else x.toInt + 65536 := by
  have hcond := BitVec.toInt_eq_toNat_cond x.toBitVec
  have hlt := x.toUInt16.toNat_lt
  have hint : x.toInt = x.toBitVec.toInt := rfl
  have hnat : x.toUInt16.toNat = x.toBitVec.toNat := rfl
  rw [hint, hnat] at *
  split at hcond <;> split <;> omega

/-- The difference of two signed bytes as a word, when the first is above the second. -/
theorem toNat_sub_of_lt {a b : Int8} (h : b < a) :
    ((a.toInt16 - b.toInt16).toUInt16.toNat : Int) = a.toInt - b.toInt := by
  have hlt := Int8.lt_iff_toInt_lt.mp h
  have ha := a.toInt_lt
  have hb := b.le_toInt
  have hdiff : (a.toInt16 - b.toInt16).toInt = a.toInt - b.toInt := by
    rw [Int16.toInt_sub, Int8.toInt_toInt16, Int8.toInt_toInt16]
    rw [Int.bmod_eq_of_le] <;> omega
  rw [toNat_toUInt16, hdiff, if_pos (by omega)]

/-- No word lies strictly between two words exactly when the second is at most one above the
first. -/
theorem noneBetween_iff (a b : UInt16) :
    (∀ w, ¬(a < w ∧ w < b)) ↔ b.toNat ≤ a.toNat + 1 := by
  have hlast := b.toNat_lt
  simp only [UInt16.lt_iff_toNat_lt]
  constructor
  · intro hnone
    by_contra hroom
    have hnext : (UInt16.ofNat (a.toNat + 1)).toNat = a.toNat + 1 := by
      rw [UInt16.toNat_ofNat']
      omega
    apply hnone (UInt16.ofNat (a.toNat + 1))
    omega
  · intro hclose w hbetween
    omega

/-- Two counters that wrap compare like the numbers they count, as long as these are less than half
the range of the word apart. -/
theorem sub_lt_half_iff {now deadline : Nat} (hlead : deadline ≤ now + 32768)
    (hlag : now < deadline + 32768) :
    UInt16.ofNat now - UInt16.ofNat deadline < 32768 ↔ deadline ≤ now := by
  rw [UInt16.lt_iff_toNat_lt, UInt16.toNat_sub, UInt16.toNat_ofNat', UInt16.toNat_ofNat']
  show _ < 32768 ↔ _
  omega

/-- Every word is a count that is no more than half the range of the word away from another one. -/
theorem exists_near (w : UInt16) {now : Nat} (hnow : 65536 ≤ now) :
    ∃ count, w = UInt16.ofNat count ∧ count ≤ now + 32768 ∧ now < count + 32768 := by
  have hw := w.toNat_lt
  have hword {count : Nat} (hcount : count % 65536 = w.toNat) : w = UInt16.ofNat count :=
    UInt16.toNat_inj.mp (by rw [UInt16.toNat_ofNat', ← hcount])
  by_cases hahead : (w.toNat + 65536 - now % 65536) % 65536 ≤ 32768
  · exact ⟨now + (w.toNat + 65536 - now % 65536) % 65536, hword (by omega), by omega, by omega⟩
  · exact ⟨now + (w.toNat + 65536 - now % 65536) % 65536 - 65536, hword (by omega), by omega,
      by omega⟩

/-- A deadline of a counter that wraps comes one nearer with each count. -/
theorem toNat_sub_add_one {deadline now : UInt16} (hleft : (deadline - now).toNat ≠ 0) :
    (deadline - (now + 1)).toNat = (deadline - now).toNat - 1 := by
  have hdeadline := deadline.toNat_lt
  have hnow := now.toNat_lt
  rw [UInt16.toNat_sub] at hleft ⊢
  rw [UInt16.toNat_sub, UInt16.toNat_add, show (1 : UInt16).toNat = 1 from rfl]
  omega

/-- A deadline that is less than half the range of the word ahead is reached when nothing is left.
-/
theorem sub_lt_half_iff_left {deadline now : UInt16} (hnear : (deadline - now).toNat ≤ 32768) :
    now - deadline < 32768 ↔ (deadline - now).toNat = 0 := by
  have hdeadline := deadline.toNat_lt
  have hnow := now.toNat_lt
  rw [UInt16.toNat_sub] at hnear
  rw [UInt16.lt_iff_toNat_lt, UInt16.toNat_sub, UInt16.toNat_sub]
  show _ < 32768 ↔ _
  omega

/-- A deadline set less than half the range of the word ahead is not reached before its duration has
passed. -/
theorem not_sub_lt_half (now duration : UInt16) {k : Nat} (hk : k < duration.toNat)
    (hduration : duration.toNat ≤ 32768) :
    ¬now + UInt16.ofNat k - (now + duration) < 32768 := by
  have hnow := now.toNat_lt
  rw [UInt16.lt_iff_toNat_lt, UInt16.toNat_sub, UInt16.toNat_add, UInt16.toNat_add,
    UInt16.toNat_ofNat']
  show ¬_ < 32768
  omega

/-- Moving a deadline on shortens the lag behind it, or makes it wrap. -/
theorem toNat_sub_add (now deadline period : UInt16) :
    (now - (deadline + period)).toNat =
      if period.toNat ≤ (now - deadline).toNat then (now - deadline).toNat - period.toNat
      else (now - deadline).toNat + 65536 - period.toNat := by
  have hnow := now.toNat_lt
  have hdeadline := deadline.toNat_lt
  have hperiod := period.toNat_lt
  rw [UInt16.toNat_sub, UInt16.toNat_sub, UInt16.toNat_add]
  split_ifs <;> omega

/-- A byte that counts down, until it is zero. -/
theorem toNat_sub_one {b : UInt8} (h : 0 < b.toNat) : (b - 1).toNat = b.toNat - 1 := by
  rw [UInt8.toNat_sub_of_le]
  · rfl
  · rw [UInt8.le_iff_toNat_le]
    exact h

/-- A byte that counts up, until it wraps. -/
theorem toNat_add_one {b : UInt8} (h : b.toNat < 255) : (b + 1).toNat = b.toNat + 1 := by
  rw [UInt8.toNat_add, show (1 : UInt8).toNat = 1 from rfl]
  omega

/-- The number next to `current` on the way to `target`, or `current` itself once there. -/
def towards (target current : Nat) : Nat :=
  if current < target then current + 1 else if target < current then current - 1 else current

/-- Two targets move a counter alike exactly when they are equal or on the same side of it. -/
theorem towards_eq_iff (a b current : Nat) :
    towards a current = towards b current ↔
      a = b ∨ (current < a ∧ current < b) ∨ (a < current ∧ b < current) := by
  unfold towards
  split_ifs <;> omega

/-- The step of an unsigned byte towards a target byte. -/
theorem toNat_towards (target current : UInt8) :
    let adjust : Int8 := if target > current then 1 else if target < current then -1 else 0
    (current + adjust.toUInt8).toNat = towards target.toNat current.toNat := by
  intro adjust
  have hcurrent := current.toNat_lt
  have htarget := target.toNat_lt
  unfold towards
  simp only [adjust, gt_iff_lt, UInt8.lt_iff_toNat_lt]
  split_ifs with hup hdown
  · rw [show (1 : Int8).toUInt8 = 1 from rfl, UInt8.toNat_add]
    simp
    omega
  · rw [show (-1 : Int8).toUInt8 = 255 from rfl, UInt8.toNat_add]
    simp
    omega
  · rw [show (0 : Int8).toUInt8 = 0 from rfl, UInt8.toNat_add]
    simp

/-- Setting bits above the highest one of a number adds to it. -/
theorem or_mul_two_pow {a b : Nat} (i : Nat) (ha : a < 2 ^ i) : a ||| b * 2 ^ i = a + b * 2 ^ i := by
  rw [Nat.or_comm, ← Nat.shiftLeft_eq, ← Nat.shiftLeft_add_eq_or_of_lt ha, Nat.add_comm]

/-- A byte shifted within a 32-bit word. -/
theorem toNat_shiftLeft_byte (b : UInt8) {k : UInt32} (hk : k.toNat ≤ 24) :
    (b.toUInt32 <<< k).toNat = b.toNat * 2 ^ k.toNat := by
  have hb := b.toNat_lt
  have hpow : 2 ^ k.toNat ≤ 2 ^ 24 := Nat.pow_le_pow_right (by omega) hk
  have hk32 : k.toNat % 32 = k.toNat := Nat.mod_eq_of_lt (by omega)
  rw [UInt32.toNat_shiftLeft, hk32, UInt8.toNat_toUInt32, Nat.shiftLeft_eq, Nat.mod_eq_of_lt]
  calc b.toNat * 2 ^ k.toNat ≤ b.toNat * 2 ^ 24 := Nat.mul_le_mul_left _ hpow
    _ < 2 ^ 32 := by omega

end Word
