import BmsNode.Crc.Register

/-!
# Which errors a cyclic redundancy check finds

The errors of `Crc.Register` for messages made of symbols as wide as the register.
`detected` collects them: an odd number of flipped bits, flipped bits within one
symbol, and two flipped bits no further apart than the order of the polynomial.
-/

namespace Crc

variable {w : Nat} {poly : BitVec w}

/-! ## Two flipped bits -/

/-- The input bit is added to the turned register. -/
theorem feed_true (r : BitVec w) : feed poly r true = shift poly r ^^^ poly := by
  have hzero : feed poly 0#w true = poly := by simp [feed]
  have hxor := feed_xor poly r 0#w false true
  rw [BitVec.xor_zero, Bool.false_xor, hzero] at hxor
  exact hxor

/-- A message with a set bit starts with unset ones. -/
theorem exists_first_set (xs : List Bool) (h : 0 < xs.count true) :
    ∃ n rest, xs = List.replicate n false ++ true :: rest ∧ xs.count true = rest.count true + 1 := by
  induction xs with
  | nil => simp at h
  | cons x xs ih =>
      cases x with
      | true => exact ⟨0, xs, rfl, by simp⟩
      | false =>
          obtain ⟨n, rest, hxs, hcount⟩ := ih (by simpa using h)
          exact ⟨n + 1, rest, by rw [hxs, List.replicate_succ]; rfl, by simpa using hcount⟩

/-- A message without a set bit. -/
theorem eq_replicate_false (xs : List Bool) (h : xs.count true = 0) :
    xs = List.replicate xs.length false := by
  apply List.eq_replicate_of_mem
  intro x hx
  cases x with
  | false => rfl
  | true => exact absurd hx (List.count_eq_zero.mp h)

/-- Two flipped bits do not pass the check, when the message is shorter than the order of the
polynomial. -/
theorem ne_zero_of_two (hw : 0 < w) (hpoly : poly.getLsbD 0 = true) {errors : List Bool}
    (horder : ∀ d, 0 < d → d < errors.length → (shift poly)^[d] poly ≠ poly)
    (h : errors.count true = 2) : remainder poly 0#w errors ≠ 0#w := by
  obtain ⟨a, rest, rfl, hfirst⟩ := exists_first_set errors (by omega)
  obtain ⟨b, last, rfl, hsecond⟩ := exists_first_set rest (by omega)
  have hlast := eq_replicate_false last (by omega)
  simp only [List.length_append, List.length_replicate, List.length_cons] at horder
  intro hzero
  -- the register starts at the first flipped bit, and the second one must cancel it
  rw [remainder_append, remainder_replicate, iterate_shift_zero, remainder_cons, feed_true,
    remainder_append, remainder_replicate, remainder_cons, feed_true, hlast, remainder_replicate,
    iterate_shift_eq_zero_iff hw hpoly, BitVec.xor_eq_zero_iff] at hzero
  rw [shift_zero, BitVec.zero_xor, ← Function.iterate_succ_apply' (shift poly)] at hzero
  exact horder (b + 1) (by omega) (by omega) hzero

/-! ## Symbols -/

/-- The first bits of a symbol. -/
theorem range_map_getMsbD (b : BitVec w) (n : Nat) :
    (List.range (n + 1)).map b.getMsbD = b.msb :: (List.range n).map (b <<< 1).getMsbD := by
  rw [List.range_succ_eq_map, List.map_cons, List.map_map]
  congr 1
  apply List.map_congr_left
  intro i _
  simp [BitVec.getMsbD_shiftLeft]

/-- Adding a symbol to the register and turning it feeds the symbol's highest bit. -/
theorem shift_xor (r b : BitVec w) : shift poly (r ^^^ b) = feed poly r b.msb ^^^ (b <<< 1) := by
  have hbit : feed poly b b.msb = b <<< 1 := by simp [feed]
  have hxor := feed_xor poly r b b.msb b.msb
  rw [Bool.xor_self, hbit] at hxor
  exact hxor

/-- Adding a symbol to the register and turning it `n` times feeds the symbol's first `n` bits. -/
theorem iterate_shift_xor (r b : BitVec w) (n : Nat) :
    (shift poly)^[n] (r ^^^ b) =
      remainder poly r ((List.range n).map b.getMsbD) ^^^ (b <<< n) := by
  induction n generalizing r b with
  | zero => simp
  | succ n ih =>
      rw [Function.iterate_succ_apply, shift_xor, ih, range_map_getMsbD, remainder_cons,
        ← BitVec.shiftLeft_add, Nat.add_comm 1 n]

/-- A symbol as wide as the register is fed by adding it and turning the register around. -/
theorem remainder_bits (r b : BitVec w) :
    remainder poly r (bits b) = (shift poly)^[w] (r ^^^ b) := by
  rw [iterate_shift_xor, BitVec.shiftLeft_eq_zero (Nat.le_refl w), BitVec.xor_zero, bits]

/-- The register after a sequence of symbols. -/
theorem remainder_message (r : BitVec w) (symbols : List (BitVec w)) :
    remainder poly r (message symbols) =
      symbols.foldl (fun r b => (shift poly)^[w] (r ^^^ b)) r := by
  induction symbols generalizing r with
  | nil => rfl
  | cons b rest ih =>
      rw [message, List.flatMap_cons, remainder_append, remainder_bits, List.foldl_cons]
      exact ih _

/-- A sequence of symbols has `w` bits for each. -/
@[simp] theorem length_message (symbols : List (BitVec w)) :
    (message symbols).length = symbols.length * w := by
  simp [message, bits, List.length_flatMap]

/-- The bits of a sequence of symbols with one of them singled out. -/
theorem message_append_cons (before after : List (BitVec w)) (b : BitVec w) :
    message (before ++ b :: after) = message before ++ (bits b ++ message after) := by
  simp [message]

/-- Messages that differ in one symbol do not leave the same register. -/
theorem remainder_ne_of_symbol (hw : 0 < w) (hpoly : poly.getLsbD 0 = true) (r : BitVec w)
    (before after : List (BitVec w)) {a b : BitVec w} (hne : a ≠ b) :
    remainder poly r (message (before ++ a :: after)) ≠
      remainder poly r (message (before ++ b :: after)) := by
  intro heq
  simp only [message_append_cons, remainder_append] at heq
  -- the register in front of the symbol is the same, and none of the turns after it loses anything
  have hsymbol := remainder_injective hw hpoly (message after) heq
  simp only [remainder_bits] at hsymbol
  have hxor := (shift_injective hw hpoly).iterate w hsymbol
  exact hne ((BitVec.xor_right_inj _).mp hxor)

/-! ## Detection -/

/-- What distinguishes two messages of symbols: an odd number of bits, the bits of one symbol, or
two bits of a message of at most `window` bits. -/
inductive Corrupted (window : Nat) (sent received : List (BitVec w)) : Prop where
  | odd (h : Odd (flips (message sent) (message received)))
  | symbol (before after : List (BitVec w)) (a b : BitVec w) (hne : a ≠ b)
      (hsent : sent = before ++ a :: after) (hreceived : received = before ++ b :: after)
  | two (hshort : (message sent).length ≤ window) (h : flips (message sent) (message received) = 2)

/-- A message that passes the check does not pass it after such a corruption. -/
theorem detected (hw : 0 < w) (hlow : poly.getLsbD 0 = true) (hparity : parity poly = true)
    {window : Nat} (horder : ∀ d, 0 < d → d < window → (shift poly)^[d] poly ≠ poly)
    {sent received : List (BitVec w)} (hlength : sent.length = received.length)
    (hsent : remainder poly 0#w (message sent) = 0#w) (h : Corrupted window sent received) :
    remainder poly 0#w (message received) ≠ 0#w := by
  have hbits : (message sent).length = (message received).length := by
    rw [length_message, length_message, hlength]
  cases h with
  | odd h =>
      rw [Ne, remainder_eq_zero_iff hbits hsent]
      exact ne_zero_of_odd hw hparity h
  | symbol before after a b hne hs hr =>
      have hother := remainder_ne_of_symbol hw hlow 0#w before after hne
      rw [← hs, ← hr, hsent] at hother
      exact hother.symm
  | two hshort h =>
      rw [Ne, remainder_eq_zero_iff hbits hsent]
      refine ne_zero_of_two hw hlow (fun d hpos hd => horder d hpos ?_) h
      rw [List.length_zipWith] at hd
      omega

end Crc
