import Mathlib.Data.Nat.ModEq

/-!
# Circular buffers

The items queued in a circular buffer of `n` cells: `count` of them, from the cell at
`tail` on, wrapping at the end. Storing an item behind the last one appends it to the
queue, and stepping the tail over the first one removes it.
-/

namespace Ring

variable {β : Type*} {n : Nat}

/-- The queued items, oldest first. -/
def contents (cells : Vector β n) (tail : Nat) : Nat → List β
  | 0 => []
  | count + 1 => cells[tail % n]?.toList ++ contents cells (tail + 1) count

/-- The tail only matters up to the size of the buffer. -/
theorem contents_mod (cells : Vector β n) (tail count : Nat) :
    contents cells (tail % n) count = contents cells tail count := by
  induction count generalizing tail with
  | zero => rfl
  | succ count ih =>
      have hnext := ih (tail % n + 1)
      rw [Nat.mod_add_mod, ih (tail + 1)] at hnext
      rw [contents, contents, Nat.mod_mod, hnext]

/-- There are as many items as the count says. -/
theorem length_contents (hn : 0 < n) (cells : Vector β n) (tail count : Nat) :
    (contents cells tail count).length = count := by
  induction count generalizing tail with
  | zero => rfl
  | succ count ih =>
      have hcell : tail % n < n := Nat.mod_lt _ hn
      rw [contents, List.length_append, ih, Vector.getElem?_eq_getElem hcell]
      exact Nat.add_comm 1 count

/-- An item stored into a cell that is not in use changes none of the queued ones. -/
theorem contents_setIfInBounds {cells : Vector β n} {tail count cell : Nat} (item : β)
    (hfree : ∀ i, i < count → (tail + i) % n ≠ cell) :
    contents (cells.setIfInBounds cell item) tail count = contents cells tail count := by
  induction count generalizing tail with
  | zero => rfl
  | succ count ih =>
      have hfirst : tail % n ≠ cell := hfree 0 (Nat.succ_pos _)
      rw [contents, contents, Vector.getElem?_setIfInBounds_ne hfirst.symm, ih]
      intro i hi
      rw [Nat.add_right_comm, Nat.add_assoc]
      exact hfree (i + 1) (Nat.succ_lt_succ hi)

/-- One more item is the cell behind the last one. -/
theorem contents_concat (cells : Vector β n) (tail count : Nat) :
    contents cells tail (count + 1) =
      contents cells tail count ++ cells[(tail + count) % n]?.toList := by
  induction count generalizing tail with
  | zero => rw [contents, contents, contents, List.append_nil, List.nil_append, Nat.add_zero]
  | succ count ih =>
      rw [contents, ih, contents, List.append_assoc, Nat.add_right_comm, Nat.add_assoc]

/-- Storing an item behind the last one appends it, as long as there is a free cell. -/
theorem contents_put {cells : Vector β n} {count : Nat} (tail : Nat) (item : β)
    (hroom : count < n) :
    contents (cells.setIfInBounds ((tail + count) % n) item) tail (count + 1) =
      contents cells tail count ++ [item] := by
  have hn : 0 < n := Nat.lt_of_le_of_lt (Nat.zero_le _) hroom
  rw [contents_concat, contents_setIfInBounds item,
    Vector.getElem?_setIfInBounds_self_of_lt (Nat.mod_lt _ hn)]
  · rfl
  · -- two cells less than the size of the buffer apart are different
    intro i hi heq
    have hsame : i % n = count % n := Nat.ModEq.add_left_cancel' tail heq
    rw [Nat.mod_eq_of_lt (hi.trans hroom), Nat.mod_eq_of_lt hroom] at hsame
    omega

/-- Stepping the tail over the first item removes it. -/
theorem contents_take (cells : Vector β n) {tail : Nat} (htail : tail < n) (count : Nat) :
    contents cells tail (count + 1) =
      cells[tail]?.toList ++ contents cells ((tail + 1) % n) count := by
  rw [contents, contents_mod, Nat.mod_eq_of_lt htail]

end Ring
