import Mathlib.Data.List.Basic

/-!
# Filling a fixed-size buffer from the front

A buffer that is written at consecutive indices holds the written bytes as a prefix.
These are the lemmas to keep that prefix in step with the writes and to read single
elements from it.
-/

namespace BufferPrefix

variable {α : Type*} {n : Nat}

/-- A write to the buffer is a write to its list of elements. -/
theorem toList_set (buf : Vector α n) (i : Nat) (x : α) :
    (buf.setIfInBounds i x).toList = buf.toList.set i x := by
  cases buf with
  | mk arr h => simp [Vector.setIfInBounds, Vector.toList]

/-- Writing at index `i` extends the prefix of length `i` by the written element. -/
theorem take_succ_set (buf : Vector α n) {i : Nat} (x : α) (hi : i < n) :
    (buf.setIfInBounds i x).toList.take (i + 1) = buf.toList.take i ++ [x] := by
  have hlen : i < buf.toList.length := by simpa using hi
  rw [toList_set, List.take_add_one, List.take_set_of_le (Nat.le_refl i),
    List.getElem?_set_self hlen]
  rfl

/-- Writing at index `i` keeps every prefix that ends at or before `i`. -/
theorem take_set_of_le (buf : Vector α n) {i j : Nat} (x : α) (hij : i ≤ j) :
    (buf.setIfInBounds j x).toList.take i = buf.toList.take i := by
  rw [toList_set, List.take_set_of_le hij]

/-- An element below the length of a known prefix is the prefix's own. -/
theorem getElem_of_take {buf : Vector α n} {k : Nat} {got : List α}
    (hfront : buf.toList.take k = got) {i : Nat} (hi : i < got.length) (hn : i < n) :
    buf[i] = got[i] := by
  subst hfront
  simp

end BufferPrefix
