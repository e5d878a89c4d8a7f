/-
Zero-extended arrays: the byte-array semantics shared by files, storage objects and HTTP resources.

A list `l` over a type with a zero stands for the infinite array `cell l`, which reads `0` past the end of `l`. The
operations are the ones storage back-ends perform on such arrays:
- `resize l n`: `l` cut to `n` elements or zero-extended to them (POSIX `truncate`);
- `overwrite l off b`: `b` written in place at `off`, any gap past the old end zero-filled (POSIX `pwrite`);
- `slice l off n`: the elements in `[off, min (off + n) |l|)`, a read cut at the end of the array;
- `window l off n`: exactly `n` elements of the zero-extended array from `off`, i.e. a slice padded with zeros.
Every operation has its `cell_*` lemma, so later proofs reason pointwise and never unfold. `overwrite_append` says
that two adjacent writes are one write of the concatenation; `window_add` splits a window in two; `eq_of_cell` and
`window_congr` turn pointwise agreement back into equality of lists.
-/
import Mathlib

namespace OneHelpers.SparseArray

variable {α : Type*} [Zero α]

/-! ## Operations -/

/-- element `i` of the zero-extended array `l` -/
def cell (l : List α) (i : ℕ) : α := l[i]?.getD 0

/-- `l` cut to `n` elements, or zero-extended to `n` elements -/
def resize (l : List α) (n : ℕ) : List α := l.take n ++ List.replicate (n - l.length) 0

/-- `b` written at `off` in place; a gap between the end of `l` and `off` is zero-filled, nothing is cut -/
def overwrite (l : List α) (off : ℕ) (b : List α) : List α := resize l off ++ b ++ l.drop (off + b.length)

/-- the elements of `l` in `[off, off + n)`, cut at the end of `l` -/
def slice (l : List α) (off n : ℕ) : List α := (l.drop off).take n

/-- exactly `n` elements of the zero-extended array `l`, starting at `off` -/
def window (l : List α) (off n : ℕ) : List α := resize (slice l off n) n

/-! ## Pointwise lemmas -/

@[simp] theorem cell_nil (i : ℕ) : cell ([] : List α) i = 0 := rfl

theorem cell_of_length_le {l : List α} {i : ℕ} (h : l.length ≤ i) : cell l i = 0 := by
  simp [cell, List.getElem?_eq_none h]

theorem cell_of_lt {l : List α} {i : ℕ} (h : i < l.length) : cell l i = l[i] := by
  simp [cell, List.getElem?_eq_getElem h]

theorem cell_append (l m : List α) (i : ℕ) :
    cell (l ++ m) i = if i < l.length then cell l i else cell m (i - l.length) := by
  unfold cell
  split_ifs with h
  · rw [List.getElem?_append_left h]
  · rw [List.getElem?_append_right (by omega)]

@[simp] theorem cell_replicate_zero (n i : ℕ) : cell (List.replicate n (0 : α)) i = 0 := by
  unfold cell
  rw [List.getElem?_replicate]
  split_ifs <;> rfl

@[simp] theorem cell_take (l : List α) (n i : ℕ) : cell (l.take n) i = if i < n then cell l i else 0 := by
  unfold cell
  rw [List.getElem?_take]
  split_ifs <;> rfl

@[simp] theorem cell_drop (l : List α) (n i : ℕ) : cell (l.drop n) i = cell l (n + i) := by
  simp [cell, List.getElem?_drop]

@[simp] theorem length_resize (l : List α) (n : ℕ) : (resize l n).length = n := by
  simp only [resize, List.length_append, List.length_take, List.length_replicate]
  omega

@[simp] theorem cell_resize (l : List α) (n i : ℕ) : cell (resize l n) i = if i < n then cell l i else 0 := by
  unfold resize
  rw [cell_append, List.length_take, cell_take]
  by_cases hi : i < n
  · by_cases hl : i < l.length
    · simp [hi, hl]
    · simp [hi, cell_of_length_le (Nat.le_of_not_lt hl)]
  · simp [hi]

theorem resize_length (l : List α) : resize l l.length = l := by
  simp [resize]

@[simp] theorem length_overwrite (l : List α) (off : ℕ) (b : List α) :
    (overwrite l off b).length = max l.length (off + b.length) := by
  simp only [overwrite, List.length_append, length_resize, List.length_drop]
  omega

@[simp] theorem cell_overwrite (l : List α) (off : ℕ) (b : List α) (i : ℕ) :
    cell (overwrite l off b) i = if off ≤ i ∧ i < off + b.length then cell b (i - off) else cell l i := by
  simp only [overwrite, cell_append, List.length_append, length_resize, cell_resize, cell_drop]
  -- three regions: before `off` (the resized prefix), inside `b`, after `b` (the dropped suffix)
  split_ifs <;> first | rfl | omega | (congr 1; omega)

omit [Zero α] in
@[simp] theorem length_slice (l : List α) (off n : ℕ) : (slice l off n).length = min n (l.length - off) := by
  simp [slice]

@[simp] theorem cell_slice (l : List α) (off n i : ℕ) :
    cell (slice l off n) i = if i < n then cell l (off + i) else 0 := by
  simp [slice]

@[simp] theorem length_window (l : List α) (off n : ℕ) : (window l off n).length = n := by
  simp [window]

@[simp] theorem cell_window (l : List α) (off n i : ℕ) :
    cell (window l off n) i = if i < n then cell l (off + i) else 0 := by
  simp only [window, cell_resize, cell_slice]
  split_ifs <;> rfl

/-! ## Equality from pointwise agreement -/

/-- two lists of one length are equal when they agree cell by cell -/
theorem eq_of_cell {l m : List α} (hl : l.length = m.length) (h : ∀ i, cell l i = cell m i) : l = m := by
  refine List.ext_getElem hl fun i h1 h2 => ?_
  have := h i
  rwa [cell_of_lt h1, cell_of_lt h2] at this

/-- a window only sees the cells of the array -/
theorem window_congr {l m : List α} (h : ∀ i, cell l i = cell m i) (off n : ℕ) :
    window l off n = window m off n := by
  apply eq_of_cell (by simp)
  intro i
  simp [h]

theorem window_add (l : List α) (off m n : ℕ) : window l off (m + n) = window l off m ++ window l (off + m) n := by
  apply eq_of_cell (by simp)
  intro i
  rw [cell_append, cell_window, cell_window, cell_window, length_window]
  by_cases hm : i < m
  · simp [hm]
    omega
  · have e : off + m + (i - m) = off + i := by omega
    simp only [hm, e, if_false]
    split_ifs <;> first | rfl | omega

theorem window_zero (l : List α) (off : ℕ) : window l off 0 = [] := by
  simp [window, resize, slice]

/-! ## Composing writes -/

/-- two adjacent writes are one write of the concatenation -/
theorem overwrite_append (l : List α) (off : ℕ) (c d : List α) :
    overwrite (overwrite l off c) (off + c.length) d = overwrite l off (c ++ d) := by
  apply eq_of_cell (by simp; omega)
  intro i
  simp only [cell_overwrite, List.length_append, cell_append]
  split_ifs <;> first | rfl | omega | (congr 1; omega)

end OneHelpers.SparseArray
