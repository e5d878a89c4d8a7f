/-
Pieces written into a zero-extended array, and the coalescing of contiguous writes.

A piece `(off, b)` is written as `pwrite` writes it: `b` lands at `off`, a gap past the end is zero-filled, and an
empty piece changes nothing (it neither writes nor extends the array). `applyPieces` writes a list of pieces in order.

`Coalesce ws ps` says that `ps` is `ws` with runs of contiguous pieces (each starting where the one before it ended)
joined into one piece, in order: a write-behind buffer that merges contiguous writes relates the writes it receives
to the pieces it emits this way. No byte is lost, duplicated or moved by it.

Results: `writePiece_append` (two contiguous pieces are one piece), `applyPieces_append`,
`applyPieces_of_piecesSize_eq_zero` (empty pieces write nothing), and `applyPieces_of_coalesce`: coalescing never
changes what the pieces produce.
-/
import Mathlib.Tactic
import OneHelpers.Core.SparseArray

namespace OneHelpers.SparseArray

variable {α : Type*} [Zero α]

/-! ## Writing pieces -/

/-- `pwrite` of piece `p`: its bytes land at its offset; an empty piece leaves the array as it is -/
def writePiece (l : List α) (p : ℕ × List α) : List α :=
  if p.2 = [] then l else overwrite l p.1 p.2

/-- the pieces written one after another -/
def applyPieces (l : List α) (ps : List (ℕ × List α)) : List α :=
  ps.foldl writePiece l

@[simp] theorem applyPieces_nil (l : List α) : applyPieces l [] = l := rfl

@[simp] theorem applyPieces_append (l : List α) (ps qs : List (ℕ × List α)) :
    applyPieces l (ps ++ qs) = applyPieces (applyPieces l ps) qs := by
  simp [applyPieces]

@[simp] theorem applyPieces_singleton (l : List α) (p : ℕ × List α) : applyPieces l [p] = writePiece l p := rfl

/-- the number of elements the pieces carry -/
def piecesSize (ps : List (ℕ × List α)) : ℕ := (ps.map fun p => p.2.length).sum

omit [Zero α] in
@[simp] theorem piecesSize_nil : piecesSize ([] : List (ℕ × List α)) = 0 := rfl

omit [Zero α] in
@[simp] theorem piecesSize_append (ps qs : List (ℕ × List α)) :
    piecesSize (ps ++ qs) = piecesSize ps + piecesSize qs := by
  simp [piecesSize]

omit [Zero α] in
@[simp] theorem piecesSize_cons (p : ℕ × List α) (ps : List (ℕ × List α)) :
    piecesSize (p :: ps) = p.2.length + piecesSize ps := by
  simp [piecesSize]

/-- pieces that carry nothing write nothing -/
theorem applyPieces_of_piecesSize_eq_zero (l : List α) {ps : List (ℕ × List α)} (h : piecesSize ps = 0) :
    applyPieces l ps = l := by
  induction ps with
  | nil => rfl
  | cons p ps ih =>
    rw [piecesSize_cons] at h
    have hp : p.2 = [] := List.eq_nil_of_length_eq_zero (by omega)
    simp only [applyPieces, List.foldl_cons, writePiece, if_pos hp]
    exact ih (by omega)

/-- a piece that starts where the previous one ended extends it -/
theorem writePiece_append (l : List α) (off : ℕ) (c d : List α) :
    writePiece (writePiece l (off, c)) (off + c.length, d) = writePiece l (off, c ++ d) := by
  unfold writePiece
  by_cases hc : c = []
  · subst hc
    simp
  · by_cases hd : d = []
    · simp [hd]
    · simp [hc, hd, overwrite_append]

/-- a piece changes exactly the cells it covers -/
theorem cell_writePiece (l : List α) (off : ℕ) (b : List α) (i : ℕ) :
    cell (writePiece l (off, b)) i = if off ≤ i ∧ i < off + b.length then cell b (i - off) else cell l i := by
  by_cases hb : b = []
  · -- an empty piece covers no cell
    subst hb
    rw [if_neg (by simp)]
    rfl
  · rw [writePiece, if_neg hb, cell_overwrite]

/-! ## Coalescing -/

/-- `Coalesce ws ps`: `ps` is `ws` with runs of contiguous pieces joined, built piece by piece at the back -/
inductive Coalesce : List (ℕ × List α) → List (ℕ × List α) → Prop
  | nil : Coalesce [] []
  /-- a piece starts a new run -/
  | push {ws ps : List (ℕ × List α)} (p : ℕ × List α) : Coalesce ws ps → Coalesce (ws ++ [p]) (ps ++ [p])
  /-- a piece that starts where the last run ends joins it -/
  | merge {ws ps : List (ℕ × List α)} (off : ℕ) (c d : List α) :
      Coalesce ws (ps ++ [(off, c)]) → Coalesce (ws ++ [(off + c.length, d)]) (ps ++ [(off, c ++ d)])

/-- coalescing never changes what the pieces write -/
theorem applyPieces_of_coalesce {ws ps : List (ℕ × List α)} (h : Coalesce ws ps) (l : List α) :
    applyPieces l ws = applyPieces l ps := by
  induction h with
  | nil => rfl
  | push p _ ih => simp [ih]
  | merge off c d _ ih =>
    rw [applyPieces_append, ih, applyPieces_append, applyPieces_append]
    simp [writePiece_append]

end OneHelpers.SparseArray
