/-
The `WriteOp` visitor of `PosixFileHandle` (`src/posixHelper.cc`): `lseek` to the offset, then `::writev` of the
buffer's iovecs in batches of `IOV_MAX`, adding up the results in an `int`.

The file is a byte list with the kernel's file position. `::writev(fd, iov, k)` writes some prefix of the
concatenation of the `k` iovecs at the position and moves it on by the count it returns; which prefix is the
environment's choice, given as the count each call returns after `retry` (`none` for `-1`). The loop relies on the
position left by each `writev` for the next batch, so a short write shifts every later batch. `size` is an `int`,
so `size += res` keeps the low 32 bits, and the promise's `std::size_t` gets it sign-extended. The checks of
`m_validCtx` and of the handle, and `lseek` of a negative offset, are not modelled: the offset is an `off_t` of 0
or more.

Results: `writeOp_complete` (when every `writev` is complete, the chain is written at the offset and the count is
the chain's length read as an `int`) and `posix_write_shifts` (after a short first batch the second batch is
written right after the short write, and a complete write of `2^31` bytes or more returns a wrong count).
-/
import Mathlib.Tactic
import OneHelpers.Core.Pieces

namespace OneHelpers.Posix

open SparseArray

/-- `IOV_MAX` on Linux -/
def IOV_MAX : ℕ := 1024

/-- `::writev` of `iov` at the file position, when it returns `n`: the first `min n total` bytes of the iovecs'
concatenation are written there; the file and the count written -/
def writev (F : List UInt8) (pos : ℕ) (iov : List (List UInt8)) (n : ℕ) : List UInt8 × ℕ :=
  (writePiece F (pos, iov.flatten.take (min n iov.flatten.length)), min n iov.flatten.length)

/-- the loop of the visitor from the iovec `iov_off` on, `fuel` rounds at most; `results j` is what the `j`-th
`writev` from here returns. The file and `size`, or `none` when a `writev` fails -/
def writeLoop : (ℕ → Option ℕ) → List (List UInt8) → ℕ → ℕ → List UInt8 → ℕ → ℤ → Option (List UInt8 × ℤ)
  | _, _, 0, _, F, _, size => some (F, size)
  | results, iov, fuel + 1, iov_off, F, pos, size =>
    if iov_off < iov.length then
      match results 0 with
      | none => none
      | some n =>
        writeLoop (fun j => results (j + 1)) iov fuel (iov_off + IOV_MAX)
          (writev F pos ((iov.drop iov_off).take (min IOV_MAX (iov.length - iov_off))) n).1
          (pos + (writev F pos ((iov.drop iov_off).take (min IOV_MAX (iov.length - iov_off))) n).2)
          (Int.bmod (size + (writev F pos ((iov.drop iov_off).take (min IOV_MAX (iov.length - iov_off))) n).2)
            (2 ^ 32))
    else some (F, size)

/-- `PosixFileHandle::OpExec::operator()(WriteOp&)` on the buffer's iovecs `buf`: the file and the count the
promise gets, or `none` when a `writev` fails; the loop makes at most one round per iovec -/
def writeOp (results : ℕ → Option ℕ) (F : List UInt8) (offset : ℕ) (buf : List (List UInt8)) :
    Option (List UInt8 × ℕ) :=
  if buf.flatten = [] then some (F, 0)
  else (writeLoop results buf buf.length 0 F offset 0).map fun r => (r.1, (r.2 % 2 ^ 64).toNat)

/-! ## Batches -/

/-- the batch of round `j` from `iov_off` on -/
def batch (iov : List (List UInt8)) (iov_off : ℕ) : List (List UInt8) := (iov.drop iov_off).take IOV_MAX

theorem take_batch (iov : List (List UInt8)) (iov_off : ℕ) :
    (iov.drop iov_off).take (min IOV_MAX (iov.length - iov_off)) = batch iov iov_off := by
  rw [batch, List.take_eq_take_min (l := iov.drop iov_off) (i := IOV_MAX), List.length_drop]

/-- the iovecs from `iov_off` on are the batch and those after it -/
theorem flatten_drop (iov : List (List UInt8)) (iov_off : ℕ) :
    (iov.drop iov_off).flatten = (batch iov iov_off).flatten ++ (iov.drop (iov_off + IOV_MAX)).flatten := by
  rw [batch, ← List.flatten_append, ← List.drop_drop, List.take_append_drop]

/-- one round of the loop, on a batch that `writev` does not fail on -/
theorem writeLoop_round {results : ℕ → Option ℕ} {iov : List (List UInt8)} {fuel iov_off : ℕ} {F : List UInt8}
    {pos : ℕ} {size : ℤ} {n : ℕ} (hlt : iov_off < iov.length) (hn : results 0 = some n) :
    writeLoop results iov (fuel + 1) iov_off F pos size =
      writeLoop (fun j => results (j + 1)) iov fuel (iov_off + IOV_MAX) (writev F pos (batch iov iov_off) n).1
        (pos + (writev F pos (batch iov iov_off) n).2)
        (Int.bmod (size + (writev F pos (batch iov iov_off) n).2) (2 ^ 32)) := by
  rw [writeLoop, if_pos hlt, hn, take_batch]

/-- past the last iovec the loop stops -/
theorem writeLoop_of_le {results : ℕ → Option ℕ} {iov : List (List UInt8)} {fuel iov_off : ℕ} {F : List UInt8}
    {pos : ℕ} {size : ℤ} (hle : iov.length ≤ iov_off) : writeLoop results iov fuel iov_off F pos size = some (F, size) := by
  cases fuel with
  | zero => rfl
  | succ fuel => rw [writeLoop, if_neg (Nat.not_lt_of_le hle)]

/-- past the last iovec the rest of the chain is empty: nothing more is written and the count stays -/
theorem writeLoop_done {results : ℕ → Option ℕ} {iov : List (List UInt8)} {fuel iov_off : ℕ} {F : List UInt8}
    {pos : ℕ} {size : ℤ} (hle : iov.length ≤ iov_off) (hsize : Int.bmod size (2 ^ 32) = size) :
    writeLoop results iov fuel iov_off F pos size =
      some (writePiece F (pos, (iov.drop iov_off).flatten),
        Int.bmod (size + (iov.drop iov_off).flatten.length) (2 ^ 32)) := by
  rw [writeLoop_of_le hle, List.drop_of_length_le hle, List.flatten_nil, List.length_nil, Nat.cast_zero, add_zero,
    hsize]
  rfl

/-! ## Every `writev` complete -/

/-- complete writes from `iov_off` on: the rest of the chain lands at the position, and `size` gains its length -/
theorem writeLoop_complete (iov : List (List UInt8)) (fuel : ℕ) :
    ∀ (results : ℕ → Option ℕ) (iov_off : ℕ) (F : List UInt8) (pos : ℕ) (size : ℤ),
      (iov.length - iov_off + IOV_MAX - 1) / IOV_MAX ≤ fuel →
      (∀ j, ∃ n, results j = some n ∧ (batch iov (iov_off + j * IOV_MAX)).flatten.length ≤ n) →
      Int.bmod size (2 ^ 32) = size →
      writeLoop results iov fuel iov_off F pos size =
        some (writePiece F (pos, (iov.drop iov_off).flatten),
          Int.bmod (size + (iov.drop iov_off).flatten.length) (2 ^ 32)) := by
  -- induction on the fuel, one batch per round; the fuel lasts while an iovec is left
  induction fuel with
  | zero =>
    intro results iov_off F pos size hfuel _ hsize
    exact writeLoop_done (by unfold IOV_MAX at hfuel; omega) hsize
  | succ fuel ih =>
    intro results iov_off F pos size hfuel hcomplete hsize
    by_cases hlt : iov_off < iov.length
    · obtain ⟨n, hn, hle⟩ := hcomplete 0
      rw [Nat.zero_mul, Nat.add_zero] at hle
      have hmin : min n (batch iov iov_off).flatten.length = (batch iov iov_off).flatten.length :=
        Nat.min_eq_right hle
      have hnext : ∀ j, ∃ n, results (j + 1) = some n ∧
          (batch iov (iov_off + IOV_MAX + j * IOV_MAX)).flatten.length ≤ n := by
        intro j
        obtain ⟨m, hm, hmle⟩ := hcomplete (j + 1)
        exact ⟨m, hm, by rwa [Nat.add_mul, Nat.one_mul, Nat.add_comm (j * IOV_MAX), ← Nat.add_assoc] at hmle⟩
      -- the batch is written whole, then the rest of the chain right after it
      rw [writeLoop_round hlt hn]
      simp only [writev, hmin, List.take_length]
      rw [ih _ _ _ _ _ (by unfold IOV_MAX at hfuel ⊢; omega) hnext Int.bmod_bmod, writePiece_append,
        Int.bmod_add_bmod, flatten_drop iov iov_off, List.length_append]
      push_cast
      ring_nf
    · exact writeLoop_done (Nat.le_of_not_lt hlt) hsize

/-- **Complete writes.** When every `writev` writes all it is given, the chain is written at the offset and the
count is the chain's length as an `int`, sign-extended -/
theorem writeOp_complete (results : ℕ → Option ℕ) (F : List UInt8) (offset : ℕ) (buf : List (List UInt8))
    (hcomplete : ∀ j, ∃ n, results j = some n ∧ (batch buf (j * IOV_MAX)).flatten.length ≤ n) :
    writeOp results F offset buf =
      some (writePiece F (offset, buf.flatten), (Int.bmod buf.flatten.length (2 ^ 32) % 2 ^ 64).toNat) := by
  unfold writeOp
  split_ifs with hempty
  · simp [hempty, writePiece]
  · have hfuel : (buf.length - 0 + IOV_MAX - 1) / IOV_MAX ≤ buf.length := by unfold IOV_MAX; omega
    have hall : ∀ j, ∃ n, results j = some n ∧ (batch buf (0 + j * IOV_MAX)).flatten.length ≤ n := by
      simpa using hcomplete
    rw [writeLoop_complete buf buf.length results 0 F offset 0 hfuel hall rfl]
    simp

/-- **A complete write of fewer than `2^31` bytes.** When every `writev` writes all it is given and the chain is
shorter than `2^31` bytes, the chain is written at the offset and the promise gets its length -/
theorem writeOp_complete_small (results : ℕ → Option ℕ) (F : List UInt8) (offset : ℕ) (buf : List (List UInt8))
    (hcomplete : ∀ j, ∃ n, results j = some n ∧ (batch buf (j * IOV_MAX)).flatten.length ≤ n)
    (hsmall : buf.flatten.length < 2 ^ 31) :
    writeOp results F offset buf = some (writePiece F (offset, buf.flatten), buf.flatten.length) := by
  rw [writeOp_complete results F offset buf hcomplete]
  -- below `2^31` the count fits the `int` as it is, and the sign extension leaves it alone
  have hbmod : Int.bmod buf.flatten.length (2 ^ 32) = buf.flatten.length := by
    rw [Int.bmod_def, Int.emod_eq_of_lt (by omega) (by omega), if_pos (by omega)]
  rw [hbmod, Int.emod_eq_of_lt (by omega) (by omega), Int.toNat_natCast]

theorem writeOp_complete_small_three :
    (∀ j, ∃ n, (fun _ => some 3 : ℕ → Option ℕ) j = some n ∧
      (batch [[1, 2], [3]] (j * IOV_MAX)).flatten.length ≤ n) ∧
    ([[1, 2], [3]] : List (List UInt8)).flatten.length < 2 ^ 31 ∧
    writeOp (fun _ => some 3) [] 0 [[1, 2], [3]] = some ([1, 2, 3], 3) := by
  -- a batch is a part of the chain, so three bytes cover it
  have hcomplete : ∀ j, ∃ n, (fun _ => some 3 : ℕ → Option ℕ) j = some n ∧
      (batch [[1, 2], [3]] (j * IOV_MAX)).flatten.length ≤ n := by
    intro j
    refine ⟨3, rfl, ?_⟩
    exact ((List.take_sublist _ _).trans (List.drop_sublist _ _)).flatten.length_le
  have hsmall : ([[1, 2], [3]] : List (List UInt8)).flatten.length < 2 ^ 31 := by decide
  refine ⟨hcomplete, hsmall, ?_⟩
  rw [writeOp_complete_small _ [] 0 _ hcomplete hsmall]
  rfl

/-! ## A short write -/

/-- the rounds after a position write at or after it, so no byte before it changes -/
theorem writeLoop_cell_lt (iov : List (List UInt8)) (fuel : ℕ) :
    ∀ (results : ℕ → Option ℕ) (iov_off : ℕ) (F : List UInt8) (pos : ℕ) (size : ℤ) (F' : List UInt8) (size' : ℤ),
      writeLoop results iov fuel iov_off F pos size = some (F', size') → ∀ q < pos, cell F' q = cell F q := by
  induction fuel with
  | zero =>
    intro results iov_off F pos size F' size' h q _
    cases h
    rfl
  | succ fuel ih =>
    intro results iov_off F pos size F' size' h q hq
    by_cases hlt : iov_off < iov.length
    · cases hr : results 0 with
      | none =>
        rw [writeLoop, if_pos hlt, hr] at h
        cases h
      | some n =>
        -- the round writes at the position, past `q`, and the later rounds further on
        rw [writeLoop_round hlt hr] at h
        rw [ih _ _ _ _ _ _ _ h q (by omega), writev, cell_writePiece, if_neg (by omega)]
    · rw [writeLoop_of_le (Nat.le_of_not_lt hlt)] at h
      cases h
      rfl

/-- a round that writes at least one byte of a nonempty batch leaves the batch's first byte at the position -/
theorem writeLoop_cell_pos {results : ℕ → Option ℕ} {iov : List (List UInt8)} {fuel iov_off : ℕ}
    {F : List UInt8} {pos : ℕ} {size : ℤ} {n : ℕ} {F' : List UInt8} {size' : ℤ} (hlt : iov_off < iov.length)
    (hn : results 0 = some n) (hpos : 0 < n) (hne : 0 < (batch iov iov_off).flatten.length)
    (h : writeLoop results iov (fuel + 1) iov_off F pos size = some (F', size')) :
    cell F' pos = (batch iov iov_off).flatten[0] := by
  rw [writeLoop_round hlt hn] at h
  have hwritten : 0 < min n (batch iov iov_off).flatten.length := Nat.lt_min.mpr ⟨hpos, hne⟩
  rw [writeLoop_cell_lt _ _ _ _ _ _ _ _ _ h pos (by simp only [writev]; omega), writev, cell_writePiece,
    List.length_take, if_pos ⟨le_refl pos, by omega⟩, Nat.sub_self, cell_of_lt (by rw [List.length_take]; omega),
    List.getElem_take]

/-- no `writev` fails, so the loop returns -/
theorem writeLoop_isSome (iov : List (List UInt8)) (fuel : ℕ) :
    ∀ (results : ℕ → Option ℕ) (iov_off : ℕ) (F : List UInt8) (pos : ℕ) (size : ℤ),
      (∀ j, results j ≠ none) → (writeLoop results iov fuel iov_off F pos size).isSome := by
  induction fuel with
  | zero => intro results iov_off F pos size _; rfl
  | succ fuel ih =>
    intro results iov_off F pos size hok
    by_cases hlt : iov_off < iov.length
    · obtain ⟨n, hn⟩ := Option.ne_none_iff_exists'.mp (hok 0)
      rw [writeLoop_round hlt hn]
      exact ih _ _ _ _ _ fun j => hok (j + 1)
    · rw [writeLoop_of_le (Nat.le_of_not_lt hlt)]
      rfl

/-- **A short write shifts the next batch; a long chain returns a wrong count.** For every chain of more than
`IOV_MAX` iovecs, when the first `writev` writes `r₀` bytes, fewer than its batch holds, and the second writes at
least one, with no `writev` failing, the byte at `offset + r₀` is the first byte of the second batch, not byte
`r₀` of the chain. And when every `writev` is complete on a chain of `2^31` to `2^32 - 1` bytes, the count returned
is not the chain's length. -/
theorem posix_write_shifts :
    (∀ (results : ℕ → Option ℕ) (F : List UInt8) (offset : ℕ) (buf : List (List UInt8)) (r₀ r₁ : ℕ),
      IOV_MAX < buf.length → results 0 = some r₀ → r₀ < (batch buf 0).flatten.length →
      results 1 = some r₁ → 0 < r₁ → (hsecond : 0 < (batch buf IOV_MAX).flatten.length) →
      (∀ j, results j ≠ none) →
        ∃ F' c, writeOp results F offset buf = some (F', c) ∧
          cell F' (offset + r₀) = (batch buf IOV_MAX).flatten[0]) ∧
    (∀ (results : ℕ → Option ℕ) (F : List UInt8) (offset : ℕ) (buf : List (List UInt8)),
      (∀ j, ∃ n, results j = some n ∧ (batch buf (j * IOV_MAX)).flatten.length ≤ n) →
      2 ^ 31 ≤ buf.flatten.length → buf.flatten.length < 2 ^ 32 →
        ∃ F' c, writeOp results F offset buf = some (F', c) ∧ c = buf.flatten.length + 2 ^ 64 - 2 ^ 32) := by
  refine ⟨fun results F offset buf r₀ r₁ hlen h0 hshort h1 hr₁ hsecond hok => ?_,
    fun results F offset buf hcomplete hbig hlt => ?_⟩
  · obtain ⟨f, hf⟩ : ∃ f, buf.length = f + 2 := ⟨buf.length - 2, by unfold IOV_MAX at hlen; omega⟩
    have hne : buf.flatten ≠ [] := by
      intro hnil
      have hzero : (buf.drop 0).flatten.length = 0 := by rw [List.drop_zero, hnil, List.length_nil]
      rw [flatten_drop, List.length_append] at hzero
      omega
    -- the first round by hand; the second round then starts where the short write ended
    rw [writeOp, if_neg hne, hf, writeLoop_round (by omega) h0, Nat.zero_add]
    obtain ⟨⟨F', size'⟩, hrest⟩ :=
      Option.isSome_iff_exists.mp (writeLoop_isSome buf (f + 1) _ IOV_MAX _ _ _ fun j => hok (j + 1))
    refine ⟨F', _, by rw [hrest]; rfl, ?_⟩
    have hcell := writeLoop_cell_pos (by omega) h1 hr₁ hsecond hrest
    have hr₀ : (writev F offset (batch buf 0) r₀).2 = r₀ := Nat.min_eq_left hshort.le
    rwa [hr₀] at hcell
  · refine ⟨_, _, writeOp_complete results F offset buf hcomplete, ?_⟩
    -- the length read as an `int` is negative, and its sign extension wraps
    have hbmod : Int.bmod buf.flatten.length (2 ^ 32) = buf.flatten.length - 2 ^ 32 := by
      rw [Int.bmod_def, Int.emod_eq_of_lt (by omega) (by omega), if_neg (by omega)]
      norm_cast
    rw [hbmod]
    omega

/-- 1025 one-byte iovecs where the first `writev` writes one byte of its 1024: the second batch's byte `2` lands at
offset `1`, where the chain holds `1`; and a complete write of `2^31` bytes returns `2^64 - 2^31` -/
theorem posix_write_shifts_1025 :
    (∃ F' c, writeOp (fun _ => some 1) [] 0 (List.replicate 1024 [1] ++ [[2]]) = some (F', c) ∧ cell F' 1 = 2 ∧
      (List.replicate 1024 [(1 : UInt8)] ++ [[2]]).flatten[1]? = some 1) ∧
    (∃ F' c, writeOp (fun _ => some (2 ^ 31)) [] 0 [List.replicate (2 ^ 31) 0] = some (F', c) ∧
      c = 2 ^ 31 + 2 ^ 64 - 2 ^ 32) := by
  refine ⟨?_, ?_⟩
  · obtain ⟨F', c, h, hcell⟩ := posix_write_shifts.1 (fun _ => some 1) [] 0 (List.replicate 1024 [1] ++ [[2]]) 1 1
      (by decide +kernel) rfl (by decide +kernel) rfl Nat.one_pos (by decide +kernel) fun _ => Option.some_ne_none _
    exact ⟨F', c, h, hcell.trans (by decide +kernel), by decide +kernel⟩
  · -- the chain is never unfolded: `simp` would expand the replicate of `2^31` bytes
    have hlength : [List.replicate (2 ^ 31) (0 : UInt8)].flatten.length = 2 ^ 31 := by
      rw [List.flatten_singleton, List.length_replicate]
    have hcomplete : ∀ j, ∃ n, (fun _ => some (2 ^ 31)) j = some n ∧
        (batch [List.replicate (2 ^ 31) (0 : UInt8)] (j * IOV_MAX)).flatten.length ≤ n := by
      intro j
      refine ⟨_, rfl, ?_⟩
      cases j with
      | zero =>
        rw [Nat.zero_mul, batch, List.drop_zero,
          List.take_of_length_le (by rw [List.length_singleton]; unfold IOV_MAX; omega), hlength]
      | succ j =>
        rw [batch, List.drop_of_length_le (by rw [List.length_singleton]; unfold IOV_MAX; omega), List.take_nil,
          List.flatten_nil, List.length_nil]
        exact Nat.zero_le _
    obtain ⟨F', c, h, hc⟩ := posix_write_shifts.2 (fun _ => some (2 ^ 31)) [] 0 [List.replicate (2 ^ 31) 0] hcomplete
      hlength.ge (by rw [hlength]; omega)
    exact ⟨F', c, h, by rw [hc, hlength]⟩

end OneHelpers.Posix
