/-
Model of `WriteBuffer` (`src/buffering/writeBuffer.h`) and of the default `FileHandle::multiwrite`
(`src/storageHelper.cc`) that it calls on the wrapped handle.

`write` appends the bytes to the last buffered piece when they start at `m_nextOffset`, and starts a new piece
otherwise. When more than the flush threshold is buffered, `pushBuffer` swaps the pieces out as one batch and chains
its `multiwrite` on `m_writeFuture`, and `write` waits for the confirmations `confirm` pops. The chain is modelled by
`writeFuture`, the batches still to be written in order; `completeWrite` runs the first of them. A confirmation
future stands for one batch, so the queue keeps only the sizes: the front future is batch `pushed - length`, and a
caller that pops futures waits until as many batches are written as have been popped (`confirm`'s second result).

Results:
- `multiwrite_eq`: over a handle that writes every byte, `multiwrite` writes the pieces in order;
- `multiwriteWith_complete`: the model of `multiwrite` over short writes, when every write is complete, is that one;
- `write_coalesce`, `pushBuffer_pending`, `completeWrite_pending`: the pieces handed on or still buffered are the
  writes received with contiguous runs joined (`Coalesce`), whatever the threshold and the timer do;
- `Inv` and its preservation by every operation: the byte counts, `m_nextOffset`, and the confirmation queue agree
  with the pieces they account for; `confirmAll_drains`: `confirm 0` empties the queue;
- `WaitCovers` (what a caller waits for covers every batch whose future is not queued) and `fsync_spec`: after
  `fsync` nothing is buffered, the queue is empty, and once what it waits for is written every batch is.
-/
import Mathlib.Tactic
import OneHelpers.Core.Pieces

namespace OneHelpers.Buffering

open SparseArray

/-! ## `FileHandle::multiwrite` -/

/-- the loop of `FileHandle::multiwrite` over a wrapped handle whose `write` writes every byte: a piece is skipped
only when more was written so far than the pieces before it hold -/
def multiwriteLoop : List UInt8 → ℕ → ℕ → List (ℕ × List UInt8) → List UInt8 × ℕ
  | F, _, wroteSoFar, [] => (F, wroteSoFar)
  | F, shouldHaveWrittenSoFar, wroteSoFar, (off, buf) :: buffs =>
    if shouldHaveWrittenSoFar < wroteSoFar then
      multiwriteLoop F (shouldHaveWrittenSoFar + buf.length) wroteSoFar buffs
    else
      multiwriteLoop (writePiece F (off, buf)) (shouldHaveWrittenSoFar + buf.length) (wroteSoFar + buf.length) buffs

/-- `FileHandle::multiwrite`: the content after the call and the byte count it returns -/
def multiwrite (F : List UInt8) (buffs : List (ℕ × List UInt8)) : List UInt8 × ℕ :=
  multiwriteLoop F 0 0 buffs

theorem multiwriteLoop_eq (F : List UInt8) (n : ℕ) (buffs : List (ℕ × List UInt8)) :
    multiwriteLoop F n n buffs = (applyPieces F buffs, n + piecesSize buffs) := by
  -- the two counters move together, so no piece is ever skipped
  induction buffs generalizing F n with
  | nil => rfl
  | cons p buffs ih =>
    obtain ⟨off, buf⟩ := p
    rw [multiwriteLoop, if_neg (Nat.lt_irrefl n), ih]
    simp [applyPieces, Nat.add_assoc]

/-- over a handle that writes every byte, `multiwrite` writes the pieces in order and reports all their bytes -/
theorem multiwrite_eq (F : List UInt8) (buffs : List (ℕ × List UInt8)) :
    multiwrite F buffs = (applyPieces F buffs, piecesSize buffs) := by
  simp [multiwrite, multiwriteLoop_eq]

/-! ## `FileHandle::multiwrite` over short writes -/

/-- the loop of `FileHandle::multiwrite` over a wrapped handle whose `write` of the first piece left writes the first
`w 0` of its bytes and returns that count (`w` moves on with the pieces): the content, whether each piece's `write`
was issued, and the count returned -/
def multiwriteLoopWith :
    (ℕ → ℕ) → List UInt8 → ℕ → ℕ → List (ℕ × List UInt8) → List UInt8 × List Bool × ℕ
  | _, F, _, wroteSoFar, [] => (F, [], wroteSoFar)
  | w, F, shouldHaveWrittenSoFar, wroteSoFar, (off, buf) :: buffs =>
    if shouldHaveWrittenSoFar < wroteSoFar then
      let r := multiwriteLoopWith (fun j => w (j + 1)) F (shouldHaveWrittenSoFar + buf.length) wroteSoFar buffs
      (r.1, false :: r.2.1, r.2.2)
    else
      let r := multiwriteLoopWith (fun j => w (j + 1)) (writePiece F (off, buf.take (w 0)))
        (shouldHaveWrittenSoFar + buf.length) (wroteSoFar + w 0) buffs
      (r.1, true :: r.2.1, r.2.2)

/-- `FileHandle::multiwrite` when the write of piece `i` returns `w i` -/
def multiwriteWith (w : ℕ → ℕ) (F : List UInt8) (buffs : List (ℕ × List UInt8)) :
    List UInt8 × List Bool × ℕ :=
  multiwriteLoopWith w F 0 0 buffs

/-- the wrapped writes never return more than asked, so the count written stays at or below the count expected and
the skip never fires -/
theorem multiwriteLoopWith_of_le (w : ℕ → ℕ) (F : List UInt8) {s t : ℕ} (buffs : List (ℕ × List UInt8))
    (hw : ∀ j (hj : j < buffs.length), w j ≤ buffs[j].2.length) (hts : t ≤ s) :
    multiwriteLoopWith w F s t buffs =
      (applyPieces F (buffs.mapIdx fun j p => (p.1, p.2.take (w j))), List.replicate buffs.length true,
        t + ((List.range buffs.length).map w).sum) := by
  induction buffs generalizing w F s t with
  | nil => simp [multiwriteLoopWith]
  | cons p buffs ih =>
    obtain ⟨off, buf⟩ := p
    have hw0 : w 0 ≤ buf.length := hw 0 (Nat.zero_lt_succ _)
    have hrest : ∀ j (hj : j < buffs.length), w (j + 1) ≤ buffs[j].2.length :=
      fun j hj => hw (j + 1) (Nat.succ_lt_succ hj)
    rw [multiwriteLoopWith, if_neg (Nat.not_lt.mpr hts), ih _ _ hrest (by omega)]
    refine Prod.ext ?_ (Prod.ext rfl ?_)
    · -- the first piece is written with its first `w 0` bytes, then the rest
      rw [List.mapIdx_cons]
      rfl
    · have hsum : ((List.range (buffs.length + 1)).map w).sum =
          w 0 + ((List.range buffs.length).map fun j => w (j + 1)).sum := by
        rw [List.range_succ_eq_map, List.map_cons, List.map_map, List.sum_cons]
        rfl
      show t + w 0 + ((List.range buffs.length).map fun j => w (j + 1)).sum =
        t + ((List.range (buffs.length + 1)).map w).sum
      rw [hsum, Nat.add_assoc]

/-- **`multiwrite` does not stop at a short write.** For every list of pieces and every count `w i` the wrapped
`write` of piece `i` returns (at most the piece's length), every piece's `write` is issued, in order, and the
result is the sum of all the counts: a short write is followed by the writes of all the later pieces. -/
theorem multiwrite_ignores_short_writes (w : ℕ → ℕ) (F : List UInt8) (buffs : List (ℕ × List UInt8))
    (hw : ∀ j (hj : j < buffs.length), w j ≤ buffs[j].2.length) :
    (multiwriteWith w F buffs).2.1 = List.replicate buffs.length true ∧
      (multiwriteWith w F buffs).2.2 = ((List.range buffs.length).map w).sum ∧
      (multiwriteWith w F buffs).1 = applyPieces F (buffs.mapIdx fun j p => (p.1, p.2.take (w j))) := by
  rw [multiwriteWith, multiwriteLoopWith_of_le w F buffs hw le_rfl, Nat.zero_add]
  exact ⟨rfl, rfl, rfl⟩

/-- the first of two one-byte pieces is not written at all, and the second is written anyway -/
theorem multiwrite_ignores_short_writes_two :
    (∀ j (hj : j < [((0 : ℕ), [1]), (1, [2])].length),
        (fun j => if j = 0 then 0 else 1) j ≤ ([((0 : ℕ), [(1 : UInt8)]), (1, [2])][j]).2.length) ∧
      (multiwriteWith (fun j => if j = 0 then 0 else 1) [] [(0, [1]), (1, [2])]).2.1 = [true, true] ∧
      (multiwriteWith (fun j => if j = 0 then 0 else 1) [] [(0, [1]), (1, [2])]).2.2 = 1 := by
  have hw : ∀ j (hj : j < [((0 : ℕ), [(1 : UInt8)]), (1, [2])].length),
      (fun j => if j = 0 then 0 else 1) j ≤ ([((0 : ℕ), [(1 : UInt8)]), (1, [2])][j]).2.length := by decide
  obtain ⟨hissued, hcount, -⟩ := multiwrite_ignores_short_writes (fun j => if j = 0 then 0 else 1) [] _ hw
  exact ⟨hw, hissued, hcount⟩

/-- **With complete writes the two models agree.** When the write of every piece returns its length, `multiwrite`
over short writes writes what `multiwrite` over a handle that writes every byte does, and returns the same count -/
theorem multiwriteWith_complete (F : List UInt8) (buffs : List (ℕ × List UInt8)) :
    (multiwriteWith (fun j => (buffs[j]?.map fun p => p.2.length).getD 0) F buffs).1 = (multiwrite F buffs).1 ∧
      (multiwriteWith (fun j => (buffs[j]?.map fun p => p.2.length).getD 0) F buffs).2.2 = (multiwrite F buffs).2 := by
  have hw : ∀ j (hj : j < buffs.length), (buffs[j]?.map fun p => p.2.length).getD 0 ≤ buffs[j].2.length :=
    fun j hj => by simp [List.getElem?_eq_getElem hj]
  -- each piece is written whole, and the counts add up to the pieces' size
  have hpieces : (buffs.mapIdx fun j p => (p.1, p.2.take ((buffs[j]?.map fun p => p.2.length).getD 0))) = buffs := by
    apply List.ext_getElem (by simp)
    intro j hj hj'
    simp [List.getElem?_eq_getElem hj']
  have hsum : ((List.range buffs.length).map fun j => (buffs[j]?.map fun p => p.2.length).getD 0).sum =
      piecesSize buffs := by
    have hmap : ((List.range buffs.length).map fun j => (buffs[j]?.map fun p => p.2.length).getD 0) =
        buffs.map fun p => p.2.length := by
      apply List.ext_getElem (by simp)
      intro j hj hj'
      simp [List.getElem?_eq_getElem (by simpa using hj : j < buffs.length)]
    rw [piecesSize, hmap]
  rw [multiwriteWith, multiwriteLoopWith_of_le _ F buffs hw le_rfl, multiwrite_eq, hpieces, Nat.zero_add]
  exact ⟨rfl, hsum⟩

/-! ## State -/

/-- a `WriteBuffer`; `writeFuture` holds each chained batch with the `sentSize` its continuation captured -/
structure WriteBuffer where
  writeBufferMinSize : ℕ
  writeBufferMaxSize : ℕ
  bufferedSize : ℕ
  nextOffset : ℕ
  buffers : List (ℕ × List UInt8)
  bps : ℕ
  pendingConfirmation : ℕ
  writeFuture : List (List (ℕ × List UInt8) × ℕ)
  pushed : ℕ
  confirmationFutures : List ℕ

namespace WriteBuffer

/-- the buffer as the constructor leaves it -/
def init (writeBufferMinSize writeBufferMaxSize : ℕ) : WriteBuffer :=
  ⟨writeBufferMinSize, writeBufferMaxSize, 0, 0, [], 0, 0, [], 0, []⟩

/-- how many batches the chain has written -/
def written (wb : WriteBuffer) : ℕ := wb.pushed - wb.writeFuture.length

/-- the pieces not yet handed to `multiwrite`, in the order they will be: the chained batches, then the buffer -/
def pending (wb : WriteBuffer) : List (ℕ × List UInt8) := (wb.writeFuture.map Prod.fst).flatten ++ wb.buffers

/-! ## Operations -/

def calculateFlushThreshold (wb : WriteBuffer) : ℕ :=
  min wb.writeBufferMaxSize (max wb.writeBufferMinSize (2 * wb.bps))

def calculateConfirmThreshold (wb : WriteBuffer) : ℕ := 6 * wb.calculateFlushThreshold

/-- `m_buffers.back().second.append(buf)` -/
def appendBack (buf : List UInt8) : List (ℕ × List UInt8) → List (ℕ × List UInt8)
  | [] => []
  | [(off, b)] => [(off, b ++ buf)]
  | p :: q :: ps => p :: appendBack buf (q :: ps)

/-- swaps the buffer out as one batch chained on `m_writeFuture`, with a confirmation future for it -/
def pushBuffer (wb : WriteBuffer) : WriteBuffer :=
  if wb.bufferedSize = 0 then wb
  else
    { wb with
      buffers := []
      bufferedSize := 0
      pendingConfirmation := wb.pendingConfirmation + wb.bufferedSize
      writeFuture := wb.writeFuture ++ [(wb.buffers, wb.bufferedSize)]
      pushed := wb.pushed + 1
      confirmationFutures := wb.confirmationFutures ++ [wb.bufferedSize] }

/-- the loop of `confirm`: pops futures while more than `threshold` bytes are unconfirmed; the pending count, the
queue left and how many futures were popped -/
def confirmLoop (threshold : ℕ) : ℕ → List ℕ → ℕ × List ℕ × ℕ
  | pending, [] => (pending, [], 0)
  | pending, sentSize :: rest =>
    if threshold < pending then
      let r := confirmLoop threshold (pending - sentSize) rest
      (r.1, r.2.1, r.2.2 + 1)
    else (pending, sentSize :: rest, 0)

/-- `confirm`: the state, and how many batches must be written before the returned future completes (the popped
futures are those of the batches just before the first one still queued; none popped, nothing to wait for) -/
def confirm (wb : WriteBuffer) (threshold : ℕ) : WriteBuffer × ℕ :=
  let r := confirmLoop threshold wb.pendingConfirmation wb.confirmationFutures
  ({ wb with pendingConfirmation := r.1, confirmationFutures := r.2.1 },
    if r.2.2 = 0 then 0 else wb.pushed - r.2.1.length)

def confirmOverThreshold (wb : WriteBuffer) : WriteBuffer × ℕ := wb.confirm wb.calculateConfirmThreshold

def confirmAll (wb : WriteBuffer) : WriteBuffer × ℕ := wb.confirm 0

/-- the buffer after `write` took the bytes, before the threshold check -/
def buffer (wb : WriteBuffer) (offset : ℕ) (buf : List UInt8) : WriteBuffer :=
  { wb with
    buffers := if wb.buffers = [] ∨ wb.nextOffset ≠ offset then wb.buffers ++ [(offset, buf)]
      else appendBack buf wb.buffers
    bufferedSize := wb.bufferedSize + buf.length
    nextOffset := offset + buf.length }

/-- `write`: the state, and how many batches must be written before the returned future completes -/
def write (wb : WriteBuffer) (offset : ℕ) (buf : List UInt8) : WriteBuffer × ℕ :=
  let wb' := wb.buffer offset buf
  if wb'.calculateFlushThreshold < wb'.bufferedSize then (wb'.pushBuffer).confirmOverThreshold else (wb', 0)

def fsync (wb : WriteBuffer) : WriteBuffer × ℕ := wb.pushBuffer.confirmAll

/-- the task `scheduleFlush` schedules, when it fires (it reschedules itself, which changes no state) -/
def scheduledFlush (wb : WriteBuffer) : WriteBuffer := wb.pushBuffer

/-- the first chained batch runs: the batch handed to `multiwrite`, and the state after the continuation folded the
measured bandwidth (`sentSize` bytes in `duration` ns) into `m_bps` -/
def completeWrite (wb : WriteBuffer) (duration : ℕ) : Option (List (ℕ × List UInt8) × WriteBuffer) :=
  match wb.writeFuture with
  | [] => none
  | (buffers, sentSize) :: rest =>
    some (buffers, { wb with
      writeFuture := rest
      bps := if 0 < duration then (wb.bps * 1 + sentSize * 1000000000 / duration * 2) / 3 else wb.bps })

/-! ## Inversion lemmas -/

@[simp] theorem buffer_bufferedSize (wb : WriteBuffer) (offset : ℕ) (buf : List UInt8) :
    (wb.buffer offset buf).bufferedSize = wb.bufferedSize + buf.length := rfl

@[simp] theorem buffer_nextOffset (wb : WriteBuffer) (offset : ℕ) (buf : List UInt8) :
    (wb.buffer offset buf).nextOffset = offset + buf.length := rfl

@[simp] theorem buffer_writeFuture (wb : WriteBuffer) (offset : ℕ) (buf : List UInt8) :
    (wb.buffer offset buf).writeFuture = wb.writeFuture := rfl

@[simp] theorem buffer_pushed (wb : WriteBuffer) (offset : ℕ) (buf : List UInt8) :
    (wb.buffer offset buf).pushed = wb.pushed := rfl

@[simp] theorem buffer_confirmationFutures (wb : WriteBuffer) (offset : ℕ) (buf : List UInt8) :
    (wb.buffer offset buf).confirmationFutures = wb.confirmationFutures := rfl

theorem appendBack_eq {ps : List (ℕ × List UInt8)} {off : ℕ} {b : List UInt8} (buf : List UInt8) :
    appendBack buf (ps ++ [(off, b)]) = ps ++ [(off, b ++ buf)] := by
  induction ps with
  | nil => rfl
  | cons p ps ih =>
    cases ps with
    | nil => rfl
    | cons q qs => simpa [appendBack] using ih

/-- `write` either starts a new piece, or extends the last one, which ends where the bytes start -/
theorem buffers_buffer {wb : WriteBuffer} (h : ∀ p ∈ wb.buffers.getLast?, wb.nextOffset = p.1 + p.2.length)
    (offset : ℕ) (buf : List UInt8) :
    (wb.buffer offset buf).buffers = wb.buffers ++ [(offset, buf)] ∨
      ∃ L o b, wb.buffers = L ++ [(o, b)] ∧ offset = o + b.length ∧
        (wb.buffer offset buf).buffers = L ++ [(o, b ++ buf)] := by
  by_cases hb : wb.buffers = [] ∨ wb.nextOffset ≠ offset
  · exact Or.inl (if_pos hb)
  · right
    have hne : wb.buffers ≠ [] := fun h0 => hb (Or.inl h0)
    have hoff : wb.nextOffset = offset := by
      by_contra hne'
      exact hb (Or.inr hne')
    obtain ⟨L, ⟨o, b⟩, hL⟩ := (List.eq_nil_or_concat' wb.buffers).resolve_left hne
    have hlast := h (o, b) (by simp [hL])
    refine ⟨L, o, b, hL, by rw [← hoff, hlast], ?_⟩
    show (if wb.buffers = [] ∨ wb.nextOffset ≠ offset then _ else _) = _
    rw [if_neg hb, hL, appendBack_eq]

@[simp] theorem pushBuffer_pending (wb : WriteBuffer) : wb.pushBuffer.pending = wb.pending := by
  unfold pushBuffer
  split_ifs <;> simp [pending]

@[simp] theorem pushBuffer_bufferedSize (wb : WriteBuffer) : wb.pushBuffer.bufferedSize = 0 := by
  unfold pushBuffer
  split_ifs with h
  · exact h
  · rfl

theorem pushBuffer_of_bufferedSize {wb : WriteBuffer} (h : wb.bufferedSize = 0) : wb.pushBuffer = wb :=
  if_pos h

@[simp] theorem confirm_pending (wb : WriteBuffer) (threshold : ℕ) : (wb.confirm threshold).1.pending = wb.pending :=
  rfl

@[simp] theorem confirm_bufferedSize (wb : WriteBuffer) (threshold : ℕ) :
    (wb.confirm threshold).1.bufferedSize = wb.bufferedSize := rfl

@[simp] theorem confirm_writeFuture (wb : WriteBuffer) (threshold : ℕ) :
    (wb.confirm threshold).1.writeFuture = wb.writeFuture := rfl

@[simp] theorem confirm_pushed (wb : WriteBuffer) (threshold : ℕ) : (wb.confirm threshold).1.pushed = wb.pushed :=
  rfl

@[simp] theorem fsync_pending (wb : WriteBuffer) : wb.fsync.1.pending = wb.pending := by
  simp [fsync, confirmAll]

theorem write_pending (wb : WriteBuffer) (offset : ℕ) (buf : List UInt8) :
    (wb.write offset buf).1.pending = (wb.buffer offset buf).pending := by
  dsimp only [write]
  split_ifs <;> simp [confirmOverThreshold]

theorem completeWrite_eq_some {wb wb' : WriteBuffer} {duration : ℕ} {buffers : List (ℕ × List UInt8)}
    (h : wb.completeWrite duration = some (buffers, wb')) :
    ∃ sentSize rest, wb.writeFuture = (buffers, sentSize) :: rest ∧
      wb' = { wb with
        writeFuture := rest
        bps := if 0 < duration then (wb.bps * 1 + sentSize * 1000000000 / duration * 2) / 3 else wb.bps } := by
  unfold completeWrite at h
  cases hw : wb.writeFuture with
  | nil => simp [hw] at h
  | cons b rest =>
    obtain ⟨batch, sentSize⟩ := b
    simp only [hw, Option.some.injEq, Prod.mk.injEq] at h
    obtain ⟨rfl, rfl⟩ := h
    exact ⟨sentSize, rest, rfl, rfl⟩

theorem completeWrite_of_writeFuture {wb : WriteBuffer} (h : wb.writeFuture = []) (duration : ℕ) :
    wb.completeWrite duration = none := by
  simp [completeWrite, h]

/-- a batch that runs leaves the buffer and the confirmation queue as they are -/
theorem completeWrite_counts {wb wb' : WriteBuffer} {duration : ℕ} {buffers : List (ℕ × List UInt8)}
    (h : wb.completeWrite duration = some (buffers, wb')) :
    wb'.bufferedSize = wb.bufferedSize ∧ wb'.confirmationFutures = wb.confirmationFutures := by
  obtain ⟨sentSize, rest, hw, rfl⟩ := completeWrite_eq_some h
  exact ⟨rfl, rfl⟩

/-- a batch that runs leaves the pending pieces -/
theorem completeWrite_pending {wb wb' : WriteBuffer} {duration : ℕ} {buffers : List (ℕ × List UInt8)}
    (h : wb.completeWrite duration = some (buffers, wb')) : buffers ++ wb'.pending = wb.pending := by
  obtain ⟨sentSize, rest, hw, rfl⟩ := completeWrite_eq_some h
  simp [pending, hw]

/-! ## Invariant -/

/-- what the counters of a `WriteBuffer` account for -/
structure Inv (wb : WriteBuffer) : Prop where
  bufferedSize_eq : wb.bufferedSize = piecesSize wb.buffers
  nextOffset_eq : ∀ p ∈ wb.buffers.getLast?, wb.nextOffset = p.1 + p.2.length
  pendingConfirmation_eq : wb.pendingConfirmation = wb.confirmationFutures.sum
  sentSize_pos : ∀ n ∈ wb.confirmationFutures, 0 < n
  writeFuture_le : wb.writeFuture.length ≤ wb.pushed
  confirmationFutures_le : wb.confirmationFutures.length ≤ wb.pushed

theorem inv_init (writeBufferMinSize writeBufferMaxSize : ℕ) : (init writeBufferMinSize writeBufferMaxSize).Inv :=
  ⟨rfl, by simp [init], rfl, by simp [init], le_refl _, le_refl _⟩

theorem confirmLoop_drop (threshold pending : ℕ) (qs : List ℕ) :
    (confirmLoop threshold pending qs).2.1 = qs.drop (confirmLoop threshold pending qs).2.2 := by
  induction qs generalizing pending with
  | nil => rfl
  | cons q qs ih =>
    simp only [confirmLoop]
    split_ifs
    · simpa using ih (pending - q)
    · rfl

/-- what is left unconfirmed is what the queue still holds -/
theorem confirmLoop_sum (threshold : ℕ) (qs : List ℕ) :
    (confirmLoop threshold qs.sum qs).1 = (confirmLoop threshold qs.sum qs).2.1.sum := by
  induction qs with
  | nil => rfl
  | cons q qs ih =>
    simp only [confirmLoop, List.sum_cons, Nat.add_sub_cancel_left]
    by_cases hlt : threshold < q + qs.sum
    · simpa [hlt] using ih
    · simp [hlt]

/-- with a threshold of 0 and no empty batch, every future is popped -/
theorem confirmLoop_zero (qs : List ℕ) (hpos : ∀ n ∈ qs, 0 < n) : (confirmLoop 0 qs.sum qs).2.1 = [] := by
  induction qs with
  | nil => rfl
  | cons q qs ih =>
    have hq := hpos q List.mem_cons_self
    simp only [confirmLoop, List.sum_cons, if_pos (show 0 < q + qs.sum by omega), Nat.add_sub_cancel_left]
    exact ih fun n hn => hpos n (List.mem_cons_of_mem q hn)

theorem Inv.confirm {wb : WriteBuffer} (h : wb.Inv) (threshold : ℕ) : (wb.confirm threshold).1.Inv := by
  have hsum := confirmLoop_sum threshold wb.confirmationFutures
  have hdrop := confirmLoop_drop threshold wb.confirmationFutures.sum wb.confirmationFutures
  rw [← h.pendingConfirmation_eq] at hsum hdrop
  refine ⟨h.bufferedSize_eq, h.nextOffset_eq, hsum, ?_, h.writeFuture_le, ?_⟩
  · intro n hn
    rw [WriteBuffer.confirm, hdrop] at hn
    exact h.sentSize_pos n (List.mem_of_mem_drop hn)
  · show (confirmLoop threshold wb.pendingConfirmation wb.confirmationFutures).2.1.length ≤ wb.pushed
    rw [hdrop, List.length_drop]
    exact le_trans (Nat.sub_le _ _) h.confirmationFutures_le

/-- `confirm 0` pops every queued future -/
theorem confirmAll_drains {wb : WriteBuffer} (h : wb.Inv) : wb.confirmAll.1.confirmationFutures = [] := by
  have hz := confirmLoop_zero wb.confirmationFutures h.sentSize_pos
  rw [← h.pendingConfirmation_eq] at hz
  exact hz

theorem Inv.buffer {wb : WriteBuffer} (h : wb.Inv) (offset : ℕ) (buf : List UInt8) : (wb.buffer offset buf).Inv := by
  refine ⟨?_, ?_, h.pendingConfirmation_eq, h.sentSize_pos, h.writeFuture_le, h.confirmationFutures_le⟩
  · rcases buffers_buffer h.nextOffset_eq offset buf with hb | ⟨L, o, b, hL, _, hb⟩
    · simp [hb, h.bufferedSize_eq]
    · have h1 := h.bufferedSize_eq
      rw [hL] at h1
      simp only [buffer_bufferedSize, hb, h1, piecesSize_append, piecesSize_cons, List.length_append]
      simp only [piecesSize_nil]
      omega
  · rcases buffers_buffer h.nextOffset_eq offset buf with hb | ⟨L, o, b, _, ho, hb⟩
    · simp [hb]
    · rw [hb]
      simp [ho, Nat.add_assoc]

theorem Inv.pushBuffer {wb : WriteBuffer} (h : wb.Inv) : wb.pushBuffer.Inv := by
  unfold WriteBuffer.pushBuffer
  split_ifs with h0
  · exact h
  · refine ⟨rfl, by simp, ?_, ?_, ?_, ?_⟩
    · simp [h.pendingConfirmation_eq]
    · intro n hn
      rcases List.mem_append.1 hn with hn | hn
      · exact h.sentSize_pos n hn
      · rw [List.mem_singleton.1 hn]
        omega
    · simpa using h.writeFuture_le
    · simpa using h.confirmationFutures_le

theorem Inv.write {wb : WriteBuffer} (h : wb.Inv) (offset : ℕ) (buf : List UInt8) : (wb.write offset buf).1.Inv := by
  dsimp only [WriteBuffer.write]
  split_ifs
  · exact ((h.buffer offset buf).pushBuffer).confirm _
  · exact h.buffer offset buf

theorem Inv.fsync {wb : WriteBuffer} (h : wb.Inv) : wb.fsync.1.Inv := h.pushBuffer.confirm 0

theorem Inv.completeWrite {wb wb' : WriteBuffer} {duration : ℕ} {buffers : List (ℕ × List UInt8)} (h : wb.Inv)
    (hc : wb.completeWrite duration = some (buffers, wb')) : wb'.Inv := by
  obtain ⟨sentSize, rest, hw, rfl⟩ := completeWrite_eq_some hc
  have hle := h.writeFuture_le
  rw [hw, List.length_cons] at hle
  exact ⟨h.bufferedSize_eq, h.nextOffset_eq, h.pendingConfirmation_eq, h.sentSize_pos, by simp only; omega,
    h.confirmationFutures_le⟩

/-! ## Pieces -/

/-- the pieces already handed on, then the pending ones, are the writes received with contiguous runs joined -/
theorem buffer_coalesce {wb : WriteBuffer} (h : wb.Inv) {ws done : List (ℕ × List UInt8)}
    (hc : Coalesce ws (done ++ wb.pending)) (offset : ℕ) (buf : List UInt8) :
    Coalesce (ws ++ [(offset, buf)]) (done ++ (wb.buffer offset buf).pending) := by
  rcases buffers_buffer h.nextOffset_eq offset buf with hb | ⟨L, o, b, hL, ho, hb⟩
  · -- a new piece
    have := Coalesce.push (offset, buf) hc
    simpa [pending, hb] using this
  · -- the last piece grows
    rw [pending, hL, ← List.append_assoc, ← List.append_assoc] at hc
    have := Coalesce.merge o b buf hc
    rw [← ho] at this
    simpa [pending, hb] using this

theorem write_coalesce {wb : WriteBuffer} (h : wb.Inv) {ws done : List (ℕ × List UInt8)}
    (hc : Coalesce ws (done ++ wb.pending)) (offset : ℕ) (buf : List UInt8) :
    Coalesce (ws ++ [(offset, buf)]) (done ++ (wb.write offset buf).1.pending) := by
  rw [write_pending]
  exact buffer_coalesce h hc offset buf

/-! ## Waiting for confirmations -/

/-- every batch not yet written still has its future queued, or a caller waits for every batch whose future is gone -/
def WaitCovers (wb : WriteBuffer) (waitFor : ℕ) : Prop :=
  wb.writeFuture.length ≤ wb.confirmationFutures.length ∨ waitFor = wb.pushed - wb.confirmationFutures.length

/-- once what the caller waits for is written, every batch not yet written has its future queued -/
theorem WaitCovers.resume {wb : WriteBuffer} {waitFor : ℕ} (hc : wb.WaitCovers waitFor) (h : wb.Inv)
    (hw : waitFor ≤ wb.written) : wb.writeFuture.length ≤ wb.confirmationFutures.length := by
  rcases hc with hc | rfl
  · exact hc
  · have := h.confirmationFutures_le
    have := h.writeFuture_le
    unfold written at hw
    omega

theorem WaitCovers.pushBuffer {wb : WriteBuffer} {waitFor : ℕ} (hc : wb.WaitCovers waitFor) :
    wb.pushBuffer.WaitCovers waitFor := by
  unfold WriteBuffer.pushBuffer
  split_ifs
  · exact hc
  · unfold WaitCovers at hc ⊢
    simp only [List.length_append, List.length_singleton]
    omega

theorem WaitCovers.completeWrite {wb wb' : WriteBuffer} {duration : ℕ} {buffers : List (ℕ × List UInt8)}
    {waitFor : ℕ} (hc : wb.WaitCovers waitFor) (h : wb.completeWrite duration = some (buffers, wb')) :
    wb'.WaitCovers waitFor := by
  obtain ⟨sentSize, rest, hw, rfl⟩ := completeWrite_eq_some h
  unfold WaitCovers at hc ⊢
  rw [hw, List.length_cons] at hc
  simp only
  omega

/-- `confirm` waits for every batch whose future it pops -/
theorem confirm_waitCovers (wb : WriteBuffer) (threshold : ℕ) (hf : wb.WaitCovers 0) (h : wb.Inv) :
    (wb.confirm threshold).1.WaitCovers (wb.confirm threshold).2 := by
  have hf := hf.resume h (Nat.zero_le _)
  have hdrop := confirmLoop_drop threshold wb.pendingConfirmation wb.confirmationFutures
  by_cases h0 : (confirmLoop threshold wb.pendingConfirmation wb.confirmationFutures).2.2 = 0
  · left
    show wb.writeFuture.length ≤ (confirmLoop threshold wb.pendingConfirmation wb.confirmationFutures).2.1.length
    rw [hdrop, h0, List.drop_zero]
    exact hf
  · right
    simp only [confirm, if_neg h0]

theorem write_waitCovers {wb : WriteBuffer} (h : wb.Inv) (hf : wb.WaitCovers 0) (offset : ℕ) (buf : List UInt8) :
    (wb.write offset buf).1.WaitCovers (wb.write offset buf).2 := by
  dsimp only [WriteBuffer.write]
  split_ifs
  · exact confirm_waitCovers _ _ (show (wb.buffer offset buf).WaitCovers 0 from hf).pushBuffer
      (h.buffer offset buf).pushBuffer
  · exact hf

/-- after `fsync` nothing is buffered, no future is queued, and the caller waits for every batch not yet written -/
theorem fsync_spec {wb : WriteBuffer} (h : wb.Inv) (hf : wb.WaitCovers 0) :
    wb.fsync.1.bufferedSize = 0 ∧ wb.fsync.1.confirmationFutures = [] ∧ wb.fsync.1.WaitCovers wb.fsync.2 :=
  ⟨by simp [fsync, confirmAll], confirmAll_drains h.pushBuffer,
    confirm_waitCovers _ _ hf.pushBuffer h.pushBuffer⟩

/-! ## What a caller waits for has been chained -/

theorem pushed_le_pushBuffer (wb : WriteBuffer) : wb.pushed ≤ wb.pushBuffer.pushed := by
  unfold pushBuffer
  split_ifs
  · exact le_rfl
  · exact Nat.le_succ _

/-- `confirm` waits for no batch that has not been chained -/
theorem confirm_wait_le (wb : WriteBuffer) (threshold : ℕ) :
    (wb.confirm threshold).2 ≤ (wb.confirm threshold).1.pushed := by
  simp only [confirm]
  split_ifs <;> omega

theorem write_wait_le (wb : WriteBuffer) (offset : ℕ) (buf : List UInt8) :
    (wb.write offset buf).2 ≤ (wb.write offset buf).1.pushed := by
  dsimp only [write]
  split_ifs
  · exact confirm_wait_le _ _
  · exact Nat.zero_le _

theorem fsync_wait_le (wb : WriteBuffer) : wb.fsync.2 ≤ wb.fsync.1.pushed := confirm_wait_le _ _

theorem completeWrite_pushed {wb wb' : WriteBuffer} {duration : ℕ} {buffers : List (ℕ × List UInt8)}
    (h : wb.completeWrite duration = some (buffers, wb')) : wb'.pushed = wb.pushed := by
  obtain ⟨sentSize, rest, hw, rfl⟩ := completeWrite_eq_some h
  rfl

/-- the first chained batch runs, whatever the bandwidth measured -/
theorem completeWrite_of_cons {wb : WriteBuffer} {b : List (ℕ × List UInt8) × ℕ}
    {rest : List (List (ℕ × List UInt8) × ℕ)} (h : wb.writeFuture = b :: rest) (duration : ℕ) :
    ∃ wb', wb.completeWrite duration = some (b.1, wb') ∧ wb'.writeFuture = rest ∧ wb'.pushed = wb.pushed := by
  simp [completeWrite, h]

/-- with no batch left to run, every chained batch has been written -/
theorem written_of_writeFuture {wb : WriteBuffer} (h : wb.writeFuture = []) : wb.written = wb.pushed := by
  simp [written, h]

end WriteBuffer

end OneHelpers.Buffering
