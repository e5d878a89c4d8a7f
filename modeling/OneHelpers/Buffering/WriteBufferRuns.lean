/-
Runs of a `WriteBuffer` (`src/buffering/writeBuffer.h`): any sequence of `write`, `fsync`, the scheduled flush
firing, and the first chained batch being written, whose continuation folds the bandwidth it measured into `m_bps`.

The confirmation queue is a FIFO of the futures of the batches `pushBuffer` chained: the future at its front is that
of batch `pushed - length`, so the queue stands for the batches `queued`. A `confirm` call pops futures while more
than its threshold is unconfirmed. In the source that loop reads `m_confirmationFutures.front()` without checking
that the queue holds one; `popsEmpty` says when it would. The state a call confirms on and its threshold are
`confirmCall`, and the batches it pops are `poppedBy`.

Results:
- `run_inv`: every state a run from the constructor reaches satisfies `Inv`;
- `popsEmpty_sum`: a loop that starts from the sum of the queue never reaches the front of an empty queue;
- `step_conserves`, `run_conserves`: the batches queued before a run and those it pushes are, in order, the batches
  its `confirm` calls popped and those still queued;
- `writeBuffer_confirmations_consistent`: the counters agree with what they count in every reachable state, no
  `confirm` call pops an empty queue, every pushed batch's future is popped by one call or still queued, and `fsync`
  leaves nothing to confirm.
-/
import Mathlib.Tactic
import OneHelpers.Buffering.WriteBuffer

namespace OneHelpers.Buffering

open SparseArray

namespace WriteBuffer

/-! ## Events -/

/-- what happens to a `WriteBuffer`: a call of `write` or `fsync`, the scheduled flush, or the first chained batch
written in `duration` ns -/
inductive Event where
  | write (offset : ℕ) (buf : List UInt8)
  | fsync
  | scheduledFlush
  | completeWrite (duration : ℕ)

/-- one event; a batch completes only when one is chained -/
def step (wb : WriteBuffer) : Event → WriteBuffer
  | .write offset buf => (wb.write offset buf).1
  | .fsync => wb.fsync.1
  | .scheduledFlush => wb.scheduledFlush
  | .completeWrite duration =>
    match wb.completeWrite duration with
    | some (_, wb') => wb'
    | none => wb

def run (wb : WriteBuffer) (evs : List Event) : WriteBuffer := evs.foldl step wb

/-- the batches whose futures are queued, front first -/
def queued (wb : WriteBuffer) : List ℕ :=
  List.range' (wb.pushed - wb.confirmationFutures.length) wb.confirmationFutures.length

/-- the state an event calls `confirm` on and the threshold it passes: `write` over the flush threshold confirms
over the confirm threshold after pushing the buffer, `fsync` confirms everything -/
def confirmCall (wb : WriteBuffer) : Event → Option (WriteBuffer × ℕ)
  | .write offset buf =>
    if (wb.buffer offset buf).calculateFlushThreshold < (wb.buffer offset buf).bufferedSize then
      some ((wb.buffer offset buf).pushBuffer, (wb.buffer offset buf).pushBuffer.calculateConfirmThreshold)
    else none
  | .fsync => some (wb.pushBuffer, 0)
  | .scheduledFlush => none
  | .completeWrite _ => none

/-- the batches whose futures `confirm threshold` pops, front first -/
def popped (wb : WriteBuffer) (threshold : ℕ) : List ℕ :=
  List.range' (wb.pushed - wb.confirmationFutures.length)
    (confirmLoop threshold wb.pendingConfirmation wb.confirmationFutures).2.2

/-- the batches whose futures the event's `confirm` pops -/
def poppedBy (wb : WriteBuffer) (e : Event) : List ℕ :=
  match confirmCall wb e with
  | some (c, threshold) => c.popped threshold
  | none => []

/-- the batches popped along a run, in order -/
def poppedAlong : WriteBuffer → List Event → List ℕ
  | _, [] => []
  | wb, e :: evs => poppedBy wb e ++ poppedAlong (wb.step e) evs

/-- whether the loop of `confirm` reaches `m_confirmationFutures.front()` on an empty queue: it pops while more than
`threshold` bytes are unconfirmed, whatever the queue holds -/
def popsEmpty (threshold : ℕ) : ℕ → List ℕ → Bool
  | pending, [] => decide (threshold < pending)
  | pending, sentSize :: rest => decide (threshold < pending) && popsEmpty threshold (pending - sentSize) rest

/-! ## The confirm loop -/

/-- the loop pops no more futures than are queued -/
theorem confirmLoop_popped_le (threshold pending : ℕ) (qs : List ℕ) :
    (confirmLoop threshold pending qs).2.2 ≤ qs.length := by
  induction qs generalizing pending with
  | nil => exact Nat.le_refl 0
  | cons q qs ih =>
    simp only [confirmLoop]
    split_ifs
    · exact Nat.succ_le_succ (ih (pending - q))
    · exact Nat.zero_le _

/-- **No pop from an empty queue.** The loop keeps the count it tests equal to the sum of what is queued, so when the
queue is empty the count is 0 and the loop stops -/
theorem popsEmpty_sum (threshold : ℕ) (qs : List ℕ) : popsEmpty threshold qs.sum qs = false := by
  induction qs with
  | nil => simp [popsEmpty]
  | cons q qs ih =>
    rw [popsEmpty, List.sum_cons, Nat.add_sub_cancel_left, ih, Bool.and_false]

/-! ## Confirm calls -/

theorem step_of_confirmCall {wb c : WriteBuffer} {e : Event} {threshold : ℕ}
    (h : confirmCall wb e = some (c, threshold)) : wb.step e = (c.confirm threshold).1 := by
  cases e with
  | write offset buf =>
    simp only [confirmCall] at h
    split_ifs at h with hflush
    cases h
    simp only [step, WriteBuffer.write, if_pos hflush, confirmOverThreshold]
  | fsync =>
    cases h
    rfl
  | scheduledFlush => cases h
  | completeWrite duration => cases h

/-- the state a call confirms on has the invariant -/
theorem Inv.confirmCall {wb c : WriteBuffer} {e : Event} {threshold : ℕ} (h : wb.Inv)
    (hc : confirmCall wb e = some (c, threshold)) : c.Inv := by
  cases e with
  | write offset buf =>
    simp only [WriteBuffer.confirmCall] at hc
    split_ifs at hc
    cases hc
    exact (h.buffer offset buf).pushBuffer
  | fsync =>
    cases hc
    exact h.pushBuffer
  | scheduledFlush => cases hc
  | completeWrite duration => cases hc

/-! ## Invariant along a run -/

theorem Inv.step {wb : WriteBuffer} (h : wb.Inv) (e : Event) : (wb.step e).Inv := by
  cases e with
  | write offset buf => exact h.write offset buf
  | fsync => exact h.fsync
  | scheduledFlush => exact h.pushBuffer
  | completeWrite duration =>
    simp only [WriteBuffer.step]
    split
    · rename_i buffers wb' hc
      exact h.completeWrite hc
    · exact h

theorem Inv.run {wb : WriteBuffer} (h : wb.Inv) (evs : List Event) : (wb.run evs).Inv := by
  induction evs generalizing wb with
  | nil => exact h
  | cons e evs ih => exact ih (h.step e)

/-- **Every reachable state satisfies `Inv`**, whatever the sizes and the bandwidth the completed batches measure -/
theorem run_inv (writeBufferMinSize writeBufferMaxSize : ℕ) (evs : List Event) :
    ((init writeBufferMinSize writeBufferMaxSize).run evs).Inv :=
  (inv_init writeBufferMinSize writeBufferMaxSize).run evs

/-! ## Conservation of the queue -/

/-- from `wb` to `wb'`, the batches queued and those pushed in between are, in order, `pops` and those queued in
`wb'` -/
def Conserves (wb wb' : WriteBuffer) (pops : List ℕ) : Prop :=
  wb.queued ++ List.range' wb.pushed (wb'.pushed - wb.pushed) = pops ++ wb'.queued ∧ wb.pushed ≤ wb'.pushed

theorem Conserves.of_eq {wb wb' : WriteBuffer} (hpushed : wb'.pushed = wb.pushed)
    (hqueue : wb'.confirmationFutures = wb.confirmationFutures) : Conserves wb wb' [] := by
  refine ⟨?_, hpushed.ge⟩
  rw [hpushed, Nat.sub_self, List.range'_zero, List.append_nil, List.nil_append, queued, queued, hpushed, hqueue]

theorem Conserves.trans {wb wb' wb'' : WriteBuffer} {pops pops' : List ℕ} (h : Conserves wb wb' pops)
    (h' : Conserves wb' wb'' pops') : Conserves wb wb'' (pops ++ pops') := by
  obtain ⟨hq, hle⟩ := h
  obtain ⟨hq', hle'⟩ := h'
  refine ⟨?_, Nat.le_trans hle hle'⟩
  -- the batches pushed from `wb` on are those pushed up to `wb'`, then those pushed after
  have hsplit : List.range' wb.pushed (wb''.pushed - wb.pushed) =
      List.range' wb.pushed (wb'.pushed - wb.pushed) ++ List.range' wb'.pushed (wb''.pushed - wb'.pushed) := by
    have happend := List.range'_append_1 (s := wb.pushed) (m := wb'.pushed - wb.pushed) (n := wb''.pushed - wb'.pushed)
    rw [Nat.add_sub_cancel' hle, show wb'.pushed - wb.pushed + (wb''.pushed - wb'.pushed) = wb''.pushed - wb.pushed by
      omega] at happend
    exact happend.symm
  rw [hsplit, ← List.append_assoc, hq, List.append_assoc, hq', List.append_assoc]

/-- `pushBuffer` queues the future of the batch it pushes, at the back -/
theorem Conserves.pushBuffer {wb : WriteBuffer} (h : wb.confirmationFutures.length ≤ wb.pushed) :
    Conserves wb wb.pushBuffer [] := by
  unfold WriteBuffer.pushBuffer
  split_ifs with h0
  · exact Conserves.of_eq rfl rfl
  · refine ⟨?_, Nat.le_succ _⟩
    simp only [queued, List.length_append, List.length_singleton, Nat.add_sub_add_right, Nat.add_sub_cancel_left,
      List.nil_append]
    rw [List.range'_1_concat (s := wb.pushed - wb.confirmationFutures.length), Nat.sub_add_cancel h, List.range'_one]

/-- `confirm` pops from the front the futures `popped` names -/
theorem Conserves.confirm {wb : WriteBuffer} (h : wb.confirmationFutures.length ≤ wb.pushed) (threshold : ℕ) :
    Conserves wb (wb.confirm threshold).1 (wb.popped threshold) := by
  have hle := confirmLoop_popped_le threshold wb.pendingConfirmation wb.confirmationFutures
  have hdrop := confirmLoop_drop threshold wb.pendingConfirmation wb.confirmationFutures
  -- the futures left are the queue without the popped ones
  have hleft : (wb.confirm threshold).1.confirmationFutures.length =
      wb.confirmationFutures.length - (confirmLoop threshold wb.pendingConfirmation wb.confirmationFutures).2.2 := by
    show (confirmLoop threshold wb.pendingConfirmation wb.confirmationFutures).2.1.length = _
    rw [hdrop, List.length_drop]
  refine ⟨?_, (confirm_pushed wb threshold).ge⟩
  rw [confirm_pushed, Nat.sub_self, List.range'_zero, List.append_nil, queued, popped, queued, confirm_pushed, hleft,
    show wb.pushed - (wb.confirmationFutures.length -
      (confirmLoop threshold wb.pendingConfirmation wb.confirmationFutures).2.2) =
      wb.pushed - wb.confirmationFutures.length +
        (confirmLoop threshold wb.pendingConfirmation wb.confirmationFutures).2.2 by omega,
    List.range'_append_1, Nat.add_sub_cancel' hle]

/-- an event pops only futures that were queued or that it queued itself -/
theorem step_conserves {wb : WriteBuffer} (h : wb.Inv) (e : Event) : Conserves wb (wb.step e) (wb.poppedBy e) := by
  cases e with
  | write offset buf =>
    have hbuf := (h.buffer offset buf).confirmationFutures_le
    by_cases hflush : (wb.buffer offset buf).calculateFlushThreshold < (wb.buffer offset buf).bufferedSize
    · -- over the flush threshold: push, then confirm over the confirm threshold
      have hpush := Conserves.pushBuffer hbuf
      have hconfirm := Conserves.confirm (h.buffer offset buf).pushBuffer.confirmationFutures_le
        (wb.buffer offset buf).pushBuffer.calculateConfirmThreshold
      have hpops : wb.poppedBy (.write offset buf) =
          (wb.buffer offset buf).pushBuffer.popped (wb.buffer offset buf).pushBuffer.calculateConfirmThreshold := by
        simp only [poppedBy, confirmCall, if_pos hflush]
      rw [hpops, step_of_confirmCall (show confirmCall wb (.write offset buf) = _ from if_pos hflush)]
      have hbuffer : Conserves wb (wb.buffer offset buf) [] := Conserves.of_eq rfl rfl
      simpa only [List.nil_append] using hbuffer.trans (hpush.trans hconfirm)
    · have hpops : wb.poppedBy (.write offset buf) = [] := by simp only [poppedBy, confirmCall, if_neg hflush]
      have hstep : wb.step (.write offset buf) = wb.buffer offset buf := by
        simp only [step, WriteBuffer.write, if_neg hflush]
      rw [hpops, hstep]
      exact Conserves.of_eq rfl rfl
  | fsync =>
    exact (Conserves.pushBuffer h.confirmationFutures_le).trans (Conserves.confirm h.pushBuffer.confirmationFutures_le 0)
  | scheduledFlush => exact Conserves.pushBuffer h.confirmationFutures_le
  | completeWrite duration =>
    simp only [step, poppedBy, confirmCall]
    split
    · rename_i buffers wb' hc
      obtain ⟨sentSize, rest, hw, rfl⟩ := completeWrite_eq_some hc
      exact Conserves.of_eq rfl rfl
    · exact Conserves.of_eq rfl rfl

theorem run_conserves {wb : WriteBuffer} (h : wb.Inv) (evs : List Event) :
    Conserves wb (wb.run evs) (wb.poppedAlong evs) := by
  -- induction on the events, one step's conservation composed with the rest's
  induction evs generalizing wb with
  | nil => exact Conserves.of_eq rfl rfl
  | cons e evs ih => exact (step_conserves h e).trans (ih (h.step e))

/-- from the constructor, the batches popped along a run and those still queued are all the batches pushed, each
once and in order -/
theorem poppedAlong_queued (writeBufferMinSize writeBufferMaxSize : ℕ) (evs : List Event) :
    (init writeBufferMinSize writeBufferMaxSize).poppedAlong evs ++
        ((init writeBufferMinSize writeBufferMaxSize).run evs).queued =
      List.range ((init writeBufferMinSize writeBufferMaxSize).run evs).pushed := by
  obtain ⟨hq, -⟩ := run_conserves (inv_init writeBufferMinSize writeBufferMaxSize) evs
  rw [List.range_eq_range', ← hq]
  rfl

theorem queued_of_nil {wb : WriteBuffer} (h : wb.confirmationFutures = []) : wb.queued = [] := by
  rw [queued, h, List.length_nil, List.range'_zero]

theorem run_append_fsync (wb : WriteBuffer) (evs : List Event) : wb.run (evs ++ [.fsync]) = (wb.run evs).fsync.1 := by
  rw [run, List.foldl_append]
  rfl

/-- **Confirmation accounting.** In every state a run reaches from the constructor, whatever the sizes and the events
(the durations of the completed batches set the bandwidth estimate to any value): `m_pendingConfirmation` is the sum of the queued sizes and `m_bufferedSize` the
bytes of the buffered pieces; no `confirm` call an event makes reads the front of an empty queue; the batches popped
along the run, then those still queued, are every batch pushed, once each and in order, so after a final `fsync`
every batch's future was popped by exactly one call; and `fsync` leaves nothing unconfirmed and no future queued. -/
theorem writeBuffer_confirmations_consistent (writeBufferMinSize writeBufferMaxSize : ℕ) (evs : List Event) :
    ((init writeBufferMinSize writeBufferMaxSize).run evs).pendingConfirmation =
        ((init writeBufferMinSize writeBufferMaxSize).run evs).confirmationFutures.sum ∧
      ((init writeBufferMinSize writeBufferMaxSize).run evs).bufferedSize =
        piecesSize ((init writeBufferMinSize writeBufferMaxSize).run evs).buffers ∧
      (∀ e c threshold, confirmCall ((init writeBufferMinSize writeBufferMaxSize).run evs) e =
        some (c, threshold) → popsEmpty threshold c.pendingConfirmation c.confirmationFutures = false) ∧
      (init writeBufferMinSize writeBufferMaxSize).poppedAlong evs ++
          ((init writeBufferMinSize writeBufferMaxSize).run evs).queued =
        List.range ((init writeBufferMinSize writeBufferMaxSize).run evs).pushed ∧
      (init writeBufferMinSize writeBufferMaxSize).poppedAlong (evs ++ [.fsync]) =
        List.range ((init writeBufferMinSize writeBufferMaxSize).run (evs ++ [.fsync])).pushed ∧
      ((init writeBufferMinSize writeBufferMaxSize).run evs).fsync.1.pendingConfirmation = 0 ∧
      ((init writeBufferMinSize writeBufferMaxSize).run evs).fsync.1.confirmationFutures = [] := by
  have h := run_inv writeBufferMinSize writeBufferMaxSize evs
  -- `fsync` pushes the buffer and pops every future, so nothing stays queued
  have hdrained : ((init writeBufferMinSize writeBufferMaxSize).run evs).fsync.1.confirmationFutures = [] :=
    confirmAll_drains h.pushBuffer
  refine ⟨h.pendingConfirmation_eq, h.bufferedSize_eq, ?_, poppedAlong_queued _ _ evs, ?_, ?_, hdrained⟩
  · intro e c threshold hc
    rw [(h.confirmCall hc).pendingConfirmation_eq]
    exact popsEmpty_sum threshold c.confirmationFutures
  · have hpart := poppedAlong_queued writeBufferMinSize writeBufferMaxSize (evs ++ [.fsync])
    rw [run_append_fsync, queued_of_nil hdrained, List.append_nil] at hpart
    rw [run_append_fsync]
    exact hpart
  · rw [h.fsync.pendingConfirmation_eq]
    exact congrArg List.sum hdrained

/-- one byte written under the flush threshold, then `fsync`: `fsync` confirms on the pushed buffer, whose loop stops
at an empty queue, and the run popped the future of batch 0 -/
theorem writeBuffer_confirmations_consistent_fsync :
    confirmCall ((init 4 4).run [.write 0 [1]]) .fsync = some (((init 4 4).run [.write 0 [1]]).pushBuffer, 0) ∧
      popsEmpty 0 ((init 4 4).run [.write 0 [1]]).pushBuffer.pendingConfirmation
        ((init 4 4).run [.write 0 [1]]).pushBuffer.confirmationFutures = false ∧
      (init 4 4).poppedAlong [.write 0 [1], .fsync] = [0] := by
  obtain ⟨-, -, hpops, -, hfsync, -, -⟩ := writeBuffer_confirmations_consistent 4 4 [.write 0 [1]]
  have hc : confirmCall ((init 4 4).run [.write 0 [1]]) .fsync = some (((init 4 4).run [.write 0 [1]]).pushBuffer, 0) :=
    rfl
  exact ⟨hc, hpops _ _ _ hc, hfsync.trans (by decide)⟩

end WriteBuffer

end OneHelpers.Buffering
