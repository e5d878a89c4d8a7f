/-
Model of `BufferedFileHandle` (`src/buffering/bufferAgent.h`): a `WriteBuffer` and a `ReadCache` over a wrapped file
handle, the three as one state machine.

The wrapped handle is a byte array: its `multiwrite` writes the pieces in order and its `read` returns the content in
`[offset, offset + size)` cut at the end. A client call (`write`, `read`, `fsync`, `flush`) runs its synchronous part
when no call is in progress, and `phase` then records what the future it returned waits for; `resume` completes that
future once it can complete. Between any two steps the environment may fire the scheduled flush, run the next chained
`multiwrite` with its continuation (`writeDone`), complete the read of any cached block (`fetchDone`), and advance the
clock. `issued` records the client's writes in the order they were issued; no operation reads it.

Results:
- `Inv` holds initially (`inv_init`) and after every step (`step_inv`), so in every reachable state (`run_inv`);
- `WaitBounded.sync_returns`, `Inv.read_returns`: a call's future waits only for batches already chained, so every
  write, `fsync` and `flush` returns once the environment has run them, and every read returns once, in addition, the
  read of its front block completes;
- `bufferedFileHandle_equiv`: in every run from a file `F`, the pieces handed to `multiwrite` so far, then those still
  pending, are the client's writes in issue order with contiguous runs joined, and so produce the same content; the
  wrapped file is what the pieces handed on produce; and every read returns a prefix of the content in
  `[offset, offset + size)` that all writes issued before it produce.
-/
import Mathlib.Tactic
import OneHelpers.Buffering.WriteBuffer
import OneHelpers.Buffering.ReadCache

namespace OneHelpers.Buffering

open SparseArray

/-- the fields of `BufferLimits` a buffered handle reads; `prefetchPowerBase` is a `double` -/
structure BufferLimits where
  readBufferMinSize : ℕ
  readBufferMaxSize : ℕ
  readBufferPrefetchDuration : ℕ
  writeBufferMinSize : ℕ
  writeBufferMaxSize : ℕ
  prefetchPowerBase : ℚ
  targetLatency : ℕ

/-- what the future of the client's current call waits for; `waitFor` counts chained batches to be written -/
inductive Phase
  | idle
  | writing (waitFor : ℕ)
  | syncing (waitFor : ℕ)
  | reading (offset size continuousSize waitFor : ℕ)
  | serving (offset size : ℕ)

/-- how many chained batches the future of the client's call waits for -/
def Phase.waitFor : Phase → ℕ
  | .writing waitFor | .syncing waitFor | .reading _ _ _ waitFor => waitFor
  | .idle | .serving _ _ => 0

/-- a step: a client call, or something the environment does -/
inductive Event
  | write (offset : ℕ) (buf : List UInt8)
  | read (offset size continuousSize : ℕ)
  | fsync
  | flush
  | scheduledFlush
  | writeDone (duration : ℕ)
  | fetchDone (i : ℕ)
  | tick
  | resume (latency : ℕ)

/-- the handle, the wrapped file and what the client has issued -/
structure BufferedFileHandle where
  file : List UInt8
  multiwrites : List (List (ℕ × List UInt8))
  writeBuffer : WriteBuffer
  readCache : ReadCache
  now : ℕ
  phase : Phase
  issued : List (ℕ × List UInt8)

namespace BufferedFileHandle

/-- the constructor, over a wrapped handle on the file `F` -/
def init (bl : BufferLimits) (F : List UInt8) : BufferedFileHandle :=
  ⟨F, [], WriteBuffer.init bl.writeBufferMinSize bl.writeBufferMaxSize,
    ReadCache.init bl.readBufferMinSize bl.readBufferMaxSize bl.readBufferPrefetchDuration bl.prefetchPowerBase
      bl.targetLatency,
    0, .idle, []⟩

/-- the bytes the read being served returns, once the read of the front block has completed -/
def served (s : BufferedFileHandle) : Option (List UInt8) :=
  match s.phase, s.readCache.cache with
  | .serving offset size, rd :: _ => if rd.ready then some (readFromCache offset size rd) else none
  | _, _ => none

def step (s : BufferedFileHandle) : Event → BufferedFileHandle
  | .write offset buf =>
    match s.phase with
    | .idle =>
      let r := s.writeBuffer.write offset buf
      { s with writeBuffer := r.1, phase := .writing r.2, issued := s.issued ++ [(offset, buf)] }
    | _ => s
  | .read offset size continuousSize =>
    -- `m_writeBuffer->fsync().then(m_readCache->read(...))`
    match s.phase with
    | .idle =>
      let r := s.writeBuffer.fsync
      { s with writeBuffer := r.1, phase := .reading offset size continuousSize r.2 }
    | _ => s
  | .fsync | .flush =>
    match s.phase with
    | .idle =>
      let r := s.writeBuffer.fsync
      { s with writeBuffer := r.1, phase := .syncing r.2 }
    | _ => s
  | .scheduledFlush => { s with writeBuffer := s.writeBuffer.scheduledFlush }
  | .writeDone duration =>
    -- `multiwrite`, then the continuation: `m_bps`, `m_readCache->clear()`, the confirmation
    match s.writeBuffer.completeWrite duration with
    | some (buffers, wb) =>
      { s with
        file := (multiwrite s.file buffers).1
        multiwrites := s.multiwrites ++ [buffers]
        writeBuffer := wb
        readCache := s.readCache.clear }
    | none => s
  | .fetchDone i => { s with readCache := s.readCache.fetchDone s.now s.file i }
  | .tick => { s with now := s.now + 1 }
  | .resume latency =>
    match s.phase with
    | .idle => s
    | .writing waitFor => if waitFor ≤ s.writeBuffer.written then { s with phase := .idle } else s
    | .syncing waitFor =>
      -- then `readCache->clear()` and the wrapped `fsync` or `flush`, which change no content
      if waitFor ≤ s.writeBuffer.written then { s with readCache := s.readCache.clear, phase := .idle } else s
    | .reading offset size continuousSize waitFor =>
      if waitFor ≤ s.writeBuffer.written then
        { s with readCache := s.readCache.read s.now offset size continuousSize, phase := .serving offset size }
      else s
    | .serving _ _ =>
      if s.served.isSome then { s with readCache := s.readCache.measureLatency latency, phase := .idle } else s

def run (s : BufferedFileHandle) (evs : List Event) : BufferedFileHandle := evs.foldl step s

/-! ## Invariant -/

/-- what the phase of the client's call guarantees about the buffer and the cache -/
def PhaseInv (wb : WriteBuffer) (rc : ReadCache) : Phase → Prop
  | .idle => wb.WaitCovers 0
  | .writing waitFor => wb.WaitCovers waitFor
  | .syncing waitFor | .reading _ _ _ waitFor =>
    wb.bufferedSize = 0 ∧ wb.confirmationFutures = [] ∧ wb.WaitCovers waitFor
  | .serving offset _ =>
    wb.bufferedSize = 0 ∧ wb.writeFuture = [] ∧ wb.confirmationFutures = [] ∧ rc.clearRequested = false ∧
      ∃ rd rest, rc.cache = rd :: rest ∧ rd.offset ≤ offset

/-- the invariant of the states reachable from a wrapped file holding `F` -/
structure Inv (F : List UInt8) (s : BufferedFileHandle) : Prop where
  writeBuffer : s.writeBuffer.Inv
  file_eq : s.file = applyPieces F s.multiwrites.flatten
  coalesce : Coalesce s.issued (s.multiwrites.flatten ++ s.writeBuffer.pending)
  fresh : s.readCache.Fresh s.file
  phase : PhaseInv s.writeBuffer s.readCache s.phase

theorem inv_init (bl : BufferLimits) (F : List UInt8) : Inv F (init bl F) where
  writeBuffer := WriteBuffer.inv_init _ _
  file_eq := rfl
  coalesce := Coalesce.nil
  fresh := fun _ _ h => by cases h
  phase := Or.inl (le_refl _)

/-! ## One step -/

section Step

variable {F : List UInt8} {s : BufferedFileHandle}

theorem Inv.phase_eq {p : Phase} (h : Inv F s) (hp : s.phase = p) : PhaseInv s.writeBuffer s.readCache p :=
  hp ▸ h.phase

theorem Inv.write (h : Inv F s) (offset : ℕ) (buf : List UInt8) : Inv F (s.step (.write offset buf)) := by
  cases hp : s.phase with
  | idle =>
    have hw : s.writeBuffer.WaitCovers 0 := h.phase_eq hp
    simp only [step, hp]
    exact { writeBuffer := h.writeBuffer.write offset buf
            file_eq := h.file_eq
            coalesce := WriteBuffer.write_coalesce h.writeBuffer h.coalesce offset buf
            fresh := h.fresh
            phase := WriteBuffer.write_waitCovers h.writeBuffer hw offset buf }
  | _ => simpa [step, hp] using h

theorem Inv.read (h : Inv F s) (offset size continuousSize : ℕ) :
    Inv F (s.step (.read offset size continuousSize)) := by
  cases hp : s.phase with
  | idle =>
    have hw : s.writeBuffer.WaitCovers 0 := h.phase_eq hp
    simp only [step, hp]
    exact { writeBuffer := h.writeBuffer.fsync
            file_eq := h.file_eq
            coalesce := by simpa using h.coalesce
            fresh := h.fresh
            phase := WriteBuffer.fsync_spec h.writeBuffer hw }
  | _ => simpa [step, hp] using h

/-- `fsync` and `flush` take the same steps -/
theorem Inv.sync (h : Inv F s) {e : Event} (he : e = .fsync ∨ e = .flush) : Inv F (s.step e) := by
  have hsync : s.step e = match s.phase with
      | .idle => { s with writeBuffer := s.writeBuffer.fsync.1, phase := .syncing s.writeBuffer.fsync.2 }
      | _ => s := by
    rcases he with rfl | rfl <;> rfl
  rw [hsync]
  cases hp : s.phase with
  | idle =>
    have hw : s.writeBuffer.WaitCovers 0 := h.phase_eq hp
    exact { writeBuffer := h.writeBuffer.fsync
            file_eq := h.file_eq
            coalesce := by simpa using h.coalesce
            fresh := h.fresh
            phase := WriteBuffer.fsync_spec h.writeBuffer hw }
  | _ => simpa using h

theorem Inv.scheduledFlush (h : Inv F s) : Inv F (s.step .scheduledFlush) := by
  by_cases hb : s.writeBuffer.bufferedSize = 0
  · -- nothing buffered: the flush changes nothing
    have hf : s.writeBuffer.scheduledFlush = s.writeBuffer := WriteBuffer.pushBuffer_of_bufferedSize hb
    simpa [step, hf] using h
  · -- something buffered: no call in progress has flushed
    have hphase : PhaseInv s.writeBuffer.pushBuffer s.readCache s.phase := by
      cases hp : s.phase with
      | idle => exact (h.phase_eq hp).pushBuffer
      | writing waitFor => exact (h.phase_eq hp).pushBuffer
      | syncing waitFor => exact absurd (h.phase_eq hp).1 hb
      | reading offset size continuousSize waitFor => exact absurd (h.phase_eq hp).1 hb
      | serving offset size => exact absurd (h.phase_eq hp).1 hb
    show Inv F { s with writeBuffer := s.writeBuffer.pushBuffer }
    exact { writeBuffer := h.writeBuffer.pushBuffer
            file_eq := h.file_eq
            coalesce := by simpa using h.coalesce
            fresh := h.fresh
            phase := hphase }

theorem Inv.writeDone (h : Inv F s) (duration : ℕ) : Inv F (s.step (.writeDone duration)) := by
  cases hc : s.writeBuffer.completeWrite duration with
  | none => simpa [step, hc] using h
  | some r =>
    obtain ⟨buffers, wb⟩ := r
    have hphase : PhaseInv wb s.readCache.clear s.phase := by
      obtain ⟨hsize, hconf⟩ := WriteBuffer.completeWrite_counts hc
      cases hp : s.phase with
      | idle => exact (h.phase_eq hp).completeWrite hc
      | writing waitFor => exact (h.phase_eq hp).completeWrite hc
      | syncing waitFor =>
        obtain ⟨h1, h2, h3⟩ := h.phase_eq hp
        exact ⟨hsize.trans h1, hconf.trans h2, h3.completeWrite hc⟩
      | reading offset size continuousSize waitFor =>
        obtain ⟨h1, h2, h3⟩ := h.phase_eq hp
        exact ⟨hsize.trans h1, hconf.trans h2, h3.completeWrite hc⟩
      | serving offset size =>
        -- a read being served has no batch left to write
        have := WriteBuffer.completeWrite_of_writeFuture (h.phase_eq hp).2.1 duration
        rw [hc] at this
        cases this
    simp only [step, hc]
    exact { writeBuffer := h.writeBuffer.completeWrite hc
            file_eq := by simp [multiwrite_eq, h.file_eq]
            coalesce := by simpa [← WriteBuffer.completeWrite_pending hc] using h.coalesce
            fresh := ReadCache.clear_fresh _ _
            phase := hphase }

theorem Inv.fetchDone (h : Inv F s) (i : ℕ) : Inv F (s.step (.fetchDone i)) := by
  have hphase : PhaseInv s.writeBuffer (s.readCache.fetchDone s.now s.file i) s.phase := by
    cases hp : s.phase with
    | serving offset size =>
      -- the read completing keeps the front block where it is
      obtain ⟨h1, h2, h3, h4, rd, rest, hcache, hoff⟩ := h.phase_eq hp
      have hmap := ReadCache.fetchDone_offsets s.readCache s.now s.file i
      rw [hcache, List.map_cons] at hmap
      obtain ⟨rd', rest', hcache', hrd', -⟩ := List.map_eq_cons_iff.1 hmap
      exact ⟨h1, h2, h3, by rw [ReadCache.fetchDone_clearRequested, h4], rd', rest', hcache', hrd' ▸ hoff⟩
    | _ => exact h.phase_eq hp
  exact { writeBuffer := h.writeBuffer
          file_eq := h.file_eq
          coalesce := h.coalesce
          fresh := ReadCache.fetchDone_fresh h.fresh s.now i
          phase := hphase }

theorem Inv.tick (h : Inv F s) : Inv F (s.step .tick) :=
  { writeBuffer := h.writeBuffer, file_eq := h.file_eq, coalesce := h.coalesce, fresh := h.fresh, phase := h.phase }

/-- once a call's future can complete, every batch not yet written has its confirmation queued -/
theorem Inv.resume (h : Inv F s) (latency : ℕ) : Inv F (s.step (.resume latency)) := by
  cases hp : s.phase with
  | idle => simpa [step, hp] using h
  | writing waitFor =>
    by_cases hw : waitFor ≤ s.writeBuffer.written
    · simp only [step, hp, if_pos hw]
      exact { writeBuffer := h.writeBuffer, file_eq := h.file_eq, coalesce := h.coalesce, fresh := h.fresh
              phase := Or.inl ((h.phase_eq hp).resume h.writeBuffer hw) }
    · simpa [step, hp, hw] using h
  | syncing waitFor =>
    by_cases hw : waitFor ≤ s.writeBuffer.written
    · simp only [step, hp, if_pos hw]
      exact { writeBuffer := h.writeBuffer, file_eq := h.file_eq, coalesce := h.coalesce
              fresh := ReadCache.clear_fresh _ _
              phase := Or.inl ((h.phase_eq hp).2.2.resume h.writeBuffer hw) }
    · simpa [step, hp, hw] using h
  | reading offset size continuousSize waitFor =>
    by_cases hw : waitFor ≤ s.writeBuffer.written
    · -- every batch is written: the cache reads the file as the client's writes left it
      obtain ⟨h1, h2, h3⟩ := h.phase_eq hp
      have hf := h3.resume h.writeBuffer hw
      rw [h2, List.length_nil, Nat.le_zero, List.length_eq_zero_iff] at hf
      obtain ⟨hclr, hfresh⟩ := ReadCache.read_fresh h.fresh s.now offset size continuousSize
      obtain ⟨rd, rest, hcache, hoff⟩ := ReadCache.read_front s.readCache s.now offset size continuousSize
      simp only [step, hp, if_pos hw]
      exact { writeBuffer := h.writeBuffer, file_eq := h.file_eq, coalesce := h.coalesce
              fresh := fun _ => hfresh
              phase := ⟨h1, hf, h2, hclr, rd, rest, hcache, hoff⟩ }
    · simpa [step, hp, hw] using h
  | serving offset size =>
    by_cases hs : s.served.isSome
    · obtain ⟨-, hf, -⟩ := h.phase_eq hp
      simp only [step, hp, if_pos hs]
      exact { writeBuffer := h.writeBuffer, file_eq := h.file_eq, coalesce := h.coalesce
              fresh := ReadCache.measureLatency_fresh h.fresh latency
              phase := Or.inl (by simp [hf]) }
    · simpa [step, hp, hs] using h

/-- every step keeps the invariant -/
theorem step_inv (h : Inv F s) (e : Event) : Inv F (s.step e) := by
  cases e with
  | write offset buf => exact h.write offset buf
  | read offset size continuousSize => exact h.read offset size continuousSize
  | fsync => exact h.sync (Or.inl rfl)
  | flush => exact h.sync (Or.inr rfl)
  | scheduledFlush => exact h.scheduledFlush
  | writeDone duration => exact h.writeDone duration
  | fetchDone i => exact h.fetchDone i
  | tick => exact h.tick
  | resume latency => exact h.resume latency

end Step

theorem run_inv {F : List UInt8} {s : BufferedFileHandle} (h : Inv F s) (evs : List Event) : Inv F (s.run evs) := by
  induction evs generalizing s with
  | nil => exact h
  | cons e evs ih => exact ih (step_inv h e)

/-! ## Equivalence with unbuffered writes -/

section Equiv

variable {F : List UInt8} {s : BufferedFileHandle}

/-- with no batch left to write and nothing buffered, the wrapped file is what the client's writes produce -/
theorem Inv.file_eq_issued (h : Inv F s) (hf : s.writeBuffer.writeFuture = []) (hb : s.writeBuffer.bufferedSize = 0) :
    s.file = applyPieces F s.issued := by
  have hpending : s.writeBuffer.pending = s.writeBuffer.buffers := by simp [WriteBuffer.pending, hf]
  have hempty : piecesSize s.writeBuffer.buffers = 0 := h.writeBuffer.bufferedSize_eq ▸ hb
  rw [applyPieces_of_coalesce h.coalesce, applyPieces_append, ← h.file_eq, hpending,
    applyPieces_of_piecesSize_eq_zero _ hempty]

/-- what a read returns, when it returns, is a prefix of the content the writes issued before it produce -/
theorem Inv.served_prefix (h : Inv F s) {offset size : ℕ} (hp : s.phase = .serving offset size)
    {bytes : List UInt8} (hs : s.served = some bytes) : bytes <+: slice (applyPieces F s.issued) offset size := by
  obtain ⟨hb, hf, -, hclr, rd, rest, hcache, hoff⟩ := h.phase_eq hp
  have hr : rd.ready = true ∧ readFromCache offset size rd = bytes := by
    simp only [served, hp, hcache] at hs
    split_ifs at hs with hr
    exact ⟨hr, Option.some.inj hs⟩
  rw [← h.file_eq_issued hf hb, ← hr.2]
  exact readFromCache_prefix (h.fresh hclr rd (by simp [hcache])) hr.1 hoff size

end Equiv

/-! ## Every call returns

A call's future waits for chained batches only (`WaitBounded`), so once the environment has run the batches still
chained, the future completes; a read then returns once the read of its front block completes. -/

/-- the future of the client's call waits only for batches already chained -/
def WaitBounded (s : BufferedFileHandle) : Prop := s.phase.waitFor ≤ s.writeBuffer.pushed

theorem waitBounded_init (bl : BufferLimits) (F : List UInt8) : (init bl F).WaitBounded := le_rfl

section Progress

variable {F : List UInt8} {s : BufferedFileHandle}

theorem WaitBounded.step (h : s.WaitBounded) (e : Event) : (s.step e).WaitBounded := by
  unfold WaitBounded at h ⊢
  cases e with
  | write offset buf =>
    cases hp : s.phase <;> simp only [BufferedFileHandle.step, hp, Phase.waitFor] at h ⊢
    case idle => exact WriteBuffer.write_wait_le _ _ _
    all_goals exact h
  | read offset size continuousSize =>
    cases hp : s.phase <;> simp only [BufferedFileHandle.step, hp, Phase.waitFor] at h ⊢
    case idle => exact WriteBuffer.fsync_wait_le _
    all_goals exact h
  | fsync | flush =>
    cases hp : s.phase <;> simp only [BufferedFileHandle.step, hp, Phase.waitFor] at h ⊢
    case idle => exact WriteBuffer.fsync_wait_le _
    all_goals exact h
  | scheduledFlush => exact h.trans (WriteBuffer.pushed_le_pushBuffer _)
  | writeDone duration =>
    cases hc : s.writeBuffer.completeWrite duration with
    | none => simpa [BufferedFileHandle.step, hc] using h
    | some r =>
      obtain ⟨buffers, wb⟩ := r
      simp only [BufferedFileHandle.step, hc]
      rw [WriteBuffer.completeWrite_pushed hc]
      exact h
  | fetchDone i => exact h
  | tick => exact h
  | resume latency =>
    -- a future that completes leaves a phase that waits for nothing
    cases hp : s.phase <;> simp only [BufferedFileHandle.step, hp] at h ⊢
    case idle => exact h
    all_goals
      split_ifs
      · exact Nat.zero_le _
      · rw [hp]
        exact h

theorem WaitBounded.run (h : s.WaitBounded) (evs : List Event) : (s.run evs).WaitBounded := by
  induction evs generalizing s with
  | nil => exact h
  | cons e evs ih => exact ih (h.step e)

theorem run_append (s : BufferedFileHandle) (evs evs' : List Event) : s.run (evs ++ evs') = (s.run evs).run evs' :=
  List.foldl_append

theorem run_singleton (s : BufferedFileHandle) (e : Event) : s.run [e] = s.step e := rfl

/-- one chained batch runs: the call in progress, the writes issued and the batches chained stay as they are -/
theorem step_writeDone_of_cons {b : List (ℕ × List UInt8) × ℕ} {rest : List (List (ℕ × List UInt8) × ℕ)}
    (hw : s.writeBuffer.writeFuture = b :: rest) (duration : ℕ) :
    (s.step (.writeDone duration)).writeBuffer.writeFuture = rest ∧ (s.step (.writeDone duration)).phase = s.phase ∧
      (s.step (.writeDone duration)).issued = s.issued ∧
      (s.step (.writeDone duration)).writeBuffer.pushed = s.writeBuffer.pushed := by
  obtain ⟨wb', hc, hf, hpushed⟩ := WriteBuffer.completeWrite_of_cons hw duration
  have hstep : s.step (.writeDone duration) =
      { s with file := (multiwrite s.file b.1).1, multiwrites := s.multiwrites ++ [b.1], writeBuffer := wb'
               readCache := s.readCache.clear } := by
    simp only [BufferedFileHandle.step, hc]
  rw [hstep]
  exact ⟨hf, rfl, rfl, hpushed⟩

/-- the chained batches run, one `writeDone` each: none is left, and the call in progress, the writes issued and the
batches chained stay as they are -/
theorem run_writeDones (duration : ℕ) :
    ∀ (n : ℕ) (s : BufferedFileHandle), s.writeBuffer.writeFuture.length = n →
      (s.run (List.replicate n (.writeDone duration))).writeBuffer.writeFuture = [] ∧
        (s.run (List.replicate n (.writeDone duration))).phase = s.phase ∧
        (s.run (List.replicate n (.writeDone duration))).issued = s.issued ∧
        (s.run (List.replicate n (.writeDone duration))).writeBuffer.pushed = s.writeBuffer.pushed
  | 0, s, hn => ⟨List.eq_nil_of_length_eq_zero hn, rfl, rfl, rfl⟩
  | n + 1, s, hn => by
    -- induction on the batches left, the first one run by `step_writeDone_of_cons`
    obtain ⟨b, rest, hw⟩ := List.exists_cons_of_length_eq_add_one hn
    obtain ⟨hf, hp, hi, hpushed⟩ := step_writeDone_of_cons hw duration
    have hlen : (s.step (.writeDone duration)).writeBuffer.writeFuture.length = n := by
      rw [hf, ← Nat.add_right_cancel_iff, ← List.length_cons, ← hw, hn]
    obtain ⟨hf', hp', hi', hpushed'⟩ := run_writeDones duration n _ hlen
    rw [List.replicate_succ]
    exact ⟨hf', hp'.trans hp, hi'.trans hi, hpushed'.trans hpushed⟩

/-- what the environment does for the future of the client's call to complete: run the batches still chained, then
complete the future -/
def drain (s : BufferedFileHandle) : List Event :=
  List.replicate s.writeBuffer.writeFuture.length (.writeDone 0) ++ [.resume 0]

/-- what the environment does for a read to return: the same, then complete the read of the front block -/
def completion (s : BufferedFileHandle) : List Event := s.drain ++ [.fetchDone 0]

/-- once the batches still chained have run, every batch the call waits for is written -/
theorem WaitBounded.wait_le_written (h : s.WaitBounded) :
    s.phase.waitFor ≤ (s.run (List.replicate s.writeBuffer.writeFuture.length (.writeDone 0))).writeBuffer.written := by
  obtain ⟨hf, -, -, hpushed⟩ := run_writeDones 0 _ s rfl
  rw [WriteBuffer.written_of_writeFuture hf, hpushed]
  exact h

/-- a write, an `fsync` or a `flush` returns once the batches still chained have run -/
theorem WaitBounded.sync_returns (h : s.WaitBounded) {waitFor : ℕ}
    (hp : s.phase = .writing waitFor ∨ s.phase = .syncing waitFor) : (s.run s.drain).phase = .idle := by
  obtain ⟨-, hp1, -, -⟩ := run_writeDones 0 _ s rfl
  have hw := h.wait_le_written
  rw [drain, run_append, run_singleton]
  rcases hp with hp | hp
  · rw [hp] at hw hp1
    simp only [Phase.waitFor] at hw
    simp only [BufferedFileHandle.step, hp1, if_pos hw]
  · rw [hp] at hw hp1
    simp only [Phase.waitFor] at hw
    simp only [BufferedFileHandle.step, hp1, if_pos hw]

/-- after its future completed, a read waits for the read of its front block -/
theorem WaitBounded.run_drain_reading (h : s.WaitBounded) {offset size continuousSize waitFor : ℕ}
    (hp : s.phase = .reading offset size continuousSize waitFor) :
    (s.run s.drain).phase = .serving offset size ∧ (s.run s.drain).issued = s.issued := by
  obtain ⟨-, hp1, hi1, -⟩ := run_writeDones 0 _ s rfl
  have hw := h.wait_le_written
  rw [hp] at hw hp1
  rw [drain, run_append, run_singleton]
  simp only [Phase.waitFor] at hw
  simp only [BufferedFileHandle.step, hp1, if_pos hw, true_and]
  exact hi1

/-- **Every read returns.** From a reachable state in which a read waits, the environment runs the batches still
chained, completes the read's future and the read of its front block: the read then returns a prefix of the content
in `[offset, offset + size)` that all writes issued before it produce, and its future completes, leaving the handle
idle for the next call. -/
theorem Inv.read_returns (h : Inv F s) (hb : s.WaitBounded) {offset size continuousSize waitFor : ℕ}
    (hp : s.phase = .reading offset size continuousSize waitFor) :
    ∃ bytes, (s.run s.completion).served = some bytes ∧ bytes <+: slice (applyPieces F s.issued) offset size ∧
      ((s.run s.completion).step (.resume 0)).phase = .idle := by
  obtain ⟨hp2, hi2⟩ := hb.run_drain_reading hp
  have h2 : Inv F (s.run s.drain) := run_inv h _
  obtain ⟨-, -, -, -, rd, rest, hcache, -⟩ := h2.phase_eq hp2
  -- the read of the front block completes
  obtain ⟨rd', hcache', hready⟩ := ReadCache.fetchDone_front_ready hcache (s.run s.drain).now (s.run s.drain).file
  have hrun : s.run s.completion = (s.run s.drain).step (.fetchDone 0) := by
    rw [completion, run_append, run_singleton]
  have hp3 : (s.run s.completion).phase = .serving offset size := by rw [hrun]; exact hp2
  have hserved : (s.run s.completion).served = some (readFromCache offset size rd') := by
    simp [served, hrun, BufferedFileHandle.step, hp2, hcache', hready]
  refine ⟨_, hserved, ?_, ?_⟩
  · have hi3 : (s.run s.completion).issued = s.issued := by rw [hrun, ← hi2]; rfl
    rw [← hi3]
    exact Inv.served_prefix (run_inv h _) hp3 hserved
  · simp [BufferedFileHandle.step, hp3, hserved]

end Progress

/-- **BufferedFileHandle is equivalent to unbuffered writes and reads back its own writes.** For any buffer limits,
any file the wrapped handle starts on, and any run of client calls, scheduled flushes, chained writes and completed
reads: the pieces handed to `multiwrite`, then those still pending, are the client's writes in issue order with
contiguous runs joined, so they write the same content; the wrapped file is what the pieces handed on wrote; a read
that returns returns a prefix of the content in `[offset, offset + size)` produced by every write issued before it;
and a read that waits returns once the environment runs the chained batches and completes the read of its front
block. -/
theorem bufferedFileHandle_equiv (bl : BufferLimits) (F : List UInt8) (evs : List Event) :
    let s := (init bl F).run evs
    Coalesce s.issued (s.multiwrites.flatten ++ s.writeBuffer.pending) ∧
      applyPieces F (s.multiwrites.flatten ++ s.writeBuffer.pending) = applyPieces F s.issued ∧
      s.file = applyPieces F s.multiwrites.flatten ∧
      (∀ offset size bytes, s.phase = .serving offset size → s.served = some bytes →
        bytes <+: slice (applyPieces F s.issued) offset size) ∧
      ∀ offset size continuousSize waitFor, s.phase = .reading offset size continuousSize waitFor →
        ∃ bytes, (s.run s.completion).served = some bytes ∧ bytes <+: slice (applyPieces F s.issued) offset size ∧
          ((s.run s.completion).step (.resume 0)).phase = .idle := by
  intro s
  have h : Inv F s := run_inv (inv_init bl F) evs
  have hb : s.WaitBounded := (waitBounded_init bl F).run evs
  exact ⟨h.coalesce, (applyPieces_of_coalesce h.coalesce F).symm, h.file_eq,
    fun _ _ _ hp hs => Inv.served_prefix h hp hs, fun _ _ _ _ hp => h.read_returns hb hp⟩

/-- a write still buffered is read back: the read pushes it, waits for it, then fetches from the file -/
example : ((init ⟨8, 16, 1, 10, 20, 13 / 10, 1000⟩ [0, 0, 0, 0]).run
    [.write 1 [7, 8], .resume 0, .read 0 4 4, .writeDone 5, .resume 0, .fetchDone 0]).served = some [0, 7, 8, 0] := by
  decide

end BufferedFileHandle

end OneHelpers.Buffering
