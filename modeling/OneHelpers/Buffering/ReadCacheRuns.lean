/-
Runs of `ReadCache` (`src/buffering/readCache.h`): every sequence of `read`, `wouldPrefetch` and `clear` calls, with the
reads that `fetch` issued completing in any order, each with any bytes, and the latency measurements of
`readFromCache`'s continuations in between.

A completion names the block of the deque it completes by its index; the continuation of a block already popped from
the deque writes to a `ReadData` that nothing reads, so it is not an event. `wouldPrefetch` only computes a size.

Results: `Window.step` and `readCache_bounded_window`: over every run the deque holds at most two blocks and the
block size stays within `readBufferMaxSize`, and the block every `read` serves starts at or before the requested
offset, so the bytes served are the block's own, from the requested offset on.
-/
import Mathlib.Tactic
import OneHelpers.Buffering.ReadCache

namespace OneHelpers.Buffering.ReadCache

/-- `wouldPrefetch(offset, size)`: the size of a prefetch at `offset` if there were a miss there -/
def wouldPrefetch (rc : ReadCache) (offset : ℕ) : ℕ :=
  if !rc.isCurrentRead offset && decide (rc.cache.length < 2) then
    (if rc.isSequential offset then rc.increaseBlockSize else resetBlockSize).1
  else 0

/-- the read that `fetch` issued for block `i` completes at `now` with `buf` -/
def completeRead (rc : ReadCache) (now i : ℕ) (buf : List UInt8) : ReadCache :=
  match rc.cache[i]? with
  | some rd => if rd.ready then rc else { rc with cache := rc.cache.set i (rd.complete buf now) }
  | none => rc

inductive Event where
  | read (now offset size continuousSize : ℕ)
  | wouldPrefetch (offset size : ℕ)
  | clear
  | complete (now i : ℕ) (buf : List UInt8)
  | measureLatency (latency : ℕ)

def step (rc : ReadCache) : Event → ReadCache
  | .read now offset size continuousSize => rc.read now offset size continuousSize
  | .wouldPrefetch _ _ => rc
  | .clear => rc.clear
  | .complete now i buf => rc.completeRead now i buf
  | .measureLatency latency => rc.measureLatency latency

def run (rc : ReadCache) (evs : List Event) : ReadCache := evs.foldl step rc

/-! ## What each operation does to the deque and the block size -/

@[simp] theorem fetch_length (rc : ReadCache) (offset size : ℕ) (isPrefetch : Bool) :
    (rc.fetch offset size isPrefetch).cache.length = rc.cache.length + 1 := by
  simp [fetch]

@[simp] theorem fetch_blockSize (rc : ReadCache) (offset size : ℕ) (isPrefetch : Bool) :
    (rc.fetch offset size isPrefetch).blockSize = rc.blockSize := rfl

@[simp] theorem fetch_readBufferMaxSize (rc : ReadCache) (offset size : ℕ) (isPrefetch : Bool) :
    (rc.fetch offset size isPrefetch).readBufferMaxSize = rc.readBufferMaxSize := rfl

/-- a prefetch is issued only while fewer than two blocks are cached -/
theorem prefetchIfNeeded_length_le {rc : ReadCache} (h : rc.cache.length ≤ 2) (offset continuousSize : ℕ) :
    (rc.prefetchIfNeeded offset continuousSize).cache.length ≤ 2 := by
  unfold prefetchIfNeeded
  split
  · exact h
  · dsimp only
    split_ifs with hfew
    · rw [fetch_length]
      omega
    · exact h

theorem prefetchIfNeeded_sizes (rc : ReadCache) (offset continuousSize : ℕ) :
    (rc.prefetchIfNeeded offset continuousSize).blockSize = rc.blockSize ∧
      (rc.prefetchIfNeeded offset continuousSize).readBufferMaxSize = rc.readBufferMaxSize := by
  unfold prefetchIfNeeded
  split
  · exact ⟨rfl, rfl⟩
  · dsimp only
    split_ifs <;> exact ⟨rfl, rfl⟩

/-- the block size `increaseBlockSize` picks is within the maximum when the current one is -/
theorem increaseBlockSize_le {rc : ReadCache} (h : rc.blockSize ≤ rc.readBufferMaxSize) :
    rc.increaseBlockSize.1 ≤ rc.readBufferMaxSize := by
  unfold increaseBlockSize
  split_ifs
  · exact Nat.min_le_left _ _
  · exact h

/-- the miss path keeps at most two blocks and a block size within the maximum -/
theorem readMiss_window {rc : ReadCache} (hlen : rc.cache.length ≤ 2) (hbs : rc.blockSize ≤ rc.readBufferMaxSize)
    (offset size continuousSize : ℕ) :
    (rc.readMiss offset size continuousSize).cache.length ≤ 2 ∧
      (rc.readMiss offset size continuousSize).blockSize ≤ (rc.readMiss offset size continuousSize).readBufferMaxSize ∧
      (rc.readMiss offset size continuousSize).readBufferMaxSize = rc.readBufferMaxSize := by
  dsimp only [readMiss]
  have hnew : (if rc.isSequential offset then rc.increaseBlockSize else resetBlockSize).1 ≤ rc.readBufferMaxSize := by
    split_ifs
    · exact increaseBlockSize_le hbs
    · exact Nat.zero_le _
  generalize (if rc.isSequential offset then rc.increaseBlockSize else resetBlockSize) = bs at hnew
  -- dropping blocks from the front keeps at most two; a fetch into an empty deque leaves one
  have hdrop : (rc.cache.dropWhile fun rd => !rd.covers offset).length ≤ 2 :=
    (List.dropWhile_sublist _).length_le.trans hlen
  refine ⟨prefetchIfNeeded_length_le ?_ _ _, ?_, ?_⟩
  · split_ifs with hempty
    · simp [hempty]
    · exact hdrop
  · rw [(prefetchIfNeeded_sizes _ _ _).1, (prefetchIfNeeded_sizes _ _ _).2]
    split_ifs <;> exact hnew
  · rw [(prefetchIfNeeded_sizes _ _ _).2]
    split_ifs <;> rfl

theorem refresh_window (rc : ReadCache) (now : ℕ) :
    (rc.refresh now).cache.length ≤ rc.cache.length ∧ (rc.refresh now).blockSize = rc.blockSize ∧
      (rc.refresh now).readBufferMaxSize = rc.readBufferMaxSize := by
  unfold refresh clearStaleEntries
  split_ifs
  · simp
  · exact ⟨(List.dropWhile_sublist _).length_le, rfl, rfl⟩

theorem completeRead_window (rc : ReadCache) (now i : ℕ) (buf : List UInt8) :
    (rc.completeRead now i buf).cache.length = rc.cache.length ∧ (rc.completeRead now i buf).blockSize = rc.blockSize ∧
      (rc.completeRead now i buf).readBufferMaxSize = rc.readBufferMaxSize := by
  unfold completeRead
  split
  · split_ifs
    · exact ⟨rfl, rfl, rfl⟩
    · exact ⟨List.length_set .., rfl, rfl⟩
  · exact ⟨rfl, rfl, rfl⟩

theorem measureLatency_window (rc : ReadCache) (latency : ℕ) :
    (rc.measureLatency latency).cache.length = rc.cache.length ∧ (rc.measureLatency latency).blockSize = rc.blockSize ∧
      (rc.measureLatency latency).readBufferMaxSize = rc.readBufferMaxSize := by
  unfold measureLatency
  split
  · exact ⟨rfl, rfl, rfl⟩
  · rename_i rd rest hc
    split_ifs
    · exact ⟨rfl, rfl, rfl⟩
    · exact ⟨by simp [hc], rfl, rfl⟩

/-! ## The invariant -/

/-- at most two blocks are cached, and the block size is within the maximum -/
structure Window (rc : ReadCache) : Prop where
  length_le : rc.cache.length ≤ 2
  blockSize_le : rc.blockSize ≤ rc.readBufferMaxSize

theorem window_init (readBufferMinSize readBufferMaxSize readBufferPrefetchDuration : ℕ) (prefetchPowerBase : ℚ)
    (targetLatency : ℕ) :
    (init readBufferMinSize readBufferMaxSize readBufferPrefetchDuration prefetchPowerBase targetLatency).Window :=
  ⟨Nat.zero_le _, Nat.zero_le _⟩

theorem Window.read {rc : ReadCache} (h : rc.Window) (now offset size continuousSize : ℕ) :
    (rc.read now offset size continuousSize).Window ∧
      (rc.read now offset size continuousSize).readBufferMaxSize = rc.readBufferMaxSize := by
  obtain ⟨hlen, hbs, hmax⟩ := refresh_window rc now
  dsimp only [ReadCache.read]
  split_ifs
  · exact ⟨⟨hlen.trans h.length_le, by rw [hbs, hmax]; exact h.blockSize_le⟩, hmax⟩
  · obtain ⟨hlen', hbs', hmax'⟩ := readMiss_window (hlen.trans h.length_le) (by rw [hbs, hmax]; exact h.blockSize_le)
      offset size continuousSize
    exact ⟨⟨hlen', hbs'⟩, hmax'.trans hmax⟩

/-- every event keeps the window, and none changes the maximum block size -/
theorem Window.step {rc : ReadCache} (h : rc.Window) (e : Event) :
    (rc.step e).Window ∧ (rc.step e).readBufferMaxSize = rc.readBufferMaxSize := by
  cases e with
  | read now offset size continuousSize => exact h.read now offset size continuousSize
  | wouldPrefetch _ _ => exact ⟨h, rfl⟩
  | clear => exact ⟨⟨h.length_le, h.blockSize_le⟩, rfl⟩
  | complete now i buf =>
    obtain ⟨hlen, hbs, hmax⟩ := completeRead_window rc now i buf
    exact ⟨⟨hlen ▸ h.length_le, by rw [ReadCache.step, hbs, hmax]; exact h.blockSize_le⟩, hmax⟩
  | measureLatency latency =>
    obtain ⟨hlen, hbs, hmax⟩ := measureLatency_window rc latency
    exact ⟨⟨hlen ▸ h.length_le, by rw [ReadCache.step, hbs, hmax]; exact h.blockSize_le⟩, hmax⟩

theorem Window.run {rc : ReadCache} (h : rc.Window) (evs : List Event) :
    (rc.run evs).Window ∧ (rc.run evs).readBufferMaxSize = rc.readBufferMaxSize := by
  induction evs generalizing rc with
  | nil => exact ⟨h, rfl⟩
  | cons e evs ih =>
    obtain ⟨hstep, hmax⟩ := h.step e
    obtain ⟨hrun, hmax'⟩ := ih hstep
    exact ⟨hrun, hmax'.trans hmax⟩

/-! ## The block a read serves -/

/-- the bytes `readFromCache` serves are the block's, from the requested offset on -/
theorem readFromCache_prefix_drop (offset size : ℕ) (rd : ReadData) :
    readFromCache offset size rd <+: rd.buf.drop (offset - rd.offset) := by
  unfold readFromCache
  split_ifs
  · exact List.nil_prefix
  · exact List.take_prefix _ _

/-- **The read cache keeps a bounded, well-formed window.** Over every run of reads, `wouldPrefetch` calls, clears,
completions of the fetched reads in any order with any bytes, and latency measurements, the deque holds at most two
blocks and the block size never exceeds `readBufferMaxSize`; and the block each next `read` serves starts at or
before the requested offset, so the bytes it serves are the block's own from that offset on. -/
theorem readCache_bounded_window (readBufferMinSize readBufferMaxSize readBufferPrefetchDuration : ℕ)
    (prefetchPowerBase : ℚ) (targetLatency : ℕ) (evs : List Event) :
    ((init readBufferMinSize readBufferMaxSize readBufferPrefetchDuration prefetchPowerBase targetLatency).run
        evs).cache.length ≤ 2 ∧
      ((init readBufferMinSize readBufferMaxSize readBufferPrefetchDuration prefetchPowerBase targetLatency).run
        evs).blockSize ≤ readBufferMaxSize ∧
      ∀ now offset size continuousSize, ∃ front rest,
        (((init readBufferMinSize readBufferMaxSize readBufferPrefetchDuration prefetchPowerBase targetLatency).run
          evs).read now offset size continuousSize).cache = front :: rest ∧
        front.offset ≤ offset ∧ readFromCache offset size front <+: front.buf.drop (offset - front.offset) := by
  obtain ⟨hwindow, hmax⟩ := (window_init readBufferMinSize readBufferMaxSize readBufferPrefetchDuration
    prefetchPowerBase targetLatency).run evs
  refine ⟨hwindow.length_le, hwindow.blockSize_le.trans_eq hmax, fun now offset size continuousSize => ?_⟩
  obtain ⟨front, rest, hcache, hoff⟩ := read_front _ now offset size continuousSize
  exact ⟨front, rest, hcache, hoff, readFromCache_prefix_drop offset size front⟩

end OneHelpers.Buffering.ReadCache
