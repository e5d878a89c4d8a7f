/-
Model of `ReadCache` (`src/buffering/readCache.h`).

The cache is a deque of `ReadData` blocks, each the result of one read of the wrapped handle issued by `fetch`: its
offset, its size (the size requested until the read completes, then the size read), the time the read completed and
the bytes. `read` serves a request from the front block: a pending `clear` empties the deque, stale blocks leave the
front, and on a miss the blocks in front of the requested offset are dropped and a block is fetched at the offset;
`prefetchIfNeeded` may then fetch the block behind the last one. `readFromCache` cuts the front block's bytes to the
request once its read has completed. The prefetch size grows by `prefetchPowerBase` while the measured latency is over
the target (`increaseBlockSize`); the `double`s of that heuristic are rationals here. A wrapped read is taken to return
one buffer, so `buf.front()` is the whole of `buf`.

Results:
- `read_front`: after `read` the front block starts at or before the requested offset;
- `read_fresh`, `fetchDone_fresh`: while no clear is pending, every completed block holds a slice of the wrapped
  file's current content (`Fresh`), and `read` leaves no clear pending;
- `readFromCache_prefix`: a fresh completed block that starts at or before the offset serves a prefix of the content
  at `[offset, offset + size)`, cut at the end of the file.
-/
import Mathlib.Tactic
import OneHelpers.Core.SparseArray

namespace OneHelpers.Buffering

open SparseArray

/-! ## Blocks -/

/-- a block of the cache; `t = none` is `duration::max()`: its read has not completed and `buf` is still empty -/
structure ReadData where
  offset : ℕ
  size : ℕ
  t : Option ℕ
  /-- `measureLatencyFlag` is used up -/
  measured : Bool
  buf : List UInt8

namespace ReadData

/-- the constructor: a block that is not a prefetch uses up its latency flag at once -/
def create (offset size : ℕ) (isPrefetch : Bool) : ReadData := ⟨offset, size, none, !isPrefetch, []⟩

/-- the promise is set: the read completed -/
def ready (rd : ReadData) : Bool := rd.t.isSome

/-- the continuation of the read `fetch` issued, with the bytes read at time `now` -/
def complete (buf : List UInt8) (now : ℕ) (rd : ReadData) : ReadData :=
  { rd with size := buf.length, buf := buf, t := some now }

/-- `offset` lies in `[rd.offset, rd.offset + rd.size)` -/
def covers (offset : ℕ) (rd : ReadData) : Bool := decide (rd.offset ≤ offset ∧ offset < rd.offset + rd.size)

/-- a completed block holds the content of `F` from its offset on, cut somewhere -/
def Fresh (F : List UInt8) (rd : ReadData) : Prop := rd.ready = true → ∃ n, rd.buf = slice F rd.offset n

@[simp] theorem create_ready (offset size : ℕ) (isPrefetch : Bool) : (create offset size isPrefetch).ready = false :=
  rfl

theorem fresh_of_ready {rd : ReadData} (h : rd.ready = false) (F : List UInt8) : rd.Fresh F := by
  intro h'
  rw [h] at h'
  cases h'

end ReadData

/-- the bytes `readFromCache` serves from the block `rd` once its read completed -/
def readFromCache (offset size : ℕ) (rd : ReadData) : List UInt8 :=
  if rd.buf = [] ∨ rd.offset + rd.buf.length < offset then []
  else (rd.buf.drop (offset - rd.offset)).take size

/-- a fresh block that starts at or before `offset` serves a prefix of the content at `[offset, offset + size)` -/
theorem readFromCache_prefix {F : List UInt8} {rd : ReadData} (hf : rd.Fresh F) (hr : rd.ready = true)
    {offset : ℕ} (ho : rd.offset ≤ offset) (size : ℕ) : readFromCache offset size rd <+: slice F offset size := by
  obtain ⟨n, hn⟩ := hf hr
  unfold readFromCache
  split_ifs
  · exact List.nil_prefix
  · have hoff : rd.offset + (offset - rd.offset) = offset := by omega
    rw [hn, slice, slice, List.drop_take, List.drop_drop, hoff, List.take_take]
    exact List.take_prefix_take_left (Nat.min_le_left _ _)

/-! ## The cache -/

/-- a `ReadCache`; `clearRequested` is `m_clear` -/
structure ReadCache where
  readBufferMinSize : ℕ
  readBufferMaxSize : ℕ
  cacheDuration : ℕ
  prefetchPowerBase : ℚ
  targetLatency : ℕ
  prefetchCoeff : ℚ
  blockSize : ℕ
  latency : ℕ
  cache : List ReadData
  clearRequested : Bool

namespace ReadCache

/-- the cache as the constructor leaves it -/
def init (readBufferMinSize readBufferMaxSize readBufferPrefetchDuration : ℕ) (prefetchPowerBase : ℚ)
    (targetLatency : ℕ) : ReadCache :=
  ⟨readBufferMinSize, readBufferMaxSize, readBufferPrefetchDuration * 2, prefetchPowerBase, targetLatency, 1, 0,
    targetLatency * 2, [], false⟩

def clear (rc : ReadCache) : ReadCache := { rc with clearRequested := true }

/-- `front->t() < now - m_cacheDuration`; a block whose read has not completed is never stale -/
def isStale (rc : ReadCache) (now : ℕ) (rd : ReadData) : Bool :=
  match rd.t with
  | some t => decide (t + rc.cacheDuration < now)
  | none => false

def clearStaleEntries (rc : ReadCache) (now : ℕ) : ReadCache :=
  { rc with cache := rc.cache.dropWhile (rc.isStale now) }

def isCurrentRead (rc : ReadCache) (offset : ℕ) : Bool :=
  match rc.cache with
  | [] => false
  | front :: _ => front.covers offset

def isSequential (rc : ReadCache) (offset : ℕ) : Bool :=
  match rc.cache with
  | [] => false
  | [front] => decide (offset = front.offset + front.size)
  | front :: back :: rest => ((front :: back :: rest).getLast (List.cons_ne_nil _ _)).covers offset

def resetBlockSize : ℕ × ℚ := (0, 1)

def increaseBlockSize (rc : ReadCache) : ℕ × ℚ :=
  if rc.blockSize < rc.readBufferMaxSize ∧ rc.targetLatency < rc.latency then
    (min rc.readBufferMaxSize (rc.readBufferMinSize * ⌊rc.prefetchCoeff⌋₊),
      rc.prefetchCoeff * rc.prefetchPowerBase)
  else (rc.blockSize, rc.prefetchCoeff)

/-- a block is appended and its read issued -/
def fetch (rc : ReadCache) (offset size : ℕ) (isPrefetch : Bool) : ReadCache :=
  { rc with cache := rc.cache ++ [ReadData.create offset size isPrefetch] }

/-- prefetches `[next, next + blockSize) ∩ [offset, offset + continuousSize)` from the end of the last block, where
`next` is that end, when fewer than two blocks are cached -/
def prefetchIfNeeded (rc : ReadCache) (offset continuousSize : ℕ) : ReadCache :=
  match rc.cache.getLast? with
  | none => rc
  | some back =>
    let nextOffset := back.offset + back.size
    let prefetchSize := min (nextOffset + rc.blockSize) (offset + continuousSize) - max nextOffset offset
    if rc.cache.length < 2 ∧ 0 < prefetchSize then rc.fetch nextOffset prefetchSize true else rc

/-- the miss path of `read`: new block size, blocks in front of `offset` dropped, a fetch if none is left, and the
prefetch -/
def readMiss (rc : ReadCache) (offset size continuousSize : ℕ) : ReadCache :=
  let bs := if rc.isSequential offset then rc.increaseBlockSize else resetBlockSize
  let rc := { rc with
    blockSize := bs.1
    prefetchCoeff := bs.2
    cache := rc.cache.dropWhile fun rd => !rd.covers offset }
  let rc := if rc.cache = [] then rc.fetch offset size false else rc
  rc.prefetchIfNeeded offset continuousSize

/-- the start of `read`: a pending clear empties the deque, then stale blocks leave its front -/
def refresh (rc : ReadCache) (now : ℕ) : ReadCache :=
  (if rc.clearRequested then { rc with cache := [], clearRequested := false } else rc).clearStaleEntries now

/-- the synchronous part of `read`: the cache it leaves, whose front block `readFromCache` then serves -/
def read (rc : ReadCache) (now offset size continuousSize : ℕ) : ReadCache :=
  let rc := rc.refresh now
  if rc.isCurrentRead offset then rc else rc.readMiss offset size continuousSize

/-- the read of block `i` completes at `now` with what `F` holds at its place -/
def fetchDone (rc : ReadCache) (now : ℕ) (F : List UInt8) (i : ℕ) : ReadCache :=
  match rc.cache[i]? with
  | some rd =>
    if rd.ready then rc else { rc with cache := rc.cache.set i (rd.complete (slice F rd.offset rd.size) now) }
  | none => rc

/-- the `call_once` in `readFromCache`'s continuation: the first use of a prefetched block folds the measured latency
into `m_latency` -/
def measureLatency (rc : ReadCache) (latency : ℕ) : ReadCache :=
  match rc.cache with
  | [] => rc
  | rd :: rest =>
    if rd.measured then rc
    else { rc with latency := (rc.latency + 2 * latency) / 3, cache := { rd with measured := true } :: rest }

/-! ## The front block -/

@[simp] theorem fetch_clearRequested (rc : ReadCache) (offset size : ℕ) (isPrefetch : Bool) :
    (rc.fetch offset size isPrefetch).clearRequested = rc.clearRequested := rfl

@[simp] theorem prefetchIfNeeded_clearRequested (rc : ReadCache) (offset continuousSize : ℕ) :
    (rc.prefetchIfNeeded offset continuousSize).clearRequested = rc.clearRequested := by
  unfold prefetchIfNeeded
  split
  · rfl
  · dsimp only
    split_ifs <;> rfl

@[simp] theorem readMiss_clearRequested (rc : ReadCache) (offset size continuousSize : ℕ) :
    (rc.readMiss offset size continuousSize).clearRequested = rc.clearRequested := by
  dsimp only [readMiss]
  rw [prefetchIfNeeded_clearRequested]
  split_ifs <;> rfl

theorem covers_offset_le {offset : ℕ} {rd : ReadData} (h : rd.covers offset = true) : rd.offset ≤ offset := by
  simp only [ReadData.covers, decide_eq_true_eq] at h
  exact h.1

theorem isCurrentRead_front {rc : ReadCache} {offset : ℕ} (h : rc.isCurrentRead offset = true) :
    ∃ front rest, rc.cache = front :: rest ∧ front.offset ≤ offset := by
  unfold isCurrentRead at h
  split at h
  · cases h
  · exact ⟨_, _, ‹_›, covers_offset_le h⟩

/-- the blocks left after dropping those that do not cover `offset`: none, or a front block that covers it -/
theorem dropWhile_covers (l : List ReadData) (offset : ℕ) :
    l.dropWhile (fun rd => !rd.covers offset) = [] ∨
      ∃ front rest, l.dropWhile (fun rd => !rd.covers offset) = front :: rest ∧ front.covers offset = true := by
  cases h : l.dropWhile (fun rd => !rd.covers offset) with
  | nil => exact Or.inl rfl
  | cons front rest =>
    have := @List.head_dropWhile_not ReadData (fun rd => !rd.covers offset) l (by simp [h])
    simp only [h, List.head_cons, Bool.not_eq_false'] at this
    exact Or.inr ⟨front, rest, rfl, this⟩

/-- `cache` is `l` followed by blocks whose reads have not completed -/
def Extends (l cache : List ReadData) : Prop := ∃ ext, cache = l ++ ext ∧ ∀ rd ∈ ext, rd.ready = false

theorem Extends.refl (l : List ReadData) : Extends l l := ⟨[], by simp, by simp⟩

theorem Extends.trans {l m n : List ReadData} (h1 : Extends l m) (h2 : Extends m n) : Extends l n := by
  obtain ⟨e1, rfl, h1⟩ := h1
  obtain ⟨e2, rfl, h2⟩ := h2
  refine ⟨e1 ++ e2, by simp, fun rd hrd => ?_⟩
  rcases List.mem_append.1 hrd with hrd | hrd
  · exact h1 rd hrd
  · exact h2 rd hrd

theorem extends_fetch (rc : ReadCache) (offset size : ℕ) (isPrefetch : Bool) :
    Extends rc.cache (rc.fetch offset size isPrefetch).cache := ⟨_, rfl, by simp⟩

/-- a prefetch only appends blocks whose reads have not completed -/
theorem prefetchIfNeeded_cache (rc : ReadCache) (offset continuousSize : ℕ) :
    Extends rc.cache (rc.prefetchIfNeeded offset continuousSize).cache := by
  unfold prefetchIfNeeded
  split
  · exact Extends.refl _
  · dsimp only
    split_ifs
    · exact extends_fetch _ _ _ _
    · exact Extends.refl _

theorem prefetchIfNeeded_front {rc : ReadCache} {offset continuousSize : ℕ}
    (h : ∃ front rest, rc.cache = front :: rest ∧ front.offset ≤ offset) :
    ∃ front rest, (rc.prefetchIfNeeded offset continuousSize).cache = front :: rest ∧ front.offset ≤ offset := by
  obtain ⟨front, rest, hc, ho⟩ := h
  obtain ⟨ext, hext, -⟩ := rc.prefetchIfNeeded_cache offset continuousSize
  exact ⟨front, rest ++ ext, by rw [hext, hc, List.cons_append], ho⟩

theorem readMiss_front (rc : ReadCache) (offset size continuousSize : ℕ) :
    ∃ front rest, (rc.readMiss offset size continuousSize).cache = front :: rest ∧ front.offset ≤ offset := by
  dsimp only [readMiss]
  generalize (if rc.isSequential offset then rc.increaseBlockSize else resetBlockSize) = bs
  apply prefetchIfNeeded_front
  split_ifs with h0
  · -- nothing cached covers the offset: the block fetched at it is the front
    exact ⟨ReadData.create offset size false, [], by simp [fetch, h0], le_refl _⟩
  · rcases dropWhile_covers rc.cache offset with hd | ⟨front, rest, hd, hcov⟩
    · exact absurd hd h0
    · exact ⟨front, rest, hd, covers_offset_le hcov⟩

/-- after `read`, the front block starts at or before the requested offset -/
theorem read_front (rc : ReadCache) (now offset size continuousSize : ℕ) :
    ∃ front rest, (rc.read now offset size continuousSize).cache = front :: rest ∧ front.offset ≤ offset := by
  dsimp only [read]
  split_ifs with hcur
  · exact isCurrentRead_front hcur
  · exact readMiss_front _ offset size continuousSize

/-! ## Freshness -/

/-- while no clear is pending, every completed block holds a slice of `F` -/
def Fresh (F : List UInt8) (rc : ReadCache) : Prop := rc.clearRequested = false → ∀ rd ∈ rc.cache, rd.Fresh F

/-- the miss path keeps the blocks from the first that covers the offset, and only adds blocks still being read -/
theorem readMiss_cache (rc : ReadCache) (offset size continuousSize : ℕ) :
    Extends (rc.cache.dropWhile fun rd => !rd.covers offset) (rc.readMiss offset size continuousSize).cache := by
  dsimp only [readMiss]
  generalize (if rc.isSequential offset then rc.increaseBlockSize else resetBlockSize) = bs
  refine Extends.trans ?_ (prefetchIfNeeded_cache _ _ _)
  split_ifs
  · exact extends_fetch _ _ _ _
  · exact Extends.refl _

theorem Extends.fresh {F : List UInt8} {l cache : List ReadData} (h : Extends l cache) (hl : ∀ rd ∈ l, rd.Fresh F) :
    ∀ rd ∈ cache, rd.Fresh F := by
  obtain ⟨ext, rfl, hext⟩ := h
  intro rd hrd
  rcases List.mem_append.1 hrd with hrd | hrd
  · exact hl rd hrd
  · exact ReadData.fresh_of_ready (hext rd hrd) F

theorem refresh_fresh {F : List UInt8} {rc : ReadCache} (h : rc.Fresh F) (now : ℕ) :
    (rc.refresh now).clearRequested = false ∧ ∀ rd ∈ (rc.refresh now).cache, rd.Fresh F := by
  unfold refresh clearStaleEntries
  split_ifs with hc
  · simp
  · refine ⟨Bool.of_not_eq_true hc, fun rd hrd => ?_⟩
    exact h (Bool.of_not_eq_true hc) rd ((List.dropWhile_sublist _).subset hrd)

/-- `read` leaves no clear pending, and every completed block it keeps holds a slice of the current content -/
theorem read_fresh {F : List UInt8} {rc : ReadCache} (h : rc.Fresh F) (now offset size continuousSize : ℕ) :
    (rc.read now offset size continuousSize).clearRequested = false ∧
      ∀ rd ∈ (rc.read now offset size continuousSize).cache, rd.Fresh F := by
  obtain ⟨hc, hf⟩ := refresh_fresh h now
  dsimp only [read]
  split_ifs
  · exact ⟨hc, hf⟩
  · refine ⟨by rw [readMiss_clearRequested, hc], (readMiss_cache _ offset size continuousSize).fresh ?_⟩
    exact fun rd hrd => hf rd ((List.dropWhile_sublist _).subset hrd)

/-- a read that completes holds what the content is when it completes -/
theorem fetchDone_fresh {F : List UInt8} {rc : ReadCache} (h : rc.Fresh F) (now i : ℕ) :
    (rc.fetchDone now F i).Fresh F := by
  unfold fetchDone
  split
  · split_ifs
    · exact h
    · intro hc rd hrd
      rcases List.mem_or_eq_of_mem_set hrd with hrd | rfl
      · exact h hc rd hrd
      · exact fun _ => ⟨_, rfl⟩
  · exact h

/-- completing a read moves no block -/
theorem fetchDone_offsets (rc : ReadCache) (now : ℕ) (F : List UInt8) (i : ℕ) :
    (rc.fetchDone now F i).cache.map ReadData.offset = rc.cache.map ReadData.offset := by
  unfold fetchDone
  split
  · rename_i rd hrd
    split_ifs
    · rfl
    · obtain ⟨hi, hget⟩ := List.getElem?_eq_some_iff.1 hrd
      apply List.ext_getElem?
      intro j
      rw [List.getElem?_map, List.getElem?_map, List.getElem?_set]
      by_cases hj : i = j
      · subst hj
        simp [hi, hget, ReadData.complete]
      · rw [if_neg hj]
  · rfl

@[simp] theorem fetchDone_clearRequested (rc : ReadCache) (now : ℕ) (F : List UInt8) (i : ℕ) :
    (rc.fetchDone now F i).clearRequested = rc.clearRequested := by
  unfold fetchDone
  split
  · split_ifs <;> rfl
  · rfl

/-- once the read of the front block completes, the front block is ready -/
theorem fetchDone_front_ready {rc : ReadCache} {rd : ReadData} {rest : List ReadData} (h : rc.cache = rd :: rest)
    (now : ℕ) (F : List UInt8) : ∃ rd', (rc.fetchDone now F 0).cache = rd' :: rest ∧ rd'.ready = true := by
  unfold fetchDone
  rw [h, List.getElem?_cons_zero]
  dsimp only
  split_ifs with hr
  · exact ⟨rd, h, hr⟩
  · exact ⟨rd.complete (slice F rd.offset rd.size) now, by simp, rfl⟩

theorem clear_fresh (rc : ReadCache) (F : List UInt8) : rc.clear.Fresh F := by
  intro h
  cases h

theorem measureLatency_fresh {F : List UInt8} {rc : ReadCache} (h : rc.Fresh F) (latency : ℕ) :
    (rc.measureLatency latency).Fresh F := by
  unfold measureLatency
  split
  · exact h
  · rename_i rd rest hc
    split_ifs
    · exact h
    · intro hcl rd' hrd'
      have hf : ∀ r ∈ rc.cache, r.Fresh F := h hcl
      rw [hc] at hf
      rcases List.mem_cons.1 hrd' with rfl | hrd'
      · exact hf rd List.mem_cons_self
      · exact hf rd' (List.mem_cons_of_mem rd hrd')

end ReadCache

end OneHelpers.Buffering
