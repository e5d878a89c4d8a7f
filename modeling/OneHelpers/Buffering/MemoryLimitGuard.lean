/-
Model of `BufferAgentsMemoryLimitGuard` (`src/buffering/bufferAgent.h`) and of the calls that `BufferAgent::open` and
`~BufferedFileHandle` make on it.

The guard keeps the bytes reserved for read buffers and for write buffers in two `size_t` counters, to be held
within the totals of `BufferLimits` (0 for no limit). `reserveBuffers(r, w)` compares `reserved + r` with the total
in `size_t`, so the sum wraps; `releaseBuffers(r, w)` tests `reserved - r >= 0`, which an unsigned difference always
passes, and subtracts. `size_t` is `UInt64` here. `BufferAgent::open` reserves the agent's `readBufferMaxSize` and
`writeBufferMaxSize` and wraps the handle only when that succeeds; the destructor of the wrapped handle releases the
same sizes. The mutex makes each call atomic, and the model runs them one at a time.

Results:
- `reserveBuffers_spec`, `releaseBuffers_spec`: what each call does, in numbers;
- `Accounted.step` and `run_accounted`: with both limits set and every request at least its limit below `2^64`,
  over every run of opens and closes the counters are the sums of the open handles' reservations and stay within
  the limits;
- `memoryLimitGuard_wraps`: a request whose sum wraps is granted past the limit, a release of more than is reserved
  is granted and wraps the counter, and two opens of `2^63` bytes leave the counter at 0 with `2^64` bytes reserved.
-/
import Mathlib

namespace OneHelpers.Buffering

/-- the two totals of `BufferLimits` that the guard reads (the buffer sizes are in `BufferLimits` of
`BufferedFileHandle`); 0 is no limit -/
structure BufferTotals where
  readBuffersTotalSize : UInt64
  writeBuffersTotalSize : UInt64
  deriving DecidableEq, Repr

/-- `BufferAgentsMemoryLimitGuard` -/
structure BufferAgentsMemoryLimitGuard where
  bufferLimits : BufferTotals
  readBuffersReservedSize : UInt64
  writeBuffersReservedSize : UInt64
  deriving DecidableEq, Repr

namespace BufferAgentsMemoryLimitGuard

/-- the constructor: nothing reserved -/
def init (bufferLimits : BufferTotals) : BufferAgentsMemoryLimitGuard := ⟨bufferLimits, 0, 0⟩

/-- `reserveBuffers`: whether it succeeded, and the guard after it -/
def reserveBuffers (g : BufferAgentsMemoryLimitGuard) (readSize writeSize : UInt64) :
    Bool × BufferAgentsMemoryLimitGuard :=
  if (g.bufferLimits.readBuffersTotalSize = 0 ∨
        g.readBuffersReservedSize + readSize ≤ g.bufferLimits.readBuffersTotalSize) ∧
      (g.bufferLimits.writeBuffersTotalSize = 0 ∨
        g.writeBuffersReservedSize + writeSize ≤ g.bufferLimits.writeBuffersTotalSize) then
    (true, { g with
      readBuffersReservedSize := g.readBuffersReservedSize + readSize
      writeBuffersReservedSize := g.writeBuffersReservedSize + writeSize })
  else (false, g)

/-- `releaseBuffers`: whether it succeeded, and the guard after it -/
def releaseBuffers (g : BufferAgentsMemoryLimitGuard) (readSize writeSize : UInt64) :
    Bool × BufferAgentsMemoryLimitGuard :=
  if 0 ≤ g.readBuffersReservedSize - readSize ∧ 0 ≤ g.writeBuffersReservedSize - writeSize then
    (true, { g with
      readBuffersReservedSize := g.readBuffersReservedSize - readSize
      writeBuffersReservedSize := g.writeBuffersReservedSize - writeSize })
  else (false, g)

/-! ## Each call in numbers -/

/-- `a + b ≤ c` on `size_t`, with the sum taken modulo `2^64` -/
theorem add_le_iff (a b c : UInt64) : a + b ≤ c ↔ (a.toNat + b.toNat) % 2 ^ 64 ≤ c.toNat := by
  rw [UInt64.le_iff_toNat_le, UInt64.toNat_add]

/-- **`reserveBuffers` in numbers**: each side passes when it has no limit or its sum, modulo `2^64`, is within it;
on success both counters move by the request, modulo `2^64`, and on failure nothing changes -/
theorem reserveBuffers_spec (g : BufferAgentsMemoryLimitGuard) (readSize writeSize : UInt64) :
    ((g.reserveBuffers readSize writeSize).1 = true ↔
      (g.bufferLimits.readBuffersTotalSize = 0 ∨
          (g.readBuffersReservedSize.toNat + readSize.toNat) % 2 ^ 64 ≤ g.bufferLimits.readBuffersTotalSize.toNat) ∧
        (g.bufferLimits.writeBuffersTotalSize = 0 ∨
          (g.writeBuffersReservedSize.toNat + writeSize.toNat) % 2 ^ 64 ≤
            g.bufferLimits.writeBuffersTotalSize.toNat)) ∧
      (g.reserveBuffers readSize writeSize).2.bufferLimits = g.bufferLimits ∧
      ((g.reserveBuffers readSize writeSize).1 = true →
        (g.reserveBuffers readSize writeSize).2.readBuffersReservedSize.toNat =
            (g.readBuffersReservedSize.toNat + readSize.toNat) % 2 ^ 64 ∧
          (g.reserveBuffers readSize writeSize).2.writeBuffersReservedSize.toNat =
            (g.writeBuffersReservedSize.toNat + writeSize.toNat) % 2 ^ 64) ∧
      ((g.reserveBuffers readSize writeSize).1 = false → (g.reserveBuffers readSize writeSize).2 = g) := by
  unfold reserveBuffers
  simp only [add_le_iff]
  split_ifs with hpass
  · exact ⟨by simpa using hpass, rfl, fun _ => ⟨UInt64.toNat_add _ _, UInt64.toNat_add _ _⟩, fun h => by simp at h⟩
  · exact ⟨by simpa using hpass, rfl, fun h => by simp at h, fun _ => rfl⟩

/-- **`releaseBuffers` in numbers**: it always succeeds, and each counter loses the request modulo `2^64` -/
theorem releaseBuffers_spec (g : BufferAgentsMemoryLimitGuard) (readSize writeSize : UInt64) :
    (g.releaseBuffers readSize writeSize).1 = true ∧
      (g.releaseBuffers readSize writeSize).2.bufferLimits = g.bufferLimits ∧
      (g.releaseBuffers readSize writeSize).2.readBuffersReservedSize.toNat =
        (2 ^ 64 - readSize.toNat + g.readBuffersReservedSize.toNat) % 2 ^ 64 ∧
      (g.releaseBuffers readSize writeSize).2.writeBuffersReservedSize.toNat =
        (2 ^ 64 - writeSize.toNat + g.writeBuffersReservedSize.toNat) % 2 ^ 64 := by
  -- an unsigned difference is never below 0
  have hpass : 0 ≤ g.readBuffersReservedSize - readSize ∧ 0 ≤ g.writeBuffersReservedSize - writeSize :=
    ⟨UInt64.zero_le, UInt64.zero_le⟩
  unfold releaseBuffers
  rw [if_pos hpass]
  exact ⟨rfl, rfl, UInt64.toNat_sub _ _, UInt64.toNat_sub _ _⟩

end BufferAgentsMemoryLimitGuard

/-! ## The agents that share a guard -/

/-- a guard, and the reservations of the buffered handles open on it -/
structure Agents where
  guard : BufferAgentsMemoryLimitGuard
  handles : List (UInt64 × UInt64)

namespace Agents

open BufferAgentsMemoryLimitGuard

def init (bufferLimits : BufferTotals) : Agents := ⟨.init bufferLimits, []⟩

/-- `BufferAgent::open` of an agent with these buffer sizes: the handle is wrapped when the reservation succeeds -/
def «open» (s : Agents) (readBufferMaxSize writeBufferMaxSize : UInt64) : Agents :=
  if (s.guard.reserveBuffers readBufferMaxSize writeBufferMaxSize).1 then
    ⟨(s.guard.reserveBuffers readBufferMaxSize writeBufferMaxSize).2, s.handles ++ [(readBufferMaxSize, writeBufferMaxSize)]⟩
  else ⟨(s.guard.reserveBuffers readBufferMaxSize writeBufferMaxSize).2, s.handles⟩

/-- `~BufferedFileHandle` of the `i`-th open buffered handle: it releases what its open reserved -/
def close (s : Agents) (i : ℕ) : Agents :=
  match s.handles[i]? with
  | some (readBufferMaxSize, writeBufferMaxSize) =>
    ⟨(s.guard.releaseBuffers readBufferMaxSize writeBufferMaxSize).2, s.handles.eraseIdx i⟩
  | none => s

inductive Event where
  | «open» (readBufferMaxSize writeBufferMaxSize : UInt64)
  | close (i : ℕ)
  deriving DecidableEq, Repr

def step (s : Agents) : Event → Agents
  | .open r w => s.open r w
  | .close i => s.close i

def run (s : Agents) (evs : List Event) : Agents := evs.foldl step s

/-- the bytes the open handles hold, for read buffers and for write buffers -/
def readReserved (s : Agents) : ℕ := (s.handles.map fun h => h.1.toNat).sum

def writeReserved (s : Agents) : ℕ := (s.handles.map fun h => h.2.toNat).sum

/-- an open whose sizes are each at least their limit below `2^64` -/
def Event.Fits (bufferLimits : BufferTotals) : Event → Prop
  | .open r w => r.toNat + bufferLimits.readBuffersTotalSize.toNat < 2 ^ 64 ∧
      w.toNat + bufferLimits.writeBuffersTotalSize.toNat < 2 ^ 64
  | .close _ => True

/-- a granted open wraps the handle: its sizes join the sums -/
theorem open_of_granted {s : Agents} {r w : UInt64} (hres : (s.guard.reserveBuffers r w).1 = true) :
    (s.open r w).guard = (s.guard.reserveBuffers r w).2 ∧ (s.open r w).readReserved = s.readReserved + r.toNat ∧
      (s.open r w).writeReserved = s.writeReserved + w.toNat := by
  simp [Agents.open, hres, readReserved, writeReserved]

theorem open_of_denied {s : Agents} {r w : UInt64} (hres : (s.guard.reserveBuffers r w).1 = false) :
    s.open r w = ⟨(s.guard.reserveBuffers r w).2, s.handles⟩ := by
  simp [Agents.open, hres]

/-- the counters are the open handles' reservations, within the limits -/
structure Accounted (s : Agents) : Prop where
  read_eq : s.guard.readBuffersReservedSize.toNat = s.readReserved
  write_eq : s.guard.writeBuffersReservedSize.toNat = s.writeReserved
  read_le : s.readReserved ≤ s.guard.bufferLimits.readBuffersTotalSize.toNat
  write_le : s.writeReserved ≤ s.guard.bufferLimits.writeBuffersTotalSize.toNat

theorem step_bufferLimits (s : Agents) (e : Event) : (s.step e).guard.bufferLimits = s.guard.bufferLimits := by
  cases e with
  | «open» r w =>
    simp only [step, Agents.open]
    split_ifs <;> exact (reserveBuffers_spec _ _ _).2.1
  | close i =>
    simp only [step, Agents.close]
    split
    · exact (releaseBuffers_spec _ _ _).2.1
    · rfl

@[simp] theorem readReserved_mk (g : BufferAgentsMemoryLimitGuard) (handles : List (UInt64 × UInt64)) :
    readReserved ⟨g, handles⟩ = (handles.map fun h => h.1.toNat).sum := rfl

@[simp] theorem writeReserved_mk (g : BufferAgentsMemoryLimitGuard) (handles : List (UInt64 × UInt64)) :
    writeReserved ⟨g, handles⟩ = (handles.map fun h => h.2.toNat).sum := rfl

theorem sum_eraseIdx (l : List ℕ) {i : ℕ} (hi : i < l.length) : (l.eraseIdx i).sum + l[i] = l.sum := by
  rw [List.eraseIdx_eq_take_drop_succ, List.sum_append]
  conv_rhs => rw [← List.take_append_drop i l, List.drop_eq_getElem_cons hi]
  rw [List.sum_append, List.sum_cons]
  omega

/-- a close of an open handle takes its sizes off the sums -/
theorem close_of_get {s : Agents} {i : ℕ} {r w : UInt64} (hi : s.handles[i]? = some (r, w)) :
    (s.close i).guard = (s.guard.releaseBuffers r w).2 ∧ (s.close i).readReserved + r.toNat = s.readReserved ∧
      (s.close i).writeReserved + w.toNat = s.writeReserved := by
  have hlt : i < s.handles.length := (List.getElem?_eq_some_iff.mp hi).1
  have hget : s.handles[i] = (r, w) := (List.getElem?_eq_some_iff.mp hi).2
  have hsumr := sum_eraseIdx (s.handles.map fun h => h.1.toNat) (i := i) (by simpa using hlt)
  have hsumw := sum_eraseIdx (s.handles.map fun h => h.2.toNat) (i := i) (by simpa using hlt)
  simp only [List.getElem_map, hget] at hsumr hsumw
  rw [List.eraseIdx_map] at hsumr hsumw
  simp only [Agents.close, hi]
  exact ⟨trivial, hsumr, hsumw⟩

/-- closing a handle takes its reservation off the sums, and the counters with them -/
theorem Accounted.close {s : Agents} (h : s.Accounted) (i : ℕ) : (s.close i).Accounted := by
  cases hi : s.handles[i]? with
  | none =>
    simp only [Agents.close, hi]
    exact h
  | some p =>
    obtain ⟨r, w⟩ := p
    obtain ⟨hg, hrr, hwr⟩ := close_of_get hi
    obtain ⟨-, hlim, hread, hwrite⟩ := releaseBuffers_spec s.guard r w
    have hr0 := h.read_eq
    have hw0 := h.write_eq
    have hrle := h.read_le
    have hwle := h.write_le
    -- the handle's sizes are parts of the sums, so the subtractions do not wrap
    have hrlt := UInt64.toNat_lt s.guard.readBuffersReservedSize
    have hwlt := UInt64.toNat_lt s.guard.writeBuffersReservedSize
    refine ⟨?_, ?_, ?_, ?_⟩
    · rw [hg, hread]
      omega
    · rw [hg, hwrite]
      omega
    · rw [hg, hlim]
      omega
    · rw [hg, hlim]
      omega

section Limits

variable {bufferLimits : BufferTotals}

/-- an open that fits is granted exactly when the sums are within the limits, and then adds its sizes to both the
counters and the sums -/
theorem Accounted.open (hread : bufferLimits.readBuffersTotalSize ≠ 0) (hwrite : bufferLimits.writeBuffersTotalSize ≠ 0)
    {s : Agents} (h : s.Accounted) (hlim : s.guard.bufferLimits = bufferLimits)
    {r w : UInt64} (hfits : (Event.open r w).Fits bufferLimits) : (s.open r w).Accounted := by
  obtain ⟨hpass, -, hgrant, hdeny⟩ := reserveBuffers_spec s.guard r w
  obtain ⟨hr, hw⟩ := hfits
  obtain ⟨hr0, hw0, hrle, hwle⟩ := h
  rw [hlim] at hpass hrle hwle
  -- the counters are within the limits, so neither sum wraps
  have hrlt : s.guard.readBuffersReservedSize.toNat + r.toNat < 2 ^ 64 := by omega
  have hwlt : s.guard.writeBuffersReservedSize.toNat + w.toNat < 2 ^ 64 := by omega
  rw [Nat.mod_eq_of_lt hrlt, Nat.mod_eq_of_lt hwlt] at hpass hgrant
  cases hres : (s.guard.reserveBuffers r w).1 with
  | true =>
    obtain ⟨hgr, hgw⟩ := hgrant hres
    obtain ⟨hpr, hpw⟩ := hpass.mp hres
    obtain ⟨hg, hrr, hwr⟩ := open_of_granted hres
    have hlim' : (s.open r w).guard.bufferLimits = bufferLimits := by
      rw [hg, (reserveBuffers_spec s.guard r w).2.1, hlim]
    refine ⟨?_, ?_, ?_, ?_⟩
    · rw [hg, hgr, hrr, hr0]
    · rw [hg, hgw, hwr, hw0]
    · -- a side with a limit passes only within it
      rw [hrr, hlim', ← hr0]
      exact hpr.resolve_left hread
    · rw [hwr, hlim', ← hw0]
      exact hpw.resolve_left hwrite
  | false =>
    rw [open_of_denied hres, hdeny hres]
    exact ⟨hr0, hw0, hlim ▸ hrle, hlim ▸ hwle⟩

theorem Accounted.step (hread : bufferLimits.readBuffersTotalSize ≠ 0) (hwrite : bufferLimits.writeBuffersTotalSize ≠ 0)
    {s : Agents} (h : s.Accounted) (hlim : s.guard.bufferLimits = bufferLimits) {e : Event}
    (hfits : e.Fits bufferLimits) : (s.step e).Accounted := by
  cases e with
  | «open» r w => exact h.open hread hwrite hlim hfits
  | close i => exact h.close i

/-- **The counters account for the open handles.** With both limits set, over every run of opens whose sizes are
each at least their limit below `2^64`, and of closes, each counter is the sum of what the open handles reserved,
within its limit. -/
theorem run_accounted (hread : bufferLimits.readBuffersTotalSize ≠ 0) (hwrite : bufferLimits.writeBuffersTotalSize ≠ 0)
    (evs : List Event) (hfits : ∀ e ∈ evs, e.Fits bufferLimits) :
    ((init bufferLimits).run evs).Accounted ∧ ((init bufferLimits).run evs).guard.bufferLimits = bufferLimits := by
  suffices hgen : ∀ s : Agents, s.Accounted → s.guard.bufferLimits = bufferLimits →
      (s.run evs).Accounted ∧ (s.run evs).guard.bufferLimits = bufferLimits from
    hgen _ ⟨rfl, rfl, Nat.zero_le _, Nat.zero_le _⟩ rfl
  induction evs with
  | nil => exact fun s h hlim => ⟨h, hlim⟩
  | cons e evs ih =>
    intro s h hlim
    have he := hfits e List.mem_cons_self
    exact ih (fun e' he' => hfits e' (List.mem_cons_of_mem e he')) (s.step e) (h.step hread hwrite hlim he)
      ((step_bufferLimits s e).trans hlim)

theorem run_accounted_two_opens :
    ((⟨100, 100⟩ : BufferTotals).readBuffersTotalSize ≠ 0 ∧ (⟨100, 100⟩ : BufferTotals).writeBuffersTotalSize ≠ 0 ∧
      ∀ e ∈ [Event.open 10 20, .open 50 50, .close 0], e.Fits ⟨100, 100⟩) ∧
    ((init ⟨100, 100⟩).run [.open 10 20, .open 50 50, .close 0]).Accounted ∧
      ((init ⟨100, 100⟩).run [.open 10 20, .open 50 50, .close 0]).guard.bufferLimits = ⟨100, 100⟩ := by
  have hfits : ∀ e ∈ [Event.open 10 20, .open 50 50, .close 0], e.Fits ⟨100, 100⟩ := by
    intro e he
    simp only [List.mem_cons, List.not_mem_nil, or_false] at he
    rcases he with rfl | rfl | rfl
    · exact ⟨by decide, by decide⟩
    · exact ⟨by decide, by decide⟩
    · trivial
  exact ⟨⟨by decide, by decide, hfits⟩, run_accounted (by decide) (by decide) _ hfits⟩

end Limits

end Agents

open BufferAgentsMemoryLimitGuard in
/-- **The counters wrap.** A reservation whose sum passes `2^64` is granted when the wrapped sum is within the
limit, though the sum itself is past it, and leaves the counter at the wrapped sum; a release of more than is
reserved is granted and wraps the counter to near `2^64`; and two opens of `2^63` read bytes under a read limit of
`2^64 - 1` are both granted, leaving `2^64` bytes reserved by open handles and the counter at 0. -/
theorem memoryLimitGuard_wraps :
    (∀ (g : BufferAgentsMemoryLimitGuard) (readSize writeSize : UInt64),
      g.bufferLimits.readBuffersTotalSize ≠ 0 →
      2 ^ 64 ≤ g.readBuffersReservedSize.toNat + readSize.toNat →
      g.readBuffersReservedSize.toNat + readSize.toNat - 2 ^ 64 ≤ g.bufferLimits.readBuffersTotalSize.toNat →
      (g.bufferLimits.writeBuffersTotalSize = 0 ∨
        g.writeBuffersReservedSize.toNat + writeSize.toNat ≤ g.bufferLimits.writeBuffersTotalSize.toNat) →
        (g.reserveBuffers readSize writeSize).1 = true ∧
          g.bufferLimits.readBuffersTotalSize.toNat < g.readBuffersReservedSize.toNat + readSize.toNat ∧
          (g.reserveBuffers readSize writeSize).2.readBuffersReservedSize.toNat =
            g.readBuffersReservedSize.toNat + readSize.toNat - 2 ^ 64) ∧
    (∀ (g : BufferAgentsMemoryLimitGuard) (readSize writeSize : UInt64),
      g.readBuffersReservedSize.toNat < readSize.toNat →
        (g.releaseBuffers readSize writeSize).1 = true ∧
          (g.releaseBuffers readSize writeSize).2.readBuffersReservedSize.toNat =
            2 ^ 64 - readSize.toNat + g.readBuffersReservedSize.toNat) ∧
    ((Agents.init ⟨2 ^ 64 - 1, 0⟩).run [.open (2 ^ 63) 0, .open (2 ^ 63) 0]).handles.length = 2 ∧
    ((Agents.init ⟨2 ^ 64 - 1, 0⟩).run [.open (2 ^ 63) 0, .open (2 ^ 63) 0]).readReserved = 2 ^ 64 ∧
    ((Agents.init ⟨2 ^ 64 - 1, 0⟩).run [.open (2 ^ 63) 0, .open (2 ^ 63) 0]).guard.readBuffersReservedSize = 0 := by
  refine ⟨fun g r w hlimit hwrap hwithin hwrite => ?_, fun g r w hmore => ?_, by decide +kernel, by decide +kernel,
    by decide +kernel⟩
  · obtain ⟨hpass, -, hgrant, -⟩ := reserveBuffers_spec g r w
    have hrlt := UInt64.toNat_lt g.readBuffersReservedSize
    have hrlt' := UInt64.toNat_lt r
    have hllt := UInt64.toNat_lt g.bufferLimits.readBuffersTotalSize
    -- the sum is below `2^65`, so it wraps once
    have hmod : (g.readBuffersReservedSize.toNat + r.toNat) % 2 ^ 64 =
        g.readBuffersReservedSize.toNat + r.toNat - 2 ^ 64 := by omega
    have hgranted : (g.reserveBuffers r w).1 = true := by
      refine hpass.mpr ⟨.inr (hmod ▸ hwithin), hwrite.imp_right fun hle => ?_⟩
      exact (Nat.mod_le _ _).trans hle
    exact ⟨hgranted, by omega, (hgrant hgranted).1.trans hmod⟩
  · obtain ⟨hreleased, -, hread, -⟩ := releaseBuffers_spec g r w
    have hrlt := UInt64.toNat_lt r
    exact ⟨hreleased, hread.trans (Nat.mod_eq_of_lt (by omega))⟩

open BufferAgentsMemoryLimitGuard in
/-- a read limit of 10 with 1 byte reserved grants `2^64 - 1` more; a release of 1 byte from nothing is granted -/
theorem memoryLimitGuard_wraps_ten :
    ((⟨⟨10, 0⟩, 1, 0⟩ : BufferAgentsMemoryLimitGuard).reserveBuffers 18446744073709551615 0).1 = true ∧
      ((BufferAgentsMemoryLimitGuard.init ⟨10, 0⟩).releaseBuffers 1 0).1 = true ∧
      ((BufferAgentsMemoryLimitGuard.init ⟨10, 0⟩).releaseBuffers 1 0).2.readBuffersReservedSize.toNat =
        2 ^ 64 - 1 := by
  obtain ⟨hres, -, -⟩ := memoryLimitGuard_wraps.1 ⟨⟨10, 0⟩, 1, 0⟩ 18446744073709551615 0 (by decide) (by decide)
    (by decide) (by decide)
  obtain ⟨hrel, hcount⟩ := memoryLimitGuard_wraps.2.1 (.init ⟨10, 0⟩) 1 0 (by decide)
  exact ⟨hres, hrel, hcount.trans (by decide)⟩


end OneHelpers.Buffering
