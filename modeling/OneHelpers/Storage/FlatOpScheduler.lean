/-
Model of `FlatOpScheduler` (`src/flatOpScheduler.h`), the queue through which `PosixFileHandle` and
`NullDeviceFileHandle` run their operations one at a time on the helper's executor.

The steps are the atomic pieces of the code, in any interleaving: the locked block of a `schedule` call (the operation
joins `m_filledQueue`, and the call that finds no drain in progress sets the flag and takes on adding one), the
`m_executor->add` of such a call, the executor starting a `drainQueue` it holds, the locked check and swap at the top
of a drain's loop, and one turn of the drain's `for` loop over `m_usedQueue` (a visitor call, or the `clear` after the
last one). A drain added but not started, or one whose schedule call has not yet added it, is pending; a started one
is active until its check finds the queue empty. `scheduled` records the operations in the order their schedule calls
entered the locked block, and `visited` those handed to the visitor, in order.

Results:
- `Inv` holds initially and after every step (`Inv.step`), so after every run (`run_inv`): at most one drain is
  pending or active, the flag is set exactly when one is, no queued operation is left without one, and the operations
  visited, then those still to visit, are the operations scheduled.
- `Inv.finishes`: from every reachable state the executor and the drain can finish the work, and then every operation
  scheduled has been visited.
- `run_scheduled`, `visited_unvisited_run`: `scheduled` is the operations of the run's schedule calls, so those
  visited, then those still to visit, are the operations the calls were given.
- `flatOpScheduler_runs_each_once`: the two together over every run from the start.
-/
import Mathlib.Tactic

namespace OneHelpers

/-- where a started `drainQueue` is in its loop: at the locked check, or visiting `m_usedQueue` from index `k` -/
inductive Drain where
  | check
  | visit (k : ℕ)
  deriving DecidableEq, Repr

/-- a `FlatOpScheduler`: its fields, the drains pending (to be added by a schedule call, or added and not started) and
active, and the operations scheduled and visited so far -/
structure FlatOpScheduler (α : Type*) where
  filledQueue : List α
  usedQueue : List α
  drainInProgress : Bool
  adding : ℕ
  queued : ℕ
  drains : List Drain
  scheduled : List α
  visited : List α
  deriving DecidableEq, Repr

namespace FlatOpScheduler

variable {α : Type*}

/-- a scheduler that has been given nothing -/
def init : FlatOpScheduler α := ⟨[], [], false, 0, 0, [], [], []⟩

/-- the locked block of `schedule` -/
def schedule (s : FlatOpScheduler α) (op : α) : FlatOpScheduler α :=
  { s with
    filledQueue := s.filledQueue ++ [op]
    drainInProgress := true
    adding := if s.drainInProgress then s.adding else s.adding + 1
    scheduled := s.scheduled ++ [op] }

/-- a schedule call that found no drain in progress adds `drainQueue` to the executor -/
def add (s : FlatOpScheduler α) : FlatOpScheduler α :=
  if 0 < s.adding then { s with adding := s.adding - 1, queued := s.queued + 1 } else s

/-- the executor starts a `drainQueue` it was given -/
def start (s : FlatOpScheduler α) : FlatOpScheduler α :=
  if 0 < s.queued then { s with queued := s.queued - 1, drains := s.drains ++ [.check] } else s

/-- the locked block at the top of drain `i`'s loop: it returns, clearing the flag, on an empty `m_filledQueue`, and
otherwise swaps the two queues -/
def check (s : FlatOpScheduler α) (i : ℕ) : FlatOpScheduler α :=
  match s.drains[i]? with
  | some .check =>
    if s.filledQueue = [] then { s with drainInProgress := false, drains := s.drains.eraseIdx i }
    else { s with usedQueue := s.filledQueue, filledQueue := s.usedQueue, drains := s.drains.set i (.visit 0) }
  | _ => s

/-- one turn of drain `i`'s `for` loop: the visitor call on the next operation, or `m_usedQueue.clear()` after the
last one -/
def visit (s : FlatOpScheduler α) (i : ℕ) : FlatOpScheduler α :=
  match s.drains[i]? with
  | some (.visit k) =>
    match s.usedQueue[k]? with
    | some op => { s with visited := s.visited ++ [op], drains := s.drains.set i (.visit (k + 1)) }
    | none => { s with usedQueue := [], drains := s.drains.set i .check }
  | _ => s

/-- what happens next, in any interleaving -/
inductive Event (α : Type*) where
  | schedule (op : α)
  | add
  | start
  | check (i : ℕ)
  | visit (i : ℕ)
  deriving DecidableEq, Repr

/-- the steps the scheduler's own threads take, with no new operation -/
def Event.Internal : Event α → Prop
  | .schedule _ => False
  | _ => True

/-- the operations of the schedule calls among the events, in order -/
def scheduledOps (evs : List (Event α)) : List α :=
  evs.filterMap fun | .schedule op => some op | _ => none

def step (s : FlatOpScheduler α) : Event α → FlatOpScheduler α
  | .schedule op => s.schedule op
  | .add => s.add
  | .start => s.start
  | .check i => s.check i
  | .visit i => s.visit i

def run (s : FlatOpScheduler α) (evs : List (Event α)) : FlatOpScheduler α := evs.foldl step s

/-- the drains pending or active -/
def busy (s : FlatOpScheduler α) : ℕ := s.adding + s.queued + s.drains.length

/-- how far the visiting drain has gone through `m_usedQueue`; all of it when no drain is visiting -/
def position (s : FlatOpScheduler α) : ℕ :=
  match s.drains with
  | [.visit k] => k
  | _ => s.usedQueue.length

/-- the operations scheduled and not yet visited, in the order they will be -/
def unvisited (s : FlatOpScheduler α) : List α := s.usedQueue.drop s.position ++ s.filledQueue

/-! ## The invariant -/

/-- what every reachable state satisfies -/
structure Inv (s : FlatOpScheduler α) : Prop where
  busy_le : s.busy ≤ 1
  flag : s.drainInProgress = true ↔ s.busy = 1
  covered : s.filledQueue ≠ [] → s.drainInProgress = true
  used_nil : (∀ k, s.drains ≠ [.visit k]) → s.usedQueue = []
  position_le : ∀ k, s.drains = [.visit k] → k ≤ s.usedQueue.length
  order : s.visited ++ s.unvisited = s.scheduled

theorem inv_init : (init : FlatOpScheduler α).Inv where
  busy_le := Nat.zero_le _
  flag := by simp [init, busy]
  covered h := absurd rfl h
  used_nil _ := rfl
  position_le _ h := nomatch h
  order := rfl

/-- a drain found at index `i` is the only one, and nothing is pending -/
theorem Inv.drains_eq {s : FlatOpScheduler α} (h : s.Inv) {i : ℕ} {d : Drain} (hd : s.drains[i]? = some d) :
    s.drains = [d] ∧ i = 0 ∧ s.adding = 0 ∧ s.queued = 0 := by
  have hi : i < s.drains.length := (List.getElem?_eq_some_iff.mp hd).1
  have hle := h.busy_le
  unfold busy at hle
  match hds : s.drains, i with
  | [d'], 0 =>
    rw [hds] at hd
    simp only [List.getElem?_cons_zero, Option.some.injEq] at hd
    subst hd
    rw [hds, List.length_singleton] at hle
    exact ⟨rfl, rfl, by omega, by omega⟩
  | [], _ => simp [hds] at hi
  | [_], _ + 1 => simp [hds] at hi
  | _ :: _ :: _, _ => rw [hds] at hle; simp at hle; omega

theorem unvisited_of_not_visiting {s : FlatOpScheduler α} (h : s.Inv) (hv : ∀ k, s.drains ≠ [.visit k]) :
    s.unvisited = s.filledQueue := by
  simp [unvisited, h.used_nil hv]

/-! ## One step -/

theorem Inv.schedule {s : FlatOpScheduler α} (h : s.Inv) (op : α) : (s.schedule op).Inv := by
  -- the call that finds no drain in progress is the one that takes on adding one
  have hbusy : (s.schedule op).busy = 1 := by
    cases hd : s.drainInProgress with
    | true =>
      have h1 := h.flag.mp hd
      simp only [busy, FlatOpScheduler.schedule, hd, if_true] at h1 ⊢
      exact h1
    | false =>
      have h0 : s.busy = 0 := by
        have hne : s.busy ≠ 1 := fun h1 => by simp [h.flag.mpr h1] at hd
        have := h.busy_le
        omega
      simp only [busy, FlatOpScheduler.schedule, hd, Bool.false_eq_true, if_false] at h0 ⊢
      omega
  refine ⟨hbusy.le, ⟨fun _ => hbusy, fun _ => rfl⟩, fun _ => rfl, h.used_nil, h.position_le, ?_⟩
  have hpos : (s.schedule op).position = s.position := rfl
  show s.visited ++ (s.usedQueue.drop (s.schedule op).position ++ (s.filledQueue ++ [op])) = s.scheduled ++ [op]
  rw [hpos, ← h.order]
  simp [unvisited]

theorem Inv.add {s : FlatOpScheduler α} (h : s.Inv) : s.add.Inv := by
  unfold FlatOpScheduler.add
  split
  · have hpos : 0 < s.adding := ‹_›
    have hbusy : ({ s with adding := s.adding - 1, queued := s.queued + 1 } : FlatOpScheduler α).busy = s.busy := by
      unfold busy; simp only; omega
    exact ⟨hbusy ▸ h.busy_le, hbusy ▸ h.flag, h.covered, h.used_nil, h.position_le, h.order⟩
  · exact h

theorem Inv.start {s : FlatOpScheduler α} (h : s.Inv) : s.start.Inv := by
  unfold FlatOpScheduler.start
  split
  · rename_i hq
    -- a queued drain is the only one, so it starts with no other running
    have hnil : s.drains = [] := by
      have hle := h.busy_le
      unfold busy at hle
      exact List.eq_nil_of_length_eq_zero (by omega)
    have hused := h.used_nil (by simp [hnil])
    have hbusy : ({ s with queued := s.queued - 1, drains := s.drains ++ [.check] } : FlatOpScheduler α).busy =
        s.busy := by
      unfold busy; simp only [List.length_append, List.length_singleton]; omega
    refine ⟨hbusy ▸ h.busy_le, hbusy ▸ h.flag, h.covered, fun _ => hused, fun k hk => by simp [hnil] at hk, ?_⟩
    rw [← h.order]
    simp [unvisited, position, hnil, hused]
  · exact h

theorem Inv.check {s : FlatOpScheduler α} (h : s.Inv) (i : ℕ) : (s.check i).Inv := by
  unfold FlatOpScheduler.check
  split
  · rename_i hd
    obtain ⟨hds, rfl, hadd, hq⟩ := h.drains_eq hd
    have hused := h.used_nil (by simp [hds])
    have hbusy : s.busy = 1 := by simp [busy, hds, hadd, hq]
    split
    · -- the queue is empty: the drain clears the flag and returns
      rename_i hfilled
      refine ⟨by simp [busy, hds, hadd, hq], by simp [busy, hds, hadd, hq], fun hne => absurd hfilled hne,
        fun _ => hused, fun k hk => by simp [hds] at hk, ?_⟩
      rw [← h.order]
      simp [unvisited, position, hds, hused, hfilled]
    · -- the operations queued so far move to `m_usedQueue`, to be visited from the first
      refine ⟨by simp [busy, hds, hadd, hq], by simp [busy, hds, hadd, hq, h.flag.mpr hbusy],
        fun hne => by simp [hused] at hne, fun hv => by simp [hds] at hv, fun k hk => ?_, ?_⟩
      · simp only [hds, List.set_cons_zero, List.cons.injEq, Drain.visit.injEq, and_true] at hk
        omega
      · rw [← h.order]
        simp [unvisited, position, hds, hused]
  · exact h

theorem Inv.visit {s : FlatOpScheduler α} (h : s.Inv) (i : ℕ) : (s.visit i).Inv := by
  unfold FlatOpScheduler.visit
  split
  · rename_i k hd
    obtain ⟨hds, rfl, hadd, hq⟩ := h.drains_eq hd
    have hk := h.position_le k hds
    split
    · -- the visitor call on operation `k`
      rename_i op hop
      obtain ⟨hlt, rfl⟩ := List.getElem?_eq_some_iff.mp hop
      refine ⟨by simpa [busy, hds] using h.busy_le, by simpa [busy, hds] using h.flag, h.covered,
        fun hv => by simp [hds] at hv, fun k' hk' => ?_, ?_⟩
      · simp only [hds, List.set_cons_zero, List.cons.injEq, Drain.visit.injEq, and_true] at hk'
        simp only
        omega
      · rw [← h.order]
        simp only [unvisited, position, hds, List.set_cons_zero, List.append_assoc, List.cons_append,
          List.nil_append]
        rw [List.drop_eq_getElem_cons hlt, List.cons_append]
    · -- past the last operation: `m_usedQueue.clear()`, and back to the check
      rename_i hnone
      have hend : k = s.usedQueue.length := le_antisymm hk (by simpa using hnone)
      refine ⟨by simpa [busy, hds] using h.busy_le, by simpa [busy, hds] using h.flag, h.covered,
        fun _ => rfl, fun k' hk' => by simp [hds] at hk', ?_⟩
      rw [← h.order]
      simp [unvisited, position, hds, hend]
  · exact h

/-- **Step lemma.** -/
theorem Inv.step {s : FlatOpScheduler α} (h : s.Inv) : ∀ e, (s.step e).Inv
  | .schedule op => h.schedule op
  | .add => h.add
  | .start => h.start
  | .check i => h.check i
  | .visit i => h.visit i

/-- **Run lemma.** -/
theorem Inv.run {s : FlatOpScheduler α} (h : s.Inv) (evs : List (Event α)) : (s.run evs).Inv := by
  induction evs generalizing s with
  | nil => exact h
  | cons e evs ih => exact ih (h.step e)

theorem run_inv (evs : List (Event α)) : ((init : FlatOpScheduler α).run evs).Inv := inv_init.run evs

/-! ## The work gets done -/

/-- what is left to do: each queued operation weighs three (a check moves it to `m_usedQueue`), each one still to be
visited in `m_usedQueue` one, and a pending or active drain by how far it is from returning -/
def potential (s : FlatOpScheduler α) : ℕ :=
  3 * s.filledQueue.length + (s.usedQueue.length - s.position) + 4 * s.adding + 3 * s.queued +
    match s.drains with
    | [.check] => 1
    | [.visit _] => 2
    | _ => 0

/-- with a drain pending or active, one of its steps lowers the potential -/
theorem Inv.progress {s : FlatOpScheduler α} (h : s.Inv) (hbusy : s.busy = 1) :
    ∃ e : Event α, e.Internal ∧ (s.step e).potential < s.potential := by
  have hle := h.busy_le
  unfold busy at hbusy
  by_cases hadd : 0 < s.adding
  · -- the schedule call adds the drain
    refine ⟨.add, trivial, ?_⟩
    have hq : s.queued = 0 := by omega
    have hd : s.drains = [] := List.eq_nil_of_length_eq_zero (by omega)
    simp [FlatOpScheduler.step, FlatOpScheduler.add, hadd, potential, position, hd, hq]
    omega
  by_cases hq : 0 < s.queued
  · -- the executor starts it
    refine ⟨.start, trivial, ?_⟩
    have hd : s.drains = [] := List.eq_nil_of_length_eq_zero (by omega)
    have hused := h.used_nil (by simp [hd])
    simp [FlatOpScheduler.step, FlatOpScheduler.start, hq, potential, position, hd, hused]
    omega
  -- otherwise the drain is running
  obtain ⟨d, hd⟩ : ∃ d, s.drains = [d] := List.length_eq_one_iff.mp (by omega)
  cases d with
  | check =>
    refine ⟨.check 0, trivial, ?_⟩
    have hused := h.used_nil (by simp [hd])
    by_cases hf : s.filledQueue = []
    · simp [FlatOpScheduler.step, FlatOpScheduler.check, hf, potential, position, hd, hused]
    · have hlen : 0 < s.filledQueue.length := List.length_pos_of_ne_nil hf
      simp [FlatOpScheduler.step, FlatOpScheduler.check, hf, potential, position, hd, hused]
      omega
  | visit k =>
    refine ⟨.visit 0, trivial, ?_⟩
    have hk := h.position_le k hd
    cases hop : s.usedQueue[k]? with
    | some op =>
      have hlt := (List.getElem?_eq_some_iff.mp hop).1
      simp [FlatOpScheduler.step, FlatOpScheduler.visit, hop, potential, position, hd]
      omega
    | none =>
      simp [FlatOpScheduler.step, FlatOpScheduler.visit, hop, potential, position, hd]

/-- the scheduler's own steps schedule nothing -/
theorem scheduled_step {e : Event α} (he : e.Internal) (s : FlatOpScheduler α) :
    (s.step e).scheduled = s.scheduled := by
  cases e with
  | schedule op => exact absurd he id
  | add => simp only [FlatOpScheduler.step, FlatOpScheduler.add]; split <;> rfl
  | start => simp only [FlatOpScheduler.step, FlatOpScheduler.start]; split <;> rfl
  | check i => simp only [FlatOpScheduler.step, FlatOpScheduler.check]; split <;> (try split) <;> rfl
  | visit i => simp only [FlatOpScheduler.step, FlatOpScheduler.visit]; split <;> (try split) <;> rfl

/-- **`scheduled` records the schedule calls.** Over any run the ghost field grows by the operations of the run's
schedule calls, in order, and by nothing else -/
theorem run_scheduled (s : FlatOpScheduler α) (evs : List (Event α)) :
    (s.run evs).scheduled = s.scheduled ++ scheduledOps evs := by
  induction evs generalizing s with
  | nil => simp [FlatOpScheduler.run, scheduledOps]
  | cons e evs ih =>
    change ((s.step e).run evs).scheduled = _
    rw [ih]
    cases e with
    | schedule op => simp [FlatOpScheduler.step, FlatOpScheduler.schedule, scheduledOps]
    -- the scheduler's own steps record nothing
    | add | start | check _ | visit _ =>
      simp only [scheduledOps, List.filterMap_cons]
      rw [scheduled_step]
      trivial

/-- from the start, the operations visited and those still to visit are the operations of the schedule calls -/
theorem visited_unvisited_run (evs : List (Event α)) :
    ((init : FlatOpScheduler α).run evs).visited ++ ((init : FlatOpScheduler α).run evs).unvisited =
      scheduledOps evs := by
  rw [(run_inv evs).order, run_scheduled]
  rfl

/-- **The drains finish the work.** From every state satisfying the invariant, steps of the scheduler's own threads
lead to a state with no drain pending or active, in which every operation scheduled has been visited. -/
theorem Inv.finishes {s : FlatOpScheduler α} (h : s.Inv) :
    ∃ evs : List (Event α), (∀ e ∈ evs, e.Internal) ∧ (s.run evs).busy = 0 ∧
      (s.run evs).visited = (s.run evs).scheduled ∧ (s.run evs).scheduled = s.scheduled := by
  induction hp : s.potential using Nat.strong_induction_on generalizing s with
  | _ p ih =>
    by_cases hbusy : s.busy = 1
    · obtain ⟨e, he, hlt⟩ := h.progress hbusy
      obtain ⟨evs, hint, hdone, hvis, hsch⟩ := ih _ (hp ▸ hlt) (h.step e) rfl
      have hsame := scheduled_step he s
      refine ⟨e :: evs, ?_, hdone, hvis, hsch.trans hsame⟩
      intro e' he'
      rcases List.mem_cons.mp he' with rfl | he'
      · exact he
      · exact hint e' he'
    · -- nothing pending or active: nothing is queued and nothing is left to visit
      have hidle : s.busy = 0 := by have := h.busy_le; omega
      have hflag : s.drainInProgress = false := by
        cases hf : s.drainInProgress
        · rfl
        · exact absurd (h.flag.mp hf) hbusy
      have hfilled : s.filledQueue = [] := by
        by_contra hne
        rw [h.covered hne] at hflag
        cases hflag
      have hnil : s.drains = [] := List.eq_nil_of_length_eq_zero (by unfold busy at hidle; omega)
      have hunv : s.unvisited = [] := by
        rw [unvisited_of_not_visiting h (by simp [hnil]), hfilled]
      refine ⟨[], by simp, hidle, ?_, rfl⟩
      have := h.order
      rw [hunv, List.append_nil] at this
      exact this

/-- **Every operation is visited exactly once, in order, one drain at a time.** After any interleaving of schedule
calls with the scheduler's steps, at most one drain is pending or active, `m_drainInProgress` holds exactly when one
is, no operation is queued without one, and the operations visited followed by those still to be visited are the
operations scheduled, in the order their calls entered the locked block; and the scheduler's own steps can then
visit every one of them. -/
theorem flatOpScheduler_runs_each_once (evs : List (Event α)) :
    (init.run evs).busy ≤ 1 ∧ ((init.run evs).drainInProgress = true ↔ (init.run evs).busy = 1) ∧
      ((init.run evs).filledQueue ≠ [] → (init.run evs).busy = 1) ∧
      (init.run evs).visited ++ (init.run evs).unvisited = (init.run evs).scheduled ∧
      ∃ evs' : List (Event α), (∀ e ∈ evs', e.Internal) ∧
        ((init.run evs).run evs').visited = (init.run evs).scheduled := by
  have h := run_inv (α := α) evs
  obtain ⟨evs', hint, -, hvis, hsch⟩ := h.finishes
  exact ⟨h.busy_le, h.flag, fun hne => h.flag.mp (h.covered hne), h.order, evs', hint, hvis.trans hsch⟩

end FlatOpScheduler

end OneHelpers
