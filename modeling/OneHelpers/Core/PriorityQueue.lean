/-
A priority queue as `tbb::concurrent_priority_queue<T, Compare>` (and `std::priority_queue`) presents it: `push` adds an
element, and `tryPop` removes and returns an element that is maximal under `Compare`, that is, one no element of the
queue is `Compare`-greater than; which of several maximal elements it returns is left open. The queue is a list read
as a multiset, and `tryPop` takes the first maximal element so that it can run; the proofs about the queues built on
it use only `tryPop_spec` and `tryPop_eq_none`, which hold of every maximal choice, and only evaluations on fixed
inputs depend on the choice.
With `Compare = a > b` on a key (`std::greater`) the maximal elements are those of least key, so the queue pops the
least key first; with `Compare = a < b` it pops the greatest key first.

Results, for a transitive irreflexive `Compare`: `tryPop_spec` (the popped element is in the queue, nothing in the
queue is greater, and the rest is the queue without it, up to order) and `tryPop_eq_none` (only the empty queue pops
nothing); `pop_le_of_gt`/`pop_ge_of_lt`: what the spec says for the two comparators on a key.
-/
import Mathlib.Tactic

namespace OneHelpers.PriorityQueue

variable {α : Type*} [DecidableEq α] (r : α → α → Prop) [DecidableRel r]

/-- the first element of `m :: xs` that no later element is `r`-greater than, kept by a left fold -/
def maxOf : α → List α → α
  | m, [] => m
  | m, x :: xs => maxOf (if r m x then x else m) xs

/-- `try_pop`: the element removed and the queue left, or `none` on an empty queue -/
def tryPop : List α → Option (α × List α)
  | [] => none
  | x :: xs => some (maxOf r x xs, (x :: xs).erase (maxOf r x xs))

/-- `push` (`emplace`) -/
def push (q : List α) (x : α) : List α := q ++ [x]

omit [DecidableEq α] in
theorem maxOf_mem (m : α) (xs : List α) : maxOf r m xs ∈ m :: xs := by
  induction xs generalizing m with
  | nil => exact List.mem_singleton_self m
  | cons x xs ih =>
    rw [maxOf]
    split_ifs
    · exact List.mem_cons_of_mem m (ih x)
    · rcases List.mem_cons.1 (ih m) with h | h
      · rw [h]
        exact List.mem_cons_self
      · exact List.mem_cons_of_mem m (List.mem_cons_of_mem x h)

section Order

variable {r}
variable (htrans : ∀ a b c, r a b → r b c → r a c)
include htrans

omit [DecidableEq α] in
/-- the fold only moves up: its result is where it started, or above it -/
theorem maxOf_eq_or_lt (m : α) (xs : List α) : maxOf r m xs = m ∨ r m (maxOf r m xs) := by
  induction xs generalizing m with
  | nil => exact Or.inl rfl
  | cons x xs ih =>
    rw [maxOf]
    by_cases hmx : r m x
    · rw [if_pos hmx]
      rcases ih x with h | h
      · rw [h]
        exact Or.inr hmx
      · exact Or.inr (htrans _ _ _ hmx h)
    · rw [if_neg hmx]
      exact ih m

variable (hirr : ∀ a, ¬ r a a)
include hirr

omit [DecidableEq α] in
/-- nothing in `m :: xs` is greater than the fold's result -/
theorem maxOf_max (m : α) (xs : List α) : ∀ y ∈ m :: xs, ¬ r (maxOf r m xs) y := by
  induction xs generalizing m with
  | nil =>
    intro y hy
    rw [List.mem_singleton.1 hy]
    exact hirr m
  | cons x xs ih =>
    intro y hy hgt
    rw [maxOf] at hgt
    by_cases hmx : r m x
    · -- the fold moved to `x`; `m` is below `x`, so above the result if the result were above `m`
      rw [if_pos hmx] at hgt
      rcases List.mem_cons.1 hy with rfl | hy
      · exact ih x x List.mem_cons_self (htrans _ _ _ hgt hmx)
      · exact ih x y hy hgt
    · -- the fold stayed at `m`; the result is `m` or above it, and `m` is not below `x`
      rw [if_neg hmx] at hgt
      rcases List.mem_cons.1 hy with rfl | hy
      · exact ih y y List.mem_cons_self hgt
      · rcases List.mem_cons.1 hy with rfl | hy
        · rcases maxOf_eq_or_lt htrans m xs with h | h
          · exact hmx (h ▸ hgt)
          · exact hmx (htrans _ _ _ h hgt)
        · exact ih m y (List.mem_cons_of_mem m hy) hgt

/-- what `try_pop` returns is in the queue, no element of the queue is greater, and the queue left is the queue
without it -/
theorem tryPop_spec {q : List α} {x : α} {rest : List α} (h : tryPop r q = some (x, rest)) :
    x ∈ q ∧ (∀ y ∈ q, ¬ r x y) ∧ q.Perm (x :: rest) := by
  cases q with
  | nil => cases h
  | cons m xs =>
    simp only [tryPop, Option.some.injEq, Prod.mk.injEq] at h
    obtain ⟨rfl, rfl⟩ := h
    have hmem := maxOf_mem r m xs
    exact ⟨hmem, maxOf_max htrans hirr m xs, List.perm_cons_erase hmem⟩

end Order

theorem tryPop_eq_none {q : List α} : tryPop r q = none ↔ q = [] := by
  cases q <;> simp [tryPop]

/-! ## Comparators on a key -/

section Key

variable {key : α → ℕ}

/-- with `std::greater` on a key the queue pops a least key -/
theorem pop_le_of_gt {q : List α} {x : α} {rest : List α}
    (h : tryPop (fun a b => key b < key a) q = some (x, rest)) :
    x ∈ q ∧ (∀ y ∈ q, key x ≤ key y) ∧ q.Perm (x :: rest) := by
  obtain ⟨hx, hmax, hperm⟩ := tryPop_spec (fun a b c (h1 : key b < key a) (h2 : key c < key b) => lt_trans h2 h1)
    (fun a => lt_irrefl (key a)) h
  exact ⟨hx, fun y hy => Nat.le_of_not_lt (hmax y hy), hperm⟩

/-- with `std::less` on a key the queue pops a greatest key -/
theorem pop_ge_of_lt {q : List α} {x : α} {rest : List α}
    (h : tryPop (fun a b => key a < key b) q = some (x, rest)) :
    x ∈ q ∧ (∀ y ∈ q, key y ≤ key x) ∧ q.Perm (x :: rest) := by
  obtain ⟨hx, hmax, hperm⟩ := tryPop_spec (fun a b c (h1 : key a < key b) (h2 : key b < key c) => lt_trans h1 h2)
    (fun a => lt_irrefl (key a)) h
  exact ⟨hx, fun y hy => Nat.le_of_not_lt (hmax y hy), hperm⟩

end Key

end OneHelpers.PriorityQueue
