/-
Model of the `Retrier` layer (`src/communication/layers/retrier.h`), which sits over the connection pool in the
communicator's stack.

`Retrier::send(message, callback, retries)` hands the message down with a wrapped callback. When the lower layer
calls it back with an error and `retries > 0`, the wrapped callback sends the message it captured again with
`retries - 1`; otherwise it calls the user's callback with the error code it got. The lower layer is taken to answer
each send once; its `j`-th answer from the first send on is the error code `outcomes j`, 0 being success. The model
records the calls the retrier makes, in order: the sends of the lower layer, with the message and the retry count,
and the call of the user's callback.

Results:
- `send_of_stop`, `send_of_retry`: what one answer leads to;
- `retrier_send_spec`: for every `retries ≥ 0` and every sequence of answers, the lower layer gets the message
  `min k retries + 1` times (`k` the first success, `retries + 1` times if there is none) with the counts `retries`,
  `retries - 1`, ..., and the user's callback is called once, last, with success when one of the first `retries + 1`
  attempts succeeded and with the last attempt's error otherwise.
-/
import Mathlib.Tactic

namespace OneHelpers.Communication.Retrier

/-- a call the retrier makes: a send of the lower layer with the message and retry count it passes down, or the
user's callback with an error code (0 is success) -/
inductive Call where
  | lowerSend (message : String) (retries : ℤ)
  | callback (ec : ℕ)
  deriving DecidableEq, Repr

/-- `Retrier::send`, with the lower layer answering the `j`-th send from here with `outcomes j`: the calls made -/
def send (outcomes : ℕ → ℕ) (message : String) (retries : ℤ) : List Call :=
  .lowerSend message retries ::
    if h : outcomes 0 ≠ 0 ∧ 0 < retries then send (fun j => outcomes (j + 1)) message (retries - 1)
    else [.callback (outcomes 0)]
termination_by retries.toNat
decreasing_by omega

/-! ## One answer -/

/-- a success, or an error with no retry left, goes to the user's callback -/
theorem send_of_stop {outcomes : ℕ → ℕ} {message : String} {retries : ℤ} (h : outcomes 0 = 0 ∨ retries ≤ 0) :
    send outcomes message retries = [.lowerSend message retries, .callback (outcomes 0)] := by
  rw [send, dif_neg]
  omega

/-- an error with a retry left sends again, with one retry less -/
theorem send_of_retry {outcomes : ℕ → ℕ} {message : String} {retries : ℤ} (h : outcomes 0 ≠ 0) (hr : 0 < retries) :
    send outcomes message retries = .lowerSend message retries :: send (fun j => outcomes (j + 1)) message (retries - 1) := by
  rw [send, dif_pos ⟨h, hr⟩]

/-! ## Every sequence of answers -/

/-- the sends of a run of `n` attempts from `retries` on -/
def attemptSends (message : String) (retries : ℤ) (n : ℕ) : List Call :=
  (List.range n).map fun j : ℕ => .lowerSend message (retries - (j : ℤ))

theorem attemptSends_succ (message : String) (retries : ℤ) (n : ℕ) :
    attemptSends message retries (n + 1) = .lowerSend message retries :: attemptSends message (retries - 1) n := by
  unfold attemptSends
  rw [List.range_succ_eq_map, List.map_cons, List.map_map]
  congr 2
  · simp
  · funext j
    simp only [Function.comp, Nat.cast_succ]
    ring_nf

/-- after a failed first attempt, a success among the first `retries + 2` is one among the next `retries + 1` -/
theorem exists_success_succ {outcomes : ℕ → ℕ} (h : outcomes 0 ≠ 0) (retries : ℕ) :
    (∃ j ≤ retries + 1, outcomes j = 0) ↔ ∃ j ≤ retries, outcomes (j + 1) = 0 := by
  constructor
  · rintro ⟨j, hj, hzero⟩
    cases j with
    | zero => exact absurd hzero h
    | succ j => exact ⟨j, by omega, hzero⟩
  · rintro ⟨j, hj, hzero⟩
    exact ⟨j + 1, by omega, hzero⟩

/-- **The retrier calls back once, after at most `retries + 1` attempts.** For every `retries ≥ 0` and every
sequence of answers, the retrier makes `n` sends of the message, with the counts `retries`, `retries - 1`, ...,
and then one call of the user's callback: with success when one of the first `retries + 1` attempts succeeded, with
the last attempt's error otherwise. `n` is `min k retries + 1` when the first success is attempt `k`, and
`retries + 1` when no attempt succeeds. -/
theorem retrier_send_spec (outcomes : ℕ → ℕ) (message : String) (retries : ℕ) :
    ∃ n, send outcomes message retries =
        attemptSends message retries n ++
          [.callback (if ∃ j ≤ retries, outcomes j = 0 then 0 else outcomes retries)] ∧
      (∀ k, outcomes k = 0 → (∀ j < k, outcomes j ≠ 0) → n = min k retries + 1) ∧
      ((∀ j, outcomes j ≠ 0) → n = retries + 1) := by
  -- induction on the retries left, the answers shifted by one at each retry
  induction retries generalizing outcomes with
  | zero =>
    refine ⟨1, ?_, fun k _ _ => by omega, fun _ => rfl⟩
    rw [send_of_stop (Or.inr (by simp))]
    by_cases h0 : outcomes 0 = 0
    · simp [attemptSends, h0]
    · simp [attemptSends, h0]
  | succ retries ih =>
    by_cases h0 : outcomes 0 = 0
    · -- the first attempt succeeds
      refine ⟨1, ?_, fun k hk hbefore => ?_, fun hall => absurd h0 (hall 0)⟩
      · rw [send_of_stop (Or.inl h0), if_pos ⟨0, by omega, h0⟩]
        simp [attemptSends, h0]
      · have hk0 : k = 0 := by
          by_contra hne
          exact hbefore 0 (by omega) h0
        rw [hk0]
        omega
    · -- the first attempt fails and is retried with the rest of the answers
      obtain ⟨n, htrace, hfirst, hnone⟩ := ih fun j => outcomes (j + 1)
      refine ⟨n + 1, ?_, fun k hk hbefore => ?_, fun hall => ?_⟩
      · have hretries : ((retries + 1 : ℕ) : ℤ) - 1 = retries := by push_cast; ring
        have hcallback : (if ∃ j ≤ retries + 1, outcomes j = 0 then 0 else outcomes (retries + 1)) =
            if ∃ j ≤ retries, outcomes (j + 1) = 0 then 0 else outcomes (retries + 1) := by
          simp only [exists_success_succ h0]
        rw [send_of_retry h0 (by omega), hretries, htrace, attemptSends_succ, hretries, List.cons_append, hcallback]
      · cases k with
        | zero => exact absurd hk h0
        | succ k =>
          have hn := hfirst k hk fun j hj => hbefore (j + 1) (by omega)
          omega
      · have hn := hnone fun j => hall (j + 1)
        omega

theorem retrier_send_spec_three :
    send (fun j => if j < 2 then 5 else 0) "m" ((3 : ℕ) : ℤ) =
      [.lowerSend "m" 3, .lowerSend "m" 2, .lowerSend "m" 1, .callback 0] := by
  obtain ⟨n, htrace, hfirst, -⟩ := retrier_send_spec (fun j => if j < 2 then 5 else 0) "m" 3
  -- attempt 2 is the first success
  have hn : n = 3 := hfirst 2 rfl (by decide)
  rw [htrace, hn]
  decide

end OneHelpers.Communication.Retrier
