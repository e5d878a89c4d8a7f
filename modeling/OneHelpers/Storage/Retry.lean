/-
The retry loop of the storage helpers: `retry` (`include/helpers/storageHelper.h`), with which every helper wraps its
calls of the backend, and the conditions that the POSIX, GlusterFS, Ceph, CephRados and WebDAV helpers give it
(`src/posixHelper.cc`, `src/glusterfsHelper.cc`, `src/cephHelper.cc`, `src/cephRadosHelper.cc`,
`src/webDAVHelper.cc`).

`retry(op, condition)` calls `op`, and while `condition` rejects the result and fewer than `retryCount` retries have
been made, sleeps `retryInitialDelay * retryBackoff ^ retryIt` and calls `op` again; it returns the last result. The
helpers keep the defaults: `IO_RETRY_COUNT = 4` retries, the first after `IO_RETRY_INITIAL_DELAY = 10` ms, each
`IO_RETRY_DELAY_BACKOFF_FACTOR = 5` times longer than the one before. The factor is a `float` whose powers are whole
numbers here, so the delays are natural numbers of milliseconds. What the `i`-th call of `op` returns is the
environment's choice, `op i`; the model gives the last result and the delays slept, in order.

A helper's condition accepts a result unless it is a failure with an error the helper retries on. The POSIX and
GlusterFS conditions read the error from `errno` after a negative result; the Ceph, CephRados and WebDAV ones from
the negated result. The five sets of errors agree except for `ESTALE`, which only the POSIX helper retries, and all
of them retry `EACCES`, an error that a second call does not clear.

Results:
- `retryLoop_spec` and `retryWith_spec`: the result is that of the first call the condition accepts, or of the last
  of `retryCount + 1` calls, and before retry `i` the loop sleeps `retryInitialDelay * retryBackoff ^ i`;
- `retry_returns_first_accepted`: the same under the defaults, for every condition and every answer of the
  environment; a POSIX call that fails with `EACCES` on every attempt is made five times and sleeps 1560 ms in all;
- `retryErrors_perm` and `POSIXRetryCondition_eq_of_ne`: how the five conditions differ.
-/
import Mathlib.Tactic

namespace OneHelpers.Retry

/-! ## `retry` -/

def IO_RETRY_COUNT : ℕ := 4

/-- in milliseconds -/
def IO_RETRY_INITIAL_DELAY : ℕ := 10

def IO_RETRY_DELAY_BACKOFF_FACTOR : ℕ := 5

variable {α : Type*}

/-- the `while` loop of `retry` at retry `retryIt` with the result `ret`, for at most `fuel` rounds: the last result
and the delays slept -/
def retryLoop (op : ℕ → α) (condition : α → Bool) (retryCount retryInitialDelay retryBackoff : ℕ) :
    ℕ → ℕ → α → α × List ℕ
  | 0, _, ret => (ret, [])
  | fuel + 1, retryIt, ret =>
    if !condition ret && decide (retryIt < retryCount) then
      let r := retryLoop op condition retryCount retryInitialDelay retryBackoff fuel (retryIt + 1) (op (retryIt + 1))
      (r.1, retryInitialDelay * retryBackoff ^ retryIt :: r.2)
    else (ret, [])

/-- `retry(op, condition, retryCount, retryInitialDelay, retryBackoff)`: the loop makes at most `retryCount` rounds -/
def retryWith (op : ℕ → α) (condition : α → Bool) (retryCount retryInitialDelay retryBackoff : ℕ) : α × List ℕ :=
  retryLoop op condition retryCount retryInitialDelay retryBackoff retryCount 0 (op 0)

/-- `retry(op, condition)` with the default count, delay and backoff -/
def retry (op : ℕ → α) (condition : α → Bool) : α × List ℕ :=
  retryWith op condition IO_RETRY_COUNT IO_RETRY_INITIAL_DELAY IO_RETRY_DELAY_BACKOFF_FACTOR

section Loop

variable (op : ℕ → α) (condition : α → Bool) {retryCount retryInitialDelay retryBackoff : ℕ}

theorem retryLoop_of_accepted (fuel retryIt : ℕ) {ret : α}
    (hret : condition ret = true ∨ retryCount ≤ retryIt) :
    retryLoop op condition retryCount retryInitialDelay retryBackoff fuel retryIt ret = (ret, []) := by
  cases fuel with
  | zero => rfl
  | succ fuel =>
    have hstop : (!condition ret && decide (retryIt < retryCount)) = false := by
      rcases hret with h | h
      · simp [h]
      · simp [Nat.not_lt.2 h]
    rw [retryLoop, hstop, if_neg Bool.false_ne_true]

theorem retryLoop_of_rejected (fuel retryIt : ℕ) {ret : α} (hret : condition ret = false)
    (hlt : retryIt < retryCount) :
    retryLoop op condition retryCount retryInitialDelay retryBackoff (fuel + 1) retryIt ret =
      let r := retryLoop op condition retryCount retryInitialDelay retryBackoff fuel (retryIt + 1) (op (retryIt + 1))
      (r.1, retryInitialDelay * retryBackoff ^ retryIt :: r.2) := by
  rw [retryLoop, if_pos (by simp [hret, hlt])]

/-- **The loop from retry `j`.** With fuel for every round left, the loop returns the first call from `j` on that the
condition accepts, or the last one, and sleeps before each retry from `j` on -/
theorem retryLoop_spec :
    ∀ fuel j, retryCount ≤ j + fuel → ∀ k, j ≤ k → k ≤ retryCount →
      (∀ i, j ≤ i → i < k → condition (op i) = false) → (condition (op k) = true ∨ k = retryCount) →
      retryLoop op condition retryCount retryInitialDelay retryBackoff fuel j (op j) =
        (op k, (List.range' j (k - j)).map fun i => retryInitialDelay * retryBackoff ^ i) := by
  -- induction on the fuel, the retry number moving up by one each round
  intro fuel
  induction fuel with
  | zero =>
    intro j hfuel k hjk hk _ _
    obtain rfl : k = j := by omega
    rw [retryLoop_of_accepted op condition 0 k (.inr (by omega))]
    simp
  | succ fuel ih =>
    intro j hfuel k hjk hk hbefore hstop
    rcases Nat.eq_or_lt_of_le hjk with rfl | hlt
    · -- the call at `j` is the one returned
      have hret : condition (op j) = true ∨ retryCount ≤ j := by
        rcases hstop with h | h
        · exact .inl h
        · exact .inr h.ge
      rw [retryLoop_of_accepted op condition _ j hret]
      simp
    · -- the call at `j` is rejected: sleep, and go on from `j + 1`
      rw [retryLoop_of_rejected op condition fuel j (hbefore j le_rfl hlt) (by omega),
        ih (j + 1) (by omega) k hlt hk (fun i hi hik => hbefore i (by omega) hik) hstop]
      obtain ⟨m, hm⟩ : ∃ m, k - j = m + 1 := ⟨k - j - 1, by omega⟩
      simp [hm, List.range'_succ, show k - (j + 1) = m by omega]

/-- `retry` returns the first call the condition accepts, or the last of `retryCount + 1` calls -/
theorem retryWith_spec {k : ℕ} (hk : k ≤ retryCount) (hbefore : ∀ i < k, condition (op i) = false)
    (hstop : condition (op k) = true ∨ k = retryCount) :
    retryWith op condition retryCount retryInitialDelay retryBackoff =
      (op k, (List.range k).map fun i => retryInitialDelay * retryBackoff ^ i) := by
  rw [retryWith, retryLoop_spec op condition retryCount 0 (by omega) k (Nat.zero_le k) hk
    (fun i _ hik => hbefore i hik) hstop, Nat.sub_zero, List.range_eq_range']

/-- the call `retry` returns: the first the condition accepts, or the last -/
theorem exists_first_accepted (retryCount : ℕ) :
    ∃ k ≤ retryCount, (∀ i < k, condition (op i) = false) ∧ (condition (op k) = true ∨ k = retryCount) := by
  have hex : ∃ k, condition (op k) = true ∨ k = retryCount := ⟨retryCount, .inr rfl⟩
  refine ⟨Nat.find hex, Nat.find_le (.inr rfl), fun i hi => ?_, Nat.find_spec hex⟩
  have hnot := Nat.find_min hex hi
  simpa using (not_or.1 hnot).1

end Loop

/-! ## The helpers' conditions -/

/-- `errno` values (Linux) -/
def EINTR : ℕ := 4
def EIO : ℕ := 5
def EAGAIN : ℕ := 11
def EACCES : ℕ := 13
def EBUSY : ℕ := 16
def EMFILE : ℕ := 24
def ETXTBSY : ℕ := 26
def ESPIPE : ℕ := 29
def EMLINK : ℕ := 31
def EPIPE : ℕ := 32
def EDEADLK : ℕ := 35
def EWOULDBLOCK : ℕ := 11
def ENONET : ℕ := 64
def ENOLINK : ℕ := 67
def EADDRINUSE : ℕ := 98
def EADDRNOTAVAIL : ℕ := 99
def ENETDOWN : ℕ := 100
def ENETUNREACH : ℕ := 101
def ECONNABORTED : ℕ := 103
def ECONNRESET : ℕ := 104
def ENOTCONN : ℕ := 107
def EHOSTDOWN : ℕ := 112
def EHOSTUNREACH : ℕ := 113
def ESTALE : ℕ := 116
def EREMOTEIO : ℕ := 121
def ENOMEDIUM : ℕ := 123
def ECANCELED : ℕ := 125

/-- `POSIX_RETRY_ERRORS`, with the errors it has off `__APPLE__` -/
def POSIX_RETRY_ERRORS : List ℕ :=
  [EINTR, EIO, EAGAIN, EACCES, EBUSY, EMFILE, ETXTBSY, ESPIPE, EMLINK, EPIPE, EDEADLK, EWOULDBLOCK, ENOLINK,
    EADDRINUSE, EADDRNOTAVAIL, ENETDOWN, ENETUNREACH, ECONNABORTED, ECONNRESET, ENOTCONN, EHOSTUNREACH, ECANCELED,
    ESTALE, ENONET, EHOSTDOWN, EREMOTEIO, ENOMEDIUM]

/-- `GLUSTERFS_RETRY_ERRORS`, with the errors it has off `__APPLE__` -/
def GLUSTERFS_RETRY_ERRORS : List ℕ :=
  [EINTR, EIO, EAGAIN, EACCES, EBUSY, EMFILE, ETXTBSY, ESPIPE, EMLINK, EPIPE, EDEADLK, EWOULDBLOCK, ENOLINK,
    EADDRINUSE, EADDRNOTAVAIL, ENETDOWN, ENETUNREACH, ECONNABORTED, ECONNRESET, ENOTCONN, EHOSTUNREACH, ECANCELED,
    ENONET, EHOSTDOWN, EREMOTEIO, ENOMEDIUM]

/-- `CEPH_RETRY_ERRORS` of `CephRetryCondition` -/
def CEPH_RETRY_ERRORS : List ℕ :=
  [EINTR, EIO, EAGAIN, EACCES, EBUSY, EMFILE, ETXTBSY, ESPIPE, EMLINK, EPIPE, EDEADLK, EWOULDBLOCK, ENONET, ENOLINK,
    EADDRINUSE, EADDRNOTAVAIL, ENETDOWN, ENETUNREACH, ECONNABORTED, ECONNRESET, ENOTCONN, EHOSTDOWN, EHOSTUNREACH,
    EREMOTEIO, ENOMEDIUM, ECANCELED]

/-- `CEPHRADOS_RETRY_ERRORS` of `CephRadosRetryCondition` -/
def CEPHRADOS_RETRY_ERRORS : List ℕ :=
  [EINTR, EIO, EAGAIN, EACCES, EBUSY, EMFILE, ETXTBSY, ESPIPE, EMLINK, EPIPE, EDEADLK, EWOULDBLOCK, ENONET, ENOLINK,
    EADDRINUSE, EADDRNOTAVAIL, ENETDOWN, ENETUNREACH, ECONNABORTED, ECONNRESET, ENOTCONN, EHOSTDOWN, EHOSTUNREACH,
    EREMOTEIO, ENOMEDIUM, ECANCELED]

/-- `WebDAV_RETRY_ERRORS` of `WebDAVRetryCondition` -/
def WebDAV_RETRY_ERRORS : List ℕ :=
  [EINTR, EIO, EAGAIN, EACCES, EBUSY, EMFILE, ETXTBSY, ESPIPE, EMLINK, EPIPE, EDEADLK, EWOULDBLOCK, ENONET, ENOLINK,
    EADDRINUSE, EADDRNOTAVAIL, ENETDOWN, ENETUNREACH, ECONNABORTED, ECONNRESET, ENOTCONN, EHOSTDOWN, EHOSTUNREACH,
    EREMOTEIO, ENOMEDIUM, ECANCELED]

/-- the condition of a helper that reads the error from `errno`: a call that returned `r.1` with `errno` at `r.2` is
accepted when `result >= 0 || retryErrors.find(errno) == retryErrors.end()` -/
def errnoRetryCondition (retryErrors : List ℕ) (r : ℤ × ℕ) : Bool :=
  decide (0 ≤ r.1) || !retryErrors.contains r.2

/-- the condition of a helper whose result is a negated error code: accepted when
`retryErrors.find(-result) == retryErrors.end()` -/
def negatedRetryCondition (retryErrors : List ℕ) (result : ℤ) : Bool :=
  !retryErrors.any fun e => decide ((e : ℤ) = -result)

/-- `POSIXRetryCondition` -/
def POSIXRetryCondition : ℤ × ℕ → Bool := errnoRetryCondition POSIX_RETRY_ERRORS

/-- `GlusterFSRetryCondition` -/
def GlusterFSRetryCondition : ℤ × ℕ → Bool := errnoRetryCondition GLUSTERFS_RETRY_ERRORS

/-- `CephRetryCondition` -/
def CephRetryCondition : ℤ → Bool := negatedRetryCondition CEPH_RETRY_ERRORS

/-- `CephRadosRetryCondition` -/
def CephRadosRetryCondition : ℤ → Bool := negatedRetryCondition CEPHRADOS_RETRY_ERRORS

/-- `WebDAVRetryCondition` -/
def WebDAVRetryCondition : ℤ → Bool := negatedRetryCondition WebDAV_RETRY_ERRORS

/-- an `errno` condition retries exactly the failures with an error of its set -/
theorem errnoRetryCondition_eq_false_iff {retryErrors : List ℕ} {r : ℤ × ℕ} :
    errnoRetryCondition retryErrors r = false ↔ r.1 < 0 ∧ r.2 ∈ retryErrors := by
  simp [errnoRetryCondition, not_le]

/-- a negated-result condition retries exactly the results that are the negation of an error of its set -/
theorem negatedRetryCondition_eq_false_iff {retryErrors : List ℕ} {result : ℤ} :
    negatedRetryCondition retryErrors result = false ↔ ∃ e ∈ retryErrors, result = -(e : ℤ) := by
  rw [negatedRetryCondition, Bool.not_eq_false', List.any_eq_true]
  constructor
  · rintro ⟨e, he, hres⟩
    exact ⟨e, he, by simp at hres; omega⟩
  · rintro ⟨e, he, rfl⟩
    exact ⟨e, he, by simp⟩

/-- the POSIX set is the GlusterFS one and `ESTALE`; the Ceph, CephRados and WebDAV ones are the GlusterFS one in
another order -/
theorem retryErrors_perm : POSIX_RETRY_ERRORS.Perm (GLUSTERFS_RETRY_ERRORS ++ [ESTALE]) ∧
    CEPH_RETRY_ERRORS.Perm GLUSTERFS_RETRY_ERRORS ∧ CEPHRADOS_RETRY_ERRORS = CEPH_RETRY_ERRORS ∧
    WebDAV_RETRY_ERRORS = CEPH_RETRY_ERRORS := by
  decide

/-- the POSIX and GlusterFS conditions differ only on failures with `ESTALE` -/
theorem POSIXRetryCondition_eq_of_ne {r : ℤ × ℕ} (h : r.2 ≠ ESTALE) :
    POSIXRetryCondition r = GlusterFSRetryCondition r := by
  have hmem : r.2 ∈ POSIX_RETRY_ERRORS ↔ r.2 ∈ GLUSTERFS_RETRY_ERRORS := by
    rw [retryErrors_perm.1.mem_iff, List.mem_append, List.mem_singleton, or_iff_left h]
  simp [POSIXRetryCondition, GlusterFSRetryCondition, errnoRetryCondition, hmem]

example : POSIXRetryCondition (-1, ESTALE) = false ∧ GlusterFSRetryCondition (-1, ESTALE) = true := by decide

/-! ## Under the defaults -/

/-- the delays of the first `k` retries under the defaults -/
theorem retry_delays (k : ℕ) :
    (List.range k).map (fun i => IO_RETRY_INITIAL_DELAY * IO_RETRY_DELAY_BACKOFF_FACTOR ^ i) =
      (List.range k).map fun i => 10 * 5 ^ i := rfl

/-- **`retry` returns the first accepted call.** For every condition and every answer of the environment, `retry`
returns the first call the condition accepts, or the fifth, and sleeps `10 * 5 ^ i` ms before retry `i`; a POSIX call
that fails with `EACCES` every time is made five times and sleeps `10 + 50 + 250 + 1250` ms. -/
theorem retry_returns_first_accepted :
    (∀ {β : Type} (op : ℕ → β) (condition : β → Bool), ∃ k ≤ IO_RETRY_COUNT,
        (∀ i < k, condition (op i) = false) ∧ (condition (op k) = true ∨ k = IO_RETRY_COUNT) ∧
        retry op condition = (op k, (List.range k).map fun i => 10 * 5 ^ i)) ∧
      ∀ op : ℕ → ℤ × ℕ, (∀ i, (op i).1 < 0 ∧ (op i).2 = EACCES) →
        retry op POSIXRetryCondition = (op IO_RETRY_COUNT, [10, 50, 250, 1250]) := by
  refine ⟨fun op condition => ?_, fun op hfail => ?_⟩
  · obtain ⟨k, hk, hbefore, hstop⟩ := exists_first_accepted op condition IO_RETRY_COUNT
    exact ⟨k, hk, hbefore, hstop, by rw [retry, retryWith_spec op condition hk hbefore hstop, retry_delays]⟩
  · -- every call is rejected, so the fifth is returned
    have hrejected : ∀ i, POSIXRetryCondition (op i) = false := fun i => by
      rw [POSIXRetryCondition, errnoRetryCondition_eq_false_iff, (hfail i).2]
      exact ⟨(hfail i).1, by decide⟩
    rw [retry, retryWith_spec op POSIXRetryCondition le_rfl (fun i _ => hrejected i) (.inr rfl)]
    rfl

end OneHelpers.Retry
