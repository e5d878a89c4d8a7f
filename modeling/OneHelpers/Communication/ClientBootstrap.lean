/-
Model of the reconnection delays of `CLProtoClientBootstrap::connect` (`src/communication/clprotoClientBootstrap.cc`).

`connect(host, port, reconnectAttempt)` first looks its delay up with
`CLIENT_RECONNECT_DELAYS.at(std::min(reconnectAttempt, CLIENT_RECONNECT_DELAYS.size()))`, which throws
`std::out_of_range` when the index is past the table. It then waits the delay and connects. When the connection
fails, the first attempt (`reconnectAttempt == 0`) rethrows the error, and every later one calls
`connect(host, port, reconnectAttempt + 1)` through the executor. Whether the `j`-th attempt of the chain connects
is the environment's `succeeds j`; at most `fuel` reconnects are followed. The attempt counter is a `size_t` that a
chain never takes near `2^64`, so it is a natural number here.

Results: `connect_delays_sorted` (a chain of reconnects waits delays of the table in its order, so never a shorter
one than before), `connect_all_fail` (a chain of failing reconnects from attempt `a` waits the table's delays from `a` on and
ends at the lookup past the table) and `reconnect_runs_out_of_delays` (every attempt from the table's size on throws
`std::out_of_range`, so a chain of failed reconnects stops there instead of going on with the last delay).
-/
import Mathlib.Tactic

namespace OneHelpers.Communication.ClientBootstrap

/-- socket reconnection delays in milliseconds -/
def CLIENT_RECONNECT_DELAYS : List ℕ := [0, 100, 1000, 1000, 1000, 1000, 5000, 5000, 5000, 15000, 15000, 15000, 60000]

/-- `CLIENT_RECONNECT_DELAYS.at(std::min(reconnectAttempt, CLIENT_RECONNECT_DELAYS.size()))`; `none` is the
`std::out_of_range` that `at` throws -/
def reconnectDelay (reconnectAttempt : ℕ) : Option ℕ :=
  CLIENT_RECONNECT_DELAYS[min reconnectAttempt CLIENT_RECONNECT_DELAYS.length]?

/-- how a chain of attempts ends -/
inductive ConnectEnd where
  | connected
  /-- the first attempt failed and its error was rethrown -/
  | failed
  /-- the delay lookup threw `std::out_of_range` -/
  | outOfRange
  /-- another attempt is scheduled after the reconnects followed -/
  | retrying
  deriving DecidableEq, Repr

/-- `connect(host, port, reconnectAttempt)` and the reconnects it chains: the delays waited, and how the chain ends -/
def connect (succeeds : ℕ → Bool) (fuel reconnectAttempt : ℕ) : List ℕ × ConnectEnd :=
  match reconnectDelay reconnectAttempt with
  | none => ([], .outOfRange)
  | some delay =>
    if succeeds 0 then ([delay], .connected)
    else if reconnectAttempt = 0 then ([delay], .failed)
    else
      match fuel with
      | 0 => ([delay], .retrying)
      | fuel + 1 =>
        let rest := connect (fun j => succeeds (j + 1)) fuel (reconnectAttempt + 1)
        (delay :: rest.1, rest.2)

/-! ## The lookup -/

theorem reconnectDelay_of_lt {a : ℕ} (h : a < CLIENT_RECONNECT_DELAYS.length) :
    reconnectDelay a = some CLIENT_RECONNECT_DELAYS[a] := by
  rw [reconnectDelay, Nat.min_eq_left h.le, List.getElem?_eq_getElem h]

theorem reconnectDelay_of_le {a : ℕ} (h : CLIENT_RECONNECT_DELAYS.length ≤ a) : reconnectDelay a = none := by
  rw [reconnectDelay, Nat.min_eq_right h, List.getElem?_eq_none le_rfl]

/-- the table never shortens a delay -/
theorem reconnectDelays_sorted : CLIENT_RECONNECT_DELAYS.Pairwise (· ≤ ·) := by decide

/-- a chain from attempt `a` waits delays of the table from `a` on, in its order -/
theorem connect_delays_from_table (fuel : ℕ) :
    ∀ (succeeds : ℕ → Bool) (a : ℕ), (connect succeeds fuel a).1 <+: CLIENT_RECONNECT_DELAYS.drop a := by
  -- induction on the reconnects followed, the attempt one further at each
  induction fuel with
  | zero =>
    intro succeeds a
    rcases Nat.lt_or_ge a CLIENT_RECONNECT_DELAYS.length with hlt | hge
    · rw [List.drop_eq_getElem_cons hlt, connect, reconnectDelay_of_lt hlt]
      split_ifs <;> exact List.cons_prefix_cons.2 ⟨rfl, List.nil_prefix⟩
    · rw [connect, reconnectDelay_of_le hge]
      exact List.nil_prefix
  | succ fuel ih =>
    intro succeeds a
    rcases Nat.lt_or_ge a CLIENT_RECONNECT_DELAYS.length with hlt | hge
    · rw [List.drop_eq_getElem_cons hlt, connect, reconnectDelay_of_lt hlt]
      split_ifs
      · exact List.cons_prefix_cons.2 ⟨rfl, List.nil_prefix⟩
      · exact List.cons_prefix_cons.2 ⟨rfl, List.nil_prefix⟩
      · exact List.cons_prefix_cons.2 ⟨rfl, ih _ (a + 1)⟩
    · rw [connect, reconnectDelay_of_le hge]
      exact List.nil_prefix

/-- **A chain of reconnects never shortens its delay.** -/
theorem connect_delays_sorted (succeeds : ℕ → Bool) (fuel a : ℕ) :
    (connect succeeds fuel a).1.Pairwise (· ≤ ·) :=
  (reconnectDelays_sorted.sublist (List.drop_sublist a _)).sublist (connect_delays_from_table fuel succeeds a).sublist

/-! ## A chain of failures -/

/-- a failing reconnect with a delay in the table waits it and goes on with the next attempt -/
theorem connect_of_fail {succeeds : ℕ → Bool} {fuel a : ℕ} (hfail : succeeds 0 = false) (ha : a ≠ 0)
    (hlt : a < CLIENT_RECONNECT_DELAYS.length) :
    connect succeeds (fuel + 1) a =
      (CLIENT_RECONNECT_DELAYS[a] :: (connect (fun j => succeeds (j + 1)) fuel (a + 1)).1,
        (connect (fun j => succeeds (j + 1)) fuel (a + 1)).2) := by
  rw [connect, reconnectDelay_of_lt hlt]
  simp only [hfail, Bool.false_eq_true, if_false, if_neg ha]

/-- when every attempt fails, a chain from reconnect attempt `a` waits the delays of the table from `a` on and then
throws at the lookup past the table -/
theorem connect_all_fail (fuel : ℕ) :
    ∀ (succeeds : ℕ → Bool) (a : ℕ), 1 ≤ a → a ≤ CLIENT_RECONNECT_DELAYS.length → (∀ j, succeeds j = false) →
      CLIENT_RECONNECT_DELAYS.length - a ≤ fuel →
      connect succeeds fuel a = (CLIENT_RECONNECT_DELAYS.drop a, .outOfRange) := by
  -- induction on the reconnects left to follow, the attempt one further at each
  induction fuel with
  | zero =>
    intro succeeds a _ hle _ hfuel
    have ha : a = CLIENT_RECONNECT_DELAYS.length := by omega
    rw [connect, reconnectDelay_of_le ha.ge, ha, List.drop_length]
  | succ fuel ih =>
    intro succeeds a ha hle hfail hfuel
    rcases Nat.lt_or_ge a CLIENT_RECONNECT_DELAYS.length with hlt | hge
    · rw [connect_of_fail (hfail 0) (by omega) hlt,
        ih (fun j => succeeds (j + 1)) (a + 1) (by omega) hlt (fun j => hfail (j + 1)) (by omega),
        List.drop_eq_getElem_cons hlt]
    · rw [connect, reconnectDelay_of_le hge, Nat.le_antisymm hle hge, List.drop_length]

/-- **Reconnection runs out of delays.** The lookup of every attempt from `CLIENT_RECONNECT_DELAYS.size()` on is past
the table and throws `std::out_of_range`; so a chain of failed reconnects from any attempt `a ≥ 1` waits the table's
delays from `a` on and then ends with that exception, instead of scheduling another attempt with the last delay. -/
theorem reconnect_runs_out_of_delays :
    (∀ a, CLIENT_RECONNECT_DELAYS.length ≤ a → reconnectDelay a = none) ∧
    (∀ (succeeds : ℕ → Bool) (fuel a : ℕ), 1 ≤ a → a ≤ CLIENT_RECONNECT_DELAYS.length →
      (∀ j, succeeds j = false) → CLIENT_RECONNECT_DELAYS.length - a ≤ fuel →
      connect succeeds fuel a = (CLIENT_RECONNECT_DELAYS.drop a, .outOfRange)) :=
  ⟨fun _ h => reconnectDelay_of_le h, fun succeeds fuel a => connect_all_fail fuel succeeds a⟩

theorem reconnect_runs_out_of_delays_one :
    reconnectDelay 13 = none ∧
      connect (fun _ => false) 12 1 =
        ([100, 1000, 1000, 1000, 1000, 5000, 5000, 5000, 15000, 15000, 15000, 60000], .outOfRange) := by
  refine ⟨reconnect_runs_out_of_delays.1 13 (by decide), ?_⟩
  rw [reconnect_runs_out_of_delays.2 (fun _ => false) 12 1 (by decide) (by decide) (fun _ => rfl) (by decide)]
  rfl

end OneHelpers.Communication.ClientBootstrap
