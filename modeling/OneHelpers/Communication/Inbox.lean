/-
Model of `Inbox` (`src/communication/layers/inbox.h`): the layer that matches the server's replies to the requests
sent with `communicate`, and hands every incoming message to the subscriptions.

`communicate` takes the message id `std::to_string(m_seed + m_nextMsgId++)`: the sum is taken in `uint64_t` and the
counter is a `uint16_t`, so call `i` gets the decimal form of `(seed + i % 2^16) % 2^64`. The callback is stored
with `m_callbacks.insert(acc, messageId)` and then `acc->second = ...`: when the id is already in the table its
entry is reused, and the callback stored there before is dropped. The send-error callback captures the id; on an
error it takes the callback stored under it, if any, erases the entry and runs the callback with the error. The
`connect` callback looks the incoming message's id up, runs every subscription whose predicate accepts the message
(told whether the inbox handles it) and, if the id is in the table, erases the entry and runs its callback with the
message. `subscribe` fills a slot freed by a cancelled subscription before it appends one; a cancel function resets
its slot to `SubscriptionData{}`, whose predicate refuses every message.

A `communicate` callback is named by the number of the call that passed it, a subscription callback by the number of
its `subscribe` call, and the model records which callbacks ran and with what. The accessors make each operation on
the table atomic; the model runs the events one at a time.

Results:
- `run_inv`: over every run, a callback runs at most once, and only with a reply that carries its own call's id or
  with a send error;
- `inbox_drops_replaced_callback`: for every seed, with never more than two calls waiting, call `2^16` gets the id of
  call 0 and replaces its callback: the reply to call 0 runs the callback of call `2^16`, and the callback of call 0
  never runs.
-/
import Mathlib.Data.List.AList
import Mathlib.Tactic
import OneHelpers.Communication.Messages

namespace OneHelpers.Communication

/-! ## Message ids -/

/-- distinct numbers have distinct decimal forms -/
theorem toString_inj {a b : ℕ} (h : toString a = toString b) : a = b := by
  have hdigits : Nat.toDigits 10 a = Nat.toDigits 10 b := by
    have hchars := congrArg String.toList h
    rwa [show toString a = String.ofList (Nat.toDigits 10 a) from rfl,
      show toString b = String.ofList (Nat.toDigits 10 b) from rfl, String.toList_ofList,
      String.toList_ofList] at hchars
  calc a = Nat.ofDigitChars 10 (Nat.toDigits 10 a) 0 := (Nat.ofDigitChars_toDigits (by norm_num) le_rfl).symm
    _ = Nat.ofDigitChars 10 (Nat.toDigits 10 b) 0 := by rw [hdigits]
    _ = b := Nat.ofDigitChars_toDigits (by norm_num) le_rfl

/-- the message id of `communicate` call `i` from the seed `seed` -/
def messageIdOf (seed i : ℕ) : String := toString ((seed + i % 2 ^ 16) % 2 ^ 64)

/-- two calls get one id exactly when their numbers agree modulo `2^16` -/
theorem messageIdOf_eq_iff {seed i j : ℕ} : messageIdOf seed i = messageIdOf seed j ↔ i % 2 ^ 16 = j % 2 ^ 16 := by
  constructor
  · intro h
    have hsum := toString_inj h
    have hi : i % 2 ^ 16 < 2 ^ 16 := Nat.mod_lt _ (by norm_num)
    have hj : j % 2 ^ 16 < 2 ^ 16 := Nat.mod_lt _ (by norm_num)
    omega
  · intro h
    rw [messageIdOf, messageIdOf, h]

/-! ## The inbox -/

/-- what a `communicate` callback is run with: the reply, or the error of the failed send -/
inductive Outcome where
  | reply (m : ServerMessage)
  | error (ec : ℕ)
  deriving DecidableEq, Repr

/-- what a callback may be run with when its call got the id `messageId`: a reply carrying that id, or an error -/
def Outcome.Answers : Outcome → Option String → Prop
  | .reply m, messageId => messageId = some m.messageId
  | .error ec, _ => ec ≠ 0

/-- `SubscriptionData`: the predicate, told whether the inbox handles the message, and the callback, named by the
`subscribe` call that passed it (`none` for the empty callback of `SubscriptionData{}`) -/
structure SubscriptionData where
  predicate : ServerMessage → Bool → Bool
  callback : Option ℕ

/-- `SubscriptionData{}`: the predicate refuses every message -/
def SubscriptionData.empty : SubscriptionData := ⟨fun _ _ => false, none⟩

/-- the state of an `Inbox`, with what its callbacks captured and a record of the callbacks it ran -/
structure Inbox where
  /-- `m_callbacks`, each entry naming the call whose callback it holds -/
  callbacks : AList fun _ : String => ℕ
  seed : ℕ
  nextMsgId : ℕ
  subscriptions : List SubscriptionData
  /-- `m_unusedSubscriptions`, by slot -/
  unusedSubscriptions : List ℕ
  /-- the id each call's send-error callback captured, by call -/
  ids : List String
  /-- the slot each cancel function captured, by `subscribe` call -/
  slots : List ℕ
  /-- the `communicate` callbacks run, in order, with what they were run with -/
  invoked : List (ℕ × Outcome)
  /-- the subscription callbacks run, in order, with their message -/
  notified : List (Option ℕ × ServerMessage)

namespace Inbox

/-- a new inbox, its counter at 0, seeded with `seed` (`initializeMsgIdSeed`, the clock in nanoseconds) -/
def init (seed : ℕ) : Inbox := ⟨∅, seed, 0, [], [], [], [], [], []⟩

/-- `Inbox::communicate`: the next id, the callback stored under it, and the send handed to the lower layer -/
def communicate (s : Inbox) : Inbox :=
  let messageId := toString ((s.seed + s.nextMsgId) % 2 ^ 64)
  { s with
    callbacks := s.callbacks.insert messageId s.ids.length
    nextMsgId := (s.nextMsgId + 1) % 2 ^ 16
    ids := s.ids ++ [messageId] }

/-- the entry under `messageId`, if there is one, erased and its callback run with `outcome` -/
def answer (s : Inbox) (messageId : String) (outcome : Outcome) : Inbox :=
  match s.callbacks.lookup messageId with
  | some cb => { s with callbacks := s.callbacks.erase messageId, invoked := s.invoked ++ [(cb, outcome)] }
  | none => s

/-- the send-error callback of call `call`, run by the lower layer with `ec` (0 for a send that succeeded) -/
def sendError (s : Inbox) (call ec : ℕ) : Inbox :=
  if ec = 0 then s
  else
    match s.ids[call]? with
    | some messageId => s.answer messageId (.error ec)
    | none => s

/-- every subscription whose predicate accepts the message runs its callback -/
def notify (s : Inbox) (m : ServerMessage) : Inbox :=
  let handled := (s.callbacks.lookup m.messageId).isSome
  { s with
    notified := s.notified ++
      (s.subscriptions.filter fun sub => sub.predicate m handled).map fun sub => (sub.callback, m) }

/-- the callback `Inbox::connect` installs, on an incoming message -/
def onMessage (s : Inbox) (m : ServerMessage) : Inbox := (s.notify m).answer m.messageId (.reply m)

/-- `Inbox::subscribe`: a freed slot is reused before one is appended -/
def subscribe (s : Inbox) (predicate : ServerMessage → Bool → Bool) : Inbox :=
  let data : SubscriptionData := ⟨predicate, some s.slots.length⟩
  match s.unusedSubscriptions with
  | slot :: rest =>
    { s with subscriptions := s.subscriptions.set slot data, unusedSubscriptions := rest, slots := s.slots ++ [slot] }
  | [] => { s with subscriptions := s.subscriptions ++ [data], slots := s.slots ++ [s.subscriptions.length] }

/-- the cancel function `subscribe` call `j` returned -/
def cancel (s : Inbox) (j : ℕ) : Inbox :=
  match s.slots[j]? with
  | some slot =>
    { s with
      subscriptions := s.subscriptions.set slot .empty
      unusedSubscriptions := s.unusedSubscriptions ++ [slot] }
  | none => s

/-- what can happen to an inbox -/
inductive Event where
  | communicate
  /-- the lower layer runs the send-error callback of call `call` -/
  | sendError (call ec : ℕ)
  | message (m : ServerMessage)
  | subscribe (predicate : ServerMessage → Bool → Bool)
  /-- the cancel function of `subscribe` call `j` runs -/
  | cancel (j : ℕ)

def step (s : Inbox) : Event → Inbox
  | .communicate => s.communicate
  | .sendError call ec => s.sendError call ec
  | .message m => s.onMessage m
  | .subscribe predicate => s.subscribe predicate
  | .cancel j => s.cancel j

def run (s : Inbox) (evs : List Event) : Inbox := evs.foldl step s

/-- every state of a run, the first one included -/
def trace (s : Inbox) (evs : List Event) : List Inbox := evs.scanl step s

/-- the `communicate` calls whose callback has not run -/
def waiting (s : Inbox) : List ℕ := (List.range s.ids.length).filter fun i => i ∉ s.invoked.map Prod.fst

/-! ## What each operation changes -/

@[simp] theorem communicate_seed (s : Inbox) : s.communicate.seed = s.seed := rfl
@[simp] theorem communicate_ids (s : Inbox) :
    s.communicate.ids = s.ids ++ [toString ((s.seed + s.nextMsgId) % 2 ^ 64)] := rfl
@[simp] theorem communicate_invoked (s : Inbox) : s.communicate.invoked = s.invoked := rfl

@[simp] theorem answer_seed (s : Inbox) (k : String) (o : Outcome) : (s.answer k o).seed = s.seed := by
  unfold answer; split <;> rfl
@[simp] theorem answer_nextMsgId (s : Inbox) (k : String) (o : Outcome) : (s.answer k o).nextMsgId = s.nextMsgId := by
  unfold answer; split <;> rfl
@[simp] theorem answer_ids (s : Inbox) (k : String) (o : Outcome) : (s.answer k o).ids = s.ids := by
  unfold answer; split <;> rfl

theorem answer_of_lookup {s : Inbox} {k : String} {cb : ℕ} (h : s.callbacks.lookup k = some cb) (o : Outcome) :
    (s.answer k o).callbacks = s.callbacks.erase k ∧ (s.answer k o).invoked = s.invoked ++ [(cb, o)] := by
  simp [answer, h]

theorem answer_of_lookup_none {s : Inbox} {k : String} (h : s.callbacks.lookup k = none) (o : Outcome) :
    s.answer k o = s := by
  simp [answer, h]

/-- the reply the server sends to the request with the id `messageId` -/
def reply (messageId : String) : ServerMessage := ⟨messageId, none, .other 0⟩

/-- one call answered at once: its entry is stored and erased again, and its callback runs with the reply -/
theorem run_answered (s : Inbox) {messageId : String} (hid : toString ((s.seed + s.nextMsgId) % 2 ^ 64) = messageId) :
    (s.run [.communicate, .message (reply messageId)]).callbacks =
        (s.callbacks.insert messageId s.ids.length).erase messageId ∧
      (s.run [.communicate, .message (reply messageId)]).invoked =
        s.invoked ++ [(s.ids.length, .reply (reply messageId))] ∧
      (s.run [.communicate, .message (reply messageId)]).ids = s.ids ++ [messageId] ∧
      (s.run [.communicate, .message (reply messageId)]).nextMsgId = (s.nextMsgId + 1) % 2 ^ 16 ∧
      (s.run [.communicate, .message (reply messageId)]).seed = s.seed := by
  subst hid
  have hlookup : (s.communicate.notify (reply (toString ((s.seed + s.nextMsgId) % 2 ^ 64)))).callbacks.lookup
      (toString ((s.seed + s.nextMsgId) % 2 ^ 64)) = some s.ids.length := AList.lookup_insert _
  obtain ⟨hcb, hinv⟩ := answer_of_lookup hlookup (.reply (reply (toString ((s.seed + s.nextMsgId) % 2 ^ 64))))
  exact ⟨hcb, hinv, answer_ids _ _ _, answer_nextMsgId _ _ _, answer_seed _ _ _⟩

/-- no event changes the seed -/
theorem step_seed (s : Inbox) (e : Event) : (s.step e).seed = s.seed := by
  cases e with
  | communicate => rfl
  | sendError call ec =>
    simp only [step, Inbox.sendError]
    split_ifs
    · rfl
    · split
      · exact answer_seed _ _ _
      · rfl
  | message m => exact answer_seed _ _ _
  | subscribe predicate =>
    simp only [step, Inbox.subscribe]
    split <;> rfl
  | cancel j =>
    simp only [step, Inbox.cancel]
    split <;> rfl

theorem run_seed (s : Inbox) (evs : List Event) : (s.run evs).seed = s.seed := by
  induction evs generalizing s with
  | nil => rfl
  | cons e evs ih => exact (ih (s.step e)).trans (step_seed s e)

/-- an entry of the table after an insertion is the inserted one or was there before -/
theorem lookup_insert_eq_some {t : AList fun _ : String => ℕ} {k k' : String} {cb cb' : ℕ}
    (h : (t.insert k cb).lookup k' = some cb') : k' = k ∧ cb' = cb ∨ k' ≠ k ∧ t.lookup k' = some cb' := by
  by_cases hkk : k' = k
  · rw [hkk, AList.lookup_insert, Option.some.injEq] at h
    exact Or.inl ⟨hkk, h.symm⟩
  · rw [AList.lookup_insert_ne hkk] at h
    exact Or.inr ⟨hkk, h⟩

/-- an entry of the table after an erasure was there before, under another id -/
theorem lookup_erase_eq_some {t : AList fun _ : String => ℕ} {k k' : String} {cb : ℕ}
    (h : (t.erase k).lookup k' = some cb) : k' ≠ k ∧ t.lookup k' = some cb := by
  by_cases hkk : k' = k
  · rw [hkk, AList.lookup_erase] at h
    cases h
  · rw [AList.lookup_erase_ne hkk] at h
    exact ⟨hkk, h⟩

/-! ## Invariant -/

/-- the inbox invariant: the ids are those of the calls, every entry of the table is under its own call's id, and
a callback that has run has run once, is no longer in the table, and was run with a reply to its call or an error -/
structure Inv (s : Inbox) : Prop where
  nextMsgId_eq : s.nextMsgId = s.ids.length % 2 ^ 16
  ids_eq : ∀ i (hi : i < s.ids.length), s.ids[i] = messageIdOf s.seed i
  keys : ∀ k cb, s.callbacks.lookup k = some cb → s.ids[cb]? = some k
  invoked_lt : ∀ p ∈ s.invoked, p.1 < s.ids.length
  once : (s.invoked.map Prod.fst).Nodup
  done : ∀ p ∈ s.invoked, ∀ k, s.callbacks.lookup k ≠ some p.1
  outcome : ∀ p ∈ s.invoked, p.2.Answers s.ids[p.1]?

theorem inv_init (seed : ℕ) : (init seed).Inv where
  nextMsgId_eq := rfl
  ids_eq := fun i hi => absurd hi (Nat.not_lt_zero i)
  keys := fun k cb h => by simp [init, AList.lookup_empty] at h
  invoked_lt := fun p hp => by simp [init] at hp
  once := List.nodup_nil
  done := fun p hp => by simp [init] at hp
  outcome := fun p hp => by simp [init] at hp

/-- the invariant reads only the table, the counter, the seed, the ids and the record of callbacks run -/
theorem Inv.frame {s s' : Inbox} (h : s.Inv) (hcb : s'.callbacks = s.callbacks) (hseed : s'.seed = s.seed)
    (hnext : s'.nextMsgId = s.nextMsgId) (hids : s'.ids = s.ids) (hinv : s'.invoked = s.invoked) : s'.Inv := by
  obtain ⟨h1, h2, h3, h4, h5, h6, h7⟩ := h
  rw [← hcb, ← hseed, ← hnext, ← hids, ← hinv] at *
  exact ⟨h1, h2, h3, h4, h5, h6, h7⟩

theorem Inv.communicate {s : Inbox} (h : s.Inv) : s.communicate.Inv where
  nextMsgId_eq := by
    simp only [Inbox.communicate, List.length_append, List.length_singleton, h.nextMsgId_eq, Nat.mod_add_mod]
  ids_eq := by
    intro i hi
    simp only [Inbox.communicate, List.length_append, List.length_singleton] at hi ⊢
    rcases Nat.lt_succ_iff_lt_or_eq.mp hi with hi | rfl
    · rw [List.getElem_append_left hi]
      exact h.ids_eq i hi
    · rw [List.getElem_append_right (le_refl _)]
      simp [messageIdOf, h.nextMsgId_eq]
  keys := by
    intro k cb hk
    simp only [Inbox.communicate] at hk ⊢
    rcases lookup_insert_eq_some hk with ⟨hnew, rfl⟩ | ⟨-, hk⟩
    · -- the new entry, of the new call
      simp [hnew]
    · have hold := h.keys k cb hk
      have hlt : cb < s.ids.length := (List.getElem?_eq_some_iff.mp hold).1
      rw [List.getElem?_append_left hlt]
      exact hold
  invoked_lt := fun p hp => by
    simp only [Inbox.communicate, List.length_append, List.length_singleton]
    exact Nat.lt_succ_of_lt (h.invoked_lt p hp)
  once := h.once
  done := by
    intro p hp k hk
    simp only [Inbox.communicate] at hk
    rcases lookup_insert_eq_some hk with ⟨-, hnew⟩ | ⟨-, hk⟩
    · -- the new entry holds the new call, and every call that has run is older
      exact absurd hnew (h.invoked_lt p hp).ne
    · exact h.done p hp k hk
  outcome := by
    intro p hp
    simp only [Inbox.communicate]
    rw [List.getElem?_append_left (h.invoked_lt p hp)]
    exact h.outcome p hp

/-- answering a message id with an outcome that fits it keeps the invariant -/
theorem Inv.answer {s : Inbox} (h : s.Inv) (k : String) {o : Outcome} (ho : o.Answers (some k)) :
    (s.answer k o).Inv := by
  cases hk : s.callbacks.lookup k with
  | none => rwa [answer_of_lookup_none hk]
  | some cb =>
    obtain ⟨hcb, hinv⟩ := answer_of_lookup hk o
    have hid : s.ids[cb]? = some k := h.keys k cb hk
    refine ⟨?_, ?_, ?_, ?_, ?_, ?_, ?_⟩
    · rw [answer_nextMsgId, answer_ids]
      exact h.nextMsgId_eq
    · rw [answer_ids, answer_seed]
      exact h.ids_eq
    · intro k' cb' hk'
      rw [hcb] at hk'
      rw [answer_ids]
      exact h.keys k' cb' (lookup_erase_eq_some hk').2
    · intro p hp
      rw [hinv, List.mem_append, List.mem_singleton] at hp
      rw [answer_ids]
      rcases hp with hp | rfl
      · exact h.invoked_lt p hp
      · exact (List.getElem?_eq_some_iff.mp hid).1
    · -- the callback taken from the table has not run before
      rw [hinv, List.map_append, List.map_singleton, List.nodup_append]
      refine ⟨h.once, List.nodup_singleton _, ?_⟩
      intro a ha b hb hab
      rw [List.mem_singleton] at hb
      obtain ⟨p, hp, rfl⟩ := List.mem_map.mp ha
      exact h.done p hp k (hk.trans (congrArg some (hab.trans hb).symm))
    · intro p hp k' hk'
      rw [hcb] at hk'
      rw [hinv, List.mem_append, List.mem_singleton] at hp
      obtain ⟨hkk, hk'⟩ := lookup_erase_eq_some hk'
      rcases hp with hp | rfl
      · exact h.done p hp k' hk'
      · -- one call has one id, so the erased entry was its only one
        exact hkk (Option.some.inj ((h.keys k' _ hk').symm.trans hid))
    · intro p hp
      rw [hinv, List.mem_append, List.mem_singleton] at hp
      rw [answer_ids]
      rcases hp with hp | rfl
      · exact h.outcome p hp
      · rw [hid]
        exact ho

theorem Inv.sendError {s : Inbox} (h : s.Inv) (call ec : ℕ) : (s.sendError call ec).Inv := by
  unfold Inbox.sendError
  split_ifs with hec
  · exact h
  · split
    · exact h.answer _ hec
    · exact h

theorem Inv.onMessage {s : Inbox} (h : s.Inv) (m : ServerMessage) : (s.onMessage m).Inv :=
  (h.frame rfl rfl rfl rfl rfl : (s.notify m).Inv).answer m.messageId rfl

theorem Inv.subscribe {s : Inbox} (h : s.Inv) (predicate : ServerMessage → Bool → Bool) :
    (s.subscribe predicate).Inv := by
  unfold Inbox.subscribe
  split
  · exact h.frame rfl rfl rfl rfl rfl
  · exact h.frame rfl rfl rfl rfl rfl

theorem Inv.cancel {s : Inbox} (h : s.Inv) (j : ℕ) : (s.cancel j).Inv := by
  unfold Inbox.cancel
  split
  · exact h.frame rfl rfl rfl rfl rfl
  · exact h

/-- **Every event keeps the invariant.** -/
theorem Inv.step {s : Inbox} (h : s.Inv) : ∀ e, (s.step e).Inv
  | .communicate => h.communicate
  | .sendError call ec => h.sendError call ec
  | .message m => h.onMessage m
  | .subscribe predicate => h.subscribe predicate
  | .cancel j => h.cancel j

theorem Inv.run {s : Inbox} (h : s.Inv) (evs : List Event) : (s.run evs).Inv := by
  induction evs generalizing s with
  | nil => exact h
  | cons e evs ih => exact ih (h.step e)

/-- **Over every run**, the invariant holds. -/
theorem run_inv (seed : ℕ) (evs : List Event) : ((init seed).run evs).Inv := (inv_init seed).run evs

/-- **A callback runs at most once, on its call's id.** Over every run, no call's callback runs twice, and each one
that ran got an incoming message carrying the id of its call, the decimal form of `seed + i` with `i` its number
modulo `2^16`, or a send error -/
theorem callbacks_run_once (seed : ℕ) (evs : List Event) :
    (((init seed).run evs).invoked.map Prod.fst).Nodup ∧
      ∀ p ∈ ((init seed).run evs).invoked, p.2.Answers (some (messageIdOf seed p.1)) := by
  have h := run_inv seed evs
  refine ⟨h.once, fun p hp => ?_⟩
  have hlt := h.invoked_lt p hp
  have hid : ((init seed).run evs).ids[p.1]? = some (messageIdOf seed p.1) := by
    rw [List.getElem?_eq_getElem hlt, h.ids_eq p.1 hlt, run_seed]
    rfl
  rw [← hid]
  exact h.outcome p hp

/-! ## Call `2^16` takes the id of call 0 -/

/-- call `i`, answered at once -/
def round (seed i : ℕ) : List Event := [.communicate, .message (reply (messageIdOf seed i))]

/-- call 0, then calls 1 to `k`, each answered at once -/
def rounds (seed k : ℕ) : List Event := .communicate :: (List.range' 1 k).flatMap (round seed)

/-- call 0, calls 1 to `2^16 - 1` each answered at once, then call `2^16` and the reply to call 0 -/
def collisionRun (seed : ℕ) : List Event := rounds seed (2 ^ 16 - 1) ++ round seed 0

theorem run_append (s : Inbox) (evs evs' : List Event) : s.run (evs ++ evs') = (s.run evs).run evs' :=
  List.foldl_append

theorem mem_trace_append {s t : Inbox} {evs evs' : List Event} (ht : t ∈ s.trace (evs ++ evs')) :
    t ∈ s.trace evs ∨ t ∈ (s.run evs).trace evs' := by
  rw [trace, List.scanl_append, List.mem_append] at ht
  rcases ht with ht | ht
  · exact .inl ht
  · exact .inr (List.mem_of_mem_tail ht)

/-- with calls 1 to `k` run and the ids of `k + 1 + j` calls out, at most `j + 1` calls are waiting -/
theorem waiting_length_le {s : Inbox} {k j : ℕ} (hlen : s.ids.length = k + 1 + j)
    (hran : ∀ i ∈ List.range' 1 k, i ∈ s.invoked.map Prod.fst) : s.waiting.length ≤ j + 1 := by
  have hsub : s.waiting.Sublist ((List.range (k + 1 + j)).filter fun i => i ∉ List.range' 1 k) := by
    rw [waiting, hlen]
    apply List.monotone_filter_right
    intro i hi
    simp only [decide_eq_true_eq] at hi ⊢
    exact fun hmem => hi (hran i hmem)
  -- what is left of `0 .. k + j` once `1 .. k` is taken out
  have hrest : ((List.range (k + 1 + j)).filter fun i => i ∉ List.range' 1 k) = 0 :: List.range' (k + 1) j := by
    rw [List.range_eq_range', show k + 1 + j = (k + j) + 1 by omega, List.range'_succ, ← List.range'_append,
      List.filter_cons_of_pos (by simp), List.filter_append]
    have hin : (List.range' (0 + 1) k).filter (fun i => i ∉ List.range' 1 k) = [] :=
      List.filter_eq_nil_iff.mpr fun i hi => by
        rw [Nat.zero_add] at hi
        simp [hi]
    have hout : (List.range' (0 + 1 + 1 * k) j).filter (fun i => i ∉ List.range' 1 k) =
        List.range' (0 + 1 + 1 * k) j :=
      List.filter_eq_self.mpr fun i hi => by
        rw [List.mem_range'_1] at hi
        simp only [List.mem_range'_1, decide_eq_true_eq]
        omega
    rw [hin, hout, List.nil_append, show 0 + 1 + 1 * k = k + 1 by omega]
  calc s.waiting.length ≤ ((List.range (k + 1 + j)).filter fun i => i ∉ List.range' 1 k).length := hsub.length_le
    _ = j + 1 := by rw [hrest, List.length_cons, List.length_range']

/-- the state once calls 0 to `k` are out and 1 to `k` answered: only call 0 is in the table -/
structure AfterRounds (seed k : ℕ) (s : Inbox) : Prop where
  lookup_eq : ∀ x, s.callbacks.lookup x = if x = messageIdOf seed 0 then some 0 else none
  seed_eq : s.seed = seed
  nextMsgId_eq : s.nextMsgId = (k + 1) % 2 ^ 16
  length_ids : s.ids.length = k + 1
  invoked_eq : s.invoked = (List.range' 1 k).map fun i => (i, .reply (reply (messageIdOf seed i)))

theorem AfterRounds.waiting_length {seed k : ℕ} {s : Inbox} (h : AfterRounds seed k s) :
    s.waiting.length ≤ 1 ∧ s.communicate.waiting.length ≤ 2 := by
  have hran : ∀ i ∈ List.range' 1 k, i ∈ s.invoked.map Prod.fst := fun i hi => by
    rw [h.invoked_eq, List.map_map]
    simpa using hi
  refine ⟨waiting_length_le (j := 0) h.length_ids hran, waiting_length_le (j := 1) ?_ hran⟩
  rw [communicate_ids, List.length_append, h.length_ids, List.length_singleton]

/-- the id the next call of a state after `k` rounds gets -/
theorem AfterRounds.nextId {seed k : ℕ} {s : Inbox} (h : AfterRounds seed k s) :
    toString ((s.seed + s.nextMsgId) % 2 ^ 64) = messageIdOf seed (k + 1) := by
  rw [h.seed_eq, h.nextMsgId_eq, messageIdOf]

theorem afterRounds_zero (seed : ℕ) : AfterRounds seed 0 ((init seed).run (rounds seed 0)) where
  lookup_eq := fun x => by
    have hid : toString ((seed + 0) % 2 ^ 64) = messageIdOf seed 0 := rfl
    simp only [rounds, List.range'_zero, List.flatMap_nil, run, List.foldl_cons, List.foldl_nil, step,
      Inbox.communicate, init, hid]
    by_cases hx : x = messageIdOf seed 0
    · rw [hx, AList.lookup_insert, if_pos rfl]
      rfl
    · rw [AList.lookup_insert_ne hx, AList.lookup_empty, if_neg hx]
  seed_eq := rfl
  nextMsgId_eq := rfl
  length_ids := rfl
  invoked_eq := rfl

/-- one more round: call `k + 1` is stored and answered, and only call 0 stays in the table -/
theorem AfterRounds.next {seed k : ℕ} {s : Inbox} (h : AfterRounds seed k s) (hk : k + 1 < 2 ^ 16) :
    AfterRounds seed (k + 1) (s.run (round seed (k + 1))) := by
  obtain ⟨hcb, hinv, hids, hnext, hseed⟩ := run_answered s h.nextId
  have hne : messageIdOf seed (k + 1) ≠ messageIdOf seed 0 := by
    rw [Ne, messageIdOf_eq_iff, Nat.mod_eq_of_lt hk, Nat.zero_mod]
    omega
  refine ⟨fun x => ?_, ?_, ?_, ?_, ?_⟩
  · rw [Inbox.round, hcb]
    by_cases hx : x = messageIdOf seed (k + 1)
    · rw [hx, AList.lookup_erase, if_neg hne]
    · rw [AList.lookup_erase_ne hx, AList.lookup_insert_ne hx, h.lookup_eq]
  · rw [Inbox.round, hseed, h.seed_eq]
  · rw [Inbox.round, hnext, h.nextMsgId_eq, Nat.mod_add_mod]
  · rw [Inbox.round, hids, List.length_append, h.length_ids, List.length_singleton]
  · rw [Inbox.round, hinv, h.invoked_eq, h.length_ids, List.range'_concat, List.map_append, List.map_singleton,
      show 1 + 1 * k = k + 1 by omega]

/-- the last round, once the counter wraps: the call gets the id of call 0 and the reply to call 0 runs its
callback -/
theorem AfterRounds.wrap {seed k : ℕ} {s : Inbox} (h : AfterRounds seed k s) (hk : (k + 1) % 2 ^ 16 = 0) :
    (s.run (round seed 0)).invoked = s.invoked ++ [(k + 1, .reply (reply (messageIdOf seed 0)))] ∧
      (s.run (round seed 0)).ids.length = k + 1 + 1 ∧
      ∀ t ∈ s.trace (round seed 0), t.waiting.length ≤ 2 := by
  have hid : toString ((s.seed + s.nextMsgId) % 2 ^ 64) = messageIdOf seed 0 := by
    rw [h.nextId, messageIdOf_eq_iff, hk, Nat.zero_mod]
  obtain ⟨-, hinv, hids, -, -⟩ := run_answered s hid
  have hround : round seed 0 = [.communicate, .message (reply (messageIdOf seed 0))] := rfl
  rw [← hround, h.length_ids] at hinv
  rw [← hround] at hids
  have hlen : (s.run (round seed 0)).ids.length = k + 1 + 1 := by
    rw [hids, List.length_append, h.length_ids, List.length_singleton]
  refine ⟨hinv, hlen, fun t ht => ?_⟩
  -- the three states of the round: before it, after the call, after the reply
  simp only [Inbox.round, trace, List.scanl_cons, List.scanl_nil, List.mem_cons, List.not_mem_nil, or_false] at ht
  rcases ht with rfl | rfl | rfl
  · exact h.waiting_length.1.trans (by norm_num)
  · exact h.waiting_length.2
  · apply waiting_length_le (k := k) (j := 1) hlen
    intro i hi
    rw [hinv, h.invoked_eq, List.map_append, List.map_map]
    exact List.mem_append_left _ (by simpa using hi)

/-- **The rounds**: after calls 0 to `k`, 1 to `k` answered, only call 0 waits, and never more than two calls
waited -/
theorem afterRounds_rounds (seed : ℕ) {k : ℕ} (hk : k < 2 ^ 16) :
    AfterRounds seed k ((init seed).run (rounds seed k)) ∧
      ∀ t ∈ (init seed).trace (rounds seed k), t.waiting.length ≤ 2 := by
  induction k with
  | zero =>
    refine ⟨afterRounds_zero seed, fun t ht => ?_⟩
    simp only [rounds, List.range'_zero, List.flatMap_nil, trace, List.scanl_cons, List.scanl_nil,
      List.mem_cons, List.not_mem_nil, or_false] at ht
    rcases ht with rfl | rfl
    · simp [waiting, init]
    · exact (afterRounds_zero seed).waiting_length.1.trans (by norm_num)
  | succ k ih =>
    obtain ⟨hafter, htrace⟩ := ih (by omega)
    have hsplit : rounds seed (k + 1) = rounds seed k ++ round seed (k + 1) := by
      rw [rounds, rounds, List.range'_concat, show 1 + 1 * k = k + 1 by omega, List.flatMap_append,
        List.flatMap_singleton, List.cons_append]
    have hnext := hafter.next hk
    rw [hsplit, run_append]
    refine ⟨hnext, fun t ht => ?_⟩
    rcases mem_trace_append ht with ht | ht
    · exact htrace t ht
    · -- the three states of the round: before it, after the call, after the reply
      simp only [round, trace, List.scanl_cons, List.scanl_nil, List.mem_cons, List.not_mem_nil, or_false] at ht
      rcases ht with rfl | rfl | rfl
      · exact hafter.waiting_length.1.trans (by norm_num)
      · exact hafter.waiting_length.2
      · exact hnext.waiting_length.1.trans (by norm_num)

/-- **A reused id drops a callback.** For every seed, in a run where never more than two calls wait at once and no
send fails, call `2^16` gets the id of call 0, which is still waiting; the reply to call 0 then runs the callback of
call `2^16`, and the callback of call 0 never runs. -/
theorem inbox_drops_replaced_callback (seed : ℕ) :
    (∀ t ∈ (init seed).trace (collisionRun seed), t.waiting.length ≤ 2) ∧
      ((init seed).run (collisionRun seed)).ids[0]? = some (messageIdOf seed 0) ∧
      ((init seed).run (collisionRun seed)).ids[2 ^ 16]? = some (messageIdOf seed 0) ∧
      (∀ p ∈ ((init seed).run (collisionRun seed)).invoked, p.1 ≠ 0) ∧
      ((init seed).run (collisionRun seed)).invoked.getLast? = some (2 ^ 16, .reply (reply (messageIdOf seed 0))) := by
  obtain ⟨hafter, htrace⟩ := afterRounds_rounds seed (k := 2 ^ 16 - 1) (by norm_num)
  -- the counter wraps in the last round
  obtain ⟨hinv, hlen, hlast⟩ := hafter.wrap (by norm_num)
  rw [← run_append, ← collisionRun, hafter.invoked_eq, show 2 ^ 16 - 1 + 1 = 2 ^ 16 by norm_num] at hinv
  rw [← run_append, ← collisionRun, show 2 ^ 16 - 1 + 1 + 1 = 2 ^ 16 + 1 by norm_num] at hlen
  -- every call got the id of its number
  have hid : ∀ i, i < 2 ^ 16 + 1 → ((init seed).run (collisionRun seed)).ids[i]? = some (messageIdOf seed i) := by
    intro i hi
    rw [List.getElem?_eq_getElem (hlen ▸ hi), (run_inv seed (collisionRun seed)).ids_eq i (hlen ▸ hi), run_seed]
    rfl
  refine ⟨fun t ht => ?_, hid 0 (by norm_num), ?_, ?_, ?_⟩
  · rcases mem_trace_append ht with ht | ht
    · exact htrace t ht
    · exact hlast t ht
  · rw [hid (2 ^ 16) (by norm_num), Option.some.injEq, messageIdOf_eq_iff]
    norm_num
  · intro p hp
    rw [hinv, List.mem_append, List.mem_map, List.mem_singleton] at hp
    rcases hp with ⟨i, hi, rfl⟩ | rfl
    · exact Nat.one_le_iff_ne_zero.mp (List.mem_range'_1.mp hi).1
    · norm_num
  · rw [hinv, List.getLast?_append, List.getLast?_singleton]
    rfl

end Inbox

end OneHelpers.Communication
