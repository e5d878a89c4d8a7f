/-
The sessions of a `WebDAVHelper`: `m_connectionPoolSize` sessions, of which the idle ones wait in
`m_idleSessionPool`. `connect()` takes the session at the front of the pool and waits for it to be connected; the
request made with it keeps it in `m_session` and gives it back to the pool from `detachTransaction`, from its
destructor, or from a failed `startTransaction`; a session whose connection fails is given back by
`WebDAVSession::connectError`. The request's `operator()` sets `m_destructionGuard` before `startTransaction`, and
only `detachTransaction` resets it, so a request is destroyed only without a transaction started or after it is
detached. The pool is a `folly::MPMCQueue` of capacity 100, whose `write` drops a session when it is full; the
constructor writes every session to it.

The model is one state for the pool, the `connect()` calls waiting for their session and the live requests, advanced
by what the helper's callers and the HTTP layer do. A request is named by the `connect()` call that made it.

Results:
- `owners_step` (step) and `run_owners` (run): on every run in which no `startTransaction` fails and no connection
  fails, no step adds a session: each is idle, waited for or held by a request, at most once
  (`run_sessions_exclusive`).
- `destroy_of_destructionGuard`: a request whose `startTransaction` failed is never destroyed, so the session it
  gave back is not given back again.
- `webDAV_sessions_shared`: a `connectError` puts a session back in the pool while the `connect()` call that took it
  still waits on it, so a second call takes it too.
-/
import Mathlib.Tactic
import OneHelpers.Core.KeyedList

namespace OneHelpers.WebDAV

open scoped List

/-- a live `WebDAVRequest`: the `connect()` call that made it, `m_session`, whether it has a transaction, and
whether `m_destructionGuard` holds it -/
structure WebDAVRequest where
  id : ℕ
  session : Option ℕ
  transaction : Bool
  destructionGuard : Bool
  deriving DecidableEq, Repr

/-- the sessions of a `WebDAVHelper`: `m_idleSessionPool` (a FIFO queue), the `connect()` calls waiting for the
session they took to be connected, the live requests, and the number of the next `connect()` call -/
structure Sessions where
  idleSessionPool : List ℕ
  connecting : List (ℕ × ℕ)
  requests : List WebDAVRequest
  nextId : ℕ
  deriving DecidableEq, Repr

namespace Sessions

/-- the capacity `m_idleSessionPool{100}` of the `folly::MPMCQueue` -/
def idleSessionPoolCapacity : ℕ := 100

/-- `WebDAVHelper::releaseSession`: `MPMCQueue::write`, which drops the session when the queue is full -/
def releaseSession (s : Sessions) (session : ℕ) : Sessions :=
  if s.idleSessionPool.length < idleSessionPoolCapacity then { s with idleSessionPool := s.idleSessionPool ++ [session] }
  else s

/-- the constructor: each of the `connectionPoolSize` sessions is written to the pool in turn -/
def init (connectionPoolSize : ℕ) : Sessions := (List.range connectionPoolSize).foldl releaseSession ⟨[], [], [], 0⟩

/-- `WebDAVHelper::connect`: `blockingRead` takes the session at the front of the pool, waiting while there is
none, and the call waits for the session to be connected -/
def connect (s : Sessions) : Sessions :=
  match s.idleSessionPool with
  | [] => s
  | session :: rest =>
    { s with idleSessionPool := rest, connecting := s.connecting ++ [(s.nextId, session)], nextId := s.nextId + 1 }

/-- `WebDAVSession::connectError`: the session goes back to the pool; the `connect()` calls waiting for it go on
waiting -/
def connectError (s : Sessions) (session : ℕ) : Sessions := s.releaseSession session

/-- the session of `connect()` call `id` is connected: the call's continuation makes its request with it -/
def connected (s : Sessions) (id : ℕ) : Sessions :=
  match s.connecting.find? (·.1 = id) with
  | some (_, session) =>
    { s with
      connecting := s.connecting.filter (·.1 ≠ id)
      requests := s.requests ++ [⟨id, some session, false, false⟩] }
  | none => s

/-- the future of `connect()` call `id` fails (a `reset()` of the session broke its promise): no request is made,
and the session is not given back -/
def connectFailed (s : Sessions) (id : ℕ) : Sessions := { s with connecting := s.connecting.filter (·.1 ≠ id) }

/-- the live request `id` -/
def request? (s : Sessions) (id : ℕ) : Option WebDAVRequest := s.requests.find? (·.id = id)

/-- request `id` changes -/
def updateRequest (s : Sessions) (id : ℕ) (f : WebDAVRequest → WebDAVRequest) : Sessions :=
  { s with requests := s.requests.map fun r => if r.id = id then f r else r }

/-- the request's `operator()` sets `m_destructionGuard`, then calls `WebDAVRequest::startTransaction`: with a
transaction the request goes on; on a closed or invalid session, or when the session makes no transaction, the
session is given back (`std::move` of the raw pointer `m_session` leaves it as it was) and the call fails -/
def startTransaction (s : Sessions) (id : ℕ) (ok : Bool) : Sessions :=
  match s.request? id with
  | some ⟨_, some session, false, _⟩ =>
    if ok then s.updateRequest id fun r => { r with transaction := true, destructionGuard := true }
    else (s.updateRequest id fun r => { r with destructionGuard := true }).releaseSession session
  | _ => s

/-- `WebDAVRequest::detachTransaction`: the session is given back, `m_session` cleared and `m_destructionGuard`
reset -/
def detachTransaction (s : Sessions) (id : ℕ) : Sessions :=
  match s.request? id with
  | some ⟨_, some session, true, _⟩ =>
    (s.updateRequest id fun r => { r with session := none, destructionGuard := false }).releaseSession session
  | _ => s

/-- the last owner outside the request lets it go: while `m_destructionGuard` holds it nothing happens, and
otherwise `~WebDAVRequest` gives back a session still in `m_session` -/
def destroy (s : Sessions) (id : ℕ) : Sessions :=
  match s.request? id with
  | some r =>
    if r.destructionGuard then s
    else
      match r.session with
      | some session => { s with requests := s.requests.filter (·.id ≠ id) }.releaseSession session
      | none => { s with requests := s.requests.filter (·.id ≠ id) }
  | none => s

/-- what happens to the sessions -/
inductive Event where
  | connect
  | connectError (session : ℕ)
  | connected (id : ℕ)
  | connectFailed (id : ℕ)
  | startTransaction (id : ℕ) (ok : Bool)
  | detachTransaction (id : ℕ)
  | destroy (id : ℕ)
  deriving DecidableEq, Repr

def step (s : Sessions) : Event → Sessions
  | .connect => s.connect
  | .connectError session => s.connectError session
  | .connected id => s.connected id
  | .connectFailed id => s.connectFailed id
  | .startTransaction id ok => s.startTransaction id ok
  | .detachTransaction id => s.detachTransaction id
  | .destroy id => s.destroy id

def run (s : Sessions) (evs : List Event) : Sessions := evs.foldl step s

/-! ## Who holds a session -/

/-- every place a session is: idle in the pool, taken by a waiting `connect()` call, or in a request's `m_session` -/
def owners (s : Sessions) : List ℕ :=
  s.idleSessionPool ++ s.connecting.map Prod.snd ++ s.requests.filterMap WebDAVRequest.session

/-- the `connect()` calls the helper knows of: waiting, or with their request alive -/
def calls (s : Sessions) : List ℕ := s.connecting.map Prod.fst ++ s.requests.map WebDAVRequest.id

/-- the events after which the sessions stay apart: no `startTransaction` fails and no connection fails -/
def Event.Safe : Event → Prop
  | .startTransaction _ ok => ok = true
  | .connectError _ => False
  | _ => True

/-- the calls the helper knows of are distinct and numbered before the next one -/
structure Inv (s : Sessions) : Prop where
  nodup : s.calls.Nodup
  fresh : ∀ i ∈ s.calls, i < s.nextId

theorem request?_eq_some {s : Sessions} {id : ℕ} {r : WebDAVRequest} (h : s.request? id = some r) :
    r ∈ s.requests ∧ r.id = id :=
  ⟨List.mem_of_find?_eq_some h, by simpa using List.find?_some h⟩

theorem connecting_of_find? {s : Sessions} {id : ℕ} {c : ℕ × ℕ} (h : s.connecting.find? (·.1 = id) = some c) :
    c ∈ s.connecting ∧ c.1 = id :=
  ⟨List.mem_of_find?_eq_some h, by simpa using List.find?_some h⟩

/-! ### The pool -/

/-- the sessions written to the pool, past its capacity, are dropped -/
theorem releaseSession_idleSessionPool (s : Sessions) (session : ℕ) :
    (s.releaseSession session).idleSessionPool <+ s.idleSessionPool ++ [session] := by
  unfold releaseSession
  split_ifs
  · exact List.Sublist.refl _
  · exact List.sublist_append_left _ _

/-- the constructor leaves the first `idleSessionPoolCapacity` sessions idle -/
theorem init_idleSessionPool (connectionPoolSize : ℕ) :
    (init connectionPoolSize).idleSessionPool = (List.range connectionPoolSize).take idleSessionPoolCapacity := by
  -- the loop of the constructor, one session after another
  have hloop : ∀ (n : ℕ) (s : Sessions), s.idleSessionPool = (List.range n).take idleSessionPoolCapacity →
      (releaseSession s n).idleSessionPool = (List.range (n + 1)).take idleSessionPoolCapacity := by
    intro n s hs
    unfold releaseSession
    rw [hs, List.length_take, List.length_range, List.range_succ, List.take_append, List.length_range]
    split_ifs with hlt
    · -- room in the pool: `n` is written
      rw [show idleSessionPoolCapacity - n = idleSessionPoolCapacity - n - 1 + 1 by omega, List.take_succ_cons,
        List.take_nil]
    · -- the pool is full: `n` is dropped
      rw [show idleSessionPoolCapacity - n = 0 by omega, List.take_zero, List.append_nil]
      exact hs
  have hfold : ∀ (n : ℕ), ((List.range n).foldl releaseSession ⟨[], [], [], 0⟩).idleSessionPool =
      (List.range n).take idleSessionPoolCapacity := by
    intro n
    induction n with
    | zero => rfl
    | succ n ih => rw [List.range_succ, List.foldl_append, List.foldl_cons, List.foldl_nil, hloop n _ ih,
        List.range_succ]
  exact hfold connectionPoolSize

/-- the unit test's helper of 123 sessions keeps 100 of them idle: the others are never used -/
example : (init 123).idleSessionPool.length = 100 := by
  rw [init_idleSessionPool]
  rfl

/-- the constructor makes no call and no request -/
theorem init_calls (connectionPoolSize : ℕ) :
    (init connectionPoolSize).connecting = [] ∧ (init connectionPoolSize).requests = [] ∧
      (init connectionPoolSize).nextId = 0 := by
  have hloop : ∀ (l : List ℕ) (s : Sessions), s.connecting = [] ∧ s.requests = [] ∧ s.nextId = 0 →
      (l.foldl releaseSession s).connecting = [] ∧ (l.foldl releaseSession s).requests = [] ∧
        (l.foldl releaseSession s).nextId = 0 := by
    intro l
    induction l with
    | nil => exact fun s hs => hs
    | cons n l ih =>
      intro s hs
      apply ih
      unfold releaseSession
      split_ifs <;> exact hs
  exact hloop _ _ ⟨rfl, rfl, rfl⟩

/-! ### What each step does to the owners -/

/-- `releaseSession` adds the session at most once, and changes nothing else -/
theorem owners_releaseSession (s : Sessions) (session : ℕ) :
    (s.releaseSession session).owners <+~ session :: s.owners := by
  have hpool := releaseSession_idleSessionPool s session
  have hrest : (s.releaseSession session).connecting = s.connecting ∧
      (s.releaseSession session).requests = s.requests := by
    unfold releaseSession
    split_ifs <;> exact ⟨rfl, rfl⟩
  have hsub : (s.releaseSession session).owners <+ s.idleSessionPool ++ [session] ++ s.connecting.map Prod.snd ++
      s.requests.filterMap WebDAVRequest.session := by
    simp only [owners, hrest.1, hrest.2]
    exact (hpool.append_right _).append_right _
  refine hsub.subperm.trans (List.Perm.subperm ?_)
  simp only [owners, List.append_assoc]
  exact List.perm_middle

theorem calls_releaseSession (s : Sessions) (session : ℕ) :
    (s.releaseSession session).calls = s.calls ∧ (s.releaseSession session).nextId = s.nextId := by
  unfold releaseSession
  split_ifs <;> exact ⟨rfl, rfl⟩

/-- `connect()` moves the session at the front of the pool to the call -/
theorem owners_connect (s : Sessions) : s.connect.owners ~ s.owners := by
  unfold connect
  split
  · exact .refl _
  · rename_i session rest hpool
    rw [List.perm_iff_count]
    intro a
    simp only [owners, hpool, List.map_append, List.map_cons, List.map_nil, List.count_append, List.count_cons,
      List.count_nil]
    omega

/-- a request that starts its transaction keeps its session -/
theorem owners_startTransaction (s : Sessions) (id : ℕ) : (s.startTransaction id true).owners = s.owners := by
  unfold startTransaction
  split
  · simp only [if_true, owners, updateRequest]
    rw [KeyedList.filterMap_update_eq WebDAVRequest.id WebDAVRequest.session
      fun r => (rfl : ({ r with transaction := true, destructionGuard := true } : WebDAVRequest).session = r.session)]
  · rfl

section Steps

variable {s : Sessions} (hinv : s.Inv)
include hinv

theorem Inv.connecting_nodup : (s.connecting.map Prod.fst).Nodup := hinv.nodup.of_append_left

theorem Inv.requests_nodup : (s.requests.map WebDAVRequest.id).Nodup := hinv.nodup.of_append_right

/-- a connected session moves from its `connect()` call to the request the call makes -/
theorem owners_connected (id : ℕ) : (s.connected id).owners ~ s.owners := by
  unfold connected
  split
  · rename_i cid session hfind
    obtain ⟨hmem, hcid⟩ := connecting_of_find? hfind
    have hcount := ((KeyedList.filter_key_perm Prod.fst hinv.connecting_nodup hmem hcid).map Prod.snd).count_eq
    rw [List.perm_iff_count]
    intro a
    have := hcount a
    simp only [List.map_append, List.map_cons, List.map_nil, List.count_append] at this
    simp only [owners, List.filterMap_append, List.filterMap_cons, List.filterMap_nil, List.count_append]
    omega
  · exact .refl _

/-- clearing the `m_session` of a request that holds `session` takes that one session out of the owners -/
theorem owners_clearSession {id session : ℕ} {r : WebDAVRequest} (hr : s.request? id = some r)
    (hsession : r.session = some session) :
    (s.updateRequest id fun r => { r with session := none, destructionGuard := false }).owners ++ [session] ~
      s.owners := by
  obtain ⟨hmem, hrid⟩ := request?_eq_some hr
  have hperm := (KeyedList.map_update_perm WebDAVRequest.id hinv.requests_nodup hmem hrid
    fun r => { r with session := none, destructionGuard := false }).filterMap WebDAVRequest.session
  rw [List.perm_iff_count]
  intro a
  have := hperm.count_eq a
  simp only [List.filterMap_append, List.filterMap_cons, hsession, List.filterMap_nil, List.count_append,
    List.count_nil] at this
  simp only [owners, updateRequest, List.count_append]
  omega

/-- a detached transaction moves the session from the request to the pool, or drops it when the pool is full -/
theorem owners_detachTransaction (id : ℕ) : (s.detachTransaction id).owners <+~ s.owners := by
  unfold detachTransaction
  split
  · rename_i rid session guard h
    have hclear := owners_clearSession hinv h rfl
    exact List.Subperm.trans (owners_releaseSession _ session)
      ((List.perm_append_singleton session _).symm.trans hclear).subperm
  · exact List.Subperm.refl _

/-- removing a request takes its session, if it holds one, out of the owners -/
theorem owners_filter_requests {id : ℕ} {r : WebDAVRequest} (hr : s.request? id = some r) :
    ({ s with requests := s.requests.filter (·.id ≠ id) } : Sessions).owners ++ r.session.toList ~ s.owners := by
  obtain ⟨hmem, hrid⟩ := request?_eq_some hr
  have hperm :=
    (KeyedList.filter_key_perm WebDAVRequest.id hinv.requests_nodup hmem hrid).filterMap WebDAVRequest.session
  rw [List.perm_iff_count]
  intro a
  have := hperm.count_eq a
  cases hsession : r.session with
  | none =>
    simp only [List.filterMap_append, List.filterMap_cons, hsession, List.filterMap_nil, List.append_nil] at this
    simp only [owners, Option.toList_none, List.append_nil, List.count_append]
    omega
  | some session =>
    simp only [List.filterMap_append, List.filterMap_cons, hsession, List.filterMap_nil, List.count_append] at this
    simp only [owners, Option.toList_some, List.count_append]
    omega

/-- a destroyed request gives back the session it still holds; a guarded one is not destroyed -/
theorem owners_destroy (id : ℕ) : (s.destroy id).owners <+~ s.owners := by
  unfold destroy
  split
  swap
  · exact List.Subperm.refl _
  rename_i r h
  have hfilter := owners_filter_requests hinv h
  split_ifs
  · exact List.Subperm.refl _
  split
  · rename_i session hsession
    rw [hsession, Option.toList_some] at hfilter
    exact List.Subperm.trans (owners_releaseSession _ session)
      ((List.perm_append_singleton session _).symm.trans hfilter).subperm
  · rename_i hsession
    rw [hsession, Option.toList_none, List.append_nil] at hfilter
    exact hfilter.subperm

end Steps

/-- a failed `connect()` call loses its session -/
theorem owners_connectFailed (s : Sessions) (id : ℕ) : (s.connectFailed id).owners <+~ s.owners := by
  have hsub : (s.connecting.filter (·.1 ≠ id)).map Prod.snd <+ s.connecting.map Prod.snd :=
    List.filter_sublist.map Prod.snd
  exact ((hsub.append_left _).append_right _).subperm

/-! ### The calls -/

/-- a change of a request that keeps its number keeps the calls -/
theorem calls_updateRequest (s : Sessions) (id : ℕ) {f : WebDAVRequest → WebDAVRequest} (hf : ∀ r, (f r).id = r.id) :
    (s.updateRequest id f).calls = s.calls := by
  simp only [calls, updateRequest]
  rw [KeyedList.map_update_eq WebDAVRequest.id WebDAVRequest.id hf]

/-- a request that gives its session back after a change that keeps its number keeps the calls and the numbering -/
theorem calls_releaseSession_updateRequest (s : Sessions) (id session : ℕ) {f : WebDAVRequest → WebDAVRequest}
    (hf : ∀ r, (f r).id = r.id) :
    ((s.updateRequest id f).releaseSession session).calls = s.calls ∧
      ((s.updateRequest id f).releaseSession session).nextId = s.nextId := by
  obtain ⟨hcalls, hnext⟩ := calls_releaseSession (s.updateRequest id f) session
  exact ⟨hcalls.trans (calls_updateRequest s id hf), hnext⟩

theorem calls_connect (s : Sessions) : s.connect.calls <+~ s.nextId :: s.calls := by
  unfold connect
  split
  · exact (List.sublist_cons_self _ _).subperm
  · refine List.Perm.subperm (List.perm_iff_count.mpr fun a => ?_)
    simp only [calls, List.map_append, List.map_cons, List.map_nil, List.count_append, List.count_cons,
      List.count_nil]
    omega

/-- every step but `connect()` keeps the numbering, and only moves or drops calls -/
theorem calls_step_of_ne {s : Sessions} (hinv : s.Inv) {e : Event} (he : e ≠ .connect) :
    (s.step e).calls <+~ s.calls ∧ (s.step e).nextId = s.nextId := by
  cases e with
  | connect => exact absurd rfl he
  | connectError session =>
    obtain ⟨hcalls, hnext⟩ := calls_releaseSession s session
    exact ⟨(List.Perm.of_eq hcalls).subperm, hnext⟩
  | connected id =>
    refine ⟨?_, by simp only [step, connected]; split <;> rfl⟩
    simp only [step, connected]
    split
    · rename_i cid session hfind
      obtain ⟨hmem, hcid⟩ := connecting_of_find? hfind
      have hcount := ((KeyedList.filter_key_perm Prod.fst hinv.connecting_nodup hmem hcid).map Prod.fst).count_eq
      refine List.Perm.subperm (List.perm_iff_count.mpr fun a => ?_)
      have := hcount a
      have hcid' : cid = id := hcid
      subst hcid'
      simp only [List.map_append, List.map_cons, List.map_nil, List.count_append] at this
      simp only [calls, List.map_append, List.map_cons, List.map_nil, List.count_append]
      omega
    · exact .refl _
  | connectFailed id =>
    exact ⟨((List.filter_sublist.map Prod.fst).append_right _).subperm, rfl⟩
  | startTransaction id ok =>
    -- a transaction only marks the request, and a failed one gives its session back as well
    have hsame : (s.startTransaction id ok).calls = s.calls ∧ (s.startTransaction id ok).nextId = s.nextId := by
      unfold startTransaction
      split
      · split_ifs
        · exact ⟨calls_updateRequest s id fun _ => rfl, rfl⟩
        · exact calls_releaseSession_updateRequest s id _ fun _ => rfl
      · exact ⟨rfl, rfl⟩
    exact ⟨(List.Perm.of_eq hsame.1).subperm, hsame.2⟩
  | detachTransaction id =>
    have hsame : (s.detachTransaction id).calls = s.calls ∧ (s.detachTransaction id).nextId = s.nextId := by
      unfold detachTransaction
      split
      · exact calls_releaseSession_updateRequest s id _ fun _ => rfl
      · exact ⟨rfl, rfl⟩
    exact ⟨(List.Perm.of_eq hsame.1).subperm, hsame.2⟩
  | destroy id =>
    -- a destroyed request leaves the calls, whatever the pool does with its session
    have hfilter : ({ s with requests := s.requests.filter (·.id ≠ id) } : Sessions).calls <+~ s.calls :=
      ((List.filter_sublist.map WebDAVRequest.id).append_left _).subperm
    simp only [step, destroy]
    split
    · split_ifs
      · exact ⟨List.Subperm.refl _, rfl⟩
      split
      · obtain ⟨hcalls, hnext⟩ := calls_releaseSession ({ s with requests := s.requests.filter (·.id ≠ id) }) _
        exact ⟨hcalls ▸ hfilter, hnext⟩
      · exact ⟨hfilter, rfl⟩
    · exact ⟨List.Subperm.refl _, rfl⟩

theorem inv_init (connectionPoolSize : ℕ) : (init connectionPoolSize).Inv := by
  obtain ⟨hconnecting, hrequests, -⟩ := init_calls connectionPoolSize
  have hcalls : (init connectionPoolSize).calls = [] := by simp [calls, hconnecting, hrequests]
  exact ⟨hcalls ▸ List.nodup_nil, fun _ h => absurd (hcalls ▸ h) List.not_mem_nil⟩

/-- **Step lemma.** Every step keeps the calls apart -/
theorem Inv.step {s : Sessions} (hinv : s.Inv) (e : Event) : (s.step e).Inv := by
  by_cases he : e = .connect
  · subst he
    change s.connect.Inv
    have hsub := calls_connect s
    have hnodup : (s.nextId :: s.calls).Nodup :=
      List.nodup_cons.mpr ⟨fun h => lt_irrefl _ (hinv.fresh _ h), hinv.nodup⟩
    refine ⟨KeyedList.nodup_of_subperm hsub hnodup, fun i hi => ?_⟩
    -- the new call takes the number `nextId`, and the next one is past it
    have hnext : s.connect.nextId = s.nextId + 1 ∨ s.connect = s := by
      unfold connect
      split
      · exact Or.inr rfl
      · exact Or.inl rfl
    rcases hnext with hnext | hsame
    · rw [hnext]
      rcases List.mem_cons.mp (hsub.subset hi) with rfl | hi
      · exact Nat.lt_succ_self _
      · exact Nat.lt_succ_of_lt (hinv.fresh i hi)
    · rw [hsame] at hi ⊢
      exact hinv.fresh i hi
  · obtain ⟨hcalls, hnext⟩ := calls_step_of_ne hinv he
    exact ⟨KeyedList.nodup_of_subperm hcalls hinv.nodup, fun i hi => hnext ▸ hinv.fresh i (hcalls.subset hi)⟩

/-- a safe step adds no session -/
theorem owners_step {s : Sessions} (hinv : s.Inv) {e : Event} (he : e.Safe) : (s.step e).owners <+~ s.owners := by
  cases e with
  | connect => exact (owners_connect s).subperm
  | connectError session => exact absurd he id
  | connected id => exact (owners_connected hinv id).subperm
  | connectFailed id => exact owners_connectFailed s id
  | startTransaction id ok =>
    simp only [Event.Safe] at he
    subst he
    exact (List.Perm.of_eq (owners_startTransaction s id)).subperm
  | detachTransaction id => exact owners_detachTransaction hinv id
  | destroy id => exact owners_destroy hinv id

/-- **Run lemma.** -/
theorem run_owners {s : Sessions} (hinv : s.Inv) :
    ∀ evs : List Event, (∀ e ∈ evs, e.Safe) → (s.run evs).Inv ∧ (s.run evs).owners <+~ s.owners
  | [], _ => ⟨hinv, .refl _⟩
  | e :: evs, hsafe => by
    obtain ⟨hinv', howners'⟩ := run_owners (hinv.step e) evs fun e' he' => hsafe e' (List.mem_cons_of_mem e he')
    exact ⟨hinv', howners'.trans (owners_step hinv (hsafe e List.mem_cons_self))⟩

/-- **Sessions are never shared** on a run in which no `startTransaction` fails and no connection fails: each of the
`connectionPoolSize` sessions is idle, taken by a waiting `connect()` call, or held by a live request, and in at most
one of these places, once; so the pool never holds more than `connectionPoolSize` entries. -/
theorem run_sessions_exclusive (connectionPoolSize : ℕ) (evs : List Event) (hsafe : ∀ e ∈ evs, e.Safe) :
    ((init connectionPoolSize).run evs).owners <+~ List.range connectionPoolSize ∧
      ((init connectionPoolSize).run evs).idleSessionPool.length ≤ connectionPoolSize := by
  have howners := (run_owners (inv_init connectionPoolSize) evs hsafe).2
  have hinit : (init connectionPoolSize).owners <+~ List.range connectionPoolSize := by
    obtain ⟨hconnecting, hrequests, -⟩ := init_calls connectionPoolSize
    simp only [owners, hconnecting, hrequests, init_idleSessionPool, List.map_nil, List.filterMap_nil,
      List.append_nil]
    exact (List.take_sublist _ _).subperm
  have hrun := howners.trans hinit
  refine ⟨hrun, ?_⟩
  calc ((init connectionPoolSize).run evs).idleSessionPool.length
      ≤ ((init connectionPoolSize).run evs).owners.length := by simp [owners]
    _ ≤ (List.range connectionPoolSize).length := hrun.length_le
    _ = connectionPoolSize := List.length_range

theorem run_sessions_exclusive_two :
    (∀ e ∈ [Event.connect, .connect, .connected 0, .startTransaction 0 true, .detachTransaction 0, .destroy 0],
      e.Safe) ∧
      ((init 2).run [.connect, .connect, .connected 0, .startTransaction 0 true, .detachTransaction 0, .destroy 0]).owners
          <+~ List.range 2 ∧
        ((init 2).run [.connect, .connect, .connected 0, .startTransaction 0 true, .detachTransaction 0,
          .destroy 0]).idleSessionPool.length ≤ 2 := by
  have hsafe : ∀ e ∈ [Event.connect, .connect, .connected 0, .startTransaction 0 true, .detachTransaction 0,
      .destroy 0], e.Safe := by
    simp [Event.Safe]
  exact ⟨hsafe, run_sessions_exclusive 2 _ hsafe⟩

/-! ## A failed transaction, and where sessions are shared -/

/-- a request whose `startTransaction` failed keeps `m_destructionGuard` for good, since only `detachTransaction`
resets it and the request has no transaction: it is never destroyed, and its `m_session` is never given back a
second time -/
theorem destroy_of_destructionGuard {s : Sessions} {id : ℕ} {r : WebDAVRequest} (hr : s.request? id = some r)
    (hguard : r.destructionGuard = true) : s.destroy id = s := by
  simp only [destroy, hr, if_pos hguard]

/-- a `connectError` for a session a `connect()` call still waits on puts it in the pool, unless the pool is full,
while the call keeps it -/
theorem connectError_shares {s : Sessions} {id session : ℕ} (hwait : (id, session) ∈ s.connecting)
    (hroom : s.idleSessionPool.length < idleSessionPoolCapacity) :
    session ∈ (s.connectError session).idleSessionPool ∧ (id, session) ∈ (s.connectError session).connecting := by
  simp [connectError, releaseSession, hroom, hwait]

/-- one session: its connection fails while a `connect()` call waits for it, and another call comes -/
def reusedAfterConnectError : Sessions := (init 1).run [.connect, .connectError 0, .connect]

/-- **Sessions are shared after a connection error.** A `connectError` for a session a `connect()` call waits on puts
the session back in the pool while the call still holds it; with one session, a second `connect()` call then takes
it too, and two calls wait on the one session. -/
theorem webDAV_sessions_shared :
    (∀ (s : Sessions) (id session : ℕ), (id, session) ∈ s.connecting →
        s.idleSessionPool.length < idleSessionPoolCapacity →
        session ∈ (s.connectError session).idleSessionPool ∧ (id, session) ∈ (s.connectError session).connecting) ∧
      reusedAfterConnectError.connecting = [(0, 0), (1, 0)] := by
  exact ⟨fun _ _ _ hwait hroom => connectError_shares hwait hroom, by decide⟩

/-- a failed `startTransaction` gives the one session back once: the guarded request is not destroyed -/
example : ((init 1).run [.connect, .connected 0, .startTransaction 0 false, .destroy 0]).idleSessionPool = [0] := by
  decide

end Sessions

end OneHelpers.WebDAV
