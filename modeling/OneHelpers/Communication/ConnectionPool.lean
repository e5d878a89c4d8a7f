/-
`ConnectionPool`: a fixed pool of connections, of which the idle ones wait in `m_idleConnections`. A call of `send`
takes idle connections until it gets a connected one, starting an asynchronous reconnect of each one that is not;
it checks the connection's transport once more, writes the message and, when the write succeeds, runs the call's
callback and puts the connection back.

The model is one state for the pool and every call of `send` in progress, advanced by the steps of the calls and by
what happens around them: a write or a reconnect completes, successfully or not, or a transport dies. A call is named
by the order in which it was made; its callback, once run, is recorded with its result.

Results:
- `connectionPool_loses_connections`: three runs from a connected pool of one connection. A failed write leaves its
  callback uncalled and the connection nowhere; a failed reconnect leaves the connection nowhere, so the pool is
  empty and the call waits for ever; a transport that dies after the call took its connection makes the call fail
  and keeps the connection out of the pool.
- What the pool does keep: every step other than a call of `send` only loses connections and calls (`Shrinks`, one
  lemma per step function), a call of `send` takes a fresh number (`Inv.send`); so over every run
  (`run_keeps_connections_apart`) no connection is in two places at once and no callback runs twice.
-/
import Mathlib.Tactic
import OneHelpers.Core.KeyedList

namespace OneHelpers.Communication

open scoped List

/-- where a call of `send` is -/
inductive SendPhase where
  /-- in the loop, taking idle connections -/
  | waiting
  /-- out of the loop with a connected client, before the transport check -/
  | retrieved (client : ℕ)
  /-- the write of the message is in flight -/
  | writing (client : ℕ)
  deriving DecidableEq, Repr

/-- the connection a call holds, once out of the loop -/
def SendPhase.client : SendPhase → Option ℕ
  | .waiting => none
  | .retrieved client | .writing client => some client

/-- a call of `send` in progress -/
structure SendCall where
  id : ℕ
  phase : SendPhase
  deriving DecidableEq, Repr

/-- a `ConnectionPool`: `m_connected`, `m_idleConnections` (a FIFO queue of connection numbers), whether each
connection's transport is good, the calls of `send` in progress, the number of the next call, the connections
with a reconnect in flight, and the callbacks run, each with its call and whether it was run with success -/
structure ConnectionPool where
  connected : Bool
  idleConnections : List ℕ
  good : ℕ → Bool
  sends : List SendCall
  nextCall : ℕ
  reconnects : List ℕ
  callbacks : List (ℕ × Bool)

namespace ConnectionPool

/-- the pool after a successful `connect()`: every connection is connected and idle -/
def init (connectionsNumber : ℕ) : ConnectionPool :=
  ⟨true, List.range connectionsNumber, fun _ => true, [], 0, [], []⟩

/-- where call `id` is, if it is in progress -/
def phaseOf (s : ConnectionPool) (id : ℕ) : Option SendPhase := (s.sends.find? (·.id = id)).map SendCall.phase

/-- call `id` moves on -/
def setPhase (s : ConnectionPool) (id : ℕ) (phase : SendPhase) : ConnectionPool :=
  { s with sends := s.sends.map fun c => if c.id = id then { c with phase := phase } else c }

/-- call `id` returns, having run its callback with the given result, or without running it (`none`) -/
def finish (s : ConnectionPool) (id : ℕ) (result : Option Bool) : ConnectionPool :=
  { s with sends := s.sends.filter (·.id ≠ id), callbacks := s.callbacks ++ (result.map (id, ·)).toList }

/-- `send` is called: on a stopped pool the callback is run at once with an error; otherwise the call starts
taking idle connections -/
def send (s : ConnectionPool) : ConnectionPool :=
  if !s.connected then { s with nextCall := s.nextCall + 1, callbacks := s.callbacks ++ [(s.nextCall, false)] }
  else { s with nextCall := s.nextCall + 1, sends := s.sends ++ [⟨s.nextCall, .waiting⟩] }

/-- one turn of the loop of call `id`: on a stopped pool the callback is run with an error; otherwise it pops an
idle connection (waiting while there is none) and leaves the loop with it if it is connected, or starts its
reconnect (`connect(m_host, m_port)`, with no further attempts) and goes on -/
def loopStep (s : ConnectionPool) (id : ℕ) : ConnectionPool :=
  match s.phaseOf id with
  | some .waiting =>
    if !s.connected then s.finish id (some false)
    else
      match s.idleConnections with
      | [] => s
      | client :: rest =>
        let s := { s with idleConnections := rest }
        if s.good client then s.setPhase id (.retrieved client)
        else if s.connected then { s with reconnects := s.reconnects ++ [client] }
        else s
  | _ => s

/-- call `id` checks its connection's transport: a dead one fails the call, otherwise the message is written -/
def checkTransport (s : ConnectionPool) (id : ℕ) : ConnectionPool :=
  match s.phaseOf id with
  | some (.retrieved client) =>
    if s.good client then s.setPhase id (.writing client) else s.finish id (some false)
  | _ => s

/-- the write of call `id` completes: on success the callback is run and the connection goes back to the idle
queue; on failure neither continuation runs -/
def writeDone (s : ConnectionPool) (id : ℕ) (ok : Bool) : ConnectionPool :=
  match s.phaseOf id with
  | some (.writing client) =>
    if ok then { s.finish id (some true) with idleConnections := s.idleConnections ++ [client] }
    else s.finish id none
  | _ => s

/-- the reconnect of `client` completes: on success the connection goes back to the idle queue, or is closed if the
pool was stopped meanwhile; a failed first attempt throws, and its continuation does not run -/
def reconnectDone (s : ConnectionPool) (client : ℕ) (ok : Bool) : ConnectionPool :=
  if client ∈ s.reconnects then
    let s := { s with reconnects := s.reconnects.erase client }
    if ok then
      if s.connected then
        { s with good := Function.update s.good client true, idleConnections := s.idleConnections ++ [client] }
      else { s with good := Function.update s.good client false }
    else s
  else s

/-- the transport of `client` dies -/
def transportDown (s : ConnectionPool) (client : ℕ) : ConnectionPool :=
  { s with good := Function.update s.good client false }

/-- `stop()`: `close()` clears the idle queue, aborts the calls waiting on it (each runs its callback with an
error) and closes every pipeline -/
def stop (s : ConnectionPool) : ConnectionPool :=
  if !s.connected then s
  else
    { s with
      connected := false
      idleConnections := []
      good := fun _ => false
      sends := s.sends.filter (·.phase ≠ .waiting)
      callbacks := s.callbacks ++ (s.sends.filter (·.phase = .waiting)).map fun c => (c.id, false) }

/-- what happens to a pool -/
inductive Event where
  | send
  | loopStep (id : ℕ)
  | checkTransport (id : ℕ)
  | writeDone (id : ℕ) (ok : Bool)
  | reconnectDone (client : ℕ) (ok : Bool)
  | transportDown (client : ℕ)
  | stop
  deriving DecidableEq, Repr

def step (s : ConnectionPool) : Event → ConnectionPool
  | .send => s.send
  | .loopStep id => s.loopStep id
  | .checkTransport id => s.checkTransport id
  | .writeDone id ok => s.writeDone id ok
  | .reconnectDone client ok => s.reconnectDone client ok
  | .transportDown client => s.transportDown client
  | .stop => s.stop

def run (s : ConnectionPool) (evs : List Event) : ConnectionPool := evs.foldl step s

/-- a pool of one connection: a call gets it and its write fails -/
def failedWrite : ConnectionPool := (init 1).run [.send, .loopStep 0, .checkTransport 0, .writeDone 0 false]

/-- a pool of one connection whose transport has died: a call takes it and its reconnect fails -/
def failedReconnect : ConnectionPool :=
  (init 1).run [.transportDown 0, .send, .loopStep 0, .reconnectDone 0 false, .loopStep 0]

/-- a pool of one connection that dies after a call took it out of the loop -/
def diedAfterRetrieve : ConnectionPool := (init 1).run [.send, .loopStep 0, .transportDown 0, .checkTransport 0]

/-- **Connections and callbacks are lost.** After a failed write the call is over, its callback was never run, and
its connection is neither idle nor held nor reconnecting. After a failed reconnect the connection is gone and the
call keeps waiting on an empty queue. A transport that dies between the loop and its check fails the call, and the
connection does not go back. -/
theorem connectionPool_loses_connections :
    (failedWrite.callbacks = [] ∧ failedWrite.sends = [] ∧ failedWrite.idleConnections = [] ∧
      failedWrite.reconnects = []) ∧
    (failedReconnect.idleConnections = [] ∧ failedReconnect.reconnects = [] ∧
      failedReconnect.sends = [⟨0, .waiting⟩] ∧ failedReconnect.callbacks = []) ∧
    (diedAfterRetrieve.callbacks = [(0, false)] ∧ diedAfterRetrieve.idleConnections = [] ∧
      diedAfterRetrieve.sends = [] ∧ diedAfterRetrieve.reconnects = []) := by
  decide

/-! ## What the pool keeps: no connection or callback twice -/

/-- the connections held by calls in progress -/
def held (s : ConnectionPool) : List ℕ := s.sends.flatMap fun c => c.phase.client.toList

/-- the connections the pool accounts for: idle, held by a call, or being reconnected -/
def placed (s : ConnectionPool) : List ℕ := s.idleConnections ++ s.held ++ s.reconnects

/-- the calls the pool knows of: in progress, or with their callback run -/
def calls (s : ConnectionPool) : List ℕ := s.sends.map SendCall.id ++ s.callbacks.map Prod.fst

theorem phaseOf_eq_some {s : ConnectionPool} {id : ℕ} {ph : SendPhase} (h : s.phaseOf id = some ph) :
    ∃ c ∈ s.sends, c.id = id ∧ c.phase = ph := by
  obtain ⟨c, hc, rfl⟩ := Option.map_eq_some_iff.mp h
  have hcid : c.id = id := by simpa using List.find?_some hc
  exact ⟨c, List.mem_of_find?_eq_some hc, hcid, rfl⟩

/-- the connections, with those held by calls first -/
theorem placed_perm (s : ConnectionPool) : s.placed ~ s.held ++ (s.idleConnections ++ s.reconnects) := by
  calc s.idleConnections ++ s.held ++ s.reconnects ~ s.held ++ s.idleConnections ++ s.reconnects :=
        List.perm_append_comm.append_right _
    _ = s.held ++ (s.idleConnections ++ s.reconnects) := List.append_assoc _ _ _

section Sends

variable {s : ConnectionPool} (hnd : (s.sends.map SendCall.id).Nodup) {id : ℕ} {ph : SendPhase}
include hnd

/-- moving a call on trades the connection of its old phase for that of the new one -/
theorem held_setPhase (h : s.phaseOf id = some ph) (p : SendPhase) :
    (s.setPhase id p).held ++ ph.client.toList ~ s.held ++ p.client.toList := by
  obtain ⟨c, hc, hcid, rfl⟩ := phaseOf_eq_some h
  have hperm := (KeyedList.map_update_perm SendCall.id hnd hc hcid fun c => { c with phase := p }).flatMap_right
    fun c => c.phase.client.toList
  simpa [held, setPhase, List.flatMap_append] using hperm

/-- a call that returns gives up the connection it held -/
theorem held_finish (h : s.phaseOf id = some ph) (result : Option Bool) :
    (s.finish id result).held ++ ph.client.toList ~ s.held := by
  obtain ⟨c, hc, hcid, rfl⟩ := phaseOf_eq_some h
  have hperm := (KeyedList.filter_key_perm SendCall.id hnd hc hcid).flatMap_right fun c => c.phase.client.toList
  simpa [held, finish, List.flatMap_append] using hperm

/-- a call that returns leaves the calls in progress, and joins the callbacks run if it ran its callback -/
theorem calls_finish (h : s.phaseOf id = some ph) (result : Option Bool) :
    (s.finish id result).calls <+~ s.calls := by
  obtain ⟨c, hc, hcid, -⟩ := phaseOf_eq_some h
  have hids : (s.sends.filter (·.id ≠ id)).map SendCall.id ++ [id] ~ s.sends.map SendCall.id := by
    simpa [hcid] using (KeyedList.filter_key_perm SendCall.id hnd hc hcid).map SendCall.id
  cases result with
  | none =>
    simpa [calls, finish] using ((List.filter_sublist.map SendCall.id).append_right _).subperm
  | some ok =>
    -- the call's id moves from the calls in progress to the end of the callbacks
    have hmove : (s.finish id (some ok)).calls ~ (s.sends.filter (·.id ≠ id)).map SendCall.id ++ [id] ++
        s.callbacks.map Prod.fst := by
      simp only [calls, finish, Option.map_some, Option.toList_some, List.map_append, List.map_cons,
        List.map_nil, List.append_assoc]
      exact List.perm_append_comm.append_left _
    exact (hmove.trans (hids.append_right _)).subperm

end Sends

theorem calls_setPhase (s : ConnectionPool) (id : ℕ) (p : SendPhase) : (s.setPhase id p).calls = s.calls := by
  simp only [calls, setPhase]
  rw [KeyedList.map_update_eq SendCall.id SendCall.id fun c => (rfl : ({ c with phase := p } : SendCall).id = c.id)]

/-! ### What each step does -/

section Branches

variable {s : ConnectionPool} {id client : ℕ} {rest : List ℕ}

theorem loopStep_of_not_waiting (h : s.phaseOf id ≠ some .waiting) : s.loopStep id = s := by
  unfold loopStep
  split
  · rename_i hw
    exact absurd hw h
  · rfl

theorem loopStep_of_stopped (h : s.phaseOf id = some .waiting) (hcon : s.connected = false) :
    s.loopStep id = s.finish id (some false) := by
  simp [loopStep, h, hcon]

theorem loopStep_of_empty (h : s.phaseOf id = some .waiting) (hcon : s.connected = true)
    (hidle : s.idleConnections = []) : s.loopStep id = s := by
  simp [loopStep, h, hcon, hidle]

/-- a waiting call on a connected pool pops an idle connection: it takes a connected one, and starts the reconnect
of one that is not -/
theorem loopStep_of_pop (h : s.phaseOf id = some .waiting) (hcon : s.connected = true)
    (hidle : s.idleConnections = client :: rest) :
    s.loopStep id = if s.good client then { s with idleConnections := rest }.setPhase id (.retrieved client)
      else { s with idleConnections := rest, reconnects := s.reconnects ++ [client] } := by
  simp [loopStep, h, hcon, hidle]

theorem checkTransport_of_retrieved (h : s.phaseOf id = some (.retrieved client)) :
    s.checkTransport id = if s.good client then s.setPhase id (.writing client) else s.finish id (some false) := by
  simp [checkTransport, h]

theorem checkTransport_of_not_retrieved (h : ∀ client, s.phaseOf id ≠ some (.retrieved client)) :
    s.checkTransport id = s := by
  unfold checkTransport
  split
  · rename_i client hr
    exact absurd hr (h client)
  · rfl

theorem writeDone_of_writing (h : s.phaseOf id = some (.writing client)) (ok : Bool) :
    s.writeDone id ok = if ok then { s.finish id (some true) with idleConnections := s.idleConnections ++ [client] }
      else s.finish id none := by
  simp [writeDone, h]

theorem writeDone_of_not_writing (h : ∀ client, s.phaseOf id ≠ some (.writing client)) (ok : Bool) :
    s.writeDone id ok = s := by
  unfold writeDone
  split
  · rename_i client hr
    exact absurd hr (h client)
  · rfl

end Branches

/-! ### Each step keeps the pool's accounts -/

/-- what a step other than a call of `send` can do: lose connections and calls, never add one -/
structure Shrinks (s' s : ConnectionPool) : Prop where
  placed : s'.placed <+~ s.placed
  calls : s'.calls <+~ s.calls
  nextCall : s'.nextCall = s.nextCall

theorem Shrinks.rfl {s : ConnectionPool} : Shrinks s s := ⟨.refl _, .refl _, Eq.refl _⟩

/-- a step that only touches the calls in progress keeps the idle and reconnecting connections -/
theorem Shrinks.of_held {s' s : ConnectionPool} (hidle : s'.idleConnections = s.idleConnections)
    (hrec : s'.reconnects = s.reconnects) (hheld : s'.held <+~ s.held) (hcalls : s'.calls <+~ s.calls)
    (hnext : s'.nextCall = s.nextCall) : Shrinks s' s where
  placed := by
    rw [ConnectionPool.placed, ConnectionPool.placed, hidle, hrec]
    exact (List.subperm_append_right _).mpr ((List.subperm_append_left _).mpr hheld)
  calls := hcalls
  nextCall := hnext

/-- a step that leaves the calls alone and only moves connections between the idle queue and the reconnects -/
theorem Shrinks.of_sends {s' s : ConnectionPool} (hsends : s'.sends = s.sends) (hcb : s'.callbacks = s.callbacks)
    (hnext : s'.nextCall = s.nextCall)
    (h : s'.idleConnections ++ s'.reconnects <+~ s.idleConnections ++ s.reconnects) : Shrinks s' s where
  placed := by
    have hheld : s'.held = s.held := by rw [ConnectionPool.held, ConnectionPool.held, hsends]
    refine (placed_perm s').subperm.trans ?_
    rw [hheld]
    exact ((List.subperm_append_left _).mpr h).trans (placed_perm s).symm.subperm
  calls := by rw [ConnectionPool.calls, ConnectionPool.calls, hsends, hcb]
  nextCall := hnext

theorem finish_shrinks {s : ConnectionPool} (hnd : (s.sends.map SendCall.id).Nodup) {id : ℕ} {ph : SendPhase}
    (h : s.phaseOf id = some ph) (result : Option Bool) : Shrinks (s.finish id result) s :=
  .of_held rfl rfl ((List.sublist_append_left _ _).subperm.trans (held_finish hnd h result).subperm)
    (calls_finish hnd h result) rfl

section Steps

variable {s : ConnectionPool} (hnd : (s.sends.map SendCall.id).Nodup)
include hnd

theorem loopStep_shrinks (id : ℕ) : Shrinks (s.loopStep id) s := by
  by_cases hw : s.phaseOf id = some .waiting
  swap
  · rw [loopStep_of_not_waiting hw]
    exact .rfl
  cases hcon : s.connected
  · rw [loopStep_of_stopped hw hcon]
    exact finish_shrinks hnd hw _
  rcases hidle : s.idleConnections with _ | ⟨client, rest⟩
  · rw [loopStep_of_empty hw hcon hidle]
    exact .rfl
  rw [loopStep_of_pop hw hcon hidle]
  split_ifs with hgood
  · -- the popped connection moves from the idle queue to the call
    have hheld : (setPhase { s with idleConnections := rest } id (.retrieved client)).held ~ s.held ++ [client] := by
      have h := held_setPhase (s := { s with idleConnections := rest }) hnd hw (.retrieved client)
      simp only [SendPhase.client, Option.toList, List.append_nil] at h
      exact h
    refine ⟨(List.Perm.subperm ?_), (List.Perm.of_eq (calls_setPhase _ _ _)).subperm, Eq.refl _⟩
    calc (setPhase { s with idleConnections := rest } id (.retrieved client)).placed
        ~ (setPhase { s with idleConnections := rest } id (.retrieved client)).held ++ (rest ++ s.reconnects) :=
          placed_perm _
      _ ~ (s.held ++ [client]) ++ (rest ++ s.reconnects) := hheld.append_right _
      _ = s.held ++ (s.idleConnections ++ s.reconnects) := by simp [hidle]
      _ ~ s.placed := (placed_perm s).symm
  · -- the popped connection goes from the idle queue to the reconnects
    refine .of_sends rfl rfl rfl (List.Perm.subperm ?_)
    calc rest ++ (s.reconnects ++ [client]) = (rest ++ s.reconnects) ++ [client] := by simp
      _ ~ client :: (rest ++ s.reconnects) := List.perm_append_singleton _ _
      _ = s.idleConnections ++ s.reconnects := by simp [hidle]

theorem checkTransport_shrinks (id : ℕ) : Shrinks (s.checkTransport id) s := by
  by_cases hr : ∃ client, s.phaseOf id = some (.retrieved client)
  · obtain ⟨client, hr⟩ := hr
    rw [checkTransport_of_retrieved hr]
    split_ifs
    · -- the call keeps its connection while it writes
      have hheld := held_setPhase hnd hr (.writing client)
      simp only [SendPhase.client, Option.toList] at hheld
      exact .of_held rfl rfl ((List.perm_append_right_iff _).mp hheld).subperm
        (List.Perm.of_eq (calls_setPhase _ _ _)).subperm rfl
    · exact finish_shrinks hnd hr _
  · rw [checkTransport_of_not_retrieved (fun client h => hr ⟨client, h⟩)]
    exact .rfl

theorem writeDone_shrinks (id : ℕ) (ok : Bool) : Shrinks (s.writeDone id ok) s := by
  by_cases hr : ∃ client, s.phaseOf id = some (.writing client)
  · obtain ⟨client, hr⟩ := hr
    rw [writeDone_of_writing hr]
    have hheld := held_finish hnd hr (some true)
    simp only [SendPhase.client, Option.toList] at hheld
    split_ifs
    · -- the connection goes from the call back to the idle queue
      refine ⟨(List.Perm.subperm ?_), calls_finish hnd hr (some true), Eq.refl _⟩
      calc ({ s.finish id (some true) with idleConnections := s.idleConnections ++ [client] } : ConnectionPool).placed
          ~ (s.finish id (some true)).held ++ ((s.idleConnections ++ [client]) ++ s.reconnects) := placed_perm _
        _ = (s.finish id (some true)).held ++ (s.idleConnections ++ client :: s.reconnects) := by simp
        _ ~ (s.finish id (some true)).held ++ client :: (s.idleConnections ++ s.reconnects) :=
          List.perm_middle.append_left _
        _ = ((s.finish id (some true)).held ++ [client]) ++ (s.idleConnections ++ s.reconnects) := by simp
        _ ~ s.held ++ (s.idleConnections ++ s.reconnects) := hheld.append_right _
        _ ~ s.placed := (placed_perm s).symm
    · exact finish_shrinks hnd hr _
  · rw [writeDone_of_not_writing (fun client h => hr ⟨client, h⟩)]
    exact .rfl

end Steps

theorem reconnectDone_shrinks (s : ConnectionPool) (client : ℕ) (ok : Bool) :
    Shrinks (s.reconnectDone client ok) s := by
  unfold reconnectDone
  dsimp only
  split_ifs with hmem hok hcon
  · -- a successful reconnect puts the connection back into the idle queue
    refine .of_sends rfl rfl rfl (List.Perm.subperm ?_)
    calc (s.idleConnections ++ [client]) ++ s.reconnects.erase client
        = s.idleConnections ++ client :: s.reconnects.erase client := by simp
      _ ~ s.idleConnections ++ s.reconnects := ((List.perm_cons_erase hmem).append_left _).symm
  · exact .of_sends rfl rfl rfl ((List.subperm_append_left _).mpr List.erase_sublist.subperm)
  · exact .of_sends rfl rfl rfl ((List.subperm_append_left _).mpr List.erase_sublist.subperm)
  · exact .rfl

theorem transportDown_shrinks (s : ConnectionPool) (client : ℕ) : Shrinks (s.transportDown client) s :=
  .of_sends rfl rfl rfl (.refl _)

/-- `stop()` empties the idle queue and turns the waiting calls into callbacks -/
theorem stop_shrinks (s : ConnectionPool) : Shrinks s.stop s := by
  unfold stop
  split_ifs
  · exact .rfl
  have hheld : (s.sends.filter (·.phase ≠ .waiting)).flatMap (fun c => c.phase.client.toList) = s.held :=
    KeyedList.flatMap_filter_of_nil _ _ (fun c hc => by simp_all [SendPhase.client]) _
  have hsplit := (List.filter_append_perm (fun c : SendCall => decide (c.phase ≠ .waiting)) s.sends).map SendCall.id
  simp only [List.map_append, decide_not, Bool.not_not] at hsplit
  refine ⟨?_, ?_, rfl⟩
  · -- the held connections and the reconnects stay, the idle queue is emptied
    change (s.sends.filter (·.phase ≠ .waiting)).flatMap (fun c => c.phase.client.toList) ++ s.reconnects
      <+~ s.placed
    rw [hheld]
    exact ((List.sublist_append_right _ _).append_right _).subperm
  · -- the waiting calls move from the calls in progress to the callbacks
    refine List.Perm.subperm (List.perm_iff_count.mpr fun a => ?_)
    have hcount := hsplit.count_eq a
    have hfst : (Prod.fst ∘ fun c : SendCall => (c.id, false)) = SendCall.id := rfl
    simp only [List.count_append] at hcount
    simp only [calls, List.map_append, List.map_map, hfst, List.count_append, decide_not]
    omega

/-- a call of `send` adds a new call, and no connection -/
theorem placed_send (s : ConnectionPool) : s.send.placed = s.placed := by
  unfold send
  split_ifs <;> simp [placed, held, SendPhase.client]

theorem nextCall_send (s : ConnectionPool) : s.send.nextCall = s.nextCall + 1 := by
  unfold send
  split_ifs <;> rfl

theorem calls_send (s : ConnectionPool) : s.send.calls ~ s.nextCall :: s.calls := by
  unfold send
  split_ifs
  · simp only [calls, List.map_append, List.map_cons, List.map_nil, ← List.append_assoc]
    exact List.perm_append_singleton _ _
  · simp only [calls, List.map_append, List.map_cons, List.map_nil, List.append_assoc, List.cons_append,
      List.nil_append]
    exact List.perm_middle

/-! ### Runs -/

/-- the pool's accounts of calls: each call is in progress or called back, once, and was numbered before -/
structure Inv (s : ConnectionPool) : Prop where
  nodup : s.calls.Nodup
  fresh : ∀ i ∈ s.calls, i < s.nextCall

theorem inv_init (connectionsNumber : ℕ) : (init connectionsNumber).Inv :=
  ⟨List.nodup_nil, fun _ h => absurd h List.not_mem_nil⟩

theorem Inv.sends_nodup {s : ConnectionPool} (h : s.Inv) : (s.sends.map SendCall.id).Nodup :=
  h.nodup.of_append_left

theorem Inv.of_shrinks {s' s : ConnectionPool} (h : s.Inv) (hs : Shrinks s' s) : s'.Inv ∧ s'.placed <+~ s.placed :=
  ⟨⟨KeyedList.nodup_of_subperm hs.calls h.nodup, fun i hi => hs.nextCall ▸ h.fresh i (hs.calls.subset hi)⟩,
    hs.placed⟩

/-- a call of `send` takes the next number, which no call has yet -/
theorem Inv.send {s : ConnectionPool} (h : s.Inv) : s.send.Inv where
  nodup := (calls_send s).nodup_iff.mpr (List.nodup_cons.mpr ⟨fun hm => lt_irrefl _ (h.fresh _ hm), h.nodup⟩)
  fresh i hi := by
    rw [nextCall_send]
    rcases List.mem_cons.mp ((calls_send s).subset hi) with rfl | hi
    · exact Nat.lt_succ_self _
    · exact Nat.lt_succ_of_lt (h.fresh i hi)

/-- **Step lemma.** Every step keeps the accounts of calls, and loses connections at most -/
theorem Inv.step {s : ConnectionPool} (h : s.Inv) (e : Event) : (s.step e).Inv ∧ (s.step e).placed <+~ s.placed := by
  cases e with
  | send => exact ⟨h.send, (placed_send s).symm ▸ .refl _⟩
  | loopStep id => exact h.of_shrinks (loopStep_shrinks h.sends_nodup id)
  | checkTransport id => exact h.of_shrinks (checkTransport_shrinks h.sends_nodup id)
  | writeDone id ok => exact h.of_shrinks (writeDone_shrinks h.sends_nodup id ok)
  | reconnectDone client ok => exact h.of_shrinks (reconnectDone_shrinks s client ok)
  | transportDown client => exact h.of_shrinks (transportDown_shrinks s client)
  | stop => exact h.of_shrinks (stop_shrinks s)

/-- **Run lemma.** -/
theorem Inv.run {s : ConnectionPool} (h : s.Inv) : ∀ evs, (s.run evs).Inv ∧ (s.run evs).placed <+~ s.placed
  | [] => ⟨h, .refl _⟩
  | e :: evs => by
    obtain ⟨h1, hp1⟩ := h.step e
    obtain ⟨h2, hp2⟩ := h1.run evs
    exact ⟨h2, hp2.trans hp1⟩

/-- **No connection is in two places, and no callback runs twice.** After any run from a connected pool, the
connections that are idle, held by a call or being reconnected are distinct connections of the pool, and the calls
in progress and the callbacks run name distinct calls. -/
theorem run_keeps_connections_apart (connectionsNumber : ℕ) (evs : List Event) :
    ((init connectionsNumber).run evs).placed.Nodup ∧
      (∀ c ∈ ((init connectionsNumber).run evs).placed, c < connectionsNumber) ∧
      ((init connectionsNumber).run evs).calls.Nodup := by
  obtain ⟨hinv, hplaced⟩ := (inv_init connectionsNumber).run evs
  have hinit : (init connectionsNumber).placed = List.range connectionsNumber := by simp [placed, held, init]
  rw [hinit] at hplaced
  exact ⟨KeyedList.nodup_of_subperm hplaced List.nodup_range, fun c hc => List.mem_range.mp (hplaced.subset hc),
    hinv.nodup⟩

end ConnectionPool

end OneHelpers.Communication
