/-
Outgoing message streams (`streaming::TypedStream`) and their manager (`streaming::StreamManager`).

A stream numbers the messages sent through it in its stream header, keeps a copy of each in a priority queue ordered
by `StreamLess`, and answers the server's acknowledgements (drop what was acknowledged), message requests (send
again what was asked for) and stream resets (renumber from 0 and send everything again, under a lock that the sending
cannot take). The stream manager creates
streams with consecutive ids and hands the server's stream-control messages to them, through the subscription it
registers with the inbox: a predicate, then a callback.

`tbb::concurrent_priority_queue<T, Compare>` pops an element that no other is `Compare`-greater than, so with
`StreamLess` the stream's queue pops its greatest sequence number first (`PriorityQueue.pop_ge_of_lt`).

Results:
- `handleMessageAcknowledgement_buffer`: an acknowledgement empties the queue when it covers every queued message,
  and otherwise leaves the queue as it is, also the messages it covers.
- `handleMessageRequest_spec`: a request whose count `upper - lower + 1` (in `uint64_t`) is past `max_size()`, such
  as one with its bounds the wrong way round, throws `std::length_error` before anything is popped; any other keeps
  the queued messages, and when its upper bound covers every queued message it sends again those from its lower
  bound on, greatest first, and otherwise it sends nothing.
- `reset_of_ne_nil`: a reset of a stream with queued messages throws `EDEADLK` from the shared lock `saveAndPass`
  takes under `reset`'s exclusive one, and loses the queue.
- `onServerMessage_reset`: the subscription's predicate lets no stream reset through, so a reset changes nothing.
- `streamManager_stream_bugs`: a run in which an acknowledgement removes nothing, a request sends nothing again, a
  reset is ignored, and the reset itself would throw and lose the queue.
-/
import Mathlib.Data.List.AList
import Mathlib.Tactic
import OneHelpers.Core.PriorityQueue
import OneHelpers.Communication.Messages

namespace OneHelpers.Communication

open PriorityQueue

/-- `StreamLess`: the comparator of the stream's queue, which therefore pops a greatest sequence number -/
def StreamLess (a b : ClientMessage) : Prop := a.sequenceNumber < b.sequenceNumber

instance : DecidableRel StreamLess := fun a b => Nat.decLt a.sequenceNumber b.sequenceNumber

/-- `it->mutable_message_stream()->set_sequence_number(seq)`: a missing header is created with stream id `0` -/
def ClientMessage.setSequenceNumber (m : ClientMessage) (seq : ℕ) : ClientMessage :=
  { m with messageStream := some ⟨(m.messageStream.map MessageStream.streamId).getD 0, seq⟩ }

/-- a `TypedStream`: its id, the next sequence number (`m_sequenceId`) and its queue (`m_buffer`) -/
structure TypedStream where
  streamId : ℕ
  sequenceId : ℕ
  buffer : List ClientMessage
  deriving DecidableEq, Repr

/-- the exceptions the stream's handlers throw -/
inductive StreamException where
  /-- `std::system_error`, with its `errno` -/
  | systemError (errno : ℕ)
  /-- `std::length_error` -/
  | lengthError
  deriving DecidableEq, Repr

/-- `EDEADLK` (Linux) -/
def EDEADLK : ℕ := 35

/-- `std::shared_lock` on `m_bufferMutex`, a `std::shared_timed_mutex` over a `pthread_rwlock_t`: while the calling
thread holds the mutex exclusively, `pthread_rwlock_rdlock` answers `EDEADLK`, which libstdc++ throws as
`std::system_error`; otherwise, also in a thread that holds it shared, the lock is granted -/
def lockShared (exclusivelyHeld : Bool) : Except StreamException Unit :=
  if exclusivelyHeld then .error (.systemError EDEADLK) else .ok ()

namespace TypedStream

/-! ## One stream

Each operation returns the stream and the messages it passed to the communicator, in order. -/

/-- `saveAndPass`: a copy goes to the queue, the message to the communicator -/
def saveAndPass (ts : TypedStream) (msg : ClientMessage) : TypedStream × List ClientMessage :=
  ({ ts with buffer := PriorityQueue.push ts.buffer msg }, [msg])

/-- `send(ClientMessagePtr)`: the message gets the stream's id and next sequence number -/
def send (ts : TypedStream) (msg : ClientMessage) : TypedStream × List ClientMessage :=
  saveAndPass { ts with sequenceId := ts.sequenceId + 1 }
    { msg with messageStream := some ⟨ts.streamId, ts.sequenceId⟩ }

/-- `close`: an end-of-stream message is sent through the stream -/
def close (ts : TypedStream) : TypedStream × List ClientMessage := ts.send ⟨none, .endOfStream⟩

/-- `saveAndPass` in a thread that holds `m_bufferMutex` exclusively or not: its shared lock, then the copy and the
message -/
def saveAndPassUnder (exclusivelyHeld : Bool) (ts : TypedStream) (msg : ClientMessage) :
    Except StreamException (TypedStream × List ClientMessage) :=
  (lockShared exclusivelyHeld).map fun _ => ts.saveAndPass msg

/-- `saveAndPass` on each message in turn: the stream, the messages passed on, and the exception that ended the
loop -/
def saveAndPassAllUnder (exclusivelyHeld : Bool) (ts : TypedStream) :
    List ClientMessage → TypedStream × List ClientMessage × Option StreamException
  | [] => (ts, [], none)
  | m :: ms =>
    match saveAndPassUnder exclusivelyHeld ts m with
    | .error e => (ts, [], some e)
    | .ok r =>
      let rest := saveAndPassAllUnder exclusivelyHeld r.1 ms
      (rest.1, r.2 ++ rest.2.1, rest.2.2)

/-- the loop of `reset`: every message is popped and renumbered from `seqId` on; the queue left, the next number,
and the messages in the order they were popped -/
def resetLoop :
    ℕ → List ClientMessage → ℕ → List ClientMessage → List ClientMessage × ℕ × List ClientMessage
  | 0, buffer, seqId, processed => (buffer, seqId, processed)
  | fuel + 1, buffer, seqId, processed =>
    match tryPop StreamLess buffer with
    | none => (buffer, seqId, processed)
    | some (it, rest) => resetLoop fuel rest (seqId + 1) (processed ++ [it.setSequenceNumber seqId])

/-- `reset`: under its `std::lock_guard` the numbering restarts at `0` and every queued message is popped and
renumbered; each is then handed to `saveAndPass` with the lock still held. The stream, the messages passed on, and
the exception that leaves `reset` -/
def reset (ts : TypedStream) : TypedStream × List ClientMessage × Option StreamException :=
  let r := resetLoop ts.buffer.length ts.buffer 0 []
  saveAndPassAllUnder true { ts with sequenceId := r.2.1, buffer := r.1 } r.2.2

/-- the first loop of `handleMessageRequest`: pop while the popped message is at most `upper`; the queue left and
the messages popped, in order -/
def requestLoop (upper : ℕ) :
    ℕ → List ClientMessage → List ClientMessage → List ClientMessage × List ClientMessage
  | 0, buffer, processed => (buffer, processed)
  | fuel + 1, buffer, processed =>
    match tryPop StreamLess buffer with
    | none => (buffer, processed)
    | some (it, rest) =>
      if it.sequenceNumber ≤ upper then requestLoop upper fuel rest (processed ++ [it])
      else (PriorityQueue.push rest it, processed)

/-- the second loop of `handleMessageRequest`: a popped message from `lower` on is sent again, any other goes back
to the queue -/
def resendOrKeep (lower : ℕ) (acc : TypedStream × List ClientMessage) (m : ClientMessage) :
    TypedStream × List ClientMessage :=
  if m.sequenceNumber ≥ lower then ((acc.1.saveAndPass m).1, acc.2 ++ (acc.1.saveAndPass m).2)
  else ({ acc.1 with buffer := PriorityQueue.push acc.1.buffer m }, acc.2)

/-- `std::vector::max_size()` of the vector of `ClientMessagePtr` (libstdc++, 64 bits):
`PTRDIFF_MAX / sizeof(ClientMessagePtr)` -/
def processedMaxSize : ℕ := (2 ^ 63 - 1) / 8

/-- `msg.upper_sequence_number() - msg.lower_sequence_number() + 1`, computed in `uint64_t` -/
def requestedCount (lower upper : ℕ) : ℕ := (upper + 1 + (2 ^ 64 - lower % 2 ^ 64)) % 2 ^ 64

/-- `processed.reserve(n)`: `std::length_error` past `max_size()`; the allocation itself is taken to succeed -/
def reserve (n : ℕ) : Except StreamException Unit := if processedMaxSize < n then .error .lengthError else .ok ()

/-- `handleMessageRequest`: `processed.reserve(upper - lower + 1)`, then the two loops under a shared lock -/
def handleMessageRequest (ts : TypedStream) (lower upper : ℕ) : Except StreamException (TypedStream × List ClientMessage) :=
  match reserve (requestedCount lower upper) with
  | .error e => .error e
  | .ok () =>
    let r := requestLoop upper ts.buffer.length ts.buffer []
    .ok (r.2.foldl (resendOrKeep lower) ({ ts with buffer := r.1 }, []))

/-- the loop of `handleMessageAcknowledgement`: pop until the popped message is past `seq`, which goes back -/
def ackLoop (seq : ℕ) : ℕ → List ClientMessage → List ClientMessage
  | 0, buffer => buffer
  | fuel + 1, buffer =>
    match tryPop StreamLess buffer with
    | none => buffer
    | some (it, rest) => if it.sequenceNumber > seq then PriorityQueue.push rest it else ackLoop seq fuel rest

/-- `handleMessageAcknowledgement` -/
def handleMessageAcknowledgement (ts : TypedStream) (seq : ℕ) : TypedStream :=
  { ts with buffer := ackLoop seq ts.buffer.length ts.buffer }

/-! ## What the loops do with a queue that pops the greatest first -/

theorem pop_greatest {q : List ClientMessage} {it : ClientMessage} {rest : List ClientMessage}
    (h : tryPop StreamLess q = some (it, rest)) :
    it ∈ q ∧ (∀ y ∈ q, y.sequenceNumber ≤ it.sequenceNumber) ∧ (∀ x, x ∈ q ↔ x = it ∨ x ∈ rest) ∧
      q.Perm (it :: rest) := by
  obtain ⟨hit, hle, hperm⟩ := pop_ge_of_lt h
  exact ⟨hit, hle, fun x => by rw [hperm.mem_iff, List.mem_cons], hperm⟩

/-- popping the greatest message and putting it back leaves the queue as it was -/
theorem push_pop_perm {q : List ClientMessage} {it : ClientMessage} {rest : List ClientMessage}
    (h : tryPop StreamLess q = some (it, rest)) : (PriorityQueue.push rest it).Perm q :=
  (List.perm_append_singleton it rest).trans (pop_greatest h).2.2.2.symm

/-- an acknowledgement that covers every queued message empties the queue -/
theorem ackLoop_of_le (seq : ℕ) :
    ∀ (fuel : ℕ) (q : List ClientMessage), q.length ≤ fuel → (∀ m ∈ q, m.sequenceNumber ≤ seq) →
      ackLoop seq fuel q = []
  | 0, q, hlen, _ => by
    rw [List.eq_nil_of_length_eq_zero (Nat.le_zero.1 hlen)]
    rfl
  | fuel + 1, q, hlen, hle => by
    cases hpop : tryPop StreamLess q with
    | none =>
      have hq := (tryPop_eq_none StreamLess).1 hpop
      subst hq
      rfl
    | some p =>
      obtain ⟨it, rest⟩ := p
      obtain ⟨hit, -, hmem, hperm⟩ := pop_greatest hpop
      simp only [ackLoop, hpop]
      rw [if_neg (by have := hle it hit; omega)]
      have hrest : rest.length ≤ fuel := by have := hperm.length_eq; simp at this; omega
      exact ackLoop_of_le seq fuel rest hrest fun m hm => hle m ((hmem m).2 (Or.inr hm))

/-- an acknowledgement that leaves some queued message unacknowledged pops the greatest message, which is past it,
and puts it back: the queue stays as it is -/
theorem ackLoop_of_lt (seq fuel : ℕ) {q : List ClientMessage} (h : ∃ m ∈ q, seq < m.sequenceNumber) :
    (ackLoop seq (fuel + 1) q).Perm q := by
  obtain ⟨m, hm, hlt⟩ := h
  cases hpop : tryPop StreamLess q with
  | none =>
    rw [(tryPop_eq_none StreamLess).1 hpop] at hm
    cases hm
  | some p =>
    obtain ⟨it, rest⟩ := p
    obtain ⟨-, hle, -, -⟩ := pop_greatest hpop
    simp only [ackLoop, hpop]
    rw [if_pos (by have := hle m hm; omega)]
    exact push_pop_perm hpop

/-- **An acknowledgement removes all queued messages or none.** `handleMessageAcknowledgement seq` empties the
queue when `seq` covers every queued message, and otherwise leaves the queue as it is, also the messages it
covers. -/
theorem handleMessageAcknowledgement_buffer (ts : TypedStream) (seq : ℕ) :
    ((∀ m ∈ ts.buffer, m.sequenceNumber ≤ seq) → (ts.handleMessageAcknowledgement seq).buffer = []) ∧
      ((∃ m ∈ ts.buffer, seq < m.sequenceNumber) →
        (ts.handleMessageAcknowledgement seq).buffer.Perm ts.buffer) := by
  refine ⟨fun hle => ackLoop_of_le seq _ _ le_rfl hle, fun hlt => ?_⟩
  obtain ⟨m, hm, hlt'⟩ := hlt
  obtain ⟨fuel, hfuel⟩ : ∃ fuel, ts.buffer.length = fuel + 1 :=
    Nat.exists_eq_succ_of_ne_zero (List.length_pos_of_mem hm).ne'
  simp only [handleMessageAcknowledgement, hfuel]
  exact ackLoop_of_lt seq fuel ⟨m, hm, hlt'⟩

/-- the second loop of `handleMessageRequest` puts every popped message back, and passes on those from `lower` on -/
theorem foldl_resendOrKeep (lower : ℕ) :
    ∀ (ps : List ClientMessage) (ts : TypedStream) (out : List ClientMessage),
      ps.foldl (resendOrKeep lower) (ts, out) =
        ({ ts with buffer := ts.buffer ++ ps }, out ++ ps.filter fun m => lower ≤ m.sequenceNumber)
  | [], ts, out => by simp
  | p :: ps, ts, out => by
    have hstep : resendOrKeep lower (ts, out) p =
        ({ ts with buffer := ts.buffer ++ [p] }, out ++ [p].filter fun m => lower ≤ m.sequenceNumber) := by
      unfold resendOrKeep
      split_ifs with h
      · simp [saveAndPass, PriorityQueue.push, h]
      · simp [PriorityQueue.push, show ¬ lower ≤ p.sequenceNumber from h]
    rw [List.foldl_cons, hstep, foldl_resendOrKeep lower ps]
    by_cases h : lower ≤ p.sequenceNumber <;> simp [h]

/-! ## `reserve` and the count it is given -/

/-- a request with `lower ≤ upper + 1`, both `uint64_t` values, asks for `upper + 1 - lower` messages -/
theorem requestedCount_of_le {lower upper : ℕ} (hle : lower ≤ upper + 1) (hupper : upper + 1 < 2 ^ 64) :
    requestedCount lower upper = upper + 1 - lower := by
  unfold requestedCount
  rw [Nat.mod_eq_of_lt (show lower < 2 ^ 64 by omega)]
  omega

/-- a request `reserve` refuses throws before anything is popped -/
theorem handleMessageRequest_of_lt {ts : TypedStream} {lower upper : ℕ}
    (h : processedMaxSize < requestedCount lower upper) : ts.handleMessageRequest lower upper = .error .lengthError := by
  simp only [handleMessageRequest, reserve, if_pos h]

/-- past `reserve`, a request is its two loops -/
theorem handleMessageRequest_of_le {ts : TypedStream} {lower upper : ℕ}
    (h : requestedCount lower upper ≤ processedMaxSize) :
    ts.handleMessageRequest lower upper =
      .ok ((requestLoop upper ts.buffer.length ts.buffer []).2.foldl (resendOrKeep lower)
        ({ ts with buffer := (requestLoop upper ts.buffer.length ts.buffer []).1 }, [])) := by
  simp only [handleMessageRequest, reserve, if_neg (Nat.not_lt.2 h)]

theorem handleMessageRequest_eq_ok {ts : TypedStream} {lower upper : ℕ} {r : TypedStream × List ClientMessage}
    (h : ts.handleMessageRequest lower upper = .ok r) :
    r = (requestLoop upper ts.buffer.length ts.buffer []).2.foldl (resendOrKeep lower)
      ({ ts with buffer := (requestLoop upper ts.buffer.length ts.buffer []).1 }, []) := by
  by_cases hle : requestedCount lower upper ≤ processedMaxSize
  · rw [handleMessageRequest_of_le hle] at h
    exact (Except.ok.inj h).symm
  · rw [handleMessageRequest_of_lt (Nat.lt_of_not_le hle)] at h
    cases h

/-- the loop of `reset` pops the whole queue, numbering from `seqId` on -/
theorem resetLoop_of_le :
    ∀ (fuel : ℕ) (q : List ClientMessage) (seqId : ℕ) (processed : List ClientMessage), q.length ≤ fuel →
      ∃ ps, resetLoop fuel q seqId processed = ([], seqId + q.length, processed ++ ps) ∧ ps.length = q.length
  | 0, q, seqId, processed, hlen => by
    rw [List.eq_nil_of_length_eq_zero (Nat.le_zero.1 hlen)]
    exact ⟨[], by simp [resetLoop], rfl⟩
  | fuel + 1, q, seqId, processed, hlen => by
    cases hpop : tryPop StreamLess q with
    | none =>
      have hq := (tryPop_eq_none StreamLess).1 hpop
      subst hq
      exact ⟨[], by simp [resetLoop, hpop], rfl⟩
    | some p =>
      obtain ⟨it, rest⟩ := p
      have hrest : rest.length + 1 = q.length := by
        simpa using (pop_greatest hpop).2.2.2.length_eq.symm
      obtain ⟨ps, hps, hlen'⟩ :=
        resetLoop_of_le fuel rest (seqId + 1) (processed ++ [it.setSequenceNumber seqId]) (by omega)
      refine ⟨it.setSequenceNumber seqId :: ps, ?_, by simp [hlen', hrest]⟩
      simp only [resetLoop, hpop, hps, List.append_assoc, List.singleton_append]
      rw [← hrest, Nat.add_assoc, Nat.add_comm 1]

/-- under the exclusive lock the first `saveAndPass` throws, and nothing is queued or passed on -/
theorem saveAndPassAllUnder_true_cons (ts : TypedStream) (m : ClientMessage) (ms : List ClientMessage) :
    saveAndPassAllUnder true ts (m :: ms) = (ts, [], some (.systemError EDEADLK)) := rfl

/-- **A reset throws and loses the queue.** On a stream with queued messages, `reset` pops and renumbers them all
under its exclusive lock; the first `saveAndPass` then asks for the shared lock in the same thread and throws
`EDEADLK`. The messages popped are destroyed with `processed`: the queue is left empty, nothing is passed on, and
the stream goes on numbering from the queue's length. -/
theorem reset_of_ne_nil {ts : TypedStream} (h : ts.buffer ≠ []) :
    ts.reset = ({ ts with sequenceId := ts.buffer.length, buffer := [] }, [], some (.systemError EDEADLK)) := by
  obtain ⟨ps, hps, hlen⟩ := resetLoop_of_le ts.buffer.length ts.buffer 0 [] le_rfl
  obtain ⟨p, ps', rfl⟩ := List.exists_cons_of_ne_nil (List.ne_nil_of_length_pos (hlen ▸ List.length_pos_of_ne_nil h))
  simp only [reset, hps, Nat.zero_add, List.nil_append, saveAndPassAllUnder_true_cons]

/-- a stream with an empty queue only restarts its numbering -/
theorem reset_of_nil {ts : TypedStream} (h : ts.buffer = []) : ts.reset = ({ ts with sequenceId := 0 }, [], none) := by
  simp [reset, h, resetLoop, saveAndPassAllUnder]

end TypedStream

/-- a `StreamManager`: the next stream id, the live streams by id (`m_idMap`, with `m_streams` in its order), and the
messages the streams passed to the communicator -/
structure StreamManager where
  nextStreamId : ℕ
  idMap : AList fun _ : ℕ => TypedStream
  sent : List ClientMessage

namespace StreamManager

def init : StreamManager := ⟨0, ∅, []⟩

/-- `create`: a stream with the next id -/
def create (sm : StreamManager) : StreamManager :=
  { sm with nextStreamId := sm.nextStreamId + 1, idMap := sm.idMap.insert sm.nextStreamId ⟨sm.nextStreamId, 0, []⟩ }

/-- run an operation on the live stream `streamId`, if there is one (`m_idMap.find` and `lock`) -/
def withStream (sm : StreamManager) (streamId : ℕ) (f : TypedStream → TypedStream × List ClientMessage) :
    StreamManager :=
  match sm.idMap.lookup streamId with
  | none => sm
  | some ts => { sm with idMap := sm.idMap.insert streamId (f ts).1, sent := sm.sent ++ (f ts).2 }

/-- the stream's destructor: `close`, then the `unregister` callback takes it out of `m_idMap` -/
def destroy (sm : StreamManager) (streamId : ℕ) : StreamManager :=
  let sm := sm.withStream streamId TypedStream.close
  { sm with idMap := sm.idMap.erase streamId }

/-- `handleMessageRequest` on the live stream `streamId`: a `std::length_error` from `reserve` leaves the callback
before anything is popped, with the stream as it was -/
def handleMessageRequest (sm : StreamManager) (streamId lower upper : ℕ) : StreamManager :=
  sm.withStream streamId fun ts =>
    match ts.handleMessageRequest lower upper with
    | .ok r => r
    | .error _ => (ts, [])

def handleMessageAcknowledgement (sm : StreamManager) (streamId seq : ℕ) : StreamManager :=
  sm.withStream streamId fun ts => (ts.handleMessageAcknowledgement seq, [])

/-- `stream->reset()` on the live stream `streamId`, if there is one: the manager after it, and the exception that
leaves it -/
def resetStream (sm : StreamManager) (streamId : ℕ) : StreamManager × Option StreamException :=
  match sm.idMap.lookup streamId with
  | none => (sm, none)
  | some ts =>
    ({ sm with idMap := sm.idMap.insert streamId ts.reset.1, sent := sm.sent ++ ts.reset.2.1 }, ts.reset.2.2)

/-- the loop over `m_streams`: each live stream is reset in turn, until an exception leaves the loop -/
def resetEach : StreamManager → List ℕ → StreamManager × Option StreamException
  | sm, [] => (sm, none)
  | sm, streamId :: ids =>
    match sm.resetStream streamId with
    | (sm', none) => resetEach sm' ids
    | (sm', some e) => (sm', some e)

/-- `handleMessageStreamReset`: the stream named, or every stream; the manager after it, and the exception that
leaves it -/
def handleMessageStreamReset (sm : StreamManager) : Option ℕ → StreamManager × Option StreamException
  | some streamId => sm.resetStream streamId
  | none => sm.resetEach sm.idMap.keys

/-- the predicate of the subscription the constructor registers: `has_message_request() ||
has_message_acknowledgement()`; `handled` says whether the inbox holds a callback for the message's id -/
def predicate (msg : ServerMessage) (_handled : Bool) : Bool :=
  match msg.body with
  | .messageRequest .. => true
  | .messageAcknowledgement .. => true
  | _ => false

/-- the callback of the subscription -/
def callback (sm : StreamManager) (msg : ServerMessage) : StreamManager :=
  match msg.body with
  | .messageRequest streamId lower upper => sm.handleMessageRequest streamId lower upper
  | .messageAcknowledgement streamId seq => sm.handleMessageAcknowledgement streamId seq
  | .messageStreamReset streamId => (sm.handleMessageStreamReset streamId).1
  | _ => sm

/-- the inbox hands a server message to the subscription: predicate first, then callback -/
def onServerMessage (sm : StreamManager) (msg : ServerMessage) (handled : Bool) : StreamManager :=
  if predicate msg handled then sm.callback msg else sm

/-- what happens to a stream manager: a stream is created, used to send or destroyed, or a server message comes -/
inductive Event where
  | create
  | send (streamId : ℕ) (msg : ClientMessage)
  | destroy (streamId : ℕ)
  | serverMessage (msg : ServerMessage) (handled : Bool)
  deriving DecidableEq, Repr

def step (sm : StreamManager) : Event → StreamManager
  | .create => sm.create
  | .send streamId msg => sm.withStream streamId fun ts => ts.send msg
  | .destroy streamId => sm.destroy streamId
  | .serverMessage msg handled => sm.onServerMessage msg handled

def run (sm : StreamManager) (evs : List Event) : StreamManager := evs.foldl step sm

/-- **The subscription drops stream resets**: its predicate admits only requests and acknowledgements, so a
`MessageStreamReset` never reaches `handleMessageStreamReset`. -/
theorem onServerMessage_reset (sm : StreamManager) (messageId : String) (ms : Option MessageStream)
    (streamId : Option ℕ) (handled : Bool) :
    sm.onServerMessage ⟨messageId, ms, .messageStreamReset streamId⟩ handled = sm := by
  simp [onServerMessage, predicate]

/-- a new stream 0 through which two messages were sent, numbered 0 and 1 -/
def twoSent : StreamManager := init.run [.create, .send 0 ⟨none, .other 10⟩, .send 0 ⟨none, .other 11⟩]

/-- **Acknowledgements, requests and resets go wrong.** Two messages are sent through a new stream. Acknowledging
the first removes neither of them; a request for the first sends nothing again; a reset of the stream is dropped by
the subscription; and the reset the manager would do throws `EDEADLK`, leaving the stream with an empty queue and
nothing sent again. -/
theorem streamManager_stream_bugs :
    ((twoSent.onServerMessage ⟨"", none, .messageAcknowledgement 0 0⟩ false).idMap.lookup 0).map
        (fun ts => ts.buffer.map ClientMessage.sequenceNumber) = some [0, 1] ∧
      (twoSent.onServerMessage ⟨"", none, .messageRequest 0 0 0⟩ false).sent = twoSent.sent ∧
      (twoSent.onServerMessage ⟨"", none, .messageStreamReset (some 0)⟩ false).sent = twoSent.sent ∧
      (twoSent.handleMessageStreamReset (some 0)).2 = some (.systemError EDEADLK) ∧
      (twoSent.handleMessageStreamReset (some 0)).1.sent = twoSent.sent ∧
      ((twoSent.handleMessageStreamReset (some 0)).1.idMap.lookup 0).map TypedStream.buffer = some [] := by
  decide

end StreamManager

end OneHelpers.Communication
