/-
The sequencer layer (`layers::Sequencer`). The callback it installs in the layer below passes a message without a
stream header straight on; a streamed message goes to its stream's `Buffer`, a priority queue ordered by
`GreaterSeqNum`, and `Buffer::clear` then passes on the messages that continue the stream from the expected sequence
number. After `clear` the callback acknowledges an ended stream and erases its buffer, or requests the messages
missing before the first pending one and acknowledges every `STREAM_MSG_ACK_WINDOW` messages.

The model is the callback run on one message at a time (`onMessage`), beside the periodic message request and
`connect`; the buffers are `m_buffers`, an association list from stream id to buffer.

Results:
- `clearLoop_stream`: on a buffer holding copies of the messages of one stream, `clear` passes on the expected
  message and each one after it up to the first that has not arrived, each once and in order, and keeps exactly the
  pending messages past that gap; it reports the end of the stream exactly when it passed its last message.
- `run_wellFormed`: every buffer only ever holds messages of its own stream.
- `run_nonStream`: the messages without a stream header are passed on exactly as they arrive.
- `run_streamInv`: while a stream has not ended, what was passed on of it is its messages from the first up to the
  first one that has not arrived, and its buffer holds exactly the messages that arrived past that point; once its
  last message has been passed on, its buffer is erased.
-/
import Mathlib.Data.List.AList
import Mathlib.Tactic
import OneHelpers.Core.PriorityQueue
import OneHelpers.Communication.Messages

namespace OneHelpers.Communication

open PriorityQueue

/-- `STREAM_MSG_ACK_WINDOW` -/
def streamMsgAckWindow : ℕ := 100

/-- `GreaterSeqNum`: the comparator of the sequencer's queues, which therefore pop a least sequence number -/
def GreaterSeqNum (a b : ServerMessage) : Prop := a.sequenceNumber > b.sequenceNumber

instance : DecidableRel GreaterSeqNum := fun a b => Nat.decLt b.sequenceNumber a.sequenceNumber

namespace Sequencer

/-- `Sequencer::Buffer`: the expected sequence number, the first unacknowledged one, and the queue -/
structure Buffer where
  seqNum : ℕ
  seqNumAck : ℕ
  buffer : List ServerMessage
  deriving DecidableEq, Repr

namespace Buffer

/-- the buffer `m_buffers.insert` creates for a new stream, value-initialised -/
def empty : Buffer := ⟨0, 0, []⟩

/-- `Buffer::push`: a message older than the expected one is dropped -/
def push (b : Buffer) (serverMsg : ServerMessage) : Buffer :=
  if serverMsg.sequenceNumber ≥ b.seqNum then { b with buffer := PriorityQueue.push b.buffer serverMsg } else b

/-- the loop of `Buffer::clear`, one pop per unit of fuel: the buffer left, the messages passed to
`onMessageCallback`, and the pair `clear` returns -/
def clearLoop : ℕ → Buffer → Buffer × List ServerMessage × ℕ × Bool
  | 0, b => (b, [], b.seqNum - 1, false)
  | fuel + 1, b =>
    match tryPop GreaterSeqNum b.buffer with
    | none => (b, [], b.seqNum - 1, false)
    | some (it, rest) =>
      if it.sequenceNumber = b.seqNum then
        let b' : Buffer := { b with seqNum := b.seqNum + 1, buffer := rest }
        if it.body = .endOfStream then (b', [it], b'.seqNum - 1, true)
        else
          let r := clearLoop fuel b'
          (r.1, it :: r.2.1, r.2.2)
      else if it.sequenceNumber > b.seqNum then
        -- the first pending message is put back and the loop stops
        ({ b with buffer := PriorityQueue.push rest it }, [], it.sequenceNumber - 1, false)
      else
        -- a copy of a message already passed on is dropped
        clearLoop fuel { b with buffer := rest }

/-- `Buffer::clear`: every pop but the last one shortens the queue, so its length is fuel enough -/
def clear (b : Buffer) : Buffer × List ServerMessage × ℕ × Bool := clearLoop b.buffer.length b

/-- `Buffer::resetSequenceNumberAck` -/
def resetSequenceNumberAck (b : Buffer) : Buffer := { b with seqNumAck := b.seqNum }

end Buffer

/-- the message `sendMessageRequest` sends -/
def sendMessageRequest (streamId lowerSeqNum upperSeqNum : ℕ) : ClientMessage :=
  ⟨none, .messageRequest streamId lowerSeqNum upperSeqNum⟩

/-- the message `sendMessageAcknowledgement` sends -/
def sendMessageAcknowledgement (streamId seqNum : ℕ) : ClientMessage :=
  ⟨none, .messageAcknowledgement streamId seqNum⟩

/-- the message `sendMessageStreamReset` sends -/
def sendMessageStreamReset : ClientMessage := ⟨none, .messageStreamReset⟩

/-- the end of the callback, after `clear`: the messages it sends and the stream's buffer it keeps (`none`: erased) -/
def requestOrAcknowledge (streamId : ℕ) (b : Buffer) (cleared : ℕ × Bool) : List ClientMessage × Option Buffer :=
  if cleared.2 then ([sendMessageAcknowledgement streamId cleared.1], none)
  else
    let request := if b.seqNum ≤ cleared.1 then [sendMessageRequest streamId b.seqNum cleared.1] else []
    if b.seqNum ≥ b.seqNumAck + streamMsgAckWindow then
      (request ++ [sendMessageAcknowledgement streamId (b.seqNum - 1)], some b.resetSequenceNumberAck)
    else (request, some b)

/-- store a stream's buffer in `m_buffers`, or erase it -/
def storeBuffer (buffers : AList fun _ : ℕ => Buffer) (streamId : ℕ) :
    Option Buffer → AList fun _ : ℕ => Buffer
  | some b => buffers.insert streamId b
  | none => buffers.erase streamId

end Sequencer

/-- a `Sequencer`'s state: its buffers, the messages it passed to `onMessageCallback` and the messages it sent to the
layer below, in order -/
structure Sequencer where
  buffers : AList fun _ : ℕ => Sequencer.Buffer
  delivered : List ServerMessage
  sent : List ClientMessage

namespace Sequencer

/-- a sequencer that has received nothing -/
def init : Sequencer := ⟨∅, [], []⟩

/-- the buffer of a stream, as `m_buffers.insert` finds or creates it -/
def current (s : Sequencer) (streamId : ℕ) : Buffer := (s.buffers.lookup streamId).getD .empty

/-- the callback that `setOnMessageCallback` installs in the layer below, run on one message -/
def onMessage (s : Sequencer) (serverMsg : ServerMessage) : Sequencer :=
  match serverMsg.messageStream with
  | none => { s with delivered := s.delivered ++ [serverMsg] }
  | some ms =>
    let cleared := ((s.current ms.streamId).push serverMsg).clear
    let t := requestOrAcknowledge ms.streamId cleared.1 cleared.2.2
    { buffers := storeBuffer s.buffers ms.streamId t.2
      delivered := s.delivered ++ cleared.2.1
      sent := s.sent ++ t.1 }

/-- `getStreamSequenceNumbers` -/
def getStreamSequenceNumbers (s : Sequencer) : List (ℕ × ℕ) := s.buffers.entries.map fun e => (e.1, e.2.seqNum)

/-- `periodicMessageRequest`: every stream with a buffer is asked for its expected message -/
def periodicMessageRequest (s : Sequencer) : Sequencer :=
  { s with sent := s.sent ++ s.getStreamSequenceNumbers.map fun e => sendMessageRequest e.1 e.2 e.2 }

/-- `connect`: the server is asked to reset its streams -/
def connect (s : Sequencer) : Sequencer := { s with sent := s.sent ++ [sendMessageStreamReset] }

/-- what happens to a sequencer: a message from the layer below, the periodic request, or a (re)connection -/
inductive Event where
  | message (serverMsg : ServerMessage)
  | periodicMessageRequest
  | connect
  deriving DecidableEq, Repr

def step (s : Sequencer) : Event → Sequencer
  | .message serverMsg => s.onMessage serverMsg
  | .periodicMessageRequest => s.periodicMessageRequest
  | .connect => s.connect

def run (s : Sequencer) (evs : List Event) : Sequencer := evs.foldl step s

/-- the messages among the events -/
def messages (evs : List Event) : List ServerMessage :=
  evs.filterMap fun | .message serverMsg => some serverMsg | _ => none

/-- the sequence numbers of the messages of stream `streamId` among the events, in order of arrival -/
def arrived (streamId : ℕ) (evs : List Event) : List ℕ :=
  ((messages evs).filter (·.OfStream streamId)).map ServerMessage.sequenceNumber


/-! ## The buffer -/

namespace Buffer

/-- what `try_pop` takes from a queue is in it with a least sequence number, and the rest is the queue without it -/
theorem pop_least {q : List ServerMessage} {it : ServerMessage} {rest : List ServerMessage}
    (h : tryPop GreaterSeqNum q = some (it, rest)) :
    it ∈ q ∧ (∀ y ∈ q, it.sequenceNumber ≤ y.sequenceNumber) ∧ (∀ x, x ∈ q ↔ x = it ∨ x ∈ rest) ∧
      q.length = rest.length + 1 := by
  obtain ⟨hit, hle, hperm⟩ := pop_le_of_gt h
  exact ⟨hit, hle, fun x => by rw [hperm.mem_iff, List.mem_cons], hperm.length_eq⟩

@[simp] theorem push_seqNum (b : Buffer) (m : ServerMessage) : (b.push m).seqNum = b.seqNum := by
  unfold push; split_ifs <;> rfl

@[simp] theorem push_seqNumAck (b : Buffer) (m : ServerMessage) : (b.push m).seqNumAck = b.seqNumAck := by
  unfold push; split_ifs <;> rfl

theorem mem_push {b : Buffer} {m x : ServerMessage} :
    x ∈ (b.push m).buffer ↔ x ∈ b.buffer ∨ b.seqNum ≤ m.sequenceNumber ∧ x = m := by
  unfold push
  split_ifs with h
  · simp [PriorityQueue.push, h]
  · have h' : ¬ b.seqNum ≤ m.sequenceNumber := h
    simp [h']

/-- `clear` only removes from the queue, and passes on only what it removed -/
theorem clearLoop_subset (fuel : ℕ) (b : Buffer) :
    (∀ x ∈ (clearLoop fuel b).1.buffer, x ∈ b.buffer) ∧ ∀ x ∈ (clearLoop fuel b).2.1, x ∈ b.buffer := by
  induction fuel generalizing b with
  | zero => simp [clearLoop]
  | succ fuel ih =>
    cases hpop : tryPop GreaterSeqNum b.buffer with
    | none => simp [clearLoop, hpop]
    | some p =>
      obtain ⟨it, rest⟩ := p
      obtain ⟨hit, -, hmem, -⟩ := pop_least hpop
      have hrest : ∀ x ∈ rest, x ∈ b.buffer := fun x hx => (hmem x).2 (Or.inr hx)
      simp only [clearLoop, hpop]
      split_ifs
      · simpa using ⟨hrest, hit⟩
      · obtain ⟨h1, h2⟩ := ih { b with seqNum := b.seqNum + 1, buffer := rest }
        refine ⟨fun x hx => hrest x (h1 x hx), fun x hx => ?_⟩
        rcases List.mem_cons.1 hx with rfl | hx
        · exact hit
        · exact hrest x (h2 x hx)
      · simp only [PriorityQueue.push, List.mem_append, List.mem_singleton, List.not_mem_nil,
          IsEmpty.forall_iff, implies_true, and_true]
        rintro x (hx | rfl)
        · exact hrest x hx
        · exact hit
      · obtain ⟨h1, h2⟩ := ih { b with buffer := rest }
        exact ⟨fun x hx => hrest x (h1 x hx), fun x hx => hrest x (h2 x hx)⟩

theorem clear_subset (b : Buffer) :
    (∀ x ∈ b.clear.1.buffer, x ∈ b.buffer) ∧ ∀ x ∈ b.clear.2.1, x ∈ b.buffer :=
  clearLoop_subset _ b

end Buffer

/-! ## One stream

`msg 0, …, msg n` are the messages of a stream; copies of them arrive in any order. -/

/-- `msg 0, …, msg n` are the messages of stream `sid`, and only the last one ends it -/
def IsStream (sid n : ℕ) (msg : ℕ → ServerMessage) : Prop :=
  ∀ k ≤ n, (msg k).messageStream = some ⟨sid, k⟩ ∧ ((msg k).body = .endOfStream ↔ k = n)

instance (sid n : ℕ) (msg : ℕ → ServerMessage) : Decidable (IsStream sid n msg) := by
  unfold IsStream; infer_instance

section Stream

variable {sid n : ℕ} {msg : ℕ → ServerMessage}

theorem IsStream.sequenceNumber (hs : IsStream sid n msg) {k : ℕ} (hk : k ≤ n) : (msg k).sequenceNumber = k :=
  ServerMessage.sequenceNumber_of_messageStream (hs k hk).1

theorem IsStream.ofStream (hs : IsStream sid n msg) {k : ℕ} (hk : k ≤ n) : (msg k).OfStream sid :=
  (ServerMessage.ofStream_iff (hs k hk).1 sid).2 rfl

theorem IsStream.inj (hs : IsStream sid n msg) {k k' : ℕ} (hk : k ≤ n) (hk' : k' ≤ n) (h : msg k = msg k') :
    k = k' := by
  rw [← hs.sequenceNumber hk, ← hs.sequenceNumber hk', h]

/-- the queue of `b` holds copies of the stream's messages, among them each one from the expected one up to `r`
(exclusive), but none of `r` itself -/
structure Continues (n : ℕ) (msg : ℕ → ServerMessage) (b : Buffer) (r : ℕ) : Prop where
  msgs : ∀ x ∈ b.buffer, ∃ k ≤ n, x = msg k
  le : b.seqNum ≤ r
  seqNum_le : b.seqNum ≤ n
  le_succ : r ≤ n + 1
  mem : ∀ i, b.seqNum ≤ i → i < r → msg i ∈ b.buffer
  not_mem : r ≤ n → msg r ∉ b.buffer

/-- what `clear` does to a buffer whose stream continues up to `r`: it passes on the messages from the expected one up
to `r`, reports the end of the stream when that is all of them, and otherwise expects `r` and keeps the messages past
it -/
def ClearSpec (n : ℕ) (msg : ℕ → ServerMessage) (b : Buffer) (r : ℕ)
    (res : Buffer × List ServerMessage × ℕ × Bool) : Prop :=
  res.2.1 = (List.range' b.seqNum (r - b.seqNum)).map msg ∧ res.2.2.2 = decide (r = n + 1) ∧
    (r ≤ n → res.1.seqNum = r ∧ res.1.seqNumAck = b.seqNumAck ∧
      ∀ x, x ∈ res.1.buffer ↔ x ∈ b.buffer ∧ r < x.sequenceNumber)

/-- without the expected message the stream goes no further -/
theorem Continues.eq_of_not_mem {b : Buffer} {r : ℕ} (h : Continues n msg b r) (hc : msg b.seqNum ∉ b.buffer) :
    r = b.seqNum := by
  by_contra hne
  exact hc (h.mem b.seqNum le_rfl (by have := h.le; omega))

/-- popping a message `k` below the new expected number `c` keeps the rest of the stream in the queue -/
theorem Continues.pop (hs : IsStream sid n msg) {b : Buffer} {r k c : ℕ} {rest : List ServerMessage}
    (h : Continues n msg b r) (hmem : ∀ x, x ∈ b.buffer ↔ x = msg k ∨ x ∈ rest) (hk : k ≤ n)
    (hbc : b.seqNum ≤ c) (hkc : k < c) (hcr : c ≤ r) (hcn : c ≤ n) :
    Continues n msg { b with seqNum := c, buffer := rest } r where
  msgs x hx := h.msgs x ((hmem x).2 (Or.inr hx))
  le := hcr
  seqNum_le := hcn
  le_succ := h.le_succ
  mem i hci hir := by
    change c ≤ i at hci
    rcases (hmem _).1 (h.mem i (le_trans hbc hci) hir) with heq | hrest
    · have := hs.inj (by have := h.le_succ; omega) hk heq
      omega
    · exact hrest
  not_mem hr hrest := h.not_mem hr ((hmem _).2 (Or.inr hrest))

/-- dropping a message below `r` leaves the messages past `r` as they are -/
theorem mem_rest_iff {q rest : List ServerMessage} {it : ServerMessage} {r : ℕ}
    (hmem : ∀ x, x ∈ q ↔ x = it ∨ x ∈ rest) (hit : it.sequenceNumber < r) (x : ServerMessage) :
    x ∈ rest ∧ r < x.sequenceNumber ↔ x ∈ q ∧ r < x.sequenceNumber := by
  constructor
  · rintro ⟨hx, hr⟩
    exact ⟨(hmem x).2 (Or.inr hx), hr⟩
  · rintro ⟨hx, hr⟩
    rcases (hmem x).1 hx with rfl | hx
    · omega
    · exact ⟨hx, hr⟩

/-- putting back a popped message past `r`, the least of its queue, keeps the messages of the queue past `r` -/
theorem mem_push_rest_iff {q rest : List ServerMessage} {it : ServerMessage} {r : ℕ}
    (hmem : ∀ x, x ∈ q ↔ x = it ∨ x ∈ rest) (hle : ∀ y ∈ q, it.sequenceNumber ≤ y.sequenceNumber)
    (hit : r < it.sequenceNumber) (x : ServerMessage) :
    x ∈ PriorityQueue.push rest it ↔ x ∈ q ∧ r < x.sequenceNumber := by
  simp only [PriorityQueue.push, List.mem_append, List.mem_singleton]
  constructor
  · rintro (hx | rfl)
    · exact ⟨(hmem x).2 (Or.inr hx), by have := hle x ((hmem x).2 (Or.inr hx)); omega⟩
    · exact ⟨(hmem x).2 (Or.inl rfl), hit⟩
  · rintro ⟨hx, -⟩
    rcases (hmem x).1 hx with rfl | hx
    · exact Or.inr rfl
    · exact Or.inl hx

/-- `clear` stops at once when the expected message is missing -/
theorem ClearSpec.stop {b b' : Buffer} {r x : ℕ} (hc : b.seqNum ≤ n) (hr : r = b.seqNum)
    (hseq : b'.seqNum = b.seqNum) (hack : b'.seqNumAck = b.seqNumAck)
    (hmem : ∀ x, x ∈ b'.buffer ↔ x ∈ b.buffer ∧ r < x.sequenceNumber) :
    ClearSpec n msg b r (b', [], x, false) := by
  subst hr
  refine ⟨by simp, (decide_eq_false (by omega)).symm, fun _ => ⟨hseq, hack, hmem⟩⟩

/-- dropping a copy of a message already passed on, and then clearing the rest -/
theorem ClearSpec.drop {b : Buffer} {r : ℕ} {it : ServerMessage} {rest : List ServerMessage}
    {res : Buffer × List ServerMessage × ℕ × Bool} (hmem : ∀ x, x ∈ b.buffer ↔ x = it ∨ x ∈ rest)
    (hit : it.sequenceNumber < r) (h : ClearSpec n msg { b with buffer := rest } r res) :
    ClearSpec n msg b r res := by
  obtain ⟨hout, hend, hbuf⟩ := h
  refine ⟨hout, hend, fun hr => ?_⟩
  obtain ⟨hseq, hack, hbuf⟩ := hbuf hr
  exact ⟨hseq, hack, fun x => (hbuf x).trans (mem_rest_iff hmem hit x)⟩

/-- passing on the expected message and then clearing the rest -/
theorem ClearSpec.cons {b : Buffer} {r : ℕ} {rest : List ServerMessage}
    {res : Buffer × List ServerMessage × ℕ × Bool}
    (hcr : b.seqNum < r) (hmem : ∀ x, x ∈ b.buffer ↔ x = msg b.seqNum ∨ x ∈ rest)
    (hit : (msg b.seqNum).sequenceNumber = b.seqNum)
    (h : ClearSpec n msg { b with seqNum := b.seqNum + 1, buffer := rest } r res) :
    ClearSpec n msg b r (res.1, msg b.seqNum :: res.2.1, res.2.2) := by
  obtain ⟨hout, hend, hbuf⟩ := h
  refine ⟨?_, hend, fun hr => ?_⟩
  · have hlen : r - b.seqNum = r - (b.seqNum + 1) + 1 := by omega
    rw [hlen, List.range'_succ, List.map_cons, hout]
  · obtain ⟨hseq, hack, hbuf⟩ := hbuf hr
    exact ⟨hseq, hack, fun x => (hbuf x).trans (mem_rest_iff hmem (by omega) x)⟩

/-- **`Buffer::clear` on one stream.** On a queue of copies of the stream's messages that continues from the
expected message up to `r`, `clear` passes on exactly the messages from the expected one up to `r`, in order and
each once, ends the stream exactly when `r` is past its last message, and otherwise expects `r` and keeps exactly the
queued messages past it. -/
theorem clearLoop_stream (hs : IsStream sid n msg) (fuel : ℕ) (b : Buffer) (r : ℕ) (h : Continues n msg b r)
    (hfuel : b.buffer.length ≤ fuel) : ClearSpec n msg b r (Buffer.clearLoop fuel b) := by
  induction fuel generalizing b with
  | zero =>
    have hnil : b.buffer = [] := List.eq_nil_of_length_eq_zero (by omega)
    exact ClearSpec.stop h.seqNum_le (h.eq_of_not_mem (by simp [hnil])) rfl rfl (by simp [hnil])
  | succ fuel ih =>
    cases hpop : tryPop GreaterSeqNum b.buffer with
    | none =>
      have hnil : b.buffer = [] := (tryPop_eq_none GreaterSeqNum).1 hpop
      simp only [Buffer.clearLoop, hpop]
      exact ClearSpec.stop h.seqNum_le (h.eq_of_not_mem (by simp [hnil])) rfl rfl (by simp [hnil])
    | some p =>
      obtain ⟨it, rest⟩ := p
      obtain ⟨hit, hle, hmem, hlen⟩ := Buffer.pop_least hpop
      obtain ⟨k, hk, rfl⟩ := h.msgs _ hit
      have hseq := hs.sequenceNumber hk
      have hrest : rest.length ≤ fuel := by omega
      simp only [Buffer.clearLoop, hpop, hseq]
      rcases lt_trichotomy k b.seqNum with hlt | rfl | hgt
      · -- a copy of a message already passed on: dropped
        rw [if_neg (by omega), if_neg (by omega)]
        have hcont := h.pop hs hmem hk le_rfl hlt h.le h.seqNum_le
        exact ClearSpec.drop hmem (by have := h.le; omega) (ih _ hcont hrest)
      · -- the expected message: the stream reaches at least the next one
        have hcr : b.seqNum < r := by
          by_contra hge
          have hr : r = b.seqNum := by have := h.le; omega
          exact h.not_mem (by omega) (by rw [hr]; exact hit)
        rw [if_pos rfl]
        by_cases hend : b.seqNum = n
        · -- the last message: the stream ends
          rw [if_pos ((hs _ hk).2.2 hend)]
          have hr : r = n + 1 := by have := h.le_succ; omega
          refine ⟨?_, by simp [hr], fun hrn => by omega⟩
          rw [hr, hend, show n + 1 - n = 1 by omega]
          rfl
        · rw [if_neg (fun he => hend ((hs _ hk).2.1 he))]
          have hcont := h.pop hs hmem hk (Nat.le_succ _) (Nat.lt_succ_self _) hcr (by have := h.seqNum_le; omega)
          exact ClearSpec.cons hcr hmem hseq (ih _ hcont hrest)
      · -- a later message: the expected one is missing, so the pending one goes back
        rw [if_neg (by omega), if_pos hgt]
        have hgap : msg b.seqNum ∉ b.buffer := fun hc => by
          have := hle _ hc
          rw [hs.sequenceNumber h.seqNum_le] at this
          omega
        have hr := h.eq_of_not_mem hgap
        exact ClearSpec.stop h.seqNum_le hr rfl rfl (mem_push_rest_iff hmem hle (by omega))

theorem clear_stream (hs : IsStream sid n msg) {b : Buffer} {r : ℕ} (h : Continues n msg b r) :
    ClearSpec n msg b r b.clear :=
  clearLoop_stream hs _ b r h le_rfl

end Stream

/-! ## The callback -/

theorem requestOrAcknowledge_of_end {streamId : ℕ} {b : Buffer} {cleared : ℕ × Bool} (h : cleared.2 = true) :
    (requestOrAcknowledge streamId b cleared).2 = none := by
  simp [requestOrAcknowledge, h]

/-- before the end of the stream the buffer is kept, with its expected number and queue -/
theorem requestOrAcknowledge_of_not_end (streamId : ℕ) (b : Buffer) {cleared : ℕ × Bool} (h : cleared.2 = false) :
    ∃ b', (requestOrAcknowledge streamId b cleared).2 = some b' ∧ b'.seqNum = b.seqNum ∧ b'.buffer = b.buffer := by
  unfold requestOrAcknowledge
  rw [if_neg (by simp [h])]
  split_ifs <;> exact ⟨_, rfl, rfl, rfl⟩

/-- a buffer kept by the callback has the expected number and queue that `clear` left -/
theorem requestOrAcknowledge_some {streamId : ℕ} {b b' : Buffer} {cleared : ℕ × Bool}
    (h : (requestOrAcknowledge streamId b cleared).2 = some b') : b'.seqNum = b.seqNum ∧ b'.buffer = b.buffer := by
  cases hc : cleared.2
  · obtain ⟨b'', hb'', hseq, hbuf⟩ := requestOrAcknowledge_of_not_end streamId b hc
    rw [hb'', Option.some.injEq] at h
    exact h ▸ ⟨hseq, hbuf⟩
  · rw [requestOrAcknowledge_of_end hc] at h
    cases h

@[simp] theorem lookup_storeBuffer_self (buffers : AList fun _ : ℕ => Buffer) (streamId : ℕ) (ob : Option Buffer) :
    (storeBuffer buffers streamId ob).lookup streamId = ob := by
  cases ob
  · exact AList.lookup_erase _ _
  · exact AList.lookup_insert _

theorem lookup_storeBuffer_ne (buffers : AList fun _ : ℕ => Buffer) {streamId streamId' : ℕ} (ob : Option Buffer)
    (h : streamId' ≠ streamId) : (storeBuffer buffers streamId ob).lookup streamId' = buffers.lookup streamId' := by
  cases ob
  · exact AList.lookup_erase_ne h
  · exact AList.lookup_insert_ne h

/-- every buffer holds only messages of its own stream -/
def WellFormed (s : Sequencer) : Prop :=
  ∀ streamId b, s.buffers.lookup streamId = some b → ∀ x ∈ b.buffer, x.OfStream streamId

theorem wellFormed_init : WellFormed init := by
  intro streamId b hb
  simp [init, AList.lookup_empty] at hb

theorem WellFormed.current {s : Sequencer} (h : WellFormed s) (streamId : ℕ) :
    ∀ x ∈ (s.current streamId).buffer, x.OfStream streamId := by
  unfold Sequencer.current
  cases hb : s.buffers.lookup streamId with
  | none => simp [Buffer.empty]
  | some b => exact h streamId b hb

/-- what the callback passes on after pushing a streamed message, and what it keeps of its stream, are messages of
that stream -/
theorem WellFormed.cleared {s : Sequencer} (h : WellFormed s) {m : ServerMessage} {ms : MessageStream}
    (hm : m.messageStream = some ms) :
    (∀ x ∈ ((s.current ms.streamId).push m).clear.1.buffer, x.OfStream ms.streamId) ∧
      ∀ x ∈ ((s.current ms.streamId).push m).clear.2.1, x.OfStream ms.streamId := by
  have hpush : ∀ x ∈ ((s.current ms.streamId).push m).buffer, x.OfStream ms.streamId := fun x hx => by
    rcases Buffer.mem_push.1 hx with hx | ⟨-, rfl⟩
    · exact h.current _ x hx
    · exact (ServerMessage.ofStream_iff hm _).2 rfl
  obtain ⟨h1, h2⟩ := Buffer.clear_subset ((s.current ms.streamId).push m)
  exact ⟨fun x hx => hpush x (h1 x hx), fun x hx => hpush x (h2 x hx)⟩

theorem WellFormed.onMessage {s : Sequencer} (h : WellFormed s) (m : ServerMessage) : WellFormed (s.onMessage m) := by
  cases hm : m.messageStream with
  | none =>
    simp only [Sequencer.onMessage, hm]
    exact h
  | some ms =>
    intro streamId b hb x hx
    simp only [Sequencer.onMessage, hm] at hb
    by_cases hsid : streamId = ms.streamId
    · subst hsid
      rw [lookup_storeBuffer_self] at hb
      rw [(requestOrAcknowledge_some hb).2] at hx
      exact (h.cleared hm).1 x hx
    · rw [lookup_storeBuffer_ne _ _ hsid] at hb
      exact h streamId b hb x hx

theorem WellFormed.step {s : Sequencer} (h : WellFormed s) (e : Event) : WellFormed (s.step e) := by
  cases e with
  | message m => exact h.onMessage m
  | periodicMessageRequest => exact h
  | connect => exact h

theorem run_append (s : Sequencer) (evs : List Event) (e : Event) : s.run (evs ++ [e]) = (s.run evs).step e := by
  simp [run]

/-- **Buffers stay with their streams.** -/
theorem run_wellFormed (evs : List Event) : WellFormed (init.run evs) := by
  induction evs using List.reverseRecOn with
  | nil => exact wellFormed_init
  | append_singleton evs e ih =>
    rw [run_append]
    exact ih.step e

/-! ## Messages without a stream -/

theorem messages_append (evs evs' : List Event) : messages (evs ++ evs') = messages evs ++ messages evs' := by
  simp [messages]

/-- one event passes on its message if that has no stream header, and otherwise no message without one -/
theorem step_nonStream {s : Sequencer} (h : WellFormed s) (e : Event) :
    (s.step e).delivered.filter (·.messageStream = none) =
      s.delivered.filter (·.messageStream = none) ++ (messages [e]).filter (·.messageStream = none) := by
  cases e with
  | message m =>
    cases hm : m.messageStream with
    | none => simp [step, Sequencer.onMessage, messages, hm]
    | some ms =>
      simp only [step, Sequencer.onMessage, hm, messages, List.filterMap_cons, List.filterMap_nil,
        List.filter_append]
      have hnone : ∀ x ∈ ((s.current ms.streamId).push m).clear.2.1, ¬ x.messageStream = none :=
        fun x hx hx' => ServerMessage.not_ofStream_of_messageStream_eq_none hx' _ ((h.cleared hm).2 x hx)
      have hnil : (((s.current ms.streamId).push m).clear.2.1).filter (·.messageStream = none) = [] :=
        List.filter_eq_nil_iff.2 (by simpa using hnone)
      rw [hnil]
      simp [hm]
  | periodicMessageRequest => simp [step, Sequencer.periodicMessageRequest, messages]
  | connect => simp [step, Sequencer.connect, messages]

/-- **Messages without a stream pass straight through**, each when it arrives. -/
theorem run_nonStream (evs : List Event) :
    (init.run evs).delivered.filter (·.messageStream = none) = (messages evs).filter (·.messageStream = none) := by
  induction evs using List.reverseRecOn with
  | nil => rfl
  | append_singleton evs e ih =>
    rw [run_append, step_nonStream (run_wellFormed evs), ih, messages_append, List.filter_append]

/-! ## One stream through the sequencer -/

/-- the first number from `j` on that is not in `A`, where `n + 1` stands for none up to `n` -/
theorem exists_missing (A : List ℕ) {j : ℕ} (n : ℕ) (hj : j ≤ n + 1) :
    ∃ j', j ≤ j' ∧ j' ≤ n + 1 ∧ (∀ i, j ≤ i → i < j' → i ∈ A) ∧ (j' ≤ n → j' ∉ A) := by
  classical
  have hex : ∃ i, j ≤ i ∧ (i ≤ n → i ∉ A) := ⟨n + 1, hj, fun h => absurd h (by omega)⟩
  refine ⟨Nat.find hex, (Nat.find_spec hex).1, Nat.find_min' hex ⟨hj, fun h => absurd h (by omega)⟩,
    fun i hji hi => ?_, (Nat.find_spec hex).2⟩
  have hnot := Nat.find_min hex hi
  by_contra hA
  exact hnot ⟨hji, fun _ => hA⟩

theorem range_append_range' {j j' : ℕ} (h : j ≤ j') : List.range j ++ List.range' j (j' - j) = List.range j' := by
  have happ := @List.range'_append 0 j (j' - j) 1
  rw [Nat.zero_add, Nat.one_mul, show j + (j' - j) = j' by omega] at happ
  rw [List.range_eq_range', List.range_eq_range', happ]

theorem current_of_lookup {s : Sequencer} {streamId : ℕ} {b : Buffer} (h : s.buffers.lookup streamId = some b) :
    s.current streamId = b := by
  simp [Sequencer.current, h]

/-- the callback on a streamed message: the stream's buffer becomes what `requestOrAcknowledge` keeps, and what
`clear` passed on is appended -/
theorem onMessage_of_messageStream (s : Sequencer) {m : ServerMessage} {ms : MessageStream}
    (hm : m.messageStream = some ms) :
    (s.onMessage m).buffers.lookup ms.streamId =
        (requestOrAcknowledge ms.streamId ((s.current ms.streamId).push m).clear.1
          ((s.current ms.streamId).push m).clear.2.2).2 ∧
      (s.onMessage m).delivered = s.delivered ++ ((s.current ms.streamId).push m).clear.2.1 := by
  simp [Sequencer.onMessage, hm]

/-- a message not of stream `sid` leaves its buffer and what was passed on of it as they are -/
theorem onMessage_frame {s : Sequencer} (h : WellFormed s) {sid : ℕ} {m : ServerMessage} (hm : ¬ m.OfStream sid) :
    (s.onMessage m).buffers.lookup sid = s.buffers.lookup sid ∧
      (s.onMessage m).delivered.filter (·.OfStream sid) = s.delivered.filter (·.OfStream sid) := by
  cases hms : m.messageStream with
  | none => simp [Sequencer.onMessage, hms, hm]
  | some ms =>
    have hne : sid ≠ ms.streamId := fun he => hm ((ServerMessage.ofStream_iff hms sid).2 he.symm)
    simp only [Sequencer.onMessage, hms, List.filter_append]
    refine ⟨lookup_storeBuffer_ne _ _ hne, ?_⟩
    have hnil : (((s.current ms.streamId).push m).clear.2.1).filter (·.OfStream sid) = [] :=
      List.filter_eq_nil_iff.2 fun x hx hx' =>
        hne (ServerMessage.OfStream.eq (of_decide_eq_true hx') ((h.cleared hms).2 x hx))
    rw [hnil, List.append_nil]

section Stream

variable {sid n : ℕ} {msg : ℕ → ServerMessage}

/-- stream `sid` after the arrivals `A` (the sequence numbers of its messages so far, in order): `j` is the first of
`0..n` that has not arrived, or `n + 1` once all have. What was passed on of the stream is its messages before `j`;
the stream's buffer expects `j` and holds exactly the messages that arrived past it; once the stream has ended its
buffer is erased. -/
structure StreamInv (sid n : ℕ) (msg : ℕ → ServerMessage) (s : Sequencer) (A : List ℕ) (j : ℕ) : Prop where
  le : j ≤ n + 1
  arrived : ∀ i < j, i ∈ A
  missing : j ≤ n → j ∉ A
  delivered : s.delivered.filter (·.OfStream sid) = (List.range j).map msg
  seqNum : j ≤ n → (s.current sid).seqNum = j
  pending : j ≤ n → ∀ x ∈ (s.current sid).buffer, ∃ k, x = msg k ∧ j < k ∧ k ≤ n
  pending_iff : j ≤ n → ∀ k, j < k → k ≤ n → (k ∈ A ↔ msg k ∈ (s.current sid).buffer)
  erased : j = n + 1 → s.buffers.lookup sid = none

theorem streamInv_init : StreamInv sid n msg init [] 0 where
  le := Nat.zero_le _
  arrived _ hi := absurd hi (Nat.not_lt_zero _)
  missing _ := List.not_mem_nil
  delivered := rfl
  seqNum _ := rfl
  pending _ x hx := by simp [Sequencer.current, init, AList.lookup_empty, Buffer.empty] at hx
  pending_iff _ k _ _ := by simp [Sequencer.current, init, AList.lookup_empty, Buffer.empty]
  erased _ := AList.lookup_empty _

/-- the invariant reads only the stream's buffer and what was passed on of the stream -/
theorem StreamInv.congr {s s' : Sequencer} {A : List ℕ} {j : ℕ} (h : StreamInv sid n msg s A j)
    (hl : s'.buffers.lookup sid = s.buffers.lookup sid)
    (hd : s'.delivered.filter (·.OfStream sid) = s.delivered.filter (·.OfStream sid)) :
    StreamInv sid n msg s' A j := by
  have hc : s'.current sid = s.current sid := by simp [Sequencer.current, hl]
  refine ⟨h.le, h.arrived, h.missing, hd.trans h.delivered, ?_, ?_, ?_, ?_⟩
  · rw [hc]; exact h.seqNum
  · rw [hc]; exact h.pending
  · rw [hc]; exact h.pending_iff
  · rw [hl]; exact h.erased

/-- an event that brings no message of the stream keeps the invariant -/
theorem StreamInv.step_other {s : Sequencer} (hw : WellFormed s) {A : List ℕ} {j : ℕ}
    (h : StreamInv sid n msg s A j)
    (e : Event) (he : ∀ m, e = .message m → ¬ m.OfStream sid) : StreamInv sid n msg (s.step e) A j := by
  cases e with
  | message m =>
    obtain ⟨hl, hd⟩ := onMessage_frame hw (he m rfl)
    exact h.congr hl hd
  | periodicMessageRequest => exact h.congr rfl rfl
  | connect => exact h.congr rfl rfl

/-- the buffer after a copy of message `k` is pushed still continues the stream, up to the first number not
arrived -/
theorem StreamInv.continues (hs : IsStream sid n msg) {s : Sequencer} {A : List ℕ} {j k j' : ℕ}
    (h : StreamInv sid n msg s A j) (hj : j ≤ n) (hk : k ≤ n) (hjj' : j ≤ j') (hj' : j' ≤ n + 1)
    (hmid : ∀ i, j ≤ i → i < j' → i ∈ A ++ [k]) (hmiss : j' ≤ n → j' ∉ A ++ [k]) :
    Continues n msg ((s.current sid).push (msg k)) j' where
  msgs x hx := by
    rcases Buffer.mem_push.1 hx with hx | ⟨-, rfl⟩
    · obtain ⟨k', rfl, -, hk'⟩ := h.pending hj x hx
      exact ⟨k', hk', rfl⟩
    · exact ⟨k, hk, rfl⟩
  le := by rw [Buffer.push_seqNum, h.seqNum hj]; exact hjj'
  seqNum_le := by rw [Buffer.push_seqNum, h.seqNum hj]; exact hj
  le_succ := hj'
  mem i hji hij := by
    rw [Buffer.push_seqNum, h.seqNum hj] at hji
    rw [Buffer.mem_push, h.seqNum hj]
    rcases List.mem_append.1 (hmid i hji hij) with hA | hk'
    · have hne : i ≠ j := fun he => h.missing hj (he ▸ hA)
      exact Or.inl ((h.pending_iff hj i (by omega) (by omega)).1 hA)
    · rw [List.mem_singleton] at hk'
      subst hk'
      exact Or.inr ⟨by rw [hs.sequenceNumber hk]; exact hji, rfl⟩
  not_mem hj'n hx := by
    rcases Buffer.mem_push.1 hx with hx | ⟨-, he⟩
    · obtain ⟨k', he, hjk', hk'⟩ := h.pending hj _ hx
      have := hs.inj hj'n hk' he
      subst this
      exact hmiss hj'n (List.mem_append_left _ ((h.pending_iff hj _ hjk' hk').2 hx))
    · exact hmiss hj'n (by rw [hs.inj hj'n hk he]; simp)

/-- **A copy of message `k` arrives.** The stream moves on to the first number that has not arrived. -/
theorem StreamInv.arrive (hs : IsStream sid n msg) {s : Sequencer} {A : List ℕ} {j k : ℕ}
    (h : StreamInv sid n msg s A j) (hj : j ≤ n) (hk : k ≤ n) :
    ∃ j', StreamInv sid n msg (s.onMessage (msg k)) (A ++ [k]) j' := by
  obtain ⟨j', hjj', hj', hmid, hmiss⟩ := exists_missing (A ++ [k]) n h.le
  have hcont := h.continues hs hj hk hjj' hj' hmid hmiss
  obtain ⟨hout, hend, hbuf⟩ := clear_stream hs hcont
  obtain ⟨hlookup, hdel⟩ := onMessage_of_messageStream s (hs k hk).1
  dsimp only at hlookup hdel
  rw [Buffer.push_seqNum, h.seqNum hj] at hout
  -- before the end of the stream its buffer is kept, expecting `j'`
  have hkept : j' ≤ n → ∃ b', (s.onMessage (msg k)).current sid = b' ∧ b'.seqNum = j' ∧
      ∀ x, x ∈ b'.buffer ↔ x ∈ ((s.current sid).push (msg k)).buffer ∧ j' < x.sequenceNumber := by
    intro hj'n
    obtain ⟨b', hb', hseq, hbuf'⟩ :=
      requestOrAcknowledge_of_not_end sid _ (by rw [hend]; exact decide_eq_false (by omega))
    obtain ⟨hseq'', -, hmem⟩ := hbuf hj'n
    exact ⟨b', current_of_lookup (hlookup.trans hb'), hseq.trans hseq'', fun x => by rw [hbuf', hmem]⟩
  refine ⟨j', ⟨hj', fun i hi => ?_, hmiss, ?_, fun hj'n => ?_, fun hj'n => ?_, fun hj'n => ?_, fun hj'n => ?_⟩⟩
  · -- arrived
    rcases Nat.lt_or_ge i j with hij | hij
    · exact List.mem_append_left _ (h.arrived i hij)
    · exact hmid i hij hi
  · -- what was passed on of the stream
    have hall : ∀ x ∈ (List.range' j (j' - j)).map msg, x.OfStream sid := fun x hx => by
      obtain ⟨i, hi, rfl⟩ := List.mem_map.1 hx
      rw [List.mem_range'_1] at hi
      exact hs.ofStream (by omega)
    rw [hdel, List.filter_append, h.delivered, hout, List.filter_eq_self.2 (by simpa using hall),
      ← List.map_append, range_append_range' hjj']
  · -- the expected number
    obtain ⟨b', hc, hseq, -⟩ := hkept hj'n
    rw [hc, hseq]
  · -- the messages kept are pending ones
    obtain ⟨b', hc, -, hmem⟩ := hkept hj'n
    intro x hx
    rw [hc, hmem] at hx
    obtain ⟨k', hk', rfl⟩ := hcont.msgs x hx.1
    exact ⟨k', rfl, by rw [← hs.sequenceNumber hk']; exact hx.2, hk'⟩
  · -- exactly the messages that arrived past `j'` are kept
    obtain ⟨b', hc, -, hmem⟩ := hkept hj'n
    intro k' hjk' hk'
    rw [hc, hmem, hs.sequenceNumber hk', and_iff_left hjk', Buffer.mem_push, h.seqNum hj,
      hs.sequenceNumber hk, ← h.pending_iff hj k' (by omega) hk', List.mem_append, List.mem_singleton]
    refine or_congr_right ⟨fun he => ⟨by omega, by rw [he]⟩, fun he => hs.inj hk' hk he.2⟩
  · -- the end of the stream erases its buffer
    rw [hlookup]
    exact requestOrAcknowledge_of_end (by rw [hend]; exact decide_eq_true hj'n)

theorem arrived_append (sid : ℕ) (evs evs' : List Event) :
    arrived sid (evs ++ evs') = arrived sid evs ++ arrived sid evs' := by
  simp [arrived, messages_append]

/-- **One stream over a run.** If every message of stream `sid` that arrives is one of `msg 0, …, msg n` and comes
while some of them has not arrived yet, the invariant holds after every run from the start. -/
theorem run_streamInv (hs : IsStream sid n msg) (evs : List Event)
    (hfrom : ∀ m ∈ messages evs, m.OfStream sid → ∃ k ≤ n, m = msg k)
    (hbefore : ∀ i < (arrived sid evs).length, ∃ k ≤ n, k ∉ (arrived sid evs).take i) :
    ∃ j, StreamInv sid n msg (init.run evs) (arrived sid evs) j := by
  induction evs using List.reverseRecOn with
  | nil => exact ⟨0, streamInv_init⟩
  | append_singleton evs e ih =>
    have hprefix : ∀ i < (arrived sid evs).length, ∃ k ≤ n, k ∉ (arrived sid evs).take i := fun i hi => by
      have := hbefore i (by rw [arrived_append, List.length_append]; omega)
      rwa [arrived_append, List.take_append_of_le_length hi.le] at this
    obtain ⟨j, h⟩ := ih (fun m hm => hfrom m (by rw [messages_append]; exact List.mem_append_left _ hm)) hprefix
    rw [run_append]
    by_cases he : ∃ m, e = .message m ∧ m.OfStream sid
    · -- a copy of one of the stream's messages arrives
      obtain ⟨m, rfl, hm⟩ := he
      obtain ⟨k, hk, rfl⟩ := hfrom _ (by simp [messages]) hm
      have harr : arrived sid [.message (msg k)] = [k] := by simp [arrived, messages, hm, hs.sequenceNumber hk]
      -- the stream has not ended: one of its messages had not arrived before this one
      have hj : j ≤ n := by
        obtain ⟨k', hk', hnot⟩ := hbefore (arrived sid evs).length (by simp [arrived_append, harr])
        rw [arrived_append, List.take_left' rfl] at hnot
        by_contra hjn
        exact hnot (h.arrived k' (by omega))
      rw [arrived_append, harr]
      exact h.arrive hs hj hk
    · -- anything else leaves the stream as it is
      simp only [not_exists, not_and] at he
      have harr : arrived sid [e] = [] := by
        cases e with
        | message m => simp [arrived, messages, he m rfl]
        | periodicMessageRequest => rfl
        | connect => rfl
      rw [arrived_append, harr, List.append_nil]
      exact ⟨j, h.step_other (run_wellFormed evs) e he⟩

end Stream

/-- **The sequencer delivers each stream in order, exactly once.** Let `msg 0, …, msg n` be the messages of stream
`sid`, of which only the last ends it, and let copies of them arrive in any order and number, among other messages,
all before the stream has ended. Then what was passed on of the stream is `msg 0, …, msg (j - 1)` in this order, where
`j` is the first number that has not arrived (`n + 1` once all have), and the stream's buffer is erased once it has
ended; messages without a stream header are passed on exactly as they arrive. -/
theorem run_delivers_stream_in_order (sid n : ℕ) (msg : ℕ → ServerMessage) (hs : IsStream sid n msg)
    (evs : List Event) (hfrom : ∀ m ∈ messages evs, m.OfStream sid → ∃ k ≤ n, m = msg k)
    (hbefore : ∀ i < (arrived sid evs).length, ∃ k ≤ n, k ∉ (arrived sid evs).take i) :
    (∃ j ≤ n + 1, (∀ i < j, i ∈ arrived sid evs) ∧ (j ≤ n → j ∉ arrived sid evs) ∧
      (init.run evs).delivered.filter (·.OfStream sid) = (List.range j).map msg ∧
      (j = n + 1 → (init.run evs).buffers.lookup sid = none)) ∧
    (init.run evs).delivered.filter (·.messageStream = none) = (messages evs).filter (·.messageStream = none) := by
  obtain ⟨j, h⟩ := run_streamInv hs evs hfrom hbefore
  exact ⟨⟨j, h.le, h.arrived, h.missing, h.delivered, h.erased⟩, run_nonStream evs⟩

/-- a stream of three messages, the last ending it -/
def threeMessages (k : ℕ) : ServerMessage := ⟨"", some ⟨1, k⟩, if k = 2 then .endOfStream else .other k⟩

/-- the stream arrives backwards with a duplicate, among a message without a stream and one of another stream -/
def threeArrivals : List Event :=
  [.message (threeMessages 2), .message ⟨"", none, .other 7⟩, .message (threeMessages 1),
    .message ⟨"", some ⟨5, 0⟩, .other 8⟩, .message (threeMessages 1), .periodicMessageRequest,
    .message (threeMessages 0)]

theorem run_delivers_stream_in_order_three :
    IsStream 1 2 threeMessages ∧ (∀ m ∈ messages threeArrivals, m.OfStream 1 → ∃ k ≤ 2, m = threeMessages k) ∧
    (∀ i < (arrived 1 threeArrivals).length, ∃ k ≤ 2, k ∉ (arrived 1 threeArrivals).take i) ∧
    ((∃ j ≤ 2 + 1, (∀ i < j, i ∈ arrived 1 threeArrivals) ∧ (j ≤ 2 → j ∉ arrived 1 threeArrivals) ∧
      (init.run threeArrivals).delivered.filter (·.OfStream 1) = (List.range j).map threeMessages ∧
      (j = 2 + 1 → (init.run threeArrivals).buffers.lookup 1 = none)) ∧
    (init.run threeArrivals).delivered.filter (·.messageStream = none) =
      (messages threeArrivals).filter (·.messageStream = none)) :=
  ⟨by decide, by decide, by decide,
    run_delivers_stream_in_order 1 2 threeMessages (by decide) threeArrivals (by decide) (by decide)⟩

end Sequencer

end OneHelpers.Communication
