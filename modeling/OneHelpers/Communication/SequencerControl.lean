/-
The control messages of the sequencer layer (`layers::Sequencer`). After `Buffer::clear` the callback requests the
messages missing before the first pending one (`MessageRequest`), acknowledges the stream every
`STREAM_MSG_ACK_WINDOW` messages and at its end (`MessageAcknowledgement`); `periodicMessageRequest` asks every
stream that has a buffer for its expected message.

`clear` returns, beside the end flag, one below the sequence number of the pending message it put back, one below
the expected number when the queue ran empty, or the number of the end-of-stream message it passed on.

Results:
- `clearLoop_seqNum`, `clearLoop_end`, `clearLoop_returned`: what `clear` returns, against the buffer it leaves;
- `clear_push_returned_pred`, `clearLoop_seqNum_eq`: the `uint64` arithmetic does not wrap: what `clear` decrements is
  positive, and the expected number moves only to one past a message passed on;
- `sendsControl_arrive`, `sendsControl_other`: the requests and acknowledgements one event sends about a stream,
  read against the state after the event;
- `acknowledged_arrive`: what the callback acknowledges on an arrival, at the end, with a full window, or neither;
- `AckInv`, `run_control`: over a run, the acknowledgements of a stream increase and stay below its first
  unacknowledged number;
- `sequencer_control_messages`.
-/
import Mathlib.Tactic
import OneHelpers.Communication.Sequencer

namespace OneHelpers.Communication

namespace Sequencer

open PriorityQueue

/-! ## What `clear` returns -/

namespace Buffer

/-- `clear` moves the expected number on by one for each message it passes on -/
theorem clearLoop_seqNum (fuel : ℕ) (b : Buffer) :
    (clearLoop fuel b).1.seqNum = b.seqNum + (clearLoop fuel b).2.1.length := by
  induction fuel generalizing b with
  | zero => rfl
  | succ fuel ih =>
    cases hpop : tryPop GreaterSeqNum b.buffer with
    | none => simp [clearLoop, hpop]
    | some p =>
      obtain ⟨it, rest⟩ := p
      simp only [clearLoop, hpop]
      split_ifs
      · rfl
      · rw [List.length_cons, ih]
        simp only
        omega
      · simp
      · exact ih _

/-- at the end of the stream `clear` returns the number of the message it passed last -/
theorem clearLoop_end (fuel : ℕ) (b : Buffer) (h : (clearLoop fuel b).2.2.2 = true) :
    (clearLoop fuel b).2.2.1 + 1 = (clearLoop fuel b).1.seqNum := by
  induction fuel generalizing b with
  | zero => cases h
  | succ fuel ih =>
    cases hpop : tryPop GreaterSeqNum b.buffer with
    | none => simp [clearLoop, hpop] at h
    | some p =>
      obtain ⟨it, rest⟩ := p
      simp only [clearLoop, hpop] at h ⊢
      -- the four exits of one pop; only the end-of-stream one and the two that loop on can end the stream
      by_cases hexp : it.sequenceNumber = b.seqNum
      · by_cases hend : it.body = .endOfStream
        · simp only [if_pos hexp, if_pos hend]
          omega
        · simp only [if_pos hexp, if_neg hend] at h ⊢
          exact ih _ h
      · by_cases hgt : b.seqNum < it.sequenceNumber
        · simp [if_neg hexp, if_pos hgt] at h
        · simp only [if_neg hexp, if_neg hgt] at h ⊢
          exact ih _ h

/-- **Before the end, `clear` returns a number below every message it keeps.** It stops at an empty queue, or puts
back a least pending message and returns one below its number. -/
theorem clearLoop_returned (fuel : ℕ) (b : Buffer) (hfuel : b.buffer.length ≤ fuel)
    (h : (clearLoop fuel b).2.2.2 = false) :
    ∀ x ∈ (clearLoop fuel b).1.buffer, (clearLoop fuel b).2.2.1 < x.sequenceNumber := by
  induction fuel generalizing b with
  | zero =>
    intro x hx
    have hnil : b.buffer = [] := List.eq_nil_of_length_eq_zero (Nat.le_zero.mp hfuel)
    rw [clearLoop, hnil] at hx
    cases hx
  | succ fuel ih =>
    cases hpop : tryPop GreaterSeqNum b.buffer with
    | none =>
      intro x hx
      simp only [clearLoop, hpop] at hx
      rw [(tryPop_eq_none GreaterSeqNum).1 hpop] at hx
      cases hx
    | some p =>
      obtain ⟨it, rest⟩ := p
      obtain ⟨hit, hle, hmem, hlen⟩ := pop_least hpop
      have hrest : rest.length ≤ fuel := by omega
      simp only [clearLoop, hpop] at h ⊢
      by_cases hexp : it.sequenceNumber = b.seqNum
      · by_cases hend : it.body = .endOfStream
        · simp [if_pos hexp, if_pos hend] at h
        · simp only [if_pos hexp, if_neg hend] at h ⊢
          exact ih _ hrest h
      · by_cases hgt : b.seqNum < it.sequenceNumber
        · -- the pending message goes back; every queued message is at least as late
          simp only [if_neg hexp, if_pos hgt]
          intro x hx
          have hxq : x ∈ b.buffer := by
            rcases List.mem_append.1 hx with hx | hx
            · exact (hmem x).2 (Or.inr hx)
            · rw [List.mem_singleton.1 hx]
              exact hit
          have := hle x hxq
          omega
        · simp only [if_neg hexp, if_neg hgt] at h ⊢
          exact ih _ hrest h

/-! ### The numbers in `uint64`

The source's counters and sequence numbers are `uint64_t`, the model's are `ℕ`. They agree as long as nothing wraps:
`clear` subtracts 1 from the expected number or from the number of the pending message it puts back, and `++m_seqNum`
moves the expected number one past a message passed on. The callback's own `seqNum - 1` is of a number at least
`STREAM_MSG_ACK_WINDOW`. -/

/-- **What `clear` decrements is positive.** It returns one below the expected number, which is then positive, or one
below the number of a message it keeps, which is past the expected one: on a queue that holds a message whenever the
expected number is 0, as after a push, neither `- 1` wraps. -/
theorem clearLoop_returned_pred (fuel : ℕ) (b : Buffer)
    (h : b.seqNum = 0 → b.buffer ≠ [] ∧ b.buffer.length ≤ fuel) :
    (0 < (clearLoop fuel b).1.seqNum ∧ (clearLoop fuel b).2.2.1 = (clearLoop fuel b).1.seqNum - 1) ∨
      ∃ x ∈ (clearLoop fuel b).1.buffer, 0 < x.sequenceNumber ∧ (clearLoop fuel b).2.2.1 = x.sequenceNumber - 1 := by
  induction fuel generalizing b with
  | zero =>
    -- no fuel is left only when the expected number is positive
    have hpos : 0 < b.seqNum := Nat.pos_of_ne_zero fun h0 => by
      obtain ⟨hne, hlen⟩ := h h0
      exact hne (List.eq_nil_of_length_eq_zero (Nat.le_zero.mp hlen))
    exact .inl ⟨hpos, rfl⟩
  | succ fuel ih =>
    cases hpop : tryPop GreaterSeqNum b.buffer with
    | none =>
      have hpos : 0 < b.seqNum := Nat.pos_of_ne_zero fun h0 => (h h0).1 ((tryPop_eq_none GreaterSeqNum).1 hpop)
      rw [clearLoop, hpop]
      exact .inl ⟨hpos, rfl⟩
    | some p =>
      obtain ⟨it, rest⟩ := p
      obtain ⟨-, hle, -, hlen⟩ := pop_least hpop
      simp only [clearLoop, hpop]
      by_cases hexp : it.sequenceNumber = b.seqNum
      · -- the expected message is passed on, and the expected number is positive from here on
        have hnext : ∀ b' : Buffer, b'.seqNum = b.seqNum + 1 → b'.seqNum = 0 → b'.buffer ≠ [] ∧ b'.buffer.length ≤ fuel :=
          fun b' hb' h0 => absurd h0 (by omega)
        by_cases hend : it.body = .endOfStream
        · rw [if_pos hexp, if_pos hend]
          exact .inl ⟨Nat.succ_pos _, rfl⟩
        · simp only [if_pos hexp, if_neg hend]
          exact ih _ (hnext _ rfl)
      · by_cases hgt : b.seqNum < it.sequenceNumber
        · -- the pending message goes back, and the number returned is one below it
          simp only [if_neg hexp, if_pos hgt]
          exact .inr ⟨it, by simp [PriorityQueue.push], by omega, rfl⟩
        · -- a copy of a message passed on is below the expected number, which is therefore positive
          simp only [if_neg hexp, if_neg hgt]
          exact ih _ fun h0 => absurd (show b.seqNum = 0 from h0) (by omega)

/-- after a push, what `clear` decrements is positive -/
theorem clear_push_returned_pred (b : Buffer) (m : ServerMessage) :
    (0 < ((b.push m).clear).1.seqNum ∧ ((b.push m).clear).2.2.1 = ((b.push m).clear).1.seqNum - 1) ∨
      ∃ x ∈ ((b.push m).clear).1.buffer, 0 < x.sequenceNumber ∧
        ((b.push m).clear).2.2.1 = x.sequenceNumber - 1 := by
  refine clearLoop_returned_pred _ _ fun h0 => ⟨?_, le_refl _⟩
  -- at expected number 0 every message is pushed
  rw [push_seqNum] at h0
  exact List.ne_nil_of_mem (mem_push.2 (.inr ⟨by omega, rfl⟩))

/-- **The expected number moves only to one past a message passed on.** So `++m_seqNum` wraps only when it passes on
the message numbered `2 ^ 64 - 1`. -/
theorem clearLoop_seqNum_eq (fuel : ℕ) (b : Buffer) :
    (clearLoop fuel b).1.seqNum = b.seqNum ∨
      ∃ x ∈ (clearLoop fuel b).2.1, (clearLoop fuel b).1.seqNum = x.sequenceNumber + 1 := by
  induction fuel generalizing b with
  | zero => exact .inl rfl
  | succ fuel ih =>
    cases hpop : tryPop GreaterSeqNum b.buffer with
    | none =>
      rw [clearLoop, hpop]
      exact .inl rfl
    | some p =>
      obtain ⟨it, rest⟩ := p
      simp only [clearLoop, hpop]
      by_cases hexp : it.sequenceNumber = b.seqNum
      · by_cases hend : it.body = .endOfStream
        · simp only [if_pos hexp, if_pos hend]
          exact .inr ⟨it, List.mem_singleton_self it, by simp [hexp]⟩
        · -- the loop goes on from one past `it`: it stays there, or moves past a later message
          simp only [if_pos hexp, if_neg hend]
          rcases ih { b with seqNum := b.seqNum + 1, buffer := rest } with h | ⟨x, hx, h⟩
          · exact .inr ⟨it, List.mem_cons_self, by simp only at h ⊢; omega⟩
          · exact .inr ⟨x, List.mem_cons_of_mem it hx, h⟩
      · by_cases hgt : b.seqNum < it.sequenceNumber
        · rw [if_neg hexp, if_pos hgt]
          exact .inl rfl
        · simp only [if_neg hexp, if_neg hgt]
          exact ih _

end Buffer

/-! ## Messages sent -/

/-- the messages an event sends to the layer below -/
def sentBy (s : Sequencer) (e : Event) : List ClientMessage := (s.step e).sent.drop s.sent.length

/-- the sequence number a message acknowledges on stream `sid` -/
def ackOf (sid : ℕ) (m : ClientMessage) : Option ℕ :=
  match m.body with
  | .messageAcknowledgement streamId seqNum => if streamId = sid then some seqNum else none
  | _ => none

/-- the sequence numbers acknowledged on stream `sid`, in the order sent -/
def acknowledged (sid : ℕ) (sent : List ClientMessage) : List ℕ := sent.filterMap (ackOf sid)

theorem step_sent (s : Sequencer) (e : Event) : (s.step e).sent = s.sent ++ sentBy s e := by
  -- every event only appends to what was sent
  cases e with
  | message m =>
    cases hm : m.messageStream with
    | none => simp [sentBy, step, Sequencer.onMessage, hm]
    | some ms => simp [sentBy, step, Sequencer.onMessage, hm]
  | periodicMessageRequest => simp [sentBy, step, Sequencer.periodicMessageRequest]
  | connect => simp [sentBy, step, Sequencer.connect]

theorem sentBy_of_messageStream (s : Sequencer) {m : ServerMessage} {ms : MessageStream}
    (hm : m.messageStream = some ms) :
    sentBy s (.message m) = (requestOrAcknowledge ms.streamId ((s.current ms.streamId).push m).clear.1
      ((s.current ms.streamId).push m).clear.2.2).1 := by
  have h := step_sent s (.message m)
  simp only [step, Sequencer.onMessage, hm] at h
  exact (List.append_cancel_left h).symm

@[simp] theorem acknowledged_append (sid : ℕ) (l l' : List ClientMessage) :
    acknowledged sid (l ++ l') = acknowledged sid l ++ acknowledged sid l' := List.filterMap_append

@[simp] theorem ackOf_sendMessageRequest (sid streamId lo hi : ℕ) :
    ackOf sid (sendMessageRequest streamId lo hi) = none := rfl

@[simp] theorem ackOf_sendMessageAcknowledgement (sid streamId k : ℕ) :
    ackOf sid (sendMessageAcknowledgement streamId k) = if streamId = sid then some k else none := rfl

/-- a request the callback sends is for its own stream, from the expected number to what `clear` returned, and only
before the end -/
theorem request_of_requestOrAcknowledge {streamId sid lo hi : ℕ} {b : Buffer} {cleared : ℕ × Bool}
    (h : .messageRequest sid lo hi ∈ (requestOrAcknowledge streamId b cleared).1.map ClientMessage.body) :
    sid = streamId ∧ lo = b.seqNum ∧ hi = cleared.1 ∧ lo ≤ hi ∧ cleared.2 = false := by
  unfold requestOrAcknowledge at h
  split_ifs at h with hend hreq hwin hwin <;>
    simp [sendMessageRequest, sendMessageAcknowledgement] at h
  all_goals
    obtain ⟨rfl, rfl, rfl⟩ := h
    exact ⟨rfl, rfl, rfl, hreq, by simpa using hend⟩

/-- an acknowledgement the callback sends is for its own stream: the number `clear` returned at the end, or one
below the expected number when the window is full -/
theorem acknowledgement_of_requestOrAcknowledge {streamId sid k : ℕ} {b : Buffer} {cleared : ℕ × Bool}
    (h : .messageAcknowledgement sid k ∈ (requestOrAcknowledge streamId b cleared).1.map ClientMessage.body) :
    sid = streamId ∧ (cleared.2 = true ∧ k = cleared.1 ∨
      cleared.2 = false ∧ b.seqNumAck + streamMsgAckWindow ≤ b.seqNum ∧ k = b.seqNum - 1) := by
  unfold requestOrAcknowledge at h
  split_ifs at h with hend hreq hwin hwin <;>
    simp [sendMessageRequest, sendMessageAcknowledgement] at h
  · obtain ⟨rfl, rfl⟩ := h
    exact ⟨rfl, Or.inl ⟨hend, rfl⟩⟩
  all_goals
    obtain ⟨rfl, rfl⟩ := h
    exact ⟨rfl, Or.inr ⟨by simpa using hend, hwin, rfl⟩⟩

/-- the callback acknowledges only its own stream -/
theorem acknowledged_requestOrAcknowledge_ne {streamId sid : ℕ} (b : Buffer) (cleared : ℕ × Bool)
    (h : streamId ≠ sid) : acknowledged sid (requestOrAcknowledge streamId b cleared).1 = [] := by
  unfold requestOrAcknowledge
  split_ifs <;> simp [acknowledged, h]

theorem sent_requestOrAcknowledge_of_end {streamId : ℕ} (b : Buffer) {cleared : ℕ × Bool} (h : cleared.2 = true) :
    (requestOrAcknowledge streamId b cleared).1 = [sendMessageAcknowledgement streamId cleared.1] := by
  simp [requestOrAcknowledge, h]

/-- with a full window the callback acknowledges and resets the window -/
theorem requestOrAcknowledge_of_window {streamId : ℕ} {b : Buffer} {cleared : ℕ × Bool} (h : cleared.2 = false)
    (hwin : b.seqNumAck + streamMsgAckWindow ≤ b.seqNum) :
    requestOrAcknowledge streamId b cleared =
      ((if b.seqNum ≤ cleared.1 then [sendMessageRequest streamId b.seqNum cleared.1] else []) ++
        [sendMessageAcknowledgement streamId (b.seqNum - 1)], some b.resetSequenceNumberAck) := by
  simp only [requestOrAcknowledge, h, Bool.false_eq_true, if_false, ge_iff_le, if_pos hwin]

theorem requestOrAcknowledge_of_not_window {streamId : ℕ} {b : Buffer} {cleared : ℕ × Bool} (h : cleared.2 = false)
    (hwin : ¬ b.seqNumAck + streamMsgAckWindow ≤ b.seqNum) :
    requestOrAcknowledge streamId b cleared =
      (if b.seqNum ≤ cleared.1 then [sendMessageRequest streamId b.seqNum cleared.1] else [], some b) := by
  simp only [requestOrAcknowledge, h, Bool.false_eq_true, if_false, ge_iff_le, if_neg hwin]

@[simp] theorem acknowledged_acknowledgement (sid k : ℕ) :
    acknowledged sid [sendMessageAcknowledgement sid k] = [k] := by
  simp [acknowledged]

/-- requests acknowledge nothing -/
theorem acknowledged_request (sid streamId lo hi : ℕ) (p : Prop) [Decidable p] :
    acknowledged sid (if p then [sendMessageRequest streamId lo hi] else []) = [] := by
  split_ifs <;> rfl

theorem sentBy_of_no_stream (s : Sequencer) {m : ServerMessage} (hm : m.messageStream = none) :
    sentBy s (.message m) = [] := by
  have h := step_sent s (.message m)
  simp only [step, Sequencer.onMessage, hm] at h
  exact List.append_cancel_left (h.symm.trans (List.append_nil _).symm)

theorem mem_acknowledged_of_body {sid k : ℕ} {l : List ClientMessage}
    (h : .messageAcknowledgement sid k ∈ l.map ClientMessage.body) : k ∈ acknowledged sid l := by
  obtain ⟨m, hm, hbody⟩ := List.mem_map.1 h
  exact List.mem_filterMap.2 ⟨m, hm, by simp [ackOf, hbody]⟩

/-! ## The control messages of one event -/

/-- the requests and acknowledgements an event sends about stream `sid`, read against the state after it: a request
names the expected message, which is the number of the stream's messages passed on, and ends below every buffered
message; an acknowledgement names a message passed on; and the event that passes on the end-of-stream message
acknowledges it -/
structure SendsControl (sid n : ℕ) (msg : ℕ → ServerMessage) (s : Sequencer) (e : Event) : Prop where
  request : ∀ lo hi, .messageRequest sid lo hi ∈ (sentBy s e).map ClientMessage.body →
    lo ≤ hi ∧ lo = ((s.step e).current sid).seqNum ∧ lo = ((s.step e).delivered.filter (·.OfStream sid)).length ∧
      ∀ x ∈ ((s.step e).current sid).buffer, hi < x.sequenceNumber
  acknowledgement : ∀ k, .messageAcknowledgement sid k ∈ (sentBy s e).map ClientMessage.body →
    k < ((s.step e).delivered.filter (·.OfStream sid)).length
  endOfStream : msg n ∉ s.delivered → msg n ∈ (s.step e).delivered →
    .messageAcknowledgement sid n ∈ (sentBy s e).map ClientMessage.body

/-- the acknowledgements of stream `sid` so far increase; before the end of the stream they lie below its first
unacknowledged number, which is at most the first number that has not arrived -/
structure AckInv (sid n : ℕ) (s : Sequencer) (j : ℕ) : Prop where
  increasing : (acknowledged sid s.sent).Pairwise (· < ·)
  below : j ≤ n → ∀ k ∈ acknowledged sid s.sent, k < (s.current sid).seqNumAck
  seqNumAck_le : j ≤ n → (s.current sid).seqNumAck ≤ j

theorem ackInv_init (sid n : ℕ) : AckInv sid n init 0 where
  increasing := List.Pairwise.nil
  below _ k hk := by simp [acknowledged, init] at hk
  seqNumAck_le _ := by simp [Sequencer.current, init, AList.lookup_empty, Buffer.empty]

section Stream

variable {sid n : ℕ} {msg : ℕ → ServerMessage}

theorem StreamInv.length_delivered {s : Sequencer} {A : List ℕ} {j : ℕ} (h : StreamInv sid n msg s A j) :
    (s.delivered.filter (·.OfStream sid)).length = j := by
  rw [h.delivered, List.length_map, List.length_range]

/-- a message of the stream is in a list exactly when it is among the list's messages of the stream -/
theorem mem_filter_ofStream (hs : IsStream sid n msg) {k : ℕ} (hk : k ≤ n) (l : List ServerMessage) :
    msg k ∈ l ↔ msg k ∈ l.filter (·.OfStream sid) := by
  rw [List.mem_filter, decide_eq_true (hs.ofStream hk), and_iff_left rfl]

/-- a message of the stream has been passed on exactly when it comes before the first that has not arrived -/
theorem StreamInv.mem_delivered (hs : IsStream sid n msg) {s : Sequencer} {A : List ℕ} {j : ℕ}
    (h : StreamInv sid n msg s A j) {k : ℕ} (hk : k ≤ n) : msg k ∈ s.delivered ↔ k < j := by
  rw [mem_filter_ofStream hs hk, h.delivered, List.mem_map]
  constructor
  · rintro ⟨i, hi, heq⟩
    rw [List.mem_range] at hi
    rw [← hs.inj (by have := h.le; omega) hk heq]
    exact hi
  · intro hkj
    exact ⟨k, List.mem_range.2 hkj, rfl⟩

/-- more arrivals never move the first missing number back -/
theorem StreamInv.le_of_append {s s' : Sequencer} {A B : List ℕ} {j j' : ℕ} (h : StreamInv sid n msg s A j)
    (h' : StreamInv sid n msg s' (A ++ B) j') : j ≤ j' := by
  by_contra hlt
  exact h'.missing (by have := h.le; omega) (List.mem_append_left _ (h.arrived j' (by omega)))

/-- the `clear` of the callback on a copy of message `k` runs up to the first number that has not arrived after it -/
theorem StreamInv.clearSpec (hs : IsStream sid n msg) {s : Sequencer} {A : List ℕ} {j j' k : ℕ}
    (h : StreamInv sid n msg s A j) (hj : j ≤ n) (hk : k ≤ n)
    (h' : StreamInv sid n msg (s.onMessage (msg k)) (A ++ [k]) j') :
    ClearSpec n msg ((s.current sid).push (msg k)) j' ((s.current sid).push (msg k)).clear :=
  clear_stream hs (h.continues hs hj hk (h.le_of_append h') h'.le (fun i _ hi => h'.arrived i hi) h'.missing)

/-- after that `clear` the stream expects the first number that has not arrived -/
theorem StreamInv.cleared_seqNum (hs : IsStream sid n msg) {s : Sequencer} {A : List ℕ} {j j' k : ℕ}
    (h : StreamInv sid n msg s A j) (hj : j ≤ n) (hk : k ≤ n)
    (h' : StreamInv sid n msg (s.onMessage (msg k)) (A ++ [k]) j') :
    ((s.current sid).push (msg k)).clear.1.seqNum = j' := by
  obtain ⟨hout, -, -⟩ := h.clearSpec hs hj hk h'
  have hseq : ((s.current sid).push (msg k)).clear.1.seqNum =
      ((s.current sid).push (msg k)).seqNum + ((s.current sid).push (msg k)).clear.2.1.length :=
    Buffer.clearLoop_seqNum _ _
  have hle := h.le_of_append h'
  rw [hseq, hout, List.length_map, List.length_range', Buffer.push_seqNum, h.seqNum hj]
  omega

/-- at the end of the stream that `clear` returns one below the expected number it leaves -/
theorem StreamInv.cleared_end (hs : IsStream sid n msg) {s : Sequencer} {A : List ℕ} {j j' k : ℕ}
    (h : StreamInv sid n msg s A j) (hj : j ≤ n) (hk : k ≤ n)
    (h' : StreamInv sid n msg (s.onMessage (msg k)) (A ++ [k]) j')
    (hended : ((s.current sid).push (msg k)).clear.2.2.2 = true) :
    ((s.current sid).push (msg k)).clear.2.2.1 + 1 = j' := by
  rw [← h.cleared_seqNum hs hj hk h']
  exact Buffer.clearLoop_end _ _ hended

/-- **A copy of message `k` arrives.** The callback requests from the new expected number up to below the first
pending message, acknowledges one below the expected number when the window is full, and at the end acknowledges
the last message. -/
theorem sendsControl_arrive (hs : IsStream sid n msg) {s : Sequencer} {A : List ℕ} {j j' k : ℕ}
    (h : StreamInv sid n msg s A j) (hj : j ≤ n) (hk : k ≤ n)
    (h' : StreamInv sid n msg (s.onMessage (msg k)) (A ++ [k]) j') :
    SendsControl sid n msg s (.message (msg k)) := by
  obtain ⟨-, hend, hbuf⟩ := h.clearSpec hs hj hk h'
  have hseq := h.cleared_seqNum hs hj hk h'
  have hsent := sentBy_of_messageStream s (hs k hk).1
  have hlookup := (onMessage_of_messageStream s (hs k hk).1).1
  dsimp only at hsent hlookup
  have hcount : ((s.step (.message (msg k))).delivered.filter (·.OfStream sid)).length = j' := h'.length_delivered
  have hlast := h.cleared_end hs hj hk h'
  refine ⟨fun lo hi hreq => ?_, fun k' hack => ?_, fun _ hin => ?_⟩
  · -- a request is sent before the end, and the buffer kept is the one `clear` left
    rw [hsent] at hreq
    obtain ⟨-, hlo, hhi, hle, hnend⟩ := request_of_requestOrAcknowledge hreq
    obtain ⟨b', hb', hseq', hbuf'⟩ := requestOrAcknowledge_of_not_end sid _ hnend
    have hcur : (s.step (.message (msg k))).current sid = b' := current_of_lookup (hlookup.trans hb')
    refine ⟨hle, by rw [hcur, hseq', hlo], by rw [hcount, hlo, hseq], ?_⟩
    rw [hcur, hbuf', hhi]
    exact Buffer.clearLoop_returned _ _ le_rfl hnend
  · rw [hsent] at hack
    obtain ⟨-, hcase⟩ := acknowledgement_of_requestOrAcknowledge hack
    rw [hcount]
    rcases hcase with ⟨hended, rfl⟩ | ⟨-, hwin, rfl⟩
    · have := hlast hended
      omega
    · -- a full window: the expected number is past it
      unfold streamMsgAckWindow at hwin
      omega
  · -- the end-of-stream message is passed on only at the end of the stream, which is acknowledged
    have hj' : j' = n + 1 := by
      have := (h'.mem_delivered hs le_rfl).1 hin
      have := h'.le
      omega
    have hended : ((s.current sid).push (msg k)).clear.2.2.2 = true := by
      rw [hend, hj']
      exact decide_eq_true rfl
    have hn := hlast hended
    rw [hsent, sent_requestOrAcknowledge_of_end _ hended, List.map_singleton, List.mem_singleton]
    simp only [sendMessageAcknowledgement, ClientBody.messageAcknowledgement.injEq, true_and]
    omega

/-- an event that brings no message of the stream leaves its buffer and what was passed on of it as they are -/
theorem step_frame {s : Sequencer} (hw : WellFormed s) (e : Event) (he : ∀ m, e = .message m → ¬ m.OfStream sid) :
    (s.step e).buffers.lookup sid = s.buffers.lookup sid ∧
      (s.step e).delivered.filter (·.OfStream sid) = s.delivered.filter (·.OfStream sid) := by
  cases e with
  | message m => exact onMessage_frame hw (he m rfl)
  | periodicMessageRequest => exact ⟨rfl, rfl⟩
  | connect => exact ⟨rfl, rfl⟩

/-- an event that brings no message of the stream acknowledges nothing on it -/
theorem acknowledged_sentBy_other (s : Sequencer) (e : Event) (he : ∀ m, e = .message m → ¬ m.OfStream sid) :
    acknowledged sid (sentBy s e) = [] := by
  cases e with
  | message m =>
    cases hm : m.messageStream with
    | none => rw [sentBy_of_no_stream s hm]; rfl
    | some ms =>
      have hne : ms.streamId ≠ sid := fun heq => he m rfl ((ServerMessage.ofStream_iff hm sid).2 heq)
      rw [sentBy_of_messageStream s hm]
      exact acknowledged_requestOrAcknowledge_ne _ _ hne
  | periodicMessageRequest =>
    simp [sentBy, step, Sequencer.periodicMessageRequest, acknowledged, List.filterMap_map, Function.comp_def]
  | connect => simp [sentBy, step, Sequencer.connect, acknowledged, ackOf, sendMessageStreamReset]

/-- **Any other event.** Only the periodic request can name the stream, and it asks for the expected message, which
lies below every buffered one. -/
theorem sendsControl_other (hs : IsStream sid n msg) {s : Sequencer} (hw : WellFormed s) {A : List ℕ} {j : ℕ}
    (h : StreamInv sid n msg s A j) (e : Event) (he : ∀ m, e = .message m → ¬ m.OfStream sid) :
    SendsControl sid n msg s e := by
  obtain ⟨hl, hd⟩ := step_frame hw e he
  have hcount : ((s.step e).delivered.filter (·.OfStream sid)).length = j := by rw [hd]; exact h.length_delivered
  refine ⟨fun lo hi hreq => ?_, fun k hack => ?_, fun hnot hin => ?_⟩
  · cases e with
    | message m =>
      cases hm : m.messageStream with
      | none =>
        rw [sentBy_of_no_stream s hm] at hreq
        cases hreq
      | some ms =>
        rw [sentBy_of_messageStream s hm] at hreq
        exact absurd ((ServerMessage.ofStream_iff hm sid).2 (request_of_requestOrAcknowledge hreq).1.symm) (he m rfl)
    | periodicMessageRequest =>
      -- a request of the periodic round comes from the stream's buffer, which exists only before the end
      simp only [sentBy, step, Sequencer.periodicMessageRequest, List.drop_left, getStreamSequenceNumbers,
        List.map_map, List.mem_map, Function.comp_apply] at hreq
      obtain ⟨⟨sid', b⟩, hmem, hbody⟩ := hreq
      simp only [sendMessageRequest, ClientBody.messageRequest.injEq] at hbody
      obtain ⟨rfl, rfl, rfl⟩ := hbody
      have hlook : s.buffers.lookup sid' = some b := Option.mem_def.1 (AList.mem_lookup_iff.2 hmem)
      have hj : j ≤ n := by
        by_contra hjn
        rw [h.erased (by have := h.le; omega)] at hlook
        cases hlook
      have hcur : s.current sid' = b := current_of_lookup hlook
      have hseq : b.seqNum = j := hcur ▸ h.seqNum hj
      refine ⟨le_rfl, by rw [← hcur]; rfl, by rw [hcount, hseq], fun x hx => ?_⟩
      obtain ⟨k', rfl, hjk', hk'⟩ := h.pending hj x hx
      rw [hs.sequenceNumber hk', hseq]
      exact hjk'
    | connect => simp [sentBy, step, Sequencer.connect, sendMessageStreamReset] at hreq
  · have := acknowledged_sentBy_other s e he ▸ mem_acknowledged_of_body hack
    cases this
  · rw [mem_filter_ofStream hs le_rfl, hd, ← mem_filter_ofStream hs le_rfl] at hin
    exact absurd hin hnot

/-! ## Acknowledgements over a run -/

theorem AckInv.other {s : Sequencer} (hw : WellFormed s) {j : ℕ} (ha : AckInv sid n s j) (e : Event)
    (he : ∀ m, e = .message m → ¬ m.OfStream sid) : AckInv sid n (s.step e) j := by
  have hc : (s.step e).current sid = s.current sid := by simp [Sequencer.current, (step_frame hw e he).1]
  have hacks : acknowledged sid (s.step e).sent = acknowledged sid s.sent := by
    rw [step_sent, acknowledged_append, acknowledged_sentBy_other s e he, List.append_nil]
  refine ⟨?_, fun hj => ?_, fun hj => ?_⟩
  · rw [hacks]; exact ha.increasing
  · rw [hacks, hc]; exact ha.below hj
  · rw [hc]; exact ha.seqNumAck_le hj

/-- one more number above all the others keeps a list increasing -/
theorem pairwise_append_of_lt {l : List ℕ} {b : ℕ} (hl : l.Pairwise (· < ·)) (hb : ∀ a ∈ l, a < b) :
    (l ++ [b]).Pairwise (· < ·) :=
  List.pairwise_append.2 ⟨hl, List.pairwise_singleton _ _, fun a ha c hc => by
    rw [List.mem_singleton.1 hc]
    exact hb a ha⟩

/-- **The acknowledgements of an arrival.** The callback acknowledges the last message at the end of the stream;
before the end it acknowledges one below the new expected number and restarts the window there when the window is
full, and otherwise acknowledges nothing and keeps the window. -/
theorem acknowledged_arrive (hs : IsStream sid n msg) {s : Sequencer} {A : List ℕ} {j j' k : ℕ}
    (h : StreamInv sid n msg s A j) (hj : j ≤ n) (hk : k ≤ n)
    (h' : StreamInv sid n msg (s.onMessage (msg k)) (A ++ [k]) j') :
    (j' = n + 1 ∧ acknowledged sid (s.step (.message (msg k))).sent = acknowledged sid s.sent ++ [n]) ∨
    (j' ≤ n ∧ (s.current sid).seqNumAck + streamMsgAckWindow ≤ j' ∧
      acknowledged sid (s.step (.message (msg k))).sent = acknowledged sid s.sent ++ [j' - 1] ∧
      ((s.step (.message (msg k))).current sid).seqNumAck = j') ∨
    (j' ≤ n ∧ acknowledged sid (s.step (.message (msg k))).sent = acknowledged sid s.sent ∧
      ((s.step (.message (msg k))).current sid).seqNumAck = (s.current sid).seqNumAck) := by
  obtain ⟨-, hend, hbuf⟩ := h.clearSpec hs hj hk h'
  have hseq := h.cleared_seqNum hs hj hk h'
  have hacks := congrArg (acknowledged sid) (step_sent s (.message (msg k)))
  rw [acknowledged_append, sentBy_of_messageStream s (hs k hk).1] at hacks
  have hlookup := (onMessage_of_messageStream s (hs k hk).1).1
  dsimp only at hacks hlookup
  by_cases hj'n : j' ≤ n
  · -- before the end the buffer is kept with the window `clear` left, which is the one before
    have hnend : ((s.current sid).push (msg k)).clear.2.2.2 = false := by
      rw [hend]
      exact decide_eq_false (by omega)
    obtain ⟨-, hackB, -⟩ := hbuf hj'n
    rw [Buffer.push_seqNumAck] at hackB
    by_cases hwin : ((s.current sid).push (msg k)).clear.1.seqNumAck + streamMsgAckWindow ≤
        ((s.current sid).push (msg k)).clear.1.seqNum
    · rw [requestOrAcknowledge_of_window hnend hwin, acknowledged_append, acknowledged_request, List.nil_append,
        acknowledged_acknowledgement, hseq] at hacks
      rw [requestOrAcknowledge_of_window hnend hwin] at hlookup
      have hc : (s.step (.message (msg k))).current sid = _ := current_of_lookup hlookup
      rw [hackB, hseq] at hwin
      exact Or.inr (Or.inl ⟨hj'n, hwin, hacks, by rw [hc]; exact hseq⟩)
    · rw [requestOrAcknowledge_of_not_window hnend hwin, acknowledged_request, List.append_nil] at hacks
      rw [requestOrAcknowledge_of_not_window hnend hwin] at hlookup
      have hc : (s.step (.message (msg k))).current sid = _ := current_of_lookup hlookup
      exact Or.inr (Or.inr ⟨hj'n, hacks, by rw [hc]; exact hackB⟩)
  · -- the end of the stream: its last message is acknowledged
    have hj' : j' = n + 1 := by have := h'.le; omega
    have hended : ((s.current sid).push (msg k)).clear.2.2.2 = true := by
      rw [hend]
      exact decide_eq_true hj'
    have hn := h.cleared_end hs hj hk h' hended
    rw [sent_requestOrAcknowledge_of_end _ hended, acknowledged_acknowledgement,
      show ((s.current sid).push (msg k)).clear.2.2.1 = n by omega] at hacks
    exact Or.inl ⟨hj', hacks⟩

/-- a copy of message `k` arrives: a new acknowledgement lies above the earlier ones, and the window restarts at
it -/
theorem AckInv.arrive (hs : IsStream sid n msg) {s : Sequencer} {A : List ℕ} {j j' k : ℕ}
    (h : StreamInv sid n msg s A j) (hj : j ≤ n) (hk : k ≤ n)
    (h' : StreamInv sid n msg (s.onMessage (msg k)) (A ++ [k]) j') (ha : AckInv sid n s j) :
    AckInv sid n (s.step (.message (msg k))) j' := by
  have hold := ha.below hj
  have hackle := ha.seqNumAck_le hj
  have hjj' := h.le_of_append h'
  rcases acknowledged_arrive hs h hj hk h' with ⟨hend, hacks⟩ | ⟨hj'n, hwin, hacks, hc⟩ | ⟨hj'n, hacks, hc⟩
  · -- the end: the last message lies above every earlier acknowledgement
    refine ⟨?_, fun hj' => by omega, fun hj' => by omega⟩
    rw [hacks]
    exact pairwise_append_of_lt ha.increasing fun a ha' => by have := hold a ha'; omega
  · -- a full window: one below the new expected number, past the window
    unfold streamMsgAckWindow at hwin
    refine ⟨?_, fun _ a ha' => ?_, fun _ => by rw [hc]⟩
    · rw [hacks]
      exact pairwise_append_of_lt ha.increasing fun a ha' => by have := hold a ha'; omega
    · rw [hacks, List.mem_append, List.mem_singleton] at ha'
      rw [hc]
      rcases ha' with ha' | rfl
      · have := hold a ha'
        omega
      · omega
  · refine ⟨?_, fun _ => ?_, fun _ => ?_⟩
    · rw [hacks]; exact ha.increasing
    · rw [hacks, hc]; exact hold
    · rw [hc]; omega

/-- the events of a run, each against the state before it: the last event of a longer run is added to those of
the shorter one -/
theorem forall_getElem_append {P : Sequencer → Event → Prop} (evs : List Event) (e : Event)
    (hevs : ∀ i (hi : i < evs.length), P (init.run (evs.take i)) evs[i]) (he : P (init.run evs) e) :
    ∀ i (hi : i < (evs ++ [e]).length), P (init.run ((evs ++ [e]).take i)) (evs ++ [e])[i] := by
  intro i hi
  rcases Nat.lt_or_ge i evs.length with hlt | hge
  · rw [List.take_append_of_le_length hlt.le, List.getElem_append_left hlt]
    exact hevs i hlt
  · have hlast : i = evs.length := by
      rw [List.length_append, List.length_singleton] at hi
      omega
    subst hlast
    rw [List.take_left, List.getElem_concat_length rfl]
    exact he

/-- **Control messages over a run.** Under the hypotheses of the in-order delivery, the invariants of the stream and
of its acknowledgements hold after the run, and every event of it sends well-formed control messages about the
stream -/
theorem run_control (hs : IsStream sid n msg) (evs : List Event)
    (hfrom : ∀ m ∈ messages evs, m.OfStream sid → ∃ k ≤ n, m = msg k)
    (hbefore : ∀ i < (arrived sid evs).length, ∃ k ≤ n, k ∉ (arrived sid evs).take i) :
    ∃ j, StreamInv sid n msg (init.run evs) (arrived sid evs) j ∧ AckInv sid n (init.run evs) j ∧
      ∀ i (hi : i < evs.length), SendsControl sid n msg (init.run (evs.take i)) evs[i] := by
  -- induction on the run from its end, as for the stream invariant alone
  induction evs using List.reverseRecOn with
  | nil => exact ⟨0, streamInv_init, ackInv_init sid n, fun i hi => absurd hi (Nat.not_lt_zero _)⟩
  | append_singleton evs e ih =>
    have hprefix : ∀ i < (arrived sid evs).length, ∃ k ≤ n, k ∉ (arrived sid evs).take i := fun i hi => by
      have := hbefore i (by rw [arrived_append, List.length_append]; omega)
      rwa [arrived_append, List.take_append_of_le_length hi.le] at this
    obtain ⟨j, h, ha, hsends⟩ :=
      ih (fun m hm => hfrom m (by rw [messages_append]; exact List.mem_append_left _ hm)) hprefix
    rw [run_append]
    by_cases he : ∃ m, e = .message m ∧ m.OfStream sid
    · -- a copy of one of the stream's messages arrives, before the stream has ended
      obtain ⟨m, rfl, hm⟩ := he
      obtain ⟨k, hk, rfl⟩ := hfrom _ (by simp [messages]) hm
      have harr : arrived sid [.message (msg k)] = [k] := by simp [arrived, messages, hm, hs.sequenceNumber hk]
      have hj : j ≤ n := by
        obtain ⟨k', hk', hnot⟩ := hbefore (arrived sid evs).length (by simp [arrived_append, harr])
        rw [arrived_append, List.take_left' rfl] at hnot
        by_contra hjn
        exact hnot (h.arrived k' (by omega))
      rw [arrived_append, harr]
      obtain ⟨j', h'⟩ := h.arrive hs hj hk
      exact ⟨j', h', ha.arrive hs h hj hk h',
        forall_getElem_append evs _ hsends (sendsControl_arrive hs h hj hk h')⟩
    · -- anything else leaves the stream and its acknowledgements as they are
      simp only [not_exists, not_and] at he
      have harr : arrived sid [e] = [] := by
        cases e with
        | message m => simp [arrived, messages, he m rfl]
        | periodicMessageRequest => rfl
        | connect => rfl
      have hw := run_wellFormed evs
      rw [arrived_append, harr, List.append_nil]
      exact ⟨j, h.step_other hw e he, ha.other hw e he,
        forall_getElem_append evs e hsends (sendsControl_other hs hw h e he)⟩

end Stream

/-- **The sequencer's control messages name only what is missing or passed on.** Let `msg 0, …, msg n` be the
messages of stream `sid`, of which only the last ends it, and let copies of them arrive in any order and number,
among messages of any other streams, with periodic requests and reconnections at any point, all before the stream
has ended. Then every request an event of the run sends about the stream runs from its expected number, which is the
number of its messages passed on, to below every message it buffers; every acknowledgement names a message passed
on; the event that passes on the end-of-stream message acknowledges it; and the stream's acknowledgements increase. -/
theorem sequencer_control_messages (sid n : ℕ) (msg : ℕ → ServerMessage) (hs : IsStream sid n msg)
    (evs : List Event) (hfrom : ∀ m ∈ messages evs, m.OfStream sid → ∃ k ≤ n, m = msg k)
    (hbefore : ∀ i < (arrived sid evs).length, ∃ k ≤ n, k ∉ (arrived sid evs).take i) :
    (∀ i (hi : i < evs.length), SendsControl sid n msg (init.run (evs.take i)) evs[i]) ∧
      (acknowledged sid (init.run evs).sent).Pairwise (· < ·) := by
  obtain ⟨j, -, ha, hsends⟩ := run_control hs evs hfrom hbefore
  exact ⟨hsends, ha.increasing⟩

/-- the stream of three messages arriving backwards with a duplicate, among other messages and a periodic request -/
theorem sequencer_control_messages_three :
    IsStream 1 2 threeMessages ∧ (∀ m ∈ messages threeArrivals, m.OfStream 1 → ∃ k ≤ 2, m = threeMessages k) ∧
    (∀ i < (arrived 1 threeArrivals).length, ∃ k ≤ 2, k ∉ (arrived 1 threeArrivals).take i) ∧
    ((∀ i (hi : i < threeArrivals.length),
        SendsControl 1 2 threeMessages (init.run (threeArrivals.take i)) threeArrivals[i]) ∧
      (acknowledged 1 (init.run threeArrivals).sent).Pairwise (· < ·)) :=
  ⟨by decide, by decide, by decide,
    sequencer_control_messages 1 2 threeMessages (by decide) threeArrivals (by decide) (by decide)⟩

/-- on that run the stream is asked for its gap three times and once by the periodic request, and its end is
acknowledged -/
example : (init.run threeArrivals).sent.map ClientMessage.body =
    [.messageRequest 1 0 1, .messageRequest 1 0 0, .messageRequest 1 0 0, .messageRequest 1 0 0,
      .messageRequest 5 1 1, .messageAcknowledgement 1 2] := by
  decide

end Sequencer

end OneHelpers.Communication
