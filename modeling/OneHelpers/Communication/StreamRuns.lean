/-
The stream manager (`streaming::StreamManager`, `src/communication/streaming/streamManager.h`) and its streams
(`streaming::TypedStream`, `typedStream.h`) over whole runs: any interleaving of stream creations, sends, stream
destructions and the server messages the inbox hands to the manager's subscription.

A stream numbers what it sends `0, 1, 2, …` under its own id and keeps a copy of each message until an
acknowledgement removes it; a message request sends copies again. The server tells messages apart by their header
`(stream id, sequence number)`, so what it relies on is that one header always names one message, and that what it has
not acknowledged it can still ask for.

What one operation on a stream may do is said once, by `StreamStep`; send, request and acknowledgement each satisfy it
(`streamStep_send`, `streamStep_handleMessageRequest`, `streamStep_handleMessageAcknowledgement`), and `Inv.withStream`
carries the manager's invariant through any of them.

Results:
- `Inv.step`: every event keeps `Inv`: every message passed on carries the header of a stream the manager created, and
  a number below what that stream, while it lives, numbers next; two messages passed on under one header are the
  same message; every queued message was passed on, under its stream's header; and each live stream's queue holds the
  numbers `w, …, next - 1`, each once.
- `run_streams_exact`: from a new manager, over every run, resends are exact copies (one header, one message), and each
  live stream's queue is exactly the messages passed on under its headers from some number `w` on: an
  acknowledgement only ever removes a first part of the numbering, and nothing else is lost or queued twice.
-/
import Mathlib.Tactic
import OneHelpers.Communication.Streaming

namespace OneHelpers.Communication

open PriorityQueue

namespace TypedStream

/-! ## What each operation does to one stream -/

/-- `send` numbers the message with the next number, queues a copy and passes it on -/
theorem send_eq (ts : TypedStream) (msg : ClientMessage) :
    ts.send msg =
      (⟨ts.streamId, ts.sequenceId + 1, ts.buffer ++ [⟨some ⟨ts.streamId, ts.sequenceId⟩, msg.body⟩]⟩,
        [⟨some ⟨ts.streamId, ts.sequenceId⟩, msg.body⟩]) := rfl

/-- the first loop of `handleMessageRequest` keeps every queued message: what it leaves and what it pops are the
queue -/
theorem requestLoop_perm (upper : ℕ) :
    ∀ (fuel : ℕ) (q acc : List ClientMessage),
      ∃ ps, (requestLoop upper fuel q acc).2 = acc ++ ps ∧ ((requestLoop upper fuel q acc).1 ++ ps).Perm q
  | 0, q, acc => ⟨[], by simp [requestLoop]⟩
  | fuel + 1, q, acc => by
    cases hpop : tryPop StreamLess q with
    | none => exact ⟨[], by simp [requestLoop, hpop]⟩
    | some p =>
      obtain ⟨it, rest⟩ := p
      have hperm := (pop_greatest hpop).2.2.2
      by_cases hle : it.sequenceNumber ≤ upper
      · -- popped: the loop goes on with the rest of the queue
        obtain ⟨ps, hps, hrest⟩ := requestLoop_perm upper fuel rest (acc ++ [it])
        refine ⟨it :: ps, ?_, ?_⟩
        · simp only [requestLoop, hpop, if_pos hle, hps, List.append_assoc, List.singleton_append]
        · simp only [requestLoop, hpop, if_pos hle]
          exact List.perm_middle.trans ((hrest.cons it).trans hperm.symm)
      · -- past `upper`: put back, and the loop stops
        refine ⟨[], ?_, ?_⟩
        · simp only [requestLoop, hpop, if_neg hle, List.append_nil]
        · simp only [requestLoop, hpop, if_neg hle, List.append_nil]
          exact push_pop_perm hpop

/-- a message request that `reserve` lets through keeps the stream's id, its numbering and its queued messages, and
passes on only queued messages -/
theorem handleMessageRequest_keeps {ts : TypedStream} {lower upper : ℕ} {r : TypedStream × List ClientMessage}
    (h : ts.handleMessageRequest lower upper = .ok r) :
    ∃ buffer out, r = ({ ts with buffer := buffer }, out) ∧ buffer.Perm ts.buffer ∧ ∀ m ∈ out, m ∈ ts.buffer := by
  obtain ⟨ps, hps, hperm⟩ := requestLoop_perm upper ts.buffer.length ts.buffer []
  refine ⟨_, ps.filter fun m => lower ≤ m.sequenceNumber, ?_, hperm,
    fun m hm => hperm.subset (List.mem_append_right _ (List.mem_of_mem_filter hm))⟩
  rw [handleMessageRequest_eq_ok h]
  simp only [hps, List.nil_append, foldl_resendOrKeep]

/-- an acknowledgement keeps the stream's id and numbering, and either empties the queue or leaves its messages as
they are -/
theorem handleMessageAcknowledgement_cases (ts : TypedStream) (seq : ℕ) :
    (ts.handleMessageAcknowledgement seq).buffer = [] ∨
      (ts.handleMessageAcknowledgement seq).buffer.Perm ts.buffer := by
  by_cases hall : ∀ m ∈ ts.buffer, m.sequenceNumber ≤ seq
  · exact .inl (ackLoop_of_le seq _ _ le_rfl hall)
  · push Not at hall
    obtain ⟨m, hm, hlt⟩ := hall
    obtain ⟨fuel, hfuel⟩ : ∃ fuel, ts.buffer.length = fuel + 1 :=
      Nat.exists_eq_succ_of_ne_zero (List.length_pos_of_mem hm).ne'
    right
    simp only [handleMessageAcknowledgement, hfuel]
    exact ackLoop_of_lt seq fuel ⟨m, hm, hlt⟩

end TypedStream

namespace StreamManager

/-! ## One stream at a time -/

theorem withStream_of_lookup {sm : StreamManager} {sid : ℕ} {ts : TypedStream} (h : sm.idMap.lookup sid = some ts)
    (f : TypedStream → TypedStream × List ClientMessage) :
    sm.withStream sid f = { sm with idMap := sm.idMap.insert sid (f ts).1, sent := sm.sent ++ (f ts).2 } := by
  simp [withStream, h]

theorem withStream_of_lookup_none {sm : StreamManager} {sid : ℕ} (h : sm.idMap.lookup sid = none)
    (f : TypedStream → TypedStream × List ClientMessage) : sm.withStream sid f = sm := by
  simp [withStream, h]

/-- a live stream stored under `sid`: it has that id, its queued messages carry its header and their own numbers,
and its queue holds the numbers `w, …, sequenceId - 1`, each once -/
structure Live (sid : ℕ) (ts : TypedStream) : Prop where
  streamId : ts.streamId = sid
  headers : ∀ m ∈ ts.buffer, m.messageStream = some ⟨sid, m.sequenceNumber⟩
  window : ∃ w ≤ ts.sequenceId,
    (ts.buffer.map ClientMessage.sequenceNumber).Perm (List.range' w (ts.sequenceId - w))

/-- what an operation on the live stream `ts`, stored under `sid`, may do, read off its result `r`: keep the stream's
id, never number backwards, pass on only messages it had queued or numbers now (one message a number), queue only what
it had queued or passes on now, and leave a live stream -/
structure StreamStep (sid : ℕ) (ts : TypedStream) (r : TypedStream × List ClientMessage) : Prop where
  streamId : r.1.streamId = ts.streamId
  sequenceId_le : ts.sequenceId ≤ r.1.sequenceId
  passed : ∀ m ∈ r.2, m ∈ ts.buffer ∨
    ∃ s, m.messageStream = some ⟨sid, s⟩ ∧ ts.sequenceId ≤ s ∧ s < r.1.sequenceId
  fresh_unique : ∀ m ∈ r.2, ∀ m' ∈ r.2, m ∉ ts.buffer → m.messageStream = m'.messageStream → m = m'
  queued : ∀ m ∈ r.1.buffer, m ∈ ts.buffer ∨ m ∈ r.2
  live : Live sid r.1

/-- the queue of numbers `w, …, n - 1` with `n` added -/
theorem range'_push {w n : ℕ} (hw : w ≤ n) : List.range' w (n + 1 - w) = List.range' w (n - w) ++ [n] := by
  rw [show n + 1 - w = n - w + 1 by omega, List.range'_concat]
  simp only [Nat.one_mul, Nat.add_sub_cancel' hw]

theorem streamStep_send {sid : ℕ} {ts : TypedStream} (hlive : Live sid ts) (msg : ClientMessage) :
    StreamStep sid ts (ts.send msg) := by
  obtain ⟨w, hw, hwindow⟩ := hlive.window
  rw [TypedStream.send_eq]
  -- the one message passed on is numbered `ts.sequenceId`, under the stream's header
  refine ⟨rfl, Nat.le_succ _, ?_, ?_, ?_, ⟨hlive.streamId, ?_, ⟨w, Nat.le_succ_of_le hw, ?_⟩⟩⟩
  · intro m hm
    rw [List.mem_singleton.1 hm]
    exact .inr ⟨ts.sequenceId, by rw [hlive.streamId], le_rfl, Nat.lt_succ_self _⟩
  · intro m hm m' hm' _ _
    rw [List.mem_singleton.1 hm, List.mem_singleton.1 hm']
  · intro m hm
    rcases List.mem_append.1 hm with hm | hm
    · exact .inl hm
    · exact .inr hm
  · intro m hm
    rcases List.mem_append.1 hm with hm | hm
    · exact hlive.headers m hm
    · rw [List.mem_singleton.1 hm, hlive.streamId]
      rfl
  · rw [List.map_append, range'_push hw]
    exact hwindow.append_right _

/-- an operation that throws before it changes anything -/
theorem streamStep_refl {sid : ℕ} {ts : TypedStream} (hlive : Live sid ts) : StreamStep sid ts (ts, []) :=
  ⟨rfl, le_rfl, by simp, by simp, fun m hm => .inl hm, hlive⟩

theorem streamStep_handleMessageRequest {sid : ℕ} {ts : TypedStream} (hlive : Live sid ts) {lower upper : ℕ}
    {r : TypedStream × List ClientMessage} (h : ts.handleMessageRequest lower upper = .ok r) : StreamStep sid ts r := by
  obtain ⟨buffer, out, heq, hperm, hout⟩ := TypedStream.handleMessageRequest_keeps h
  obtain ⟨w, hw, hwindow⟩ := hlive.window
  rw [heq]
  -- the queue is only reordered, and what is passed on again was queued
  refine ⟨rfl, le_rfl, fun m hm => .inl (hout m hm), fun m hm _ _ hnot _ => absurd (hout m hm) hnot,
    fun m hm => .inl (hperm.subset hm), ⟨hlive.streamId, fun m hm => hlive.headers m (hperm.subset hm), ⟨w, hw, ?_⟩⟩⟩
  exact (hperm.map _).trans hwindow

theorem streamStep_handleMessageAcknowledgement {sid : ℕ} {ts : TypedStream} (hlive : Live sid ts) (seq : ℕ) :
    StreamStep sid ts (ts.handleMessageAcknowledgement seq, []) := by
  have hsub : ∀ m ∈ (ts.handleMessageAcknowledgement seq).buffer, m ∈ ts.buffer := by
    rcases ts.handleMessageAcknowledgement_cases seq with hnil | hperm
    · simp [hnil]
    · exact hperm.subset
  refine ⟨rfl, le_rfl, by simp, by simp, fun m hm => .inl (hsub m hm),
    ⟨hlive.streamId, fun m hm => hlive.headers m (hsub m hm), ?_⟩⟩
  rcases ts.handleMessageAcknowledgement_cases seq with hnil | hperm
  · -- all acknowledged: the window starts at the next number
    have hseq : (ts.handleMessageAcknowledgement seq).sequenceId = ts.sequenceId := rfl
    refine ⟨ts.sequenceId, le_rfl, ?_⟩
    simp only [hnil, hseq, List.map_nil, Nat.sub_self, List.range'_zero, List.Perm.refl]
  · obtain ⟨w, hw, hwindow⟩ := hlive.window
    exact ⟨w, hw, (hperm.map _).trans hwindow⟩

/-! ## The invariant of the manager -/

/-- what every run of the manager keeps -/
structure Inv (sm : StreamManager) : Prop where
  /-- a stream is stored under an id the manager handed out, and is live -/
  live : ∀ sid ts, sm.idMap.lookup sid = some ts → Live sid ts ∧ sid < sm.nextStreamId
  /-- a message passed on carries the header of a stream handed out, numbered below what that stream, while it
  lives, numbers next -/
  passed : ∀ m ∈ sm.sent, ∃ sid s, m.messageStream = some ⟨sid, s⟩ ∧ sid < sm.nextStreamId ∧
    ∀ ts, sm.idMap.lookup sid = some ts → s < ts.sequenceId
  /-- one header, one message -/
  unique : ∀ m ∈ sm.sent, ∀ m' ∈ sm.sent, m.messageStream = m'.messageStream → m = m'
  /-- a queued message was passed on -/
  queued : ∀ sid ts, sm.idMap.lookup sid = some ts → ∀ m ∈ ts.buffer, m ∈ sm.sent

theorem inv_init : init.Inv :=
  ⟨fun _ _ h => by simp [init] at h, fun _ h => by simp [init] at h, fun _ h => by simp [init] at h,
    fun _ _ h => by simp [init] at h⟩

/-- what a lookup after an insert finds: the value inserted, or what another key held before -/
theorem lookup_insert_eq_some {α β : Type*} [DecidableEq α] {l : AList fun _ : α => β} {a a' : α} {b b' : β}
    (h : (l.insert a b).lookup a' = some b') : (a' = a ∧ b' = b) ∨ (a' ≠ a ∧ l.lookup a' = some b') := by
  by_cases he : a' = a
  · subst he
    rw [AList.lookup_insert, Option.some.injEq] at h
    exact .inl ⟨rfl, h.symm⟩
  · rw [AList.lookup_insert_ne he] at h
    exact .inr ⟨he, h⟩

section Update

variable {sm : StreamManager} {sid : ℕ} {ts : TypedStream} {r : TypedStream × List ClientMessage}

/-- a message an operation numbers now has a header no message passed on before has -/
theorem Inv.fresh (hinv : sm.Inv) (hts : sm.idMap.lookup sid = some ts) (hstep : StreamStep sid ts r) {m : ClientMessage}
    (hm : m ∈ r.2) (hnot : m ∉ ts.buffer) : ∀ m' ∈ sm.sent, m.messageStream ≠ m'.messageStream := by
  intro m' hm' heq
  obtain ⟨s, hs, hle, -⟩ := (hstep.passed m hm).resolve_left hnot
  obtain ⟨sid', s', hs', -, hbound⟩ := hinv.passed m' hm'
  rw [hs, hs'] at heq
  obtain ⟨rfl, rfl⟩ := MessageStream.mk.inj (Option.some.inj heq)
  have := hbound ts hts
  omega

theorem Inv.update (hinv : sm.Inv) (hts : sm.idMap.lookup sid = some ts) (hstep : StreamStep sid ts r) :
    ({ sm with idMap := sm.idMap.insert sid r.1, sent := sm.sent ++ r.2 } : StreamManager).Inv := by
  have hsid := (hinv.live sid ts hts).2
  -- a message passed on now was queued, so passed on before, or it is numbered now
  have hnew : ∀ m ∈ r.2, m ∈ sm.sent ∨ (m ∈ r.2 ∧ m ∉ ts.buffer) := fun m hm => by
    by_cases hb : m ∈ ts.buffer
    · exact .inl (hinv.queued sid ts hts m hb)
    · exact .inr ⟨hm, hb⟩
  refine ⟨fun sid' ts' h => ?_, fun m hm => ?_, fun m hm m' hm' heq => ?_, fun sid' ts' h m hm => ?_⟩
  · -- live: the stream operated on, or another one as it was
    rcases lookup_insert_eq_some h with ⟨rfl, rfl⟩ | ⟨-, h⟩
    · exact ⟨hstep.live, hsid⟩
    · exact hinv.live sid' ts' h
  · -- passed: the bound of the stream operated on only grows
    have hold : ∀ m ∈ sm.sent, ∃ sid' s, m.messageStream = some ⟨sid', s⟩ ∧ sid' < sm.nextStreamId ∧
        ∀ ts', (sm.idMap.insert sid r.1).lookup sid' = some ts' → s < ts'.sequenceId := by
      intro m hm
      obtain ⟨sid', s, hs, hlt, hbound⟩ := hinv.passed m hm
      refine ⟨sid', s, hs, hlt, fun ts' h => ?_⟩
      rcases lookup_insert_eq_some h with ⟨rfl, rfl⟩ | ⟨-, h⟩
      · exact lt_of_lt_of_le (hbound ts hts) hstep.sequenceId_le
      · exact hbound ts' h
    rcases List.mem_append.1 hm with hm | hm
    · exact hold m hm
    rcases hnew m hm with hm | ⟨hm, hnot⟩
    · exact hold m hm
    · obtain ⟨s, hs, -, hlt⟩ := (hstep.passed m hm).resolve_left hnot
      refine ⟨sid, s, hs, hsid, fun ts' h => ?_⟩
      rw [AList.lookup_insert, Option.some.injEq] at h
      rw [← h]
      exact hlt
  · -- unique: a message numbered now shares its header with no message passed on before
    have hcases : ∀ m ∈ sm.sent ++ r.2, m ∈ sm.sent ∨ (m ∈ r.2 ∧ m ∉ ts.buffer) := fun m hm =>
      (List.mem_append.1 hm).elim .inl (hnew m)
    rcases hcases m hm with hm | ⟨hm, hnot⟩ <;> rcases hcases m' hm' with hm' | ⟨hm', hnot'⟩
    · exact hinv.unique m hm m' hm' heq
    · exact absurd heq.symm (hinv.fresh hts hstep hm' hnot' m hm)
    · exact absurd heq (hinv.fresh hts hstep hm hnot m' hm')
    · exact hstep.fresh_unique m hm m' hm' hnot heq
  · -- queued: what the operation queues it had queued or passes on now
    rcases lookup_insert_eq_some h with ⟨rfl, rfl⟩ | ⟨-, h⟩
    · rcases hstep.queued m hm with hb | hb
      · exact List.mem_append_left _ (hinv.queued _ ts hts m hb)
      · exact List.mem_append_right _ hb
    · exact List.mem_append_left _ (hinv.queued sid' ts' h m hm)

end Update

/-- an operation on one live stream keeps the invariant -/
theorem Inv.withStream {sm : StreamManager} (hinv : sm.Inv) (sid : ℕ)
    {f : TypedStream → TypedStream × List ClientMessage}
    (hf : ∀ ts, Live sid ts → StreamStep sid ts (f ts)) : (sm.withStream sid f).Inv := by
  cases hts : sm.idMap.lookup sid with
  | none =>
    rw [withStream_of_lookup_none hts]
    exact hinv
  | some ts =>
    rw [withStream_of_lookup hts]
    exact hinv.update hts (hf ts (hinv.live sid ts hts).1)

/-! ## Each event -/

theorem Inv.create {sm : StreamManager} (hinv : sm.Inv) : sm.create.Inv := by
  -- the id handed out is new: no stream is stored under it
  have hfree : ∀ sid ts, sm.idMap.lookup sid = some ts → sid ≠ sm.nextStreamId := fun sid ts h => by
    have := (hinv.live sid ts h).2
    omega
  refine ⟨fun sid ts h => ?_, fun m hm => ?_, hinv.unique, fun sid ts h m hm => ?_⟩
  · rcases lookup_insert_eq_some h with ⟨rfl, rfl⟩ | ⟨-, h⟩
    · exact ⟨⟨rfl, by simp, ⟨0, le_rfl, by simp⟩⟩, Nat.lt_succ_self _⟩
    · exact ⟨(hinv.live sid ts h).1, Nat.lt_succ_of_lt (hinv.live sid ts h).2⟩
  · obtain ⟨sid, s, hs, hlt, hbound⟩ := hinv.passed m hm
    refine ⟨sid, s, hs, Nat.lt_succ_of_lt hlt, fun ts h => ?_⟩
    simp only [StreamManager.create, AList.lookup_insert_ne (show sid ≠ sm.nextStreamId by omega)] at h
    exact hbound ts h
  · rcases lookup_insert_eq_some h with ⟨rfl, rfl⟩ | ⟨-, h⟩
    · simp at hm
    · exact hinv.queued sid ts h m hm

/-- taking a stream out of the map keeps the invariant -/
theorem Inv.erase {sm : StreamManager} (hinv : sm.Inv) (sid : ℕ) :
    ({ sm with idMap := sm.idMap.erase sid } : StreamManager).Inv := by
  -- a stream still stored was stored before
  have hold : ∀ sid' ts, (sm.idMap.erase sid).lookup sid' = some ts → sm.idMap.lookup sid' = some ts := by
    intro sid' ts h
    by_cases he : sid' = sid
    · subst he
      simp at h
    · rwa [AList.lookup_erase_ne he] at h
  refine ⟨fun sid' ts h => hinv.live sid' ts (hold sid' ts h), fun m hm => ?_, hinv.unique,
    fun sid' ts h => hinv.queued sid' ts (hold sid' ts h)⟩
  obtain ⟨sid', s, hs, hlt, hbound⟩ := hinv.passed m hm
  exact ⟨sid', s, hs, hlt, fun ts h => hbound ts (hold sid' ts h)⟩

theorem Inv.destroy {sm : StreamManager} (hinv : sm.Inv) (sid : ℕ) : (sm.destroy sid).Inv :=
  (hinv.withStream sid fun _ hlive => streamStep_send hlive _).erase sid

theorem Inv.onServerMessage {sm : StreamManager} (hinv : sm.Inv) (msg : ServerMessage) (handled : Bool) :
    (sm.onServerMessage msg handled).Inv := by
  unfold StreamManager.onServerMessage
  split_ifs with hpred
  · -- only requests and acknowledgements pass the predicate
    rcases hbody : msg.body with _ | ⟨streamId, lower, upper⟩ | ⟨streamId, seq⟩ | streamId | payload
    · simp [predicate, hbody] at hpred
    · simp only [callback, hbody, handleMessageRequest]
      refine hinv.withStream streamId fun ts hlive => ?_
      -- a request `reserve` refuses throws with the stream as it was
      cases hreq : ts.handleMessageRequest lower upper with
      | error => exact streamStep_refl hlive
      | ok r => exact streamStep_handleMessageRequest hlive hreq
    · simp only [callback, hbody, handleMessageAcknowledgement]
      exact hinv.withStream streamId fun _ hlive => streamStep_handleMessageAcknowledgement hlive seq
    · simp [predicate, hbody] at hpred
    · simp [predicate, hbody] at hpred
  · exact hinv

theorem Inv.step {sm : StreamManager} (hinv : sm.Inv) : ∀ e, (sm.step e).Inv
  | .create => hinv.create
  | .send sid msg => hinv.withStream sid fun _ hlive => streamStep_send hlive msg
  | .destroy sid => hinv.destroy sid
  | .serverMessage msg handled => hinv.onServerMessage msg handled

theorem Inv.run {sm : StreamManager} (hinv : sm.Inv) (evs : List Event) : (sm.run evs).Inv := by
  -- induction on the events, the manager generalized
  induction evs generalizing sm with
  | nil => exact hinv
  | cons e evs ih => exact ih (hinv.step e)

/-- a message passed on under a live stream's header, numbered from the start of its window on, is queued -/
theorem Inv.mem_buffer {sm : StreamManager} (hinv : sm.Inv) {sid : ℕ} {ts : TypedStream}
    (hts : sm.idMap.lookup sid = some ts) {w : ℕ}
    (hwindow : (ts.buffer.map ClientMessage.sequenceNumber).Perm (List.range' w (ts.sequenceId - w)))
    {m : ClientMessage} (hm : m ∈ sm.sent) {s : ℕ} (hs : m.messageStream = some ⟨sid, s⟩) (hws : w ≤ s) :
    m ∈ ts.buffer := by
  -- its number is below the next one, so in the window, so the number of a queued message
  obtain ⟨sid', s', hs', -, hbound⟩ := hinv.passed m hm
  rw [hs] at hs'
  obtain ⟨rfl, rfl⟩ := MessageStream.mk.inj (Option.some.inj hs')
  have hlt := hbound ts hts
  have hmem : s ∈ ts.buffer.map ClientMessage.sequenceNumber :=
    hwindow.symm.subset (List.mem_range'_1.2 ⟨hws, by omega⟩)
  obtain ⟨m', hm', hseq⟩ := List.mem_map.1 hmem
  -- the queued message has the same header, so it is the same message
  have hheader : m'.messageStream = m.messageStream := by
    rw [(hinv.live sid ts hts).1.headers m' hm', hseq, hs]
  rw [← hinv.unique m' (hinv.queued sid ts hts m' hm') m hm hheader]
  exact hm'

/-- **The stream manager loses and duplicates nothing.** From a new manager, over every run of stream creations,
sends, destructions and server messages in any order: two messages passed to the communicator under one header are
the same message, so a resend is an exact copy; and each live stream's queue holds its messages under its own header,
with the numbers `w, …, next - 1` for some `w`, each once, and every message passed on under its header with a number
from `w` on. An acknowledgement only ever removes a first part of the numbering; nothing else leaves the queue. -/
theorem run_streams_exact (evs : List Event) :
    (∀ m ∈ (init.run evs).sent, ∀ m' ∈ (init.run evs).sent, m.messageStream = m'.messageStream → m = m') ∧
      ∀ sid ts, (init.run evs).idMap.lookup sid = some ts →
        (∀ m ∈ ts.buffer, m ∈ (init.run evs).sent ∧ m.messageStream = some ⟨sid, m.sequenceNumber⟩) ∧
        ∃ w ≤ ts.sequenceId, (ts.buffer.map ClientMessage.sequenceNumber).Perm (List.range' w (ts.sequenceId - w)) ∧
          ∀ m ∈ (init.run evs).sent, ∀ s, m.messageStream = some ⟨sid, s⟩ → w ≤ s → m ∈ ts.buffer := by
  have hinv := inv_init.run evs
  refine ⟨hinv.unique, fun sid ts hts => ?_⟩
  have hlive := (hinv.live sid ts hts).1
  obtain ⟨w, hw, hwindow⟩ := hlive.window
  exact ⟨fun m hm => ⟨hinv.queued sid ts hts m hm, hlive.headers m hm⟩,
    w, hw, hwindow, fun m hm s hs hws => hinv.mem_buffer hts hwindow hm hs hws⟩

end StreamManager

end OneHelpers.Communication
