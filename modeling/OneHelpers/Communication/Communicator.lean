/-
The `Communicator` stack from the `Sequencer` up to the `Inbox`:
`Inbox<AsyncResponder<Sequencer<BinaryTranslator<...>>>>`. The `BinaryTranslator` callback hands each message from
the connections to the `Sequencer`, which passes the messages of a stream up in sequence order. `AsyncResponder`
puts each message it is passed into a task for the folly IO executor, whose workers run the tasks in any order; each
task runs the `Inbox` callback, which hands the message to the subscriptions and the waiting callbacks.

The executor is `Executor` with the `Inbox` callbacks as its tasks, so the messages the `Inbox` has handled are the
tasks that have run, in the order they ran.

Results:
- `run_sequencer` (the stack's sequencer is the `Sequencer` run on the events from below) and `inbox_pending_run`
  (the messages the `Inbox` has handled and the tasks still pending are those the `Sequencer` passed up, in its order
  when the workers always take the oldest task);
- `communicator_delivers`: for every stream, over every run, the `Inbox` handles each of the stream's messages that
  continue it at most once, and with the tasks still pending they are exactly those messages, in the stream's order
  when the workers always take the oldest task.
- `communicator_reorders_stream`: two messages of one stream arrive in order and the `Sequencer` passes them up in
  order; a second worker runs the task of the later one first, and the `Inbox` gets them the other way round.
-/
import Mathlib.Tactic
import OneHelpers.Core.Executor
import OneHelpers.Communication.Sequencer

namespace OneHelpers.Communication

open scoped List

/-- the layers from the `Sequencer` up: the sequencer, and the IO executor to which `AsyncResponder` hands every
message the sequencer passes up, each task running the `Inbox` callback on its message -/
structure Communicator where
  sequencer : Sequencer
  executor : Executor ServerMessage

namespace Communicator

/-- a stack that has received nothing -/
def init : Communicator := ⟨Sequencer.init, Executor.empty⟩

/-- the messages the sequencer passes to `onMessageCallback` on an event -/
def passedUp (s : Sequencer) (e : Sequencer.Event) : List ServerMessage :=
  (s.step e).delivered.drop s.delivered.length

/-- what happens to the stack: an event of the sequencer (a message from the `BinaryTranslator` callback, the
periodic request, a connection), or a worker running pending task `i` -/
inductive Event where
  | lower (e : Sequencer.Event)
  | runTask (i : ℕ)
  deriving DecidableEq, Repr

/-- `AsyncResponder::setOnMessageCallback`: every message the sequencer passes up becomes a task -/
def step (c : Communicator) : Event → Communicator
  | .lower e => ⟨c.sequencer.step e, c.executor.submit (passedUp c.sequencer e)⟩
  | .runTask i => { c with executor := c.executor.runAt i }

def run (c : Communicator) (evs : List Event) : Communicator := evs.foldl step c

/-- the messages the `Inbox` callback has been run on, in order -/
def inbox (c : Communicator) : List ServerMessage := c.executor.ran

/-- the events of the sequencer among the events of the stack -/
def lowerEvents (evs : List Event) : List Sequencer.Event :=
  evs.filterMap fun | .lower e => some e | .runTask _ => none

/-- the workers always take the oldest pending task -/
def Event.Fifo : Event → Prop
  | .runTask i => i = 0
  | .lower _ => True

/-! ## The sequencer only adds to what it passes up -/

theorem delivered_prefix_step (s : Sequencer) (e : Sequencer.Event) : s.delivered <+: (s.step e).delivered := by
  cases e with
  | message serverMsg =>
    simp only [Sequencer.step, Sequencer.onMessage]
    split <;> exact List.prefix_append _ _
  | periodicMessageRequest => exact List.prefix_refl _
  | connect => exact List.prefix_refl _

theorem delivered_step (s : Sequencer) (e : Sequencer.Event) :
    (s.step e).delivered = s.delivered ++ passedUp s e :=
  (List.prefix_iff_eq_append.mp (delivered_prefix_step s e)).symm

/-! ## Runs -/

/-- the stack's sequencer sees only the events from below -/
theorem run_sequencer (c : Communicator) (evs : List Event) :
    (c.run evs).sequencer = c.sequencer.run (lowerEvents evs) := by
  induction evs generalizing c with
  | nil => rfl
  | cons e evs ih =>
    cases e with
    | lower e => exact ih _
    | runTask i => exact ih _

/-- **Step lemma.** The tasks stay the messages passed up, up to order; in order when the oldest task is taken -/
theorem tasks_step (c : Communicator) (e : Event) :
    (c.executor.tasks ~ c.sequencer.delivered → (c.step e).executor.tasks ~ (c.step e).sequencer.delivered) ∧
    (e.Fifo → c.executor.tasks = c.sequencer.delivered →
      (c.step e).executor.tasks = (c.step e).sequencer.delivered) := by
  cases e with
  | lower e =>
    simp only [step, Executor.tasks_submit, delivered_step]
    exact ⟨fun h => h.append_right _, fun _ h => by rw [h]⟩
  | runTask i =>
    refine ⟨fun h => (Executor.tasks_runAt_perm _ i).trans h, fun hi h => ?_⟩
    simp only [Event.Fifo] at hi
    subst hi
    exact (Executor.tasks_runAt_zero _).trans h

/-- **Run lemma.** -/
theorem tasks_run (c : Communicator) (evs : List Event) :
    (c.executor.tasks ~ c.sequencer.delivered → (c.run evs).executor.tasks ~ (c.run evs).sequencer.delivered) ∧
    ((∀ e ∈ evs, e.Fifo) → c.executor.tasks = c.sequencer.delivered →
      (c.run evs).executor.tasks = (c.run evs).sequencer.delivered) := by
  induction evs generalizing c with
  | nil => exact ⟨id, fun _ => id⟩
  | cons e evs ih =>
    obtain ⟨hperm, hfifo⟩ := tasks_step c e
    refine ⟨fun h => (ih (c.step e)).1 (hperm h), fun hall h => ?_⟩
    exact (ih (c.step e)).2 (fun e' he' => hall e' (List.mem_cons_of_mem e he'))
      (hfifo (hall e List.mem_cons_self) h)

/-- what the `Inbox` has handled, then what is still waiting, are the messages the sequencer passed up: in some order,
and in its order when the workers always take the oldest task -/
theorem inbox_pending_run (evs : List Event) :
    (init.run evs).inbox ++ (init.run evs).executor.pending ~ (init.run evs).sequencer.delivered ∧
      ((∀ e ∈ evs, e.Fifo) →
        (init.run evs).inbox ++ (init.run evs).executor.pending = (init.run evs).sequencer.delivered) :=
  ⟨(tasks_run init evs).1 (.refl _), fun hall => (tasks_run init evs).2 hall rfl⟩

/-- **The `Inbox` gets each stream once, and in order from workers that take the oldest task.** Let
`msg 0, …, msg n` be the messages of stream `sid`, of which only the last ends it, and let copies of them arrive at
the `BinaryTranslator` callback in any order and number, among other events and under any schedule of the executor's
tasks, all before the stream has ended; let `j` be the first number that has not arrived (`n + 1` once all have).
Then the messages of the stream that the `Inbox` callback has handled are distinct, and they and the stream's tasks
still pending are `msg 0, …, msg (j - 1)`: in some order, and in this order when the workers always take the oldest
task, the `Inbox` having handled the first of them. Messages without a stream header reach it in the same way, each
one that arrived once. -/
theorem communicator_delivers (sid n : ℕ) (msg : ℕ → ServerMessage) (hs : Sequencer.IsStream sid n msg)
    (evs : List Event)
    (hfrom : ∀ m ∈ Sequencer.messages (lowerEvents evs), m.OfStream sid → ∃ k ≤ n, m = msg k)
    (hbefore : ∀ i < (Sequencer.arrived sid (lowerEvents evs)).length,
      ∃ k ≤ n, k ∉ (Sequencer.arrived sid (lowerEvents evs)).take i) :
    ∃ j ≤ n + 1, (∀ i < j, i ∈ Sequencer.arrived sid (lowerEvents evs)) ∧
      (j ≤ n → j ∉ Sequencer.arrived sid (lowerEvents evs)) ∧
      ((init.run evs).inbox.filter (·.OfStream sid)).Nodup ∧
      (init.run evs).inbox.filter (·.OfStream sid) ++ (init.run evs).executor.pending.filter (·.OfStream sid) ~
        (List.range j).map msg ∧
      ((∀ e ∈ evs, e.Fifo) →
        (init.run evs).inbox.filter (·.OfStream sid) ++ (init.run evs).executor.pending.filter (·.OfStream sid) =
          (List.range j).map msg) ∧
      (init.run evs).inbox.filter (·.messageStream = none) ++
          (init.run evs).executor.pending.filter (·.messageStream = none) ~
        (Sequencer.messages (lowerEvents evs)).filter (·.messageStream = none) := by
  obtain ⟨⟨j, hj, harr, hmiss, hdel, -⟩, hnon⟩ :=
    Sequencer.run_delivers_stream_in_order sid n msg hs (lowerEvents evs) hfrom hbefore
  obtain ⟨hperm, hfifo⟩ := inbox_pending_run evs
  -- the stack's sequencer is the one the sequencer's theorem is about
  have hseq : (init.run evs).sequencer = Sequencer.init.run (lowerEvents evs) := run_sequencer init evs
  have hstream : (init.run evs).sequencer.delivered.filter (·.OfStream sid) = (List.range j).map msg := by
    rw [hseq]
    exact hdel
  have hnodup : ((List.range j).map msg).Nodup :=
    List.nodup_range.map_on fun a ha b hb h =>
      hs.inj (by rw [List.mem_range] at ha; omega) (by rw [List.mem_range] at hb; omega) h
  have hstreamPerm : (init.run evs).inbox.filter (·.OfStream sid) ++
      (init.run evs).executor.pending.filter (·.OfStream sid) ~ (List.range j).map msg := by
    rw [← List.filter_append, ← hstream]
    exact hperm.filter _
  refine ⟨j, hj, harr, hmiss, (List.nodup_append.1 (hstreamPerm.nodup_iff.2 hnodup)).1, hstreamPerm,
    fun hall => by rw [← List.filter_append, hfifo hall, hstream], ?_⟩
  rw [← List.filter_append, ← hnon, ← hseq]
  exact hperm.filter _

/-- the stream of three messages arriving backwards with a duplicate, among other messages, and a worker running the
task of the second message passed up -/
def threeArrivalsRun : List Event := Sequencer.threeArrivals.map Event.lower ++ [.runTask 1]

theorem communicator_delivers_three :
    Sequencer.IsStream 1 2 Sequencer.threeMessages ∧
      (∀ m ∈ Sequencer.messages (lowerEvents threeArrivalsRun), m.OfStream 1 →
        ∃ k ≤ 2, m = Sequencer.threeMessages k) ∧
      (∀ i < (Sequencer.arrived 1 (lowerEvents threeArrivalsRun)).length,
        ∃ k ≤ 2, k ∉ (Sequencer.arrived 1 (lowerEvents threeArrivalsRun)).take i) ∧
      ∃ j ≤ 2 + 1, (∀ i < j, i ∈ Sequencer.arrived 1 (lowerEvents threeArrivalsRun)) ∧
        (j ≤ 2 → j ∉ Sequencer.arrived 1 (lowerEvents threeArrivalsRun)) ∧
        ((init.run threeArrivalsRun).inbox.filter (·.OfStream 1)).Nodup ∧
        (init.run threeArrivalsRun).inbox.filter (·.OfStream 1) ++
            (init.run threeArrivalsRun).executor.pending.filter (·.OfStream 1) ~
          (List.range j).map Sequencer.threeMessages ∧
        ((∀ e ∈ threeArrivalsRun, e.Fifo) →
          (init.run threeArrivalsRun).inbox.filter (·.OfStream 1) ++
              (init.run threeArrivalsRun).executor.pending.filter (·.OfStream 1) =
            (List.range j).map Sequencer.threeMessages) ∧
        (init.run threeArrivalsRun).inbox.filter (·.messageStream = none) ++
            (init.run threeArrivalsRun).executor.pending.filter (·.messageStream = none) ~
          (Sequencer.messages (lowerEvents threeArrivalsRun)).filter (·.messageStream = none) :=
  ⟨by decide, by decide, by decide,
    communicator_delivers 1 2 Sequencer.threeMessages (by decide) threeArrivalsRun (by decide) (by decide)⟩

/-! ## Where the order is lost -/

/-- message `k` of stream 1 -/
def streamMessage (k : ℕ) : ServerMessage := ⟨"", some ⟨1, k⟩, .other k⟩

/-- messages 0 and 1 of stream 1 arrive in order; a worker runs the task of message 1, then one that of message 0 -/
def reordered : Communicator :=
  init.run [.lower (.message (streamMessage 0)), .lower (.message (streamMessage 1)), .runTask 1, .runTask 0]

/-- **The executor undoes the sequencing.** The sequencer passes messages 0 and 1 up in order, and the `Inbox` gets
them as 1, 0. -/
theorem communicator_reorders_stream :
    reordered.sequencer.delivered = [streamMessage 0, streamMessage 1] ∧
      reordered.inbox = [streamMessage 1, streamMessage 0] := by
  decide

end Communicator

end OneHelpers.Communication
