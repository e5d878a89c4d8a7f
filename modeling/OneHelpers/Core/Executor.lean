/-
An executor with a pool of workers: tasks are submitted in order, and a free worker takes any task still pending, so
the tasks run in any order. What has run and what is pending are, together, what was submitted, up to order; when
the workers always take the oldest task, they are what was submitted in order.

Results: `tasks_runAt_perm` (no task is lost or run twice) and `tasks_runAt_zero` (a first-in first-out executor
runs the tasks in the order of submission).
-/
import Mathlib.Tactic

namespace OneHelpers

open scoped List

/-- an executor: the tasks submitted and not yet run, in order of submission, and the tasks run, in order -/
structure Executor (α : Type*) where
  pending : List α
  ran : List α
  deriving DecidableEq, Repr

namespace Executor

variable {α : Type*}

/-- an executor that has been given nothing -/
def empty : Executor α := ⟨[], []⟩

/-- `add`: tasks are submitted -/
def submit (ex : Executor α) (tasks : List α) : Executor α := { ex with pending := ex.pending ++ tasks }

/-- a worker takes pending task `i` and runs it -/
def runAt (ex : Executor α) (i : ℕ) : Executor α :=
  match ex.pending[i]? with
  | some task => ⟨ex.pending.eraseIdx i, ex.ran ++ [task]⟩
  | none => ex

/-- the tasks submitted, as the executor holds them: first those that ran, then those pending -/
def tasks (ex : Executor α) : List α := ex.ran ++ ex.pending

@[simp] theorem tasks_submit (ex : Executor α) (tasks : List α) : (ex.submit tasks).tasks = ex.tasks ++ tasks := by
  simp [submit, Executor.tasks]

/-- **No task is lost or run twice.** -/
theorem tasks_runAt_perm (ex : Executor α) (i : ℕ) : (ex.runAt i).tasks ~ ex.tasks := by
  unfold runAt
  split
  · rename_i task htask
    obtain ⟨hi, rfl⟩ := List.getElem?_eq_some_iff.mp htask
    -- the task moves from its place among the pending to the end of those run
    calc ex.ran ++ [ex.pending[i]] ++ ex.pending.eraseIdx i
        = ex.ran ++ ex.pending[i] :: ex.pending.eraseIdx i := by simp
      _ ~ ex.ran ++ ex.pending := (List.getElem_cons_eraseIdx_perm hi).append_left _
  · exact .refl _

/-- **A first-in first-out worker runs the tasks in order.** Taking the oldest pending task keeps the tasks in the
order of submission -/
theorem tasks_runAt_zero (ex : Executor α) : (ex.runAt 0).tasks = ex.tasks := by
  unfold runAt
  rcases hpending : ex.pending with _ | ⟨task, rest⟩
  · simp
  · simp [hpending, Executor.tasks]

end Executor

end OneHelpers
