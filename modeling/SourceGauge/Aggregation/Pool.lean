import SourceGauge.Outcome
import SourceGauge.Run

/-!
# Pools of tasks

Tasks that are run independently of each other by a pool of workers. The pass that started
them wakes up when all of them are done, or as soon as one has failed, and cancels those that have
not begun; what it sees and does then is a schedule. The first failure among the tasks that are
done is the outcome. Without one the results are collected in the order of the tasks, of which a
cancelled one would have none.
-/

namespace SourceGauge

variable {α : Type}

/-- The tasks that are done when a pass wakes up, in the order in which they are looked at, and
those that are cancelled before they begin. -/
structure Schedule where
  done : List Nat
  cancelled : List Nat
  deriving DecidableEq, Repr

namespace Schedule

/-- The schedule in which so many tasks were done in order. -/
def inOrder (tasks : Nat) : Schedule := ⟨List.range tasks, []⟩

/-- The failure of a run. -/
def failure? (run : Run α) : Option Failure :=
  match run.outcome with
  | .error failure => some failure
  | .ok _ => none

/-- A schedule that can occur: tasks are done once, none that is done is cancelled, and if some
task is not done then one that is done has failed. -/
def Possible (schedule : Schedule) (tasks : List (Run α)) : Prop :=
  schedule.done.Nodup ∧ (∀ i ∈ schedule.done, i < tasks.length) ∧
    (∀ i ∈ schedule.cancelled, i ∉ schedule.done) ∧
    ((∀ i, i < tasks.length → i ∈ schedule.done) ∨
      ∃ i ∈ schedule.done, ∃ task, tasks[i]? = some task ∧ (failure? task).isSome)

/-- The failure that is found first. -/
def firstFailure? (schedule : Schedule) (tasks : List (Run α)) : Option Failure :=
  schedule.done.findSome? fun i => tasks[i]?.bind failure?

/-- The tasks that have begun but are not done when the pass wakes up; they still run to their
end. -/
def unfinished (schedule : Schedule) (tasks : List (Run α)) : List Nat :=
  (List.range tasks.length).filter fun i =>
    !schedule.done.contains i && !schedule.cancelled.contains i

/-- What tasks have reported, all but those that are cancelled. -/
def entries (schedule : Schedule) (tasks : List (Run α)) : List LogEntry :=
  (schedule.done ++ schedule.unfinished tasks).flatMap fun i =>
    ((tasks[i]?).map Run.entries).getD []

/-- The result of a task, which must not be cancelled. -/
def resultOf (schedule : Schedule) (task : Run α × Nat) : Except Failure α :=
  if schedule.cancelled.contains task.2 then .error .cancelled else task.1.outcome

/-- The results of tasks in their order. -/
def results (schedule : Schedule) (tasks : List (Run α)) : Except Failure (List α) :=
  mapOk schedule.resultOf tasks.zipIdx

/-- The run of a pool of tasks under a schedule. -/
def run (schedule : Schedule) (tasks : List (Run α)) : Run (List α) where
  entries := schedule.entries tasks
  outcome :=
    match schedule.firstFailure? tasks with
    | some failure => .error failure
    | none => schedule.results tasks

/-- Doing all tasks in order can occur. -/
theorem possible_inOrder (tasks : List (Run α)) : (inOrder tasks.length).Possible tasks := by
  refine ⟨List.nodup_range, ?_, ?_, .inl ?_⟩ <;> simp [inOrder]

end Schedule

end SourceGauge
