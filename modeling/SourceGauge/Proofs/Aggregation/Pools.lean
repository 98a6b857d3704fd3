import Mathlib.Logic.Relation
import SourceGauge.Aggregation.Pool

/-!
# Pools at work

A pool of workers takes tasks in their order whenever a worker is free, and tasks end in any
order. No task is lost or doubled on the way, so whatever a pass sees when it wakes up is a
possible schedule: either every task is done, or one that is done has failed. From then on the
outcome does not depend on the schedule, but for which of several failures is found.

That every pool comes to a point where the pass wakes up is shown as well.
-/

namespace SourceGauge

variable {α : Type}

/-- A pool at work: the tasks that wait for a worker, those that have begun, and those that are
done, in the order in which they ended. -/
structure Pool where
  waiting : List Nat
  running : List Nat
  done : List Nat

namespace Pool

/-- A pool that has been given so many tasks. -/
def start (tasks : Nat) : Pool := ⟨List.range tasks, [], []⟩

/-- What happens in a pool: a free worker takes the next task, or one of the tasks ends. -/
inductive Step (workers : Number) : Pool → Pool → Prop
  | take (task : Nat) (waiting running done : List Nat)
      (free : (Number.int running.length).lt workers = true) :
      Step workers ⟨task :: waiting, running, done⟩ ⟨waiting, task :: running, done⟩
  | finish (task : Nat) (waiting before after done : List Nat) :
      Step workers ⟨waiting, before ++ task :: after, done⟩
        ⟨waiting, before ++ after, done ++ [task]⟩

/-- A pool comes to another by any number of steps. -/
abbrev Reaches (workers : Number) : Pool → Pool → Prop := Relation.ReflTransGen (Step workers)

/-- All tasks of a pool, wherever they are. -/
def all (pool : Pool) : List Nat := pool.waiting ++ (pool.running ++ pool.done)

/-- A pool has nothing left to do. -/
def IsIdle (pool : Pool) : Prop := pool.waiting = [] ∧ pool.running = []

/-- The pass that waits for a pool is awake: all tasks are done, or one of those done has failed. -/
def IsAwake (tasks : List (Run α)) (pool : Pool) : Prop :=
  pool.IsIdle ∨ ∃ i ∈ pool.done, ∃ task, tasks[i]? = some task ∧ (Schedule.failure? task).isSome

/-- What a pass sees of a pool, looking at the tasks that are done in any order and cancelling any
of those that have not begun. -/
def Shows (pool : Pool) (schedule : Schedule) : Prop :=
  schedule.done.Perm pool.done ∧ ∀ i ∈ schedule.cancelled, i ∈ pool.waiting

variable {workers : Number}

/-- A step moves one task and loses none. -/
theorem Step.all_perm {before after : Pool} (h : Step workers before after) :
    after.all.Perm before.all := by
  cases h with
  | take task waiting running done free =>
    simp only [all, List.cons_append]
    exact List.perm_middle
  | finish task waiting first last done =>
    simp only [all, List.append_assoc, List.cons_append]
    have hlast : (done ++ [task]).Perm (task :: done) := List.perm_append_singleton task done
    refine List.Perm.append_left waiting (List.Perm.append_left first ?_)
    exact (hlast.append_left last).trans List.perm_middle

/-- No task is lost or doubled on the way. -/
theorem Reaches.all_perm {before after : Pool} (h : Reaches workers before after) :
    after.all.Perm before.all := by
  induction h with
  | refl => exact .refl _
  | tail _ hstep ih => exact hstep.all_perm.trans ih

/-- What a pass that is awake sees of its pool is a possible schedule. -/
theorem possible_of_shows {tasks : List (Run α)} {pool : Pool} {schedule : Schedule}
    (hreach : Reaches workers (start tasks.length) pool) (hawake : pool.IsAwake tasks)
    (hshows : pool.Shows schedule) : schedule.Possible tasks := by
  have hall : pool.all.Perm (List.range tasks.length) := by
    simpa [all, start] using hreach.all_perm
  have hnodup : (pool.waiting ++ (pool.running ++ pool.done)).Nodup :=
    hall.nodup_iff.2 List.nodup_range
  have hdone : ∀ i, i ∈ schedule.done ↔ i ∈ pool.done := fun i => hshows.1.mem_iff
  refine ⟨?_, ?_, ?_, ?_⟩
  · rw [List.nodup_append, List.nodup_append] at hnodup
    exact hshows.1.nodup_iff.2 hnodup.2.1.2.1
  · intro i hi
    have hmem : i ∈ pool.all := by simp [all, (hdone i).1 hi]
    simpa using hall.mem_iff.1 hmem
  · intro i hcancelled hmem
    rw [List.nodup_append] at hnodup
    exact hnodup.2.2 i (hshows.2 i hcancelled) i (by simp [(hdone i).1 hmem]) rfl
  · rcases hawake with ⟨hwaiting, hrunning⟩ | ⟨i, hi, hfailed⟩
    · refine .inl fun i hi => (hdone i).2 ?_
      have hmem : i ∈ pool.all := hall.mem_iff.2 (by simpa using hi)
      simpa [all, hwaiting, hrunning] using hmem
    · exact .inr ⟨i, (hdone i).2 hi, hfailed⟩

/-- A pool with at least one worker goes on while there is something left to do. -/
theorem exists_step {pool : Pool} (hworkers : (Number.int 0).lt workers = true)
    (hbusy : ¬ pool.IsIdle) : ∃ next, Step workers pool next := by
  obtain ⟨waiting, running, done⟩ := pool
  cases running with
  | cons task others => exact ⟨_, .finish task waiting [] others done⟩
  | nil =>
    cases waiting with
    | cons task others => exact ⟨_, .take task others [] done hworkers⟩
    | nil => exact absurd ⟨rfl, rfl⟩ hbusy

/-- How many steps a pool has left: two for a task that waits, one for a task that has begun. -/
def stepsLeft (pool : Pool) : Nat := 2 * pool.waiting.length + pool.running.length

/-- Every step is one less to go. -/
theorem Step.stepsLeft_succ {before after : Pool} (h : Step workers before after) :
    after.stepsLeft + 1 = before.stepsLeft := by
  cases h with
  | take task waiting running done free => simp only [stepsLeft, List.length_cons]; omega
  | finish task waiting first last done =>
    simp only [stepsLeft, List.length_append, List.length_cons]
    omega

/-- From wherever a pool is, it can come to a point where the pass wakes up, and after so many
steps it has. -/
theorem exists_awake (tasks : List (Run α)) (hworkers : (Number.int 0).lt workers = true)
    (pool : Pool) : ∃ later, Reaches workers pool later ∧ later.IsAwake tasks := by
  induction hleft : pool.stepsLeft generalizing pool with
  | zero =>
    have hidle : pool.IsIdle := by
      simp only [stepsLeft] at hleft
      exact ⟨List.eq_nil_of_length_eq_zero (by omega), List.eq_nil_of_length_eq_zero (by omega)⟩
    exact ⟨pool, .refl, .inl hidle⟩
  | succ left ih =>
    by_cases hidle : pool.IsIdle
    · exact ⟨pool, .refl, .inl hidle⟩
    · obtain ⟨next, hstep⟩ := exists_step hworkers hidle
      have hnext := hstep.stepsLeft_succ
      obtain ⟨later, hreach, hawake⟩ := ih next (by omega)
      exact ⟨later, hreach.head hstep, hawake⟩

/-- A pool can do its tasks one after the other. -/
theorem reaches_inOrder (hworkers : (Number.int 0).lt workers = true) (done waiting : List Nat) :
    Reaches workers ⟨waiting, [], done⟩ ⟨[], [], done ++ waiting⟩ := by
  induction waiting generalizing done with
  | nil => rw [List.append_nil]
  | cons task rest ih =>
    have htake : Step workers ⟨task :: rest, [], done⟩ ⟨rest, [task], done⟩ :=
      .take task rest [] done hworkers
    have hfinish : Step workers ⟨rest, [task], done⟩ ⟨rest, [], done ++ [task]⟩ :=
      .finish task rest [] [] done
    rw [List.append_cons]
    exact ((ih (done ++ [task])).head hfinish).head htake

end Pool

namespace Schedule

variable {schedule : Schedule} {tasks : List (Run α)}

/-- The failure of a task is that of its outcome. -/
theorem failure?_eq_some_iff {task : Run α} {failure : Failure} :
    failure? task = some failure ↔ task.outcome = .error failure := by
  rw [failure?]
  cases task.outcome <;> simp

/-- A failure that is found is the failure of a task. -/
theorem exists_of_firstFailure? {failure : Failure}
    (h : schedule.firstFailure? tasks = some failure) :
    ∃ task ∈ tasks, task.outcome = .error failure := by
  obtain ⟨i, _, hi⟩ := List.exists_of_findSome?_eq_some h
  obtain ⟨task, htask, hfailure⟩ := Option.bind_eq_some_iff.1 hi
  exact ⟨task, List.mem_of_getElem? htask, failure?_eq_some_iff.1 hfailure⟩

/-- If no failure is found, all tasks are done. -/
theorem Possible.all_done (hpossible : schedule.Possible tasks)
    (hnone : schedule.firstFailure? tasks = none) : ∀ i, i < tasks.length → i ∈ schedule.done := by
  obtain ⟨_, _, _, hall | ⟨i, hi, task, htask, hfailed⟩⟩ := hpossible
  · exact hall
  · have hi := List.findSome?_eq_none_iff.1 hnone i hi
    rw [htask, Option.bind_some] at hi
    simp [hi] at hfailed

/-- Results that are those of all tasks stand in the order of the tasks. -/
theorem results_eq_of_kept
    (hkept : ∀ item ∈ tasks.zipIdx, schedule.resultOf item = item.1.outcome) :
    schedule.results tasks = mapOk Run.outcome tasks := by
  rw [results, mapOk_congr hkept, ← mapOk_map, List.zipIdx_map_fst]

/-- If no failure is found, the results are those of all tasks, none of which was cancelled. -/
theorem results_eq (hpossible : schedule.Possible tasks)
    (hnone : schedule.firstFailure? tasks = none) :
    schedule.results tasks = mapOk Run.outcome tasks := by
  refine results_eq_of_kept ?_
  rintro ⟨task, i⟩ hitem
  have hlt : i < tasks.length := by
    have := List.snd_lt_of_mem_zipIdx hitem
    omega
  have hdone := hpossible.all_done hnone i hlt
  have hnot : i ∉ schedule.cancelled := fun hmem => hpossible.2.2.1 i hmem hdone
  simp [resultOf, hnot]

/-- A pool that succeeds has the results of its tasks, under any schedule at all. -/
theorem mapOk_of_outcome_run {results : List α}
    (h : (schedule.run tasks).outcome = .ok results) : mapOk Run.outcome tasks = .ok results := by
  simp only [run] at h
  split at h
  · contradiction
  · rw [← h]
    refine (results_eq_of_kept fun item hitem => ?_).symm
    -- a cancelled task would have no result
    obtain ⟨result, _, hresult⟩ := exists_result_of_mapOk h hitem
    rw [resultOf] at hresult ⊢
    split at hresult
    · contradiction
    · rename_i hkept
      rw [if_neg hkept]

/-- A pool succeeds exactly if all of its tasks do, with their results in the order of the tasks,
whatever the schedule. -/
theorem outcome_run_eq_ok_iff (hpossible : schedule.Possible tasks) {results : List α} :
    (schedule.run tasks).outcome = .ok results ↔ mapOk Run.outcome tasks = .ok results := by
  cases hfirst : schedule.firstFailure? tasks with
  | none =>
    simp only [run, hfirst]
    rw [results_eq hpossible hfirst]
  | some failure =>
    obtain ⟨task, htask, hfailure⟩ := exists_of_firstFailure? hfirst
    have hno : mapOk Run.outcome tasks ≠ .ok results := by
      intro hok
      have hmem := List.mem_map_of_mem (f := Run.outcome) htask
      rw [mapOk_eq_ok_iff.1 hok, hfailure] at hmem
      simp at hmem
    simp [run, hfirst, hno]

/-- A pool that fails does so with the failure of one of its tasks. -/
theorem exists_of_outcome_run_error (hpossible : schedule.Possible tasks) {failure : Failure}
    (h : (schedule.run tasks).outcome = .error failure) :
    ∃ task ∈ tasks, task.outcome = .error failure := by
  cases hfirst : schedule.firstFailure? tasks with
  | none =>
    simp only [run, hfirst] at h
    rw [results_eq hpossible hfirst] at h
    exact exists_of_mapOk_error h
  | some found =>
    simp only [run, hfirst, Except.error.injEq] at h
    exact h ▸ exists_of_firstFailure? hfirst

end Schedule

end SourceGauge
