import SourceGauge.Failure.Basic

/-!
# Runs

An operation reports what it does by log entries, whether it succeeds or fails: a run holds
the entries in order and the outcome. Runs follow one another until the first that fails;
what was reported before is kept.
-/

namespace SourceGauge

/-- How important a log entry is. -/
inductive LogLevel
  | debug
  | info
  | warning
  | error
  | critical
  deriving DecidableEq, Repr

namespace LogLevel

/-- All levels, from the least important. -/
def all : List LogLevel := [debug, info, warning, error, critical]

/-- The name of a level. -/
def name : LogLevel → String
  | debug => "DEBUG"
  | info => "INFO"
  | warning => "WARNING"
  | error => "ERROR"
  | critical => "CRITICAL"

/-- The rank of a level. -/
def rank : LogLevel → Nat
  | debug => 10
  | info => 20
  | warning => 30
  | error => 40
  | critical => 50

/-- The level of a name; warnings and critical entries have a second name each. -/
def ofName? (name : String) : Option LogLevel :=
  match name with
  | "WARN" => some warning
  | "FATAL" => some critical
  | other => all.find? fun level => level.name == other

end LogLevel

/-- What was reported, by which logger, and how important it is. -/
structure LogEntry where
  level : LogLevel
  logger : Text
  message : Text
  deriving DecidableEq, Repr

/-- What an operation reported and how it ended. -/
structure Run (α : Type) where
  entries : List LogEntry
  outcome : Except Failure α

namespace Run

variable {α β : Type}

/-- A run that reports nothing. -/
def ofOutcome (outcome : Except Failure α) : Run α := ⟨[], outcome⟩

/-- A run that succeeds without a report. -/
def done (value : α) : Run α := ⟨[], .ok value⟩

/-- A run that fails without a report. -/
def fail (failure : Failure) : Run α := ⟨[], .error failure⟩

/-- A run that reports one entry. -/
def report (level : LogLevel) (logger message : Text) : Run Unit :=
  ⟨[⟨level, logger, message⟩], .ok ()⟩

/-- Go on with the value of a run, unless it failed. -/
def andThen (run : Run α) (next : α → Run β) : Run β :=
  match run.outcome with
  | .ok value => ⟨run.entries ++ (next value).entries, (next value).outcome⟩
  | .error failure => ⟨run.entries, .error failure⟩

instance : Monad Run where
  pure := done
  bind := andThen

@[simp] theorem outcome_ofOutcome (outcome : Except Failure α) :
    (ofOutcome outcome).outcome = outcome := rfl

@[simp] theorem outcome_done (value : α) : (done value).outcome = .ok value := rfl

@[simp] theorem outcome_fail (failure : Failure) :
    (fail failure : Run α).outcome = .error failure := rfl

@[simp] theorem outcome_report (level : LogLevel) (logger message : Text) :
    (report level logger message).outcome = .ok () := rfl

/-- The outcome of going on is that of what comes next, unless the run failed. -/
theorem outcome_andThen (run : Run α) (next : α → Run β) :
    (run.andThen next).outcome = run.outcome.bind fun value => (next value).outcome := by
  unfold andThen
  cases run.outcome <;> rfl

/-- Going on from a value is going on with it. -/
theorem done_andThen (value : α) (next : α → Run β) : (done value).andThen next = next value := by
  simp [done, andThen]

/-- A failed run stays as it is. -/
theorem fail_andThen (failure : Failure) (next : α → Run β) :
    (fail failure).andThen next = fail failure := rfl

/-- Runs may be grouped in any way. -/
theorem andThen_assoc {γ : Type} (run : Run α) (f : α → Run β) (g : β → Run γ) :
    (run.andThen f).andThen g = run.andThen fun value => (f value).andThen g := by
  obtain ⟨entries, outcome⟩ := run
  cases outcome with
  | error failure => rfl
  | ok value =>
    cases hf : (f value).outcome <;> simp [andThen, hf]

/-- What was reported before going on stays at the front. -/
theorem entries_andThen (run : Run α) (next : α → Run β) :
    ∃ more, (run.andThen next).entries = run.entries ++ more := by
  unfold andThen
  cases run.outcome with
  | ok value => exact ⟨(next value).entries, rfl⟩
  | error failure => exact ⟨[], by simp⟩

end Run

end SourceGauge
