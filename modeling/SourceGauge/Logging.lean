import SourceGauge.Files.Access
import SourceGauge.Run
import SourceGauge.Settings.Basic

/-!
# Logging

The log of the library: the rank that an entry needs, and the handlers that entries go to. The
handlers installed here, one for the console and perhaps one for a log file, are replaced as a
whole whenever logging is set up; those that the host added stay in their order.
-/

namespace SourceGauge

/-- Where entries go: to the console, to a log file, or to a handler of the host, which tells its
own ones apart. -/
inductive Handler
  | console
  | logFile (location : Location)
  | foreign (mark : Nat)
  deriving DecidableEq, Repr

namespace Handler

/-- Whether a handler was installed by the library. -/
def isOwned : Handler → Bool
  | foreign _ => false
  | _ => true

/-- The mark of a handler of the host. -/
def mark : Handler → Nat
  | foreign mark => mark
  | _ => 0

/-- The name of a handler's kind. -/
def name : Handler → String
  | console => "RichHandler"
  | logFile _ => "FileHandler"
  | foreign _ => "NullHandler"

end Handler

/-- The rank that entries need, and the handlers in the order of their addition. -/
structure Logging where
  rank : Nat
  handlers : List Handler
  deriving DecidableEq, Repr

namespace Logging

/-- The logger of the library as a whole; those of its parts lie below it. -/
def root : String := "codemeasure"

/-- The handlers that the library did not install. -/
def foreignHandlers (logging : Logging) : List Handler :=
  logging.handlers.filter fun handler => !handler.isOwned

/-- The handlers that the library installed. -/
def ownedHandlers (logging : Logging) : List Handler := logging.handlers.filter Handler.isOwned

/-- The verbosity that a value names. -/
def verbosityOf (value : Value) : Except Failure Verbosity := do
  value.checkKey
  match Verbosity.ofValue? value with
  | some verbosity => return verbosity
  | none => throw (.value (.unknownVerbosity value))

/-- Open a log file for appending, from the root of the file system. -/
def openFile (host : Host) (path : Path) : Except Failure (Host × Location) :=
  let place := host.absolute path
  match Host.unusable? place with
  | some failure => .error failure
  | none =>
    match host.tree.openToAppend host.workingDirectory place with
    | .ok (tree, location) => .ok ({ host with tree }, location)
    | .error fault => .error (.system fault place.text)

/-- The handlers to install: the console, and the log file if one is named. -/
def newHandlers (host : Host) (logFile : Value) : Except Failure (Host × List Handler) :=
  if logFile.isTruthy then do
    let path ← logFile.path
    let (host, location) ← openFile host path
    return (host, [.console, .logFile location])
  else .ok (host, [.console])

/-- Set up logging. The handlers installed before go first; if a log file cannot be opened the
rank stays and nothing is installed instead. -/
def setUp (logging : Logging) (host : Host) (verbosity logFile : Value) :
    (Logging × Host) × Except Failure Unit :=
  match verbosityOf verbosity with
  | .error failure => ((logging, host), .error failure)
  | .ok verbosity =>
    match newHandlers host logFile with
    | .error failure =>
      (({ logging with handlers := logging.foreignHandlers }, host), .error failure)
    | .ok (host, handlers) =>
      ((⟨verbosity.rank, logging.foreignHandlers ++ handlers⟩, host), .ok ())

/-- Add a handler of the host; one that is there already stays where it is. -/
def attach (logging : Logging) (mark : Nat) : Logging :=
  if .foreign mark ∈ logging.handlers then logging
  else { logging with handlers := logging.handlers ++ [.foreign mark] }

/-- A mark beyond those of all handlers. -/
def unusedMark (logging : Logging) : Nat :=
  logging.handlers.foldr (fun handler mark => max (handler.mark + 1) mark) 0

/-- Add a handler of the host that was not there before. -/
def addForeign (logging : Logging) : Logging := logging.attach logging.unusedMark

/-- The logger of a name; names outside the library are put below it. -/
def loggerName : Option Text → Text
  | none => root
  | some name => if name.startsWith root then name else root ++ "." ++ name

/-- The logger that a value names; null names the library as a whole. -/
def loggerOf : Value → Except Failure Text
  | .null => .ok (loggerName none)
  | .text name => .ok (loggerName (some name))
  | other => .error (.noMember other.typeName "startswith")

/-- Whether entries of a logger reach the handlers: those of the library and of loggers below. -/
def reaches (logger : Text) : Bool := logger == root || logger.startsWith (root ++ ".")

/-- Whether an entry is logged. -/
def passes (logging : Logging) (entry : LogEntry) : Bool :=
  reaches entry.logger && decide (logging.rank ≤ entry.level.rank)

/-- An entry as a line of a log file. -/
def line (time : String) (entry : LogEntry) : Text :=
  time ++ " - " ++ entry.logger ++ " - " ++ entry.level.name ++ " - " ++ entry.message ++ "\n"

/-- Write entries to the log files among the handlers. A line with a surrogate cannot be encoded and
is left out. -/
def write (logging : Logging) (host : Host) (entries : List LogEntry) : Host :=
  let lines := entries.filterMap fun entry => (line host.time entry).toString?
  let octets := Utf8.encode (String.join lines)
  logging.handlers.foldl (fun host handler =>
    match handler with
    | .logFile location => { host with tree := host.tree.append location octets }
    | _ => host) host

/-- Log what was reported: the entries that pass, and the host with its log files. -/
def log (logging : Logging) (host : Host) (entries : List LogEntry) : List LogEntry × Host :=
  let passing := entries.filter logging.passes
  (passing, logging.write host passing)

/-- No handler has an unused mark. -/
theorem mark_lt_unusedMark {logging : Logging} {handler : Handler}
    (h : handler ∈ logging.handlers) : handler.mark < logging.unusedMark := by
  rw [unusedMark]
  generalize logging.handlers = handlers at h
  induction handlers with
  | nil => contradiction
  | cons first rest ih =>
    rw [List.foldr_cons]
    rcases List.mem_cons.1 h with rfl | h
    · omega
    · have hrest := ih h
      omega

/-- A handler that was not there before comes last. -/
theorem handlers_addForeign (logging : Logging) :
    logging.addForeign.handlers = logging.handlers ++ [.foreign logging.unusedMark] := by
  have hnew : Handler.foreign logging.unusedMark ∉ logging.handlers := fun h =>
    Nat.lt_irrefl _ (mark_lt_unusedMark h)
  rw [addForeign, attach, if_neg hnew]

/-- The handlers to install, as one outcome after the other. -/
theorem newHandlers_eq (host : Host) (logFile : Value) : newHandlers host logFile =
    if logFile.isTruthy then (logFile.path.bind (openFile host)).map fun opened =>
      (opened.1, [.console, .logFile opened.2])
    else .ok (host, [.console]) := by
  unfold newHandlers
  split
  · cases hpath : logFile.path with
    | error failure => rfl
    | ok path =>
      cases hopen : openFile host path with
      | error failure => simp [hopen, bind, Except.bind, Except.map]
      | ok opened => simp [hopen, bind, Except.bind, pure, Except.pure, Except.map]
  · rfl

/-- The library owns the handlers that it installs. -/
theorem isOwned_of_newHandlers {host next : Host} {logFile : Value} {handlers : List Handler}
    (h : newHandlers host logFile = .ok (next, handlers)) :
    ∀ handler ∈ handlers, handler.isOwned = true := by
  rw [newHandlers_eq] at h
  split at h
  · obtain ⟨opened, _, hopened⟩ := map_eq_ok_iff.1 h
    obtain ⟨-, rfl⟩ := Prod.mk.inj hopened
    simp [Handler.isOwned]
  · obtain ⟨-, rfl⟩ := Prod.mk.inj (Except.ok.inj h)
    simp [Handler.isOwned]

/-- Setting up logging keeps the handlers of the host, in their order. -/
theorem foreignHandlers_setUp (logging : Logging) (host : Host) (verbosity logFile : Value) :
    (logging.setUp host verbosity logFile).1.1.foreignHandlers = logging.foreignHandlers := by
  unfold setUp
  split
  · rfl
  · split
    · simp [foreignHandlers]
    · rename_i next handlers hnew
      have hnone : handlers.filter (fun handler => !handler.isOwned) = [] := by
        rw [List.filter_eq_nil_iff]
        intro handler hmem
        simp [isOwned_of_newHandlers hnew handler hmem]
      simp [foreignHandlers, List.filter_append, hnone]

end Logging

end SourceGauge
