import SourceGauge.Logging
import SourceGauge.Proofs.Store.Latest

/-!
# Handlers over a history of set-ups

The host adds handlers of its own and sets up logging, time and again. Its own handlers stay, in
the order in which it added them first. A call that returns leaves one handler for the console and,
exactly if it names a log file, one for that file, and entries then need the rank of its verbosity.

A call that fails should change nothing. One that names no verbosity does not. One that cannot open
its log file leaves the rank and the handlers of the host, but the handlers of the library are gone
by then, so that it changes nothing only where there are none: in a history the promise is kept if
and only if no such call comes after one that returned.

What the handlers do with entries is not looked at, and files may change between calls in any way.
-/

namespace SourceGauge

/-! ## The file that a path names -/

namespace Path

/-- What is left after double dots took effect has none. -/
theorem not_mem_collapse (parts : List Text) : (".." : Text) ∉ collapse parts := by
  have hfold : ∀ above : List Text, (".." : Text) ∉ above → (".." : Text) ∉
      parts.foldl (fun above (part : Text) => if part == ".." then above.drop 1 else part :: above)
        above := by
    induction parts with
    | nil => exact fun above h => h
    | cons part rest ih =>
      intro above h
      rw [List.foldl_cons]
      apply ih
      split
      · exact fun hmem => h (List.mem_of_mem_drop hmem)
      · rename_i hpart
        rw [List.mem_cons, not_or]
        exact ⟨fun heq => hpart (beq_iff_eq.2 heq.symm), h⟩
  rw [collapse, List.mem_reverse]
  exact hfold [] List.not_mem_nil

end Path

/-- The location of the file that a path names, whether there is one or not. -/
def Host.placeOf (host : Host) (path : Path) : Location :=
  (host.absolute path).parts.map Text.stored

/-- Names without double dots are followed one after the other. -/
theorem FileTree.eq_of_walk {tree : FileTree} {here location : Location} {names : List Text}
    (hnames : (".." : Text) ∉ names) (h : tree.walk here names = .ok location) :
    location = here ++ names.map Text.stored := by
  induction names generalizing here with
  | nil => rw [← Except.ok.inj h, List.map_nil, List.append_nil]
  | cons name rest ih =>
    rw [List.mem_cons, not_or] at hnames
    rw [walk] at h
    split at h
    · rw [if_neg (by simpa using Ne.symm hnames.1)] at h
      split at h
      · contradiction
      · rw [ih hnames.2 h, List.map_cons, List.append_assoc, List.singleton_append]
    · contradiction
    · contradiction

/-- The whole path is absolute. -/
theorem Host.isAbsolute_absolute (host : Host) (path : Path) :
    (host.absolute path).isAbsolute = true := by
  rw [absolute, Path.collapsed, Path.join]
  split
  · assumption
  · rfl

namespace Logging

/-- What is opened for appending is the file that the path names. -/
theorem eq_placeOf_of_openFile {host next : Host} {path : Path} {location : Location}
    (h : openFile host path = .ok (next, location)) : location = host.placeOf path := by
  unfold openFile at h
  dsimp only at h
  split at h
  · contradiction
  · split at h
    · rename_i tree found hopen
      obtain ⟨-, rfl⟩ := Prod.mk.inj (Except.ok.inj h)
      obtain ⟨place, hplace, hopen⟩ := bind_eq_ok_iff.1 hopen
      have hfound : found = place := by
        split at hopen
        · contradiction
        · exact (Prod.mk.inj (Except.ok.inj hopen)).2.symm
        · exact (Prod.mk.inj (Except.ok.inj hopen)).2.symm
      rw [FileTree.locate] at hplace
      split at hplace
      · contradiction
      · rw [if_pos (host.isAbsolute_absolute path)] at hplace
        rw [hfound, FileTree.eq_of_walk (Path.not_mem_collapse _) hplace]
        rfl
    · contradiction

/-! ## One call -/

/-- A value is taken for a verbosity exactly if it names one. -/
theorem verbosityOf_eq_ok_iff {value : Value} {degree : Verbosity} :
    verbosityOf value = .ok degree ↔ Verbosity.ofValue? value = some degree := by
  constructor
  · intro h
    obtain ⟨_, _, h⟩ := bind_eq_ok_iff.1 h
    split at h
    · rename_i found hfound
      rw [hfound, Except.ok.inj h]
    · contradiction
  · intro h
    cases value with
    | text name =>
      have hkey : (Value.text name).checkKey = .ok () := rfl
      rw [verbosityOf, hkey, h]
      rfl
    | _ => contradiction

/-- The handlers of the library behind those of the host are the ones that are put there. -/
theorem ownedHandlers_append (logging : Logging) (rank : Nat) (installed : List Handler)
    (h : ∀ handler ∈ installed, handler.isOwned = true) :
    (⟨rank, logging.foreignHandlers ++ installed⟩ : Logging).ownedHandlers = installed := by
  rw [ownedHandlers, List.filter_append, List.filter_eq_nil_iff.2, List.filter_eq_self.2 h,
    List.nil_append]
  intro handler hmem
  simpa using (List.mem_filter.1 hmem).2

/-- A call that sets up logging: the host as it is then, and what is asked for. -/
structure Call where
  host : Host
  verbosity : Value
  logFile : Value

namespace Call

/-- The log that a call leaves. -/
def leaves (call : Call) (logging : Logging) : Logging :=
  (logging.setUp call.host call.verbosity call.logFile).1.1

/-- How a call ends. -/
def outcome (call : Call) (logging : Logging) : Except Failure Unit :=
  (logging.setUp call.host call.verbosity call.logFile).2

/-- A call names a verbosity, and either no log file or one that can be opened. -/
def IsGranted (call : Call) : Prop :=
  (∃ degree, Verbosity.ofValue? call.verbosity = some degree) ∧
    (call.logFile.isTruthy = true →
      ∃ opened, call.logFile.path.bind (openFile call.host) = .ok opened)

/-- A call names a verbosity, and a log file that cannot be opened. -/
def IsUnopened (call : Call) : Prop :=
  (∃ degree, Verbosity.ofValue? call.verbosity = some degree) ∧ call.logFile.isTruthy = true ∧
    ∃ failure, call.logFile.path.bind (openFile call.host) = .error failure

/-- A log is as a call asks for: entries need the rank of its verbosity, and the handlers of the
library are one for the console and, if a log file is named, one for that file. -/
structure Installed (call : Call) (logging : Logging) : Prop where
  rank : ∃ degree, Verbosity.ofValue? call.verbosity = some degree ∧ logging.rank = degree.rank
  console : call.logFile.isTruthy = false → logging.ownedHandlers = [.console]
  logFile : call.logFile.isTruthy = true → ∃ path, call.logFile.path = .ok path ∧
    logging.ownedHandlers = [.console, .logFile (call.host.placeOf path)]

/-- What setting up logging promises of a call: the handlers of the host stay, a call that returns
leaves the log as it asks for, and one that fails leaves it as it was. -/
structure KeepsPromise (call : Call) (logging : Logging) : Prop where
  host : (call.leaves logging).foreignHandlers = logging.foreignHandlers
  returned : call.outcome logging = .ok () → call.Installed (call.leaves logging)
  failed : ∀ failure, call.outcome logging = .error failure → call.leaves logging = logging

variable {call : Call}

/-- A call that names no verbosity fails and changes nothing. -/
theorem leaves_of_unnamed (h : ∀ degree, Verbosity.ofValue? call.verbosity ≠ some degree)
    (logging : Logging) :
    call.leaves logging = logging ∧ ∃ failure, call.outcome logging = .error failure := by
  cases hverbosity : verbosityOf call.verbosity with
  | ok degree => exact absurd (verbosityOf_eq_ok_iff.1 hverbosity) (h degree)
  | error failure =>
    have hsetUp : logging.setUp call.host call.verbosity call.logFile =
        ((logging, call.host), .error failure) := by
      rw [setUp, hverbosity]
    exact ⟨by rw [leaves, hsetUp], failure, by rw [outcome, hsetUp]⟩

/-- A call that cannot open its log file fails and takes the handlers of the library away. -/
theorem leaves_of_isUnopened (h : call.IsUnopened) (logging : Logging) :
    call.leaves logging = { logging with handlers := logging.foreignHandlers } ∧
      ∃ failure, call.outcome logging = .error failure := by
  obtain ⟨⟨degree, hdegree⟩, htruthy, failure, hopen⟩ := h
  have hnew : newHandlers call.host call.logFile = .error failure := by
    rw [newHandlers_eq, if_pos htruthy, hopen]
    rfl
  have hsetUp : logging.setUp call.host call.verbosity call.logFile =
      (({ logging with handlers := logging.foreignHandlers }, call.host), .error failure) := by
    rw [setUp, verbosityOf_eq_ok_iff.2 hdegree, hnew]
  exact ⟨by rw [leaves, hsetUp], failure, by rw [outcome, hsetUp]⟩

/-- A call that is granted returns and leaves the log as it asks for. -/
theorem installed_of_isGranted (h : call.IsGranted) (logging : Logging) :
    call.outcome logging = .ok () ∧ call.Installed (call.leaves logging) := by
  obtain ⟨⟨degree, hdegree⟩, hopened⟩ := h
  have hsetUp : ∀ next handlers, newHandlers call.host call.logFile = .ok (next, handlers) →
      logging.setUp call.host call.verbosity call.logFile =
        ((⟨degree.rank, logging.foreignHandlers ++ handlers⟩, next), .ok ()) := by
    intro next handlers hnew
    rw [setUp, verbosityOf_eq_ok_iff.2 hdegree, hnew]
  cases htruthy : call.logFile.isTruthy with
  | false =>
    have hnew : newHandlers call.host call.logFile = .ok (call.host, [.console]) := by
      rw [newHandlers_eq, htruthy]
      rfl
    have howned := logging.ownedHandlers_append degree.rank [.console] (isOwned_of_newHandlers hnew)
    rw [leaves, outcome, hsetUp _ _ hnew]
    exact ⟨rfl, ⟨degree, hdegree, rfl⟩, fun _ => howned,
      fun h => absurd (htruthy.symm.trans h) Bool.false_ne_true⟩
  | true =>
    obtain ⟨⟨next, location⟩, hopen⟩ := hopened htruthy
    have hnew : newHandlers call.host call.logFile = .ok (next, [.console, .logFile location]) := by
      rw [newHandlers_eq, if_pos htruthy, hopen]
      rfl
    obtain ⟨path, hpath, hopen⟩ := bind_eq_ok_iff.1 hopen
    obtain rfl := eq_placeOf_of_openFile hopen
    have howned := logging.ownedHandlers_append degree.rank
      [.console, .logFile (call.host.placeOf path)] (isOwned_of_newHandlers hnew)
    rw [leaves, outcome, hsetUp _ _ hnew]
    exact ⟨rfl, ⟨degree, hdegree, rfl⟩,
      fun h => absurd (h.symm.trans htruthy) Bool.false_ne_true, fun _ => ⟨path, hpath, howned⟩⟩

/-- A call is granted, names no verbosity, or cannot open its log file. -/
theorem isGranted_or (call : Call) : call.IsGranted ∨
    (∀ degree, Verbosity.ofValue? call.verbosity ≠ some degree) ∨ call.IsUnopened := by
  by_cases hnamed : ∃ degree, Verbosity.ofValue? call.verbosity = some degree
  · cases hopen : call.logFile.path.bind (openFile call.host) with
    | ok opened => exact .inl ⟨hnamed, fun _ => ⟨opened, hopen⟩⟩
    | error failure =>
      cases htruthy : call.logFile.isTruthy with
      | false => exact .inl ⟨hnamed, fun h => absurd (htruthy.symm.trans h) Bool.false_ne_true⟩
      | true => exact .inr (.inr ⟨hnamed, htruthy, failure, hopen⟩)
  · exact .inr (.inl fun degree hdegree => hnamed ⟨degree, hdegree⟩)

/-- A call that is not granted fails. -/
theorem exists_failure_of_not_isGranted (h : ¬call.IsGranted) (logging : Logging) :
    ∃ failure, call.outcome logging = .error failure := by
  rcases call.isGranted_or with hgranted | hunnamed | hunopened
  · exact absurd hgranted h
  · exact (leaves_of_unnamed hunnamed logging).2
  · exact (leaves_of_isUnopened hunopened logging).2

/-- A call returns exactly if it is granted. -/
theorem outcome_eq_ok_iff (logging : Logging) : call.outcome logging = .ok () ↔ call.IsGranted := by
  constructor
  · intro hreturns
    by_contra hgranted
    obtain ⟨failure, hfailure⟩ := exists_failure_of_not_isGranted hgranted logging
    exact absurd (hreturns.symm.trans hfailure) (by simp)
  · intro hgranted
    exact (installed_of_isGranted hgranted logging).1

/-- A call that cannot open its log file is not granted. -/
theorem IsUnopened.not_isGranted (h : call.IsUnopened) : ¬call.IsGranted := by
  obtain ⟨_, htruthy, failure, hfailure⟩ := h
  intro hgranted
  obtain ⟨opened, hopen⟩ := hgranted.2 htruthy
  exact absurd (hfailure.symm.trans hopen) (by simp)

/-- A log that is as a call asks for has a handler of the library. -/
theorem Installed.ownedHandlers_ne_nil {logging : Logging} (h : call.Installed logging) :
    logging.ownedHandlers ≠ [] := by
  cases htruthy : call.logFile.isTruthy with
  | false => simp [h.console htruthy]
  | true =>
    obtain ⟨path, _, howned⟩ := h.logFile htruthy
    simp [howned]

/-- Handlers of the host alone are all there are if the library has none. -/
theorem foreignHandlers_eq_self_iff {logging : Logging} :
    ({ logging with handlers := logging.foreignHandlers } : Logging) = logging ↔
      logging.ownedHandlers = [] := by
  rw [ownedHandlers, List.filter_eq_nil_iff]
  constructor
  · intro h handler hmem
    have hall : logging.handlers.filter (fun handler => !handler.isOwned) = logging.handlers :=
      congrArg handlers h
    simpa using List.filter_eq_self.1 hall handler hmem
  · intro h
    have hall : logging.foreignHandlers = logging.handlers :=
      List.filter_eq_self.2 fun handler hmem => by simpa using h handler hmem
    rw [hall]

/-- A call keeps its promise, unless it cannot open its log file and takes handlers away. -/
theorem keepsPromise_iff (logging : Logging) :
    call.KeepsPromise logging ↔ (call.IsUnopened → logging.ownedHandlers = []) := by
  constructor
  · intro h hunopened
    obtain ⟨hleaves, failure, hfailure⟩ := leaves_of_isUnopened hunopened logging
    exact foreignHandlers_eq_self_iff.1 (hleaves.symm.trans (h.failed failure hfailure))
  · intro h
    have hhost : (call.leaves logging).foreignHandlers = logging.foreignHandlers :=
      foreignHandlers_setUp logging call.host call.verbosity call.logFile
    refine ⟨hhost, fun hreturns => ?_, fun failure hfailure => ?_⟩
    · exact (installed_of_isGranted ((outcome_eq_ok_iff logging).1 hreturns) logging).2
    · rcases call.isGranted_or with hgranted | hunnamed | hunopened
      · have hreturns := (outcome_eq_ok_iff logging).2 hgranted
        exact absurd (hreturns.symm.trans hfailure) (by simp)
      · exact (leaves_of_unnamed hunnamed logging).1
      · exact (leaves_of_isUnopened hunopened logging).1.trans
          (foreignHandlers_eq_self_iff.2 (h hunopened))

end Call

/-! ## Histories -/

/-- What happens to a log: it is set up, or the host adds a handler of its own. -/
inductive Event
  | setUp (call : Call)
  | attach (mark : Nat)

/-- The log after an event. -/
def next (logging : Logging) : Event → Logging
  | .setUp call => call.leaves logging
  | .attach mark => logging.attach mark

/-- The log after a history that begins without handlers. -/
def afterAll (rank : Nat) (events : List Event) : Logging := events.foldl next ⟨rank, []⟩

/-- The handlers that the host adds, as often as it does. -/
def attached (events : List Event) : List Nat :=
  events.filterMap fun
    | .attach mark => some mark
    | .setUp _ => none

theorem afterAll_concat (rank : Nat) (events : List Event) (event : Event) :
    afterAll rank (events ++ [event]) = (afterAll rank events).next event := by
  rw [afterAll, List.foldl_append]
  rfl

/-- Adding a handler of the host adds it to those of the host, and to no others. -/
theorem foreignHandlers_attach (logging : Logging) (mark : Nat) :
    (logging.attach mark).foreignHandlers =
        (if .foreign mark ∈ logging.foreignHandlers then logging.foreignHandlers
          else logging.foreignHandlers ++ [.foreign mark]) ∧
      (logging.attach mark).ownedHandlers = logging.ownedHandlers := by
  have hmem : Handler.foreign mark ∈ logging.foreignHandlers ↔
      .foreign mark ∈ logging.handlers := by
    rw [foreignHandlers, List.mem_filter]
    exact and_iff_left rfl
  rw [attach]
  by_cases h : Handler.foreign mark ∈ logging.handlers
  · rw [if_pos h, if_pos (hmem.2 h)]
    exact ⟨rfl, rfl⟩
  · rw [if_neg h, if_neg (mt hmem.1 h), foreignHandlers, ownedHandlers, List.filter_append,
      List.filter_append]
    exact ⟨rfl, List.append_nil _⟩

/-- The handlers of the host are those that it added, in the order in which it added them first. -/
theorem foreignHandlers_afterAll (rank : Nat) (events : List Event) :
    (afterAll rank events).foreignHandlers = (attached events).eraseDups.map .foreign := by
  induction events using List.reverseRecOn with
  | nil => rfl
  | append_singleton events event ih =>
    rw [afterAll_concat, attached, List.filterMap_append]
    cases event with
    | setUp call =>
      rw [next, Call.leaves, foreignHandlers_setUp, ih, attached]
      simp
    | attach mark =>
      have hmem : Handler.foreign mark ∈ (afterAll rank events).foreignHandlers ↔
          mark ∈ attached events := by
        rw [ih]
        simp
      rw [next, (foreignHandlers_attach _ mark).1]
      by_cases h : mark ∈ attached events
      · rw [if_pos (hmem.2 h), ih]
        exact congrArg _ (eraseDups_concat_of_mem h).symm
      · rw [if_neg (mt hmem.1 h), ih]
        exact (List.map_append.symm.trans (congrArg _ (eraseDups_concat_of_not_mem h).symm))

/-- Handlers of the library come from a call that was granted. -/
theorem exists_isGranted_of_ownedHandlers {rank : Nat} {events : List Event}
    (h : (afterAll rank events).ownedHandlers ≠ []) :
    ∃ call, .setUp call ∈ events ∧ call.IsGranted := by
  induction events using List.reverseRecOn with
  | nil => exact absurd rfl h
  | append_singleton events event ih =>
    rw [afterAll_concat] at h
    have hearlier : (afterAll rank events).ownedHandlers ≠ [] →
        ∃ call, .setUp call ∈ events ++ [event] ∧ call.IsGranted := by
      intro hevents
      obtain ⟨call, hmem, hgranted⟩ := ih hevents
      exact ⟨call, List.mem_append_left _ hmem, hgranted⟩
    cases event with
    | attach mark => exact hearlier ((foreignHandlers_attach _ mark).2 ▸ h)
    | setUp call =>
      rcases call.isGranted_or with hgranted | hunnamed | hunopened
      · exact ⟨call, by simp, hgranted⟩
      · rw [next, (Call.leaves_of_unnamed hunnamed _).1] at h
        exact hearlier h
      · refine absurd ?_ h
        rw [next, (Call.leaves_of_isUnopened hunopened _).1, ownedHandlers, foreignHandlers,
          List.filter_filter]
        simp

/-- The promise is kept by every call of a history. -/
def KeepsPromises (rank : Nat) (events : List Event) : Prop :=
  ∀ before call after, events = before ++ .setUp call :: after →
    call.KeepsPromise (afterAll rank before)

/-- Where the promise is kept, handlers of the library stay after a call that was granted. -/
theorem KeepsPromises.ownedHandlers_ne_nil {rank : Nat} {events : List Event}
    (h : KeepsPromises rank events) {call : Call} (hmem : .setUp call ∈ events)
    (hgranted : call.IsGranted) : (afterAll rank events).ownedHandlers ≠ [] := by
  induction events using List.reverseRecOn with
  | nil => contradiction
  | append_singleton events event ih =>
    have hevents : KeepsPromises rank events := by
      rintro before other after rfl
      exact h before other (after ++ [event]) (by simp)
    rw [afterAll_concat]
    cases event with
    | attach mark =>
      rw [next, (foreignHandlers_attach _ mark).2]
      exact ih hevents (by simpa using hmem)
    | setUp last =>
      by_cases hlast : last.IsGranted
      · exact (Call.installed_of_isGranted hlast _).2.ownedHandlers_ne_nil
      · have hearlier : .setUp call ∈ events := by
          rcases List.mem_append.1 hmem with hmem | hmem
          · exact hmem
          · obtain rfl := Event.setUp.inj (List.mem_singleton.1 hmem)
            exact absurd hgranted hlast
        obtain ⟨failure, hfailure⟩ :=
          Call.exists_failure_of_not_isGranted hlast (afterAll rank events)
        rw [next, (h events last [] rfl).failed failure hfailure]
        exact ih hevents hearlier

/-- A history keeps the promise if and only if no call that cannot open its log file comes after one
that was granted. -/
theorem keepsPromises_iff_forall (rank : Nat) (events : List Event) :
    KeepsPromises rank events ↔ ∀ before call after, events = before ++ .setUp call :: after →
      call.IsUnopened → ∀ earlier, .setUp earlier ∈ before → ¬earlier.IsGranted := by
  constructor
  · rintro h before call after rfl hunopened earlier hmem hgranted
    have hbefore : KeepsPromises rank before := by
      rintro first other rest rfl
      exact h first other (rest ++ .setUp call :: after) (by simp)
    apply hbefore.ownedHandlers_ne_nil hmem hgranted
    exact (Call.keepsPromise_iff _).1 (h before call after rfl) hunopened
  · intro h before call after hevents
    rw [Call.keepsPromise_iff]
    intro hunopened
    by_contra howned
    obtain ⟨earlier, hmem, hgranted⟩ := exists_isGranted_of_ownedHandlers howned
    exact h before call after hevents hunopened earlier hmem hgranted

/-- After any history the handlers of the host are those that it added, in the order in which it
added them first, and a call that comes next keeps them. It returns exactly if it names a verbosity
and no log file or one that can be opened, and then the log is as it asks for. If it fails, the rank
stays; if no verbosity is named, so do all handlers, and if the log file cannot be opened, only
those of the host do. So every call of a history keeps the promise if and only if none that cannot
open its log file comes after one that returned. -/
theorem keepsPromises_iff (rank : Nat) (events : List Event) :
    (afterAll rank events).foreignHandlers = (attached events).eraseDups.map .foreign ∧
    (∀ call : Call,
      (call.leaves (afterAll rank events)).foreignHandlers =
        (afterAll rank events).foreignHandlers ∧
      (call.outcome (afterAll rank events) = .ok () ↔ call.IsGranted) ∧
      (call.IsGranted → call.Installed (call.leaves (afterAll rank events))) ∧
      (¬call.IsGranted → ¬call.IsUnopened →
        call.leaves (afterAll rank events) = afterAll rank events) ∧
      (call.IsUnopened → ¬call.IsGranted ∧ call.leaves (afterAll rank events) =
        ⟨(afterAll rank events).rank, (afterAll rank events).foreignHandlers⟩)) ∧
    (KeepsPromises rank events ↔ ∀ before call after, events = before ++ .setUp call :: after →
      call.IsUnopened → ∀ earlier, .setUp earlier ∈ before → ¬earlier.IsGranted) := by
  refine ⟨foreignHandlers_afterAll rank events, ?_, keepsPromises_iff_forall rank events⟩
  intro call
  -- What a call does is the same for every log, whatever history led to it.
  generalize afterAll rank events = logging
  have hhost : (call.leaves logging).foreignHandlers = logging.foreignHandlers :=
    foreignHandlers_setUp logging call.host call.verbosity call.logFile
  have hunnamed : ¬call.IsGranted → ¬call.IsUnopened → call.leaves logging = logging := by
    intro hgranted hunopened
    rcases call.isGranted_or with h | h | h
    · exact absurd h hgranted
    · exact (Call.leaves_of_unnamed h logging).1
    · exact absurd h hunopened
  exact ⟨hhost, Call.outcome_eq_ok_iff logging,
    fun h => (Call.installed_of_isGranted h logging).2, hunnamed,
    fun h => ⟨h.not_isGranted, (Call.leaves_of_isUnopened h logging).1⟩⟩

/-- A host without files. -/
def bareHost : Host := ⟨.empty, [], none, [], ""⟩

/-- A call that names a verbosity and no log file, and one whose log file cannot be opened since its
directory is missing. -/
def missingDirectoryCalls : Call × Call :=
  (⟨bareHost, .text "normal", .null⟩, ⟨bareHost, .text "normal", .text "missing/x.log"⟩)

/-- After a set-up that returned, one that cannot open its log file fails and takes away the handler
for the console. -/
theorem not_keepsPromise_missingDirectory :
    let logging := afterAll 0 [.setUp missingDirectoryCalls.1]
    logging = ⟨30, [.console]⟩ ∧
      missingDirectoryCalls.2.outcome logging =
        .error (.system .missing "/missing/x.log") ∧
      missingDirectoryCalls.2.leaves logging = ⟨30, []⟩ ∧
      ¬missingDirectoryCalls.2.KeepsPromise logging := by
  intro logging
  have hstart : logging = ⟨30, [.console]⟩ := by decide +kernel
  have houtcome : missingDirectoryCalls.2.outcome logging =
      .error (.system .missing "/missing/x.log") := by rfl
  have hleaves : missingDirectoryCalls.2.leaves logging = ⟨30, []⟩ := by decide +kernel
  refine ⟨hstart, houtcome, hleaves, fun h => ?_⟩
  have hsame := h.failed _ houtcome
  rw [hleaves, hstart] at hsame
  exact absurd hsame (by decide)

end Logging

end SourceGauge
