import SourceGauge.Proofs.Histogram.SameBounds
import SourceGauge.Proofs.Settings.Masking

/-!
# Precedence of settings

Settings that are loaded have for each field what the first source gives that gives anything, in its
normal form, and the standard value if no source does. Values that another source stands before are
never looked at, so they may be anything: replacing one changes neither the settings nor the
failure.

That a file is there, and that it can be read, is looked at whatever the sources before it give.
-/

namespace SourceGauge

/-- A degree of verbosity is named by its name alone. -/
theorem Verbosity.eq_text_of_ofValue? {value : Value} {verbosity : Verbosity}
    (h : ofValue? value = some verbosity) : value = .text verbosity.name := by
  cases value with
  | text name =>
    have hname := List.find?_some h
    exact congrArg Value.text (beq_iff_eq.1 hname)
  | _ => contradiction

namespace Settings

open Value (lookup)

/-! ## Normal forms -/

/-- A list of texts as it is given: anything but a text that yields these texts. -/
def GivesTexts (given : Option Value) (texts : List Text) : Prop :=
  match given with
  | none => texts = []
  | some value => (∀ text, value ≠ .text text) ∧ value.elements? = some (texts.map .text)

/-- Bounds as they are given: anything that yields these numbers. -/
def GivesBounds (standard : Bounds) (given : Option Value) (bounds : Bounds) : Prop :=
  match given with
  | none => bounds = standard
  | some value => value.elements? = some (bounds.values.map .number)

/-- Limits as they are given: a table with bounds, or null for the standard ones. -/
def GivesLimits (given : Option Value) (limits : Limits) : Prop :=
  match given with
  | none => limits = .standard
  | some .null => limits = .standard
  | some (.table table) =>
    GivesBounds Limits.standardFunctions (lookup Limits.functionsField table) limits.functions ∧
      GivesBounds Limits.standardFiles (lookup Limits.filesField table) limits.files
  | some _ => False

/-- A value that may be null. -/
def GivesOptional {α : Type} (form : α → Value) (given : Option Value) (field : Option α) : Prop :=
  match given with
  | none => field = none
  | some .null => field = none
  | some value => ∃ found, field = some found ∧ value = form found

/-- A value that has a standard. -/
def GivesOrStandard {α : Type} (form : α → Value) (standard : α) (given : Option Value)
    (field : α) : Prop :=
  match given with
  | none => field = standard
  | some value => value = form field

/-- Settings have the normal form of what is given for each field, and of the limits that a caller
has read before. -/
structure Follows (settings : Settings) (given : Text → Option Value) (limits : Option Limits) :
    Prop where
  defines : GivesTexts (given "defines") settings.defines
  includeDirectories : GivesTexts (given "include_directories") settings.includeDirectories
  workers : GivesOptional .number (given "workers") settings.workers
  parallelThreshold :
    GivesOrStandard .number (.int 10) (given "parallel_threshold") settings.parallelThreshold
  verbosity :
    GivesOrStandard (fun degree => .text degree.name) .normal (given "verbosity") settings.verbosity
  logFile : GivesOptional .text (given "log_file") settings.logFile
  limits : match limits with
    | some found => settings.limits = found
    | none => GivesLimits (given limitsField) settings.limits

/-! ## Reading fields -/

/-- What a value yields when it is gone through. -/
theorem elements?_of_elements {value : Value} {items : List Value} (h : value.elements = .ok items) :
    value.elements? = some items := by
  unfold Value.elements at h
  split at h
  · rename_i hfound
    rw [hfound, Except.ok.inj h]
  · contradiction

theorem givesTexts_of_readTexts {name : String} {entries : Entries} {texts : List Text}
    (h : readTexts name entries = .ok texts) : GivesTexts (lookup name entries) texts := by
  unfold readTexts at h
  split at h
  · rename_i hnone
    rw [hnone]
    exact (Except.ok.inj h).symm
  · contradiction
  · rename_i value hnotText hvalue
    rw [hvalue]
    obtain ⟨items, hitems, htexts⟩ := bind_eq_ok_iff.1 h
    refine ⟨fun text htext => hnotText text htext, ?_⟩
    rw [elements?_of_elements hitems]
    refine congrArg some (eq_map_of_mapOk htexts fun item text htext => ?_)
    cases item <;> simp_all [textOf]

/-- A number that is at least one is the value that was given. -/
theorem eq_number_of_atLeastOne {name : String} {value : Value} {n : Number}
    (h : atLeastOne name value = .ok n) : value = .number n := by
  unfold atLeastOne at h
  split at h
  · contradiction
  · rename_i found hfound
    split at h
    · contradiction
    · rw [← Except.ok.inj h]
      cases value <;> simp_all [Value.number?]

theorem givesOptional_of_readWorkers {entries : Entries} {workers : Option Number}
    (h : readWorkers entries = .ok workers) :
    GivesOptional .number (lookup ("workers" : String) entries) workers := by
  unfold readWorkers Value.field? at h
  cases hgiven : lookup ("workers" : String) entries with
  | none =>
    rw [hgiven] at h
    exact (Except.ok.inj h).symm
  | some value =>
    rw [hgiven] at h
    cases value with
    | null => exact (Except.ok.inj h).symm
    | _ =>
      obtain ⟨found, hfound, rfl⟩ := map_eq_ok_iff.1 h
      exact ⟨found, rfl, eq_number_of_atLeastOne hfound⟩

theorem givesOrStandard_of_readThreshold {entries : Entries} {threshold : Number}
    (h : readThreshold entries = .ok threshold) :
    GivesOrStandard .number (.int 10) (lookup ("parallel_threshold" : String) entries)
      threshold := by
  unfold readThreshold at h
  split at h
  · rename_i hnone
    rw [hnone]
    exact (Except.ok.inj h).symm
  · rename_i value hvalue
    rw [hvalue]
    exact eq_number_of_atLeastOne h

theorem givesOrStandard_of_readVerbosity {entries : Entries} {verbosity : Verbosity}
    (h : readVerbosity entries = .ok verbosity) :
    GivesOrStandard (fun degree => .text degree.name) .normal
      (lookup ("verbosity" : String) entries) verbosity := by
  unfold readVerbosity at h
  split at h
  · rename_i hnone
    rw [hnone]
    exact (Except.ok.inj h).symm
  · rename_i value hvalue
    rw [hvalue]
    split at h
    · rename_i found hfound
      rw [← Except.ok.inj h]
      exact Verbosity.eq_text_of_ofValue? hfound
    · contradiction

theorem givesOptional_of_readLogFile {entries : Entries} {logFile : Option Text}
    (h : readLogFile entries = .ok logFile) :
    GivesOptional .text (lookup ("log_file" : String) entries) logFile := by
  unfold readLogFile Value.field? at h
  cases hgiven : lookup ("log_file" : String) entries with
  | none =>
    rw [hgiven] at h
    exact (Except.ok.inj h).symm
  | some value =>
    rw [hgiven] at h
    cases value with
    | null => exact (Except.ok.inj h).symm
    | text path => exact ⟨path, (Except.ok.inj h).symm, rfl⟩
    | _ => contradiction

/-! ## Reading limits -/

/-- A value whose shape is right is left as the list of what it yields. -/
theorem eq_of_checkShape {whole : Entries} {entry shaped : Text × Value}
    (h : checkShape whole entry = .ok shaped) :
    ∃ items, entry.2.elements? = some items ∧ shaped = (entry.1, .list items) := by
  unfold checkShape at h
  split at h
  · rename_i items hitems
    exact ⟨items, hitems, (Except.ok.inj h).symm⟩
  · contradiction

/-- Once the shape of a table was checked, a name has what its value yields, or is not there. -/
theorem lookup_checkShape {whole table entries : Entries}
    (h : mapOk (checkShape whole) table = .ok entries) (name : Text) :
    (lookup name table = none ∧ lookup name entries = none) ∨
      ∃ value items, lookup name table = some value ∧ value.elements? = some items ∧
        lookup name entries = some (.list items) := by
  have hshapes := mapOk_eq_ok_iff.1 h
  clear h
  induction table generalizing entries with
  | nil =>
    cases entries with
    | nil => exact .inl ⟨rfl, rfl⟩
    | cons shaped rest => simp at hshapes
  | cons entry rest ih =>
    cases entries with
    | nil => simp at hshapes
    | cons shaped others =>
      rw [List.map_cons, List.map_cons, List.cons.injEq] at hshapes
      obtain ⟨items, hitems, rfl⟩ := eq_of_checkShape hshapes.1
      obtain ⟨other, value⟩ := entry
      by_cases hname : other = name
      · subst hname
        exact .inr ⟨value, items, lookup_cons_self .., hitems, lookup_cons_self ..⟩
      · rw [lookup_cons_of_ne hname, lookup_cons_of_ne hname]
        exact ih hshapes.2

/-- Bounds that are found once the shape of a table was checked are given by the table. -/
theorem givesBounds_of_checkShape {whole table entries : Entries} {standard bounds : Bounds}
    {name : Text} (h : mapOk (checkShape whole) table = .ok entries)
    (hbounds : GivesBounds standard (lookup name entries) bounds) :
    GivesBounds standard (lookup name table) bounds := by
  rcases lookup_checkShape h name with ⟨htable, hentries⟩ | ⟨value, items, htable, hitems, hentries⟩
  · rw [hentries] at hbounds
    rw [htable]
    exact hbounds
  · rw [hentries] at hbounds
    rw [htable]
    exact hitems.trans hbounds

/-- Bounds that are read are those that were given. -/
theorem elements?_of_ofValue {value : Value} {bounds : Bounds}
    (h : Bounds.ofValue value = .ok bounds) :
    value.elements? = some (bounds.values.map .number) := by
  obtain ⟨items, hitems, hbounds⟩ := bind_eq_ok_iff.1 h
  rw [elements?_of_elements hitems]
  exact congrArg some (eq_map_of_mapOk (Bounds.mapOk_of_ofList hbounds) fun _ _ haccepted =>
    Bounds.eq_number_of_toBound haccepted)

theorem givesBounds_of_readField {name : String} {standard bounds : Bounds} {entries : Entries}
    (h : Limits.readField name standard entries = .ok bounds) :
    GivesBounds standard (lookup name entries) bounds := by
  unfold Limits.readField at h
  split at h
  · rename_i hnone
    rw [hnone]
    exact (Except.ok.inj h).symm
  · rename_i value hvalue
    rw [hvalue]
    split at h
    · rename_i found hfound
      rw [← Except.ok.inj h]
      exact elements?_of_ofValue hfound
    · contradiction
    · contradiction

/-- Limits that are read from a value are given by it. -/
theorem givesLimits_of_limitsOf {value : Value} {limits : Limits} (h : limitsOf value = .ok limits)
    (hvalue : value ≠ .null) : GivesLimits (some value) limits := by
  unfold limitsOf at h
  split at h
  · rename_i table
    obtain ⟨entries, hentries, h⟩ := bind_eq_ok_iff.1 h
    have hread : Limits.ofEntries entries = .ok limits := by
      split at h
      · contradiction
      · exact h
    obtain ⟨_, _, h⟩ := bind_eq_ok_iff.1 hread
    obtain ⟨functions, hfunctions, h⟩ := bind_eq_ok_iff.1 h
    obtain ⟨files, hfiles, h⟩ := bind_eq_ok_iff.1 h
    rw [← Except.ok.inj h]
    exact ⟨givesBounds_of_checkShape hentries (givesBounds_of_readField hfunctions),
      givesBounds_of_checkShape hentries (givesBounds_of_readField hfiles)⟩
  · contradiction

/-- Where the caller has not read limits before, they are given by what was merged. -/
theorem givesLimits_of_mergedLimits {entries : Entries} {found : Option Limits}
    (h : mergedLimits entries none = .ok found) :
    GivesLimits (lookup limitsField entries) (found.getD .standard) := by
  unfold mergedLimits Value.field? at h
  cases hgiven : lookup limitsField entries with
  | none =>
    rw [hgiven] at h
    rw [← Except.ok.inj h]
    rfl
  | some value =>
    rw [hgiven] at h
    cases value with
    | null => rw [← Except.ok.inj h]; rfl
    | _ =>
      obtain ⟨limits, hlimits, rfl⟩ := map_eq_ok_iff.1 h
      exact givesLimits_of_limitsOf hlimits nofun

/-! ## Merged entries -/

/-- Settings are made of merged entries as the limits and the other entries are read. -/
theorem ofMerged_eq_ok_iff {entries : Entries} {given : Option Limits} {settings : Settings} :
    ofMerged entries given = .ok settings ↔ ∃ limits, mergedLimits entries given = .ok limits ∧
      ofEntries (without limitsField entries) (limits.getD .standard) = .ok settings := by
  refine bind_eq_ok_iff.trans (exists_congr fun limits => and_congr_right fun _ => ?_)
  dsimp only
  split
  · rename_i hmisfit
    rw [hmisfit]
    exact ⟨nofun, nofun⟩
  · rfl

/-- Settings hold what is read of entries under each of the names. -/
structure Holds (settings : Settings) (entries : Entries) : Prop where
  defines : readTexts "defines" entries = .ok settings.defines
  includeDirectories : readTexts "include_directories" entries = .ok settings.includeDirectories
  workers : readWorkers entries = .ok settings.workers
  parallelThreshold : readThreshold entries = .ok settings.parallelThreshold
  verbosity : readVerbosity entries = .ok settings.verbosity
  logFile : readLogFile entries = .ok settings.logFile

/-- Settings that are made of entries hold what is read of them, and the limits. -/
theorem holds_of_ofEntries {entries : Entries} {limits : Limits} {settings : Settings}
    (h : ofEntries entries limits = .ok settings) :
    settings.Holds entries ∧ settings.limits = limits := by
  obtain ⟨_, _, h⟩ := bind_eq_ok_iff.1 h
  obtain ⟨_, hdefines, h⟩ := bind_eq_ok_iff.1 h
  obtain ⟨_, hdirectories, h⟩ := bind_eq_ok_iff.1 h
  obtain ⟨_, hworkers, h⟩ := bind_eq_ok_iff.1 h
  obtain ⟨_, hthreshold, h⟩ := bind_eq_ok_iff.1 h
  obtain ⟨_, hverbosity, h⟩ := bind_eq_ok_iff.1 h
  obtain ⟨_, hlogFile, h⟩ := bind_eq_ok_iff.1 h
  rw [← Except.ok.inj h]
  exact ⟨⟨hdefines, hdirectories, hworkers, hthreshold, hverbosity, hlogFile⟩, rfl⟩

/-- Settings that are made of merged entries follow them. -/
theorem follows_of_ofMerged {entries : Entries} {given : Option Limits} {settings : Settings}
    (h : ofMerged entries given = .ok settings) :
    settings.Follows (fun name => lookup name entries) given := by
  obtain ⟨limits, hlimits, hread⟩ := ofMerged_eq_ok_iff.1 h
  obtain ⟨hholds, hsame⟩ := holds_of_ofEntries hread
  have hkept : ∀ name : Text, name ≠ limitsField →
      lookup name (without limitsField entries) = lookup name entries := fun name hname =>
    lookup_without_of_ne hname entries
  exact {
    defines := hkept ("defines" : String) (by decide) ▸ givesTexts_of_readTexts hholds.defines
    includeDirectories :=
      hkept ("include_directories" : String) (by decide) ▸
        givesTexts_of_readTexts hholds.includeDirectories
    workers := hkept ("workers" : String) (by decide) ▸ givesOptional_of_readWorkers hholds.workers
    parallelThreshold :=
      hkept ("parallel_threshold" : String) (by decide) ▸
        givesOrStandard_of_readThreshold hholds.parallelThreshold
    verbosity :=
      hkept ("verbosity" : String) (by decide) ▸ givesOrStandard_of_readVerbosity hholds.verbosity
    logFile :=
      hkept ("log_file" : String) (by decide) ▸ givesOptional_of_readLogFile hholds.logFile
    limits := by
      rw [hsame]
      cases given with
      | some found => rw [← Except.ok.inj hlimits]; rfl
      | none => exact givesLimits_of_mergedLimits hlimits }

/-- What settings follow is told by what is given under their names. -/
theorem Follows.congr {settings : Settings} {given other : Text → Option Value}
    {limits : Option Limits} (h : settings.Follows given limits)
    (hsame : ∀ name ∈ fieldNames, given name = other name) : settings.Follows other limits where
  defines := hsame "defines" (by decide) ▸ h.defines
  includeDirectories := hsame "include_directories" (by decide) ▸ h.includeDirectories
  workers := hsame "workers" (by decide) ▸ h.workers
  parallelThreshold := hsame "parallel_threshold" (by decide) ▸ h.parallelThreshold
  verbosity := hsame "verbosity" (by decide) ▸ h.verbosity
  logFile := hsame "log_file" (by decide) ▸ h.logFile
  limits := hsame limitsField (by decide) ▸ h.limits

/-! ## Loaded settings -/

/-- Settings that are loaded follow the sources. -/
theorem follows_of_load {host : Host} {file : Option NamedFile} {overrides : Overrides}
    {settings : Settings} (hnames : (overrides.entries.map Prod.fst).Nodup)
    (h : load host file overrides = .ok settings) : ∃ tables : Tables, tables.Read host file ∧
      settings.Follows (firstGiven (sources host.environment overrides.entries tables))
        overrides.limits := by
  obtain ⟨entries, hentries, hsettings⟩ := bind_eq_ok_iff.1 h
  obtain ⟨tables, htables⟩ := read_of_mergedEntries hentries
  rw [mergedEntries_of_read htables] at hentries
  obtain ⟨environment, henvironment, rfl⟩ := map_eq_ok_iff.1 hentries
  refine ⟨tables, htables, (follows_of_ofMerged hsettings).congr fun name hname => ?_⟩
  obtain ⟨hquiet, hverbose⟩ := ne_flag_of_mem_fieldNames name hname
  exact lookup_merged_eq_firstGiven htables henvironment hnames hquiet hverbose

/-- A variable for the bucket limits is not looked at. -/
theorem ofVariables_limitsVariable (text : Text) (environment : List (Text × Text)) :
    ofVariables (((variableName limitsField : Text), text) :: environment) =
      ofVariables environment := by
  have hentry : ∀ form ∈ variableForms,
      variableEntry (((variableName limitsField : Text), text) :: environment) form =
        variableEntry environment form := by
    intro form hform
    have hother : ((variableName form.1 : Text) == (variableName limitsField : Text)) = false := by
      revert form
      decide +kernel
    rw [variableEntry, variableEntry, List.lookup_cons, hother]
  rw [ofVariables, ofVariables, mapOk_congr hentry]

/-- The environment cannot give bucket limits: setting a variable for them changes nothing. -/
theorem load_limitsVariable (host : Host) (file : Option NamedFile) (overrides : Overrides)
    (text : Text) :
    load { host with environment := (variableName limitsField, text) :: host.environment } file
      overrides = load host file overrides := by
  rw [load, load, mergedEntries, mergedEntries, ofVariables_limitsVariable]
  rfl

/-- Settings have what the first source gives that gives anything, whatever the sources after it
give: the caller, the environment, the named file, that of the project, that of the home directory,
the standard. The caller's flags stand for a verbosity before that, null for the standard limits,
and the environment has no limits to give. -/
theorem load_precedence (host : Host) (file : Option NamedFile) (overrides : Overrides)
    (hnames : (overrides.entries.map Prod.fst).Nodup) :
    (∀ settings, load host file overrides = .ok settings →
      (∃ tables : Tables, tables.Read host file ∧
        settings.Follows (firstGiven (sources host.environment overrides.entries tables))
          overrides.limits) ∧
      (overrides.limits = none → lookup limitsField overrides.entries = some .null →
        settings.limits = .standard)) ∧
    (∀ text, load { host with environment := (variableName limitsField, text) :: host.environment }
      file overrides = load host file overrides) ∧
    ∀ (tables : Tables) (other : Host) (rank : FileRank) (name : String) (value : Value),
      name ∈ fieldNames → tables.Read host file →
      (tables.replace rank name value).Read other file → other.environment = host.environment →
      IsMasked host.environment overrides tables rank name →
      load other file overrides = load host file overrides := by
  refine ⟨fun settings h => ?_, fun text => ?_, ?_⟩
  · obtain ⟨tables, htables, hfollows⟩ := follows_of_load hnames h
    refine ⟨⟨tables, htables, hfollows⟩, fun hlimits hnull => ?_⟩
    have hgiven : firstGiven (sources host.environment overrides.entries tables) limitsField =
        some .null := by
      rw [firstGiven, sources, List.findSome?_cons, callerGives_of_ne (by decide), hnull]
    have hstandard := hfollows.limits
    rw [hlimits, hgiven] at hstandard
    exact hstandard
  · exact load_limitsVariable host file overrides text
  · intro tables other rank name value hname htables hother hsame hmasked
    exact load_replace hnames hname htables hother hsame hmasked

/-- A host whose environment gives a number of workers, and whose project has a settings file that
gives it as well: the octets of an assignment up to the value, and these. -/
def sampleHost (given : List UInt8) : Host where
  tree := FileTree.empty.writeFile [Text.ofString "codemeasure.toml"]
    ([119, 111, 114, 107, 101, 114, 115, 61] ++ given)
  workingDirectory := []
  home := some (Host.pathOf [Text.ofString "home"])
  environment := [(("CODEMEASURE_WORKERS" : String), ("3" : String))]
  time := ""

/-- The tables of such a host. -/
def sampleTables (workers : Value) : Tables where
  global := []
  project := [(("workers" : String), workers)]
  named := []

/-- A caller that sets a flag beside a verbosity that there is not. -/
def sampleOverrides : Overrides where
  entries := [(("quiet" : String), .number (.flag true)), (verbosityField, .text ("loud" : String))]
  limits := none

/-- The flag gives the verbosity and the environment the workers, so that the settings file may give
no number or an empty list. -/
theorem load_precedence_sample :
    (∃ settings tables, load (sampleHost [48]) none sampleOverrides = .ok settings ∧
      settings.workers = some (.int 3) ∧ settings.verbosity = .quiet ∧
      tables.Read (sampleHost [48]) none ∧ settings.Follows
        (firstGiven (sources (sampleHost [48]).environment sampleOverrides.entries tables)) none) ∧
    load (sampleHost [91, 93]) none sampleOverrides =
      load (sampleHost [48]) none sampleOverrides := by
  obtain ⟨hloaded, -, hmasked⟩ :=
    load_precedence (sampleHost [48]) none sampleOverrides (by decide)
  have hfields : ((load (sampleHost [48]) none sampleOverrides).toOption.map fun settings =>
      (settings.workers, settings.verbosity)) = some (some (.int 3), .quiet) := by
    decide +kernel
  refine ⟨?_, hmasked (sampleTables (.number (.int 0))) _ .project "workers" (.list []) (by decide)
    ⟨rfl, rfl, rfl⟩ ⟨rfl, rfl, rfl⟩ rfl (.inr rfl)⟩
  cases hload : load (sampleHost [48]) none sampleOverrides with
  | error failure =>
    rw [hload] at hfields
    contradiction
  | ok settings =>
    rw [hload] at hfields
    obtain ⟨hworkers, hverbosity⟩ := Prod.mk.inj (Option.some.inj hfields)
    obtain ⟨⟨tables, htables, hfollows⟩, -⟩ := hloaded settings hload
    exact ⟨settings, tables, rfl, hworkers, hverbosity, htables, hfollows⟩

end Settings

end SourceGauge
