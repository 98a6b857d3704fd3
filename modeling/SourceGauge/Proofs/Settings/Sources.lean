import SourceGauge.Proofs.Settings.Documents
import SourceGauge.Proofs.Settings.Overlay

/-!
# Sources of settings

Five sources give settings: the caller, the environment, and the tables of three settings files. What
each of them gives under a name is told here without merging anything, and merging comes down to it:
under every name stands what the first source gives that gives anything, the caller's flags having
been replaced before. The tables of files have different names, as documents do.

A source may fail, and then nothing is merged.
-/

namespace SourceGauge.Settings

open Value (lookup)

/-- The tables of the settings files; one that is not there counts as empty. -/
structure Tables where
  global : Entries
  project : Entries
  named : Entries

/-- The settings files of a host are read as these tables. -/
structure Tables.Read (tables : Tables) (host : Host) (file : Option NamedFile) : Prop where
  global : (globalPath host).bind (readOptional host) = .ok tables.global
  project : readOptional host (projectPath host) = .ok tables.project
  named : readExplicit host file = .ok tables.named

/-- Whether a caller sets a flag. -/
def isFlagged (caller : Entries) (flag : Text) : Bool := (lookup flag caller).any Value.isTruthy

/-- The value that a caller gives, flags standing for verbosities. -/
def callerGives (caller : Entries) (name : Text) : Option Value :=
  if name = verbosityField ∧ isFlagged caller "quiet" then
    some (.text Verbosity.quiet.name)
  else if name = verbosityField ∧ isFlagged caller "verbose" then
    some (.text Verbosity.verbose.name)
  else lookup name caller

/-- What the variable of a setting gives, if it is set. -/
def formGives (environment : List (Text × Text)) (form : String × VariableForm) : Option Value :=
  (environment.lookup (variableName form.1 : Text)).bind fun text =>
    (readVariable form.2 text).toOption

/-- The value that the environment gives: that of the variable of a setting which can be given so. -/
def variableGives (environment : List (Text × Text)) (name : Text) : Option Value :=
  (variableForms.find? fun form => decide ((form.1 : Text) = name)).bind fun form =>
    formGives environment form

/-- The sources of settings, the one with the highest priority first. -/
def sources (environment : List (Text × Text)) (caller : Entries) (tables : Tables) :
    List (Text → Option Value) :=
  [callerGives caller, variableGives environment, fun name => lookup name tables.named,
    fun name => lookup name tables.project, fun name => lookup name tables.global]

/-- The value that the first of some sources gives. -/
def firstGiven (sources : List (Text → Option Value)) (name : Text) : Option Value :=
  sources.findSome? fun source => source name

/-! ## Files -/

/-- A settings file that is read has different names. -/
theorem nodup_of_readFile {host : Host} {path : Path} {entries : Entries}
    (h : readFile host path = .ok entries) : (entries.map Prod.fst).Nodup := by
  unfold readFile at h
  split at h
  · contradiction
  · contradiction
  · split at h
    · rename_i hread
      exact Except.ok.inj h ▸ Toml.distinct_of_read hread
    all_goals contradiction

/-- A settings file that need not exist has different names. -/
theorem nodup_of_readOptional {host : Host} {path : Path} {entries : Entries}
    (h : readOptional host path = .ok entries) : (entries.map Prod.fst).Nodup := by
  obtain ⟨found, _, h⟩ := bind_eq_ok_iff.1 h
  split at h
  · exact nodup_of_readFile h
  · exact Except.ok.inj h ▸ List.nodup_nil

/-- A settings file that is named explicitly has different names. -/
theorem nodup_of_readExplicit {host : Host} {file : Option NamedFile} {entries : Entries}
    (h : readExplicit host file = .ok entries) : (entries.map Prod.fst).Nodup := by
  unfold readExplicit at h
  split at h
  · exact Except.ok.inj h ▸ List.nodup_nil
  · contradiction
  · obtain ⟨found, _, h⟩ := bind_eq_ok_iff.1 h
    split at h
    · exact nodup_of_readFile h
    · contradiction

/-! ## The environment -/

/-- A variable gives its setting what its text is read as. -/
theorem eq_of_variableEntry {environment : List (Text × Text)} {form : String × VariableForm}
    {entry : Option (Text × Value)} (h : variableEntry environment form = .ok entry) :
    entry = (formGives environment form).map fun value => ((form.1 : Text), value) := by
  unfold variableEntry at h
  dsimp only at h
  rw [formGives]
  split at h
  · rename_i hnone
    rw [hnone, ← Except.ok.inj h]
    rfl
  · rename_i text htext
    rw [htext]
    split at h
    · rename_i hvalue
      rw [← Except.ok.inj h, Option.bind_some, hvalue]
      rfl
    · contradiction

/-- The environment gives the entries of the settings whose variables are set. -/
theorem eq_entriesOf_of_ofVariables {environment : List (Text × Text)} {entries : Entries}
    (h : ofVariables environment = .ok entries) :
    entries = entriesOf (fun form => (form.1 : Text)) (formGives environment) variableForms := by
  obtain ⟨found, hfound, rfl⟩ := map_eq_ok_iff.1 h
  have hforms : mapOk (variableEntry environment) variableForms =
      .ok (variableForms.map fun form =>
        (formGives environment form).map fun value => ((form.1 : Text), value)) := by
    rw [mapOk_eq_ok_iff, List.map_map]
    refine List.map_congr_left fun form hform => ?_
    obtain ⟨entry, _, hentry⟩ := exists_result_of_mapOk hfound hform
    rw [hentry, eq_of_variableEntry hentry]
    rfl
  rw [hfound] at hforms
  rw [Except.ok.inj hforms, List.filterMap_map]
  rfl

/-- The settings that variables can give have different names. -/
theorem nodup_variableForms : (variableForms.map fun form => (form.1 : Text)).Nodup := by
  decide +kernel

/-- What the environment gives under a name. -/
theorem lookup_ofVariables {environment : List (Text × Text)} {entries : Entries}
    (h : ofVariables environment = .ok entries) (name : Text) :
    lookup name entries = variableGives environment name := by
  rw [eq_entriesOf_of_ofVariables h]
  exact lookup_entriesOf _ _ nodup_variableForms name

/-- The environment gives different names. -/
theorem nodup_ofVariables {environment : List (Text × Text)} {entries : Entries}
    (h : ofVariables environment = .ok entries) : (entries.map Prod.fst).Nodup := by
  rw [eq_entriesOf_of_ofVariables h]
  exact (sublist_keys_entriesOf _ _ variableForms).nodup nodup_variableForms

/-! ## Flags -/

/-- What stands under a name after a flag was replaced. -/
theorem lookup_applyFlag {flag name : Text} (verbosity : Verbosity) (entries : Entries)
    (hname : name ≠ flag) : lookup name (applyFlag flag verbosity entries) =
      if name = verbosityField ∧ isFlagged entries flag then some (.text verbosity.name)
      else lookup name entries := by
  rw [isFlagged, applyFlag]
  cases hflag : lookup flag entries with
  | none => simp
  | some value =>
    dsimp only
    rw [lookup_without_of_ne hname]
    cases htruthy : value.isTruthy with
    | false => simp [htruthy]
    | true =>
      rw [if_pos rfl]
      by_cases hverbosity : name = verbosityField
      · subst hverbosity
        rw [lookup_putEntry_self]
        simp [htruthy]
      · rw [lookup_putEntry_of_ne hverbosity]
        simp [hverbosity]

theorem nodup_applyFlag {entries : Entries} (h : (entries.map Prod.fst).Nodup) (flag : Text)
    (verbosity : Verbosity) : ((applyFlag flag verbosity entries).map Prod.fst).Nodup := by
  unfold applyFlag
  split
  · exact h
  · dsimp only
    split
    · exact nodup_without (nodup_putEntry _ _ h) flag
    · exact nodup_without h flag

theorem nodup_applyFlags {entries : Entries} (h : (entries.map Prod.fst).Nodup) :
    ((applyFlags entries).map Prod.fst).Nodup :=
  nodup_applyFlag (nodup_applyFlag h _ _) _ _

/-- What a caller gives under a name other than those of the flags. -/
theorem lookup_applyFlags {name : Text} (caller : Entries) (hquiet : name ≠ ("quiet" : String))
    (hverbose : name ≠ ("verbose" : String)) :
    lookup name (applyFlags caller) = callerGives caller name := by
  have hflag : isFlagged (applyFlag ("verbose" : String) .verbose caller) ("quiet" : String) =
      isFlagged caller ("quiet" : String) := by
    rw [isFlagged, lookup_applyFlag _ _ (by decide), if_neg fun h => absurd h.1 (by decide), isFlagged]
  rw [applyFlags, lookup_applyFlag _ _ hquiet, lookup_applyFlag _ _ hverbose, hflag, callerGives]

/-- Flags stand for no setting but the verbosity. -/
theorem callerGives_of_ne {name : Text} (h : name ≠ verbosityField) (caller : Entries) :
    callerGives caller name = lookup name caller := by
  rw [callerGives, if_neg fun hflag => h hflag.1, if_neg fun hflag => h hflag.1]

/-- No flag has the name of a setting. -/
theorem ne_flag_of_mem_fieldNames : ∀ name ∈ fieldNames,
    (name : Text) ≠ ("quiet" : String) ∧ (name : Text) ≠ ("verbose" : String) := by
  decide +kernel

/-! ## Merging -/

/-- The tables of settings files have different names. -/
theorem Tables.Read.nodup {tables : Tables} {host : Host} {file : Option NamedFile}
    (h : tables.Read host file) : (tables.global.map Prod.fst).Nodup ∧
      (tables.project.map Prod.fst).Nodup ∧ (tables.named.map Prod.fst).Nodup := by
  obtain ⟨path, _, hglobal⟩ := bind_eq_ok_iff.1 h.global
  exact ⟨nodup_of_readOptional hglobal, nodup_of_readOptional h.project,
    nodup_of_readExplicit h.named⟩

/-- The entries of all sources, each put over those before it. -/
def merged (tables : Tables) (environment caller : Entries) : Entries :=
  [tables.project, tables.named, environment, applyFlags caller].foldl overlay tables.global

/-- Where the files are read, the environment alone can fail. -/
theorem mergedEntries_of_read {tables : Tables} {host : Host} {file : Option NamedFile}
    (h : tables.Read host file) (caller : Entries) :
    mergedEntries host file caller =
      (ofVariables host.environment).map fun environment => merged tables environment caller := by
  obtain ⟨path, hpath, hglobal⟩ := bind_eq_ok_iff.1 h.global
  rw [mergedEntries]
  simp only [hpath, hglobal, h.project, h.named, bind, ok_bind]
  cases ofVariables host.environment <;> rfl

/-- What was merged was read. -/
theorem read_of_mergedEntries {host : Host} {file : Option NamedFile} {caller found : Entries}
    (h : mergedEntries host file caller = .ok found) : ∃ tables : Tables, tables.Read host file := by
  obtain ⟨path, hpath, h⟩ := bind_eq_ok_iff.1 h
  obtain ⟨global, hglobal, h⟩ := bind_eq_ok_iff.1 h
  obtain ⟨project, hproject, h⟩ := bind_eq_ok_iff.1 h
  obtain ⟨named, hnamed, _⟩ := bind_eq_ok_iff.1 h
  exact ⟨⟨global, project, named⟩, bind_eq_ok_iff.2 ⟨path, hpath, hglobal⟩, hproject, hnamed⟩

section Merged

variable {tables : Tables} {host : Host} {file : Option NamedFile} {environment caller : Entries}

/-- The merged entries have different names. -/
theorem nodup_merged (h : tables.Read host file) (environment caller : Entries) :
    ((merged tables environment caller).map Prod.fst).Nodup :=
  nodup_overlay (nodup_overlay (nodup_overlay (nodup_overlay h.nodup.1 _) _) _) _

/-- Under a name stands what the last of the merged entries has that have the name. -/
theorem lookup_merged (h : tables.Read host file)
    (henvironment : ofVariables host.environment = .ok environment)
    (hcaller : (caller.map Prod.fst).Nodup) (name : Text) :
    lookup name (merged tables environment caller) =
      (lookup name (applyFlags caller)).or ((lookup name environment).or
        ((lookup name tables.named).or ((lookup name tables.project).or
          (lookup name tables.global)))) := by
  obtain ⟨_, hproject, hnamed⟩ := h.nodup
  rw [← lookup_overlay name _ hproject, ← lookup_overlay name _ hnamed,
    ← lookup_overlay name _ (nodup_ofVariables henvironment),
    ← lookup_overlay name _ (nodup_applyFlags hcaller)]
  rfl

/-- Under a name that is no flag stands what the first source gives. -/
theorem lookup_merged_eq_firstGiven (h : tables.Read host file)
    (henvironment : ofVariables host.environment = .ok environment)
    (hcaller : (caller.map Prod.fst).Nodup) {name : Text} (hquiet : name ≠ ("quiet" : String))
    (hverbose : name ≠ ("verbose" : String)) :
    lookup name (merged tables environment caller) =
      firstGiven (sources host.environment caller tables) name := by
  rw [lookup_merged h henvironment hcaller, lookup_applyFlags caller hquiet hverbose,
    lookup_ofVariables henvironment]
  simp only [firstGiven, sources, List.findSome?_cons, List.findSome?_nil]
  cases callerGives caller name <;> cases variableGives host.environment name <;>
    cases lookup name tables.named <;> cases lookup name tables.project <;>
    cases lookup name tables.global <;> rfl

end Merged

end SourceGauge.Settings
