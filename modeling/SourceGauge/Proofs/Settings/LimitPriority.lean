import SourceGauge.Proofs.Settings.Precedence

/-!
# Priority of each limit

A settings file gives both limits in one table, and of the tables of several files only the first
one is looked at. So a limit that this table lacks is standard, even where a file after it gives the
limit. Each limit follows the priority of the files on its own if and only if none is lost in this
way.

Where the tables hold nothing but valid limits, they never keep settings from being loaded, and
nothing but the limits depends on them.
-/

namespace SourceGauge

/-- The two limits. -/
inductive LimitKind
  | functions
  | files
  deriving DecidableEq, Repr

namespace LimitKind

/-- The name of a limit. -/
def name : LimitKind → String
  | functions => Limits.functionsField
  | files => Limits.filesField

/-- A limit that no file gives. -/
def standard : LimitKind → Bounds
  | functions => Limits.standardFunctions
  | files => Limits.standardFiles

/-- A limit among both. -/
def of : LimitKind → Limits → Bounds
  | functions, limits => limits.functions
  | files, limits => limits.files

/-- The bounds that a table gives for a limit. -/
def given? (kind : LimitKind) (table : Settings.Entries) : Option Bounds :=
  match Value.lookup kind.name table with
  | some (.list items) => (Bounds.ofList items).toOption
  | _ => none

end LimitKind

namespace Settings

open Value (lookup)

/-! ## Tables of limits -/

/-- A table gives nothing but limits, each of them a list of valid bounds. -/
def IsLimitTable (table : Entries) : Prop :=
  ∀ entry ∈ table, ∃ (kind : LimitKind) (items : List Value) (bounds : Bounds),
    entry = ((kind.name : Text), .list items) ∧ Bounds.ofList items = .ok bounds

/-- The entries of a file have no limits, or a table of valid ones. -/
def HasLimits (entries : Entries) : Prop :=
  lookup limitsField entries = none ∨
    ∃ table, lookup limitsField entries = some (.table table) ∧ IsLimitTable table

/-- The table of limits of a file. -/
def limitTable? (entries : Entries) : Option Entries :=
  match lookup limitsField entries with
  | some (.table table) => some table
  | _ => none

/-- The tables of limits that the files have, the one with the highest priority first. -/
def Tables.limitTables (tables : Tables) : List Entries :=
  [tables.named, tables.project, tables.global].filterMap limitTable?

/-- The limits of the first table. -/
def Tables.firstTable (tables : Tables) : Limits :=
  let table := tables.limitTables.head?.getD []
  ⟨(LimitKind.functions.given? table).getD Limits.standardFunctions,
    (LimitKind.files.given? table).getD Limits.standardFiles⟩

/-- A limit as the first file has it that gives it. -/
def Tables.firstLimit (tables : Tables) (kind : LimitKind) : Bounds :=
  (tables.limitTables.findSome? kind.given?).getD kind.standard

/-- A limit is lost: the first table lacks it, and a table after it gives bounds for it that are not
the standard ones. -/
def Tables.Loses (tables : Tables) (kind : LimitKind) : Prop :=
  ∃ first rest bounds, tables.limitTables = first :: rest ∧ kind.given? first = none ∧
    rest.findSome? kind.given? = some bounds ∧ bounds ≠ kind.standard

variable {tables : Tables} {table : Entries}

theorem of_firstTable (kind : LimitKind) (tables : Tables) :
    kind.of tables.firstTable =
      (kind.given? (tables.limitTables.head?.getD [])).getD kind.standard := by
  cases kind <;> rfl

/-- The first table has each limit as the first file has it unless it is lost. -/
theorem of_firstTable_eq_iff (kind : LimitKind) (tables : Tables) :
    kind.of tables.firstTable = tables.firstLimit kind ↔ ¬tables.Loses kind := by
  rw [of_firstTable, Tables.firstLimit, Tables.Loses]
  cases htables : tables.limitTables with
  | nil =>
    have hnone : kind.given? [] = none := rfl
    simp [hnone]
  | cons first rest =>
    rw [List.head?_cons, Option.getD_some, List.findSome?_cons]
    cases hfirst : kind.given? first with
    | some bounds => simp [hfirst]
    | none =>
      cases hrest : rest.findSome? kind.given? with
      | none => simp [hrest]
      | some bounds =>
        simp only [Option.getD_none, Option.getD_some]
        constructor
        · rintro hstandard ⟨_, _, _, ⟨⟩, _, hfound, hother⟩
          rw [hrest] at hfound
          exact hother (Option.some.inj hfound ▸ hstandard.symm)
        · intro h
          by_contra hother
          exact h ⟨first, rest, bounds, rfl, hfirst, hrest, fun heq => hother heq.symm⟩

/-! ## Reading a table -/

/-- The bounds under a name of a table of limits are valid. -/
theorem ofList_of_lookup (h : IsLimitTable table) {kind : LimitKind} {value : Value}
    (hvalue : lookup kind.name table = some value) :
    ∃ items bounds, value = .list items ∧ Bounds.ofList items = .ok bounds ∧
      kind.given? table = some bounds := by
  obtain ⟨_, items, bounds, hentry, hbounds⟩ := h _ (mem_of_lookup hvalue)
  obtain ⟨-, rfl⟩ := Prod.mk.inj hentry
  refine ⟨items, bounds, rfl, hbounds, ?_⟩
  rw [LimitKind.given?, hvalue]
  simp only [hbounds]
  rfl

/-- A limit is read from a table of limits, or is standard. -/
theorem readField_eq_ok (h : IsLimitTable table) (kind : LimitKind) :
    Limits.readField kind.name kind.standard table =
      .ok ((kind.given? table).getD kind.standard) := by
  rw [Limits.readField]
  cases hvalue : lookup kind.name table with
  | none => rw [LimitKind.given?, hvalue]; rfl
  | some value =>
    obtain ⟨items, bounds, rfl, hbounds, hgiven⟩ := ofList_of_lookup h hvalue
    have hread : Bounds.ofValue (.list items) = .ok bounds := hbounds
    simp only [hread, hgiven, Option.getD_some]

/-- A table of limits has no other names. -/
theorem checkNames_eq_ok (h : IsLimitTable table) (owner : String) :
    checkNames owner [Limits.functionsField, Limits.filesField] table = .ok () := by
  have hknown : ∀ kind : LimitKind, ([Limits.functionsField, Limits.filesField].any
      fun name => (kind.name : Text) == (name : Text)) = true := by
    intro kind
    cases kind <;> decide +kernel
  have hnone : unknownField? [Limits.functionsField, Limits.filesField] table = none := by
    rw [unknownField?, Option.map_eq_none_iff, List.find?_eq_none]
    intro entry hentry
    obtain ⟨kind, _, _, rfl, _⟩ := h entry hentry
    rw [hknown kind]
    exact Bool.false_ne_true
  rw [checkNames, hnone]

/-- The shape of a table of limits is right. -/
theorem mapOk_checkShape (h : IsLimitTable table) (whole : Entries) :
    mapOk (checkShape whole) table = .ok table := by
  rw [mapOk_eq_ok_iff]
  refine List.map_congr_left fun entry hentry => ?_
  obtain ⟨_, _, _, rfl, _⟩ := h entry hentry
  rfl

/-- A table of limits is read. -/
theorem limitsOf_eq_ok (h : IsLimitTable table) : limitsOf (.table table) =
    .ok ⟨(LimitKind.functions.given? table).getD Limits.standardFunctions,
      (LimitKind.files.given? table).getD Limits.standardFiles⟩ := by
  have hfunctions := readField_eq_ok h .functions
  have hfiles := readField_eq_ok h .files
  have hread : Limits.ofEntries table = .ok
      ⟨(LimitKind.functions.given? table).getD Limits.standardFunctions,
        (LimitKind.files.given? table).getD Limits.standardFiles⟩ := by
    rw [Limits.ofEntries, checkNames_eq_ok h]
    show (Limits.readField LimitKind.functions.name LimitKind.functions.standard table).bind _ = _
    rw [hfunctions, ok_bind]
    show (Limits.readField LimitKind.files.name LimitKind.files.standard table).bind _ = _
    rw [hfiles, ok_bind]
    rfl
  rw [limitsOf, mapOk_checkShape h]
  show (Except.ok table).bind _ = _
  rw [ok_bind, hread]

/-! ## Loading -/

/-- The other settings do not depend on the limits. -/
theorem ofEntries_limits (entries : Entries) (limits : Limits) :
    ofEntries entries limits =
      (ofEntries entries .standard).map fun settings => { settings with limits } := by
  unfold ofEntries
  rcases checkNames "MeasureSettings" fieldNames entries with _ | _
  · rfl
  rcases readTexts "defines" entries with _ | _
  · rfl
  rcases readTexts "include_directories" entries with _ | _
  · rfl
  rcases readWorkers entries with _ | _
  · rfl
  rcases readThreshold entries with _ | _
  · rfl
  rcases readVerbosity entries with _ | _
  · rfl
  rcases readLogFile entries with _ | _
  · rfl
  · rfl

/-- The file has a table where its entries have limits. -/
theorem lookup_limitsField {entries : Entries} (h : HasLimits entries) :
    lookup limitsField entries = (limitTable? entries).map .table := by
  rcases h with hnone | ⟨table, htable, _⟩
  · rw [limitTable?, hnone]
    rfl
  · rw [limitTable?, htable]
    rfl

/-- The environment gives no limits. -/
theorem variableGives_limitsField (environment : List (Text × Text)) :
    variableGives environment limitsField = none := by
  have hnone : (variableForms.find? fun form => decide ((form.1 : Text) = limitsField)) = none := by
    decide +kernel
  rw [variableGives, hnone]
  rfl

section Load

variable {host : Host} {file : Option NamedFile} {environment : Entries} {overrides : Overrides}

/-- The limits of all files are in order. -/
structure Tables.HaveLimits (tables : Tables) : Prop where
  named : HasLimits tables.named
  project : HasLimits tables.project
  global : HasLimits tables.global

/-- All tables of limits are in order. -/
theorem Tables.HaveLimits.isLimitTable (h : tables.HaveLimits) :
    ∀ table ∈ tables.limitTables, IsLimitTable table := by
  have hfile : ∀ {entries : Entries}, HasLimits entries → ∀ table,
      limitTable? entries = some table → IsLimitTable table := by
    rintro entries (hnone | ⟨found, hfound, hvalid⟩) table htable
    · rw [limitTable?, hnone] at htable
      contradiction
    · rw [limitTable?, hfound] at htable
      exact Option.some.inj htable ▸ hvalid
  intro table htable
  obtain ⟨entries, hentries, hsome⟩ := List.mem_filterMap.1 htable
  simp only [List.mem_cons, List.not_mem_nil, or_false] at hentries
  rcases hentries with rfl | rfl | rfl
  · exact hfile h.named table hsome
  · exact hfile h.project table hsome
  · exact hfile h.global table hsome

/-- The merged entries have the first table of limits. -/
theorem lookup_limitsField_merged (h : tables.Read host file)
    (henvironment : ofVariables host.environment = .ok environment)
    (hnames : (overrides.entries.map Prod.fst).Nodup)
    (hnone : lookup limitsField overrides.entries = none) (hvalid : tables.HaveLimits) :
    lookup limitsField (merged tables environment overrides.entries) =
      tables.limitTables.head?.map .table := by
  rw [lookup_merged_eq_firstGiven h henvironment hnames (by decide) (by decide), firstGiven,
    sources, List.findSome?_cons, callerGives_of_ne (by decide), hnone, List.findSome?_cons,
    variableGives_limitsField]
  simp only [List.findSome?_cons, List.findSome?_nil, lookup_limitsField hvalid.named,
    lookup_limitsField hvalid.project, lookup_limitsField hvalid.global, Tables.limitTables,
    List.head?_filterMap]
  cases limitTable? tables.named <;> cases limitTable? tables.project <;>
    cases limitTable? tables.global <;> rfl

/-- The limits that are loaded are those of the first table. -/
theorem exists_mergedLimits (h : tables.Read host file)
    (henvironment : ofVariables host.environment = .ok environment)
    (hnames : (overrides.entries.map Prod.fst).Nodup)
    (hnone : lookup limitsField overrides.entries = none) (hvalid : tables.HaveLimits) :
    ∃ found, mergedLimits (merged tables environment overrides.entries) none = .ok found ∧
      found.getD .standard = tables.firstTable := by
  have hlookup := lookup_limitsField_merged h henvironment hnames hnone hvalid
  rw [mergedLimits, Value.field?, hlookup, Tables.firstTable]
  cases hfirst : tables.limitTables.head? with
  | none => exact ⟨none, rfl, rfl⟩
  | some table =>
    have hlimits := limitsOf_eq_ok (hvalid.isLimitTable table (List.mem_of_head? hfirst))
    exact ⟨_, congrArg (Except.map some) hlimits, rfl⟩

/-- Settings are loaded as they are with limits that the caller has read before, but for the
limits. -/
theorem load_eq_ok_iff {settings : Settings} (h : tables.Read host file)
    (hnames : (overrides.entries.map Prod.fst).Nodup) (hlimits : overrides.limits = none)
    (hnone : lookup limitsField overrides.entries = none) (hvalid : tables.HaveLimits) :
    load host file overrides = .ok settings ↔
      ∃ others, load host file { overrides with limits := some .standard } = .ok others ∧
        settings = { others with limits := tables.firstTable } := by
  rw [load, load, mergedEntries_of_read h, hlimits]
  cases henvironment : ofVariables host.environment with
  | error failure =>
    constructor
    · intro hloaded
      contradiction
    · rintro ⟨_, hloaded, _⟩
      contradiction
  | ok environment =>
    obtain ⟨found, hfound, hfirst⟩ := exists_mergedLimits h henvironment hnames hnone hvalid
    have hown : ofMerged (merged tables environment overrides.entries) none = .ok settings ↔
        ofEntries (without limitsField (merged tables environment overrides.entries))
          tables.firstTable = .ok settings := by
      rw [ofMerged_eq_ok_iff, hfound]
      simp only [Except.ok.injEq, exists_eq_left', hfirst]
    have hgiven : ∀ others, ofMerged (merged tables environment overrides.entries)
        (some .standard) = .ok others ↔
        ofEntries (without limitsField (merged tables environment overrides.entries)) .standard =
          .ok others := by
      intro others
      rw [ofMerged_eq_ok_iff]
      simp only [mergedLimits, Except.ok.injEq, exists_eq_left', Option.getD_some]
    refine hown.trans ?_
    rw [ofEntries_limits, map_eq_ok_iff]
    exact exists_congr fun others => and_congr (hgiven others).symm eq_comm

/-- Where the tables of limits in the settings files are valid and the caller gives no limits,
settings are loaded whenever the other settings allow it, with the limits of the first table. Each
limit is then as the first file has it that gives it, or standard if none does, if and only if it is
not lost. -/
theorem load_limit_eq_iff (host : Host) (file : Option NamedFile) (overrides : Overrides)
    (tables : Tables) (hread : tables.Read host file) (hvalid : tables.HaveLimits)
    (hnames : (overrides.entries.map Prod.fst).Nodup) (hlimits : overrides.limits = none)
    (hnone : lookup limitsField overrides.entries = none) :
    (∀ settings, load host file overrides = .ok settings ↔
      ∃ others, load host file { overrides with limits := some .standard } = .ok others ∧
        settings = { others with limits := tables.firstTable }) ∧
    ∀ settings kind, load host file overrides = .ok settings →
      (kind.of settings.limits = tables.firstLimit kind ↔ ¬tables.Loses kind) := by
  have hload : ∀ settings, load host file overrides = .ok settings ↔
      ∃ others, load host file { overrides with limits := some .standard } = .ok others ∧
        settings = { others with limits := tables.firstTable } :=
    fun _ => load_eq_ok_iff hread hnames hlimits hnone hvalid
  refine ⟨hload, fun settings kind hsettings => ?_⟩
  obtain ⟨others, _, rfl⟩ := (hload settings).1 hsettings
  exact of_firstTable_eq_iff kind tables

end Load

/-- A host with a settings file in the home directory that gives the limits for functions, and one
of the project that gives those for files. -/
def dividedHost : Host where
  tree := (FileTree.empty.writeFile [Text.ofString "codemeasure.toml"]
      "[distributions]\nfile_bottom_limits = [0, 50]\n".toUTF8.data.toList).writeFile
    [Text.ofString "home", Text.ofString ".codemeasure.toml"]
      "[distributions]\nfunction_bottom_limits = [1, 3]\n".toUTF8.data.toList
  workingDirectory := []
  home := some (Host.pathOf [Text.ofString "home"])
  environment := []
  time := ""

/-- The bounds in those files. -/
def dividedBounds : LimitKind → Bounds
  | .functions => ⟨[.int 1, .int 3], List.cons_ne_nil _ _, by decide +kernel, by decide +kernel⟩
  | .files => ⟨[.int 0, .int 50], List.cons_ne_nil _ _, by decide +kernel, by decide +kernel⟩

/-- The entries of a file with nothing but one limit. -/
def dividedEntries (kind : LimitKind) : Entries :=
  [(limitsField, .table [(kind.name, .ofNumbers (dividedBounds kind).values)])]

/-- A caller that sets nothing. -/
def noOverrides : Overrides := ⟨[], none⟩

/-- The tables of that host. -/
def dividedTables : Tables where
  global := dividedEntries .functions
  project := dividedEntries .files
  named := []

theorem read_dividedTables : dividedTables.Read dividedHost none where
  global := rfl
  project := rfl
  named := rfl

theorem noOverrides_nodup : (noOverrides.entries.map Prod.fst).Nodup := List.nodup_nil

theorem hasLimits_dividedEntries (kind : LimitKind) : HasLimits (dividedEntries kind) := by
  refine .inr ⟨_, rfl, fun entry hentry => ?_⟩
  obtain rfl := List.mem_singleton.1 hentry
  exact ⟨kind, _, dividedBounds kind, rfl, Bounds.ofList_values _⟩

theorem haveLimits_dividedTables : dividedTables.HaveLimits where
  named := .inl rfl
  project := hasLimits_dividedEntries .files
  global := hasLimits_dividedEntries .functions

/-- The limits for files are those of the project. -/
theorem load_dividedHost_files :
    dividedTables.Read dividedHost none ∧ dividedTables.HaveLimits ∧
      ∃ settings, load dividedHost none noOverrides = .ok settings ∧
        settings.limits.files = dividedTables.firstLimit .files := by
  obtain ⟨hload, hlimit⟩ := load_limit_eq_iff dividedHost none noOverrides dividedTables
    read_dividedTables haveLimits_dividedTables noOverrides_nodup rfl rfl
  have hothers : load dividedHost none { noOverrides with limits := some .standard } =
      .ok standard := rfl
  have hsettings := (hload { standard with limits := dividedTables.firstTable }).2
    ⟨standard, hothers, rfl⟩
  refine ⟨read_dividedTables, haveLimits_dividedTables, _, hsettings,
    (hlimit _ .files hsettings).2 ?_⟩
  rintro ⟨_, _, _, ⟨⟩, hnone, _⟩
  exact absurd hnone (by decide +kernel)

/-- The limits for functions that the file in the home directory gives are lost. -/
theorem load_dividedHost_functions :
    dividedTables.Read dividedHost none ∧ dividedTables.HaveLimits ∧
      (dividedTables.firstLimit .functions).values = [.int 1, .int 3] ∧
      ∃ settings, load dividedHost none noOverrides = .ok settings ∧
        settings.limits.functions = Limits.standardFunctions ∧
        settings.limits.functions ≠ dividedTables.firstLimit .functions := by
  have hfirst : (dividedTables.firstLimit .functions).values = [.int 1, .int 3] := by
    decide +kernel
  have hload : load dividedHost none noOverrides =
      .ok { standard with limits := dividedTables.firstTable } :=
    (load_eq_ok_iff read_dividedTables noOverrides_nodup rfl rfl haveLimits_dividedTables).2
      ⟨standard, rfl, rfl⟩
  have hloaded : dividedTables.firstTable.functions = Limits.standardFunctions := rfl
  refine ⟨read_dividedTables, haveLimits_dividedTables, hfirst, _, hload, hloaded, fun hsame => ?_⟩
  have hvalues := congrArg Bounds.values (hloaded.symm.trans hsame)
  rw [hfirst] at hvalues
  exact absurd hvalues (by decide +kernel)

end Settings

end SourceGauge
