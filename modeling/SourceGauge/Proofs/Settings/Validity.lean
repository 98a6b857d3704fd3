import Mathlib.Algebra.Order.Ring.Int
import SourceGauge.Proofs.Settings.Precedence

/-!
# Validity of loaded settings

Loaded settings are meant to be valid: the number of workers and the number of files from which on
they are used are whole numbers of at least one, unless the first is left open, and the bucket
limits are finite numbers that increase. The limits always are. The two counts are only compared
with one, though, so that numbers pass which are no counts: the truth value, NaN, infinity and every
other real of at least one. Settings are valid exactly if none of these is given for a count, and
where one is given, it is taken like any count.
-/

namespace SourceGauge

namespace Number

/-- A whole number of at least one. -/
def IsCount (n : Number) : Prop := ∃ count : Int, 1 ≤ count ∧ n = .int count

/-- A number that is no whole number and yet not less than one. -/
inductive IsMiscount : Number → Prop
  | flag : IsMiscount (.flag true)
  | nan : IsMiscount (.real .nan)
  | infinite : IsMiscount (.real (.infinite false))
  | finite {units : Nat} (hunits : Representable units) (hone : unitsPerOne ≤ units) :
    IsMiscount (.real (.finite false units hunits))

/-- No miscount is a count. -/
theorem IsMiscount.not_isCount {n : Number} (h : n.IsMiscount) : ¬n.IsCount := by
  intro hcount
  obtain ⟨count, -, rfl⟩ := hcount
  contradiction

/-- A number of units is not less than one exactly if there are as many as in one. -/
theorem lt_one_eq_false_of_at {n : Number} {units : Int} (h : n.extent? = some (.at units)) :
    n.lt (.int 1) = false ↔ (unitsPerOne : Int) ≤ units := by
  have hone : (Number.int 1).extent? = some (.at unitsPerOne) := by
    rw [extent?, one_mul]
  rw [lt, h, hone]
  simp only [Extent.le, Bool.not_eq_false', decide_eq_true_eq]

/-- The numbers that are not less than one are the counts and the miscounts. -/
theorem lt_one_eq_false_iff {n : Number} :
    n.lt (.int 1) = false ↔ n.IsCount ∨ n.IsMiscount := by
  have hunits : (0 : Int) < unitsPerOne := by exact_mod_cast unitsPerOne_pos
  cases n with
  | flag value =>
    rw [lt_one_eq_false_of_at rfl]
    cases value with
    | true => exact ⟨fun _ => .inr .flag, fun _ => (one_mul _).ge⟩
    | false =>
      constructor
      · intro hle
        exact absurd (hle.trans (zero_mul _).le) hunits.not_ge
      · intro h
        rcases h with ⟨_, _, hcount⟩ | hmiscount
        · contradiction
        · contradiction
  | int value =>
    rw [lt_one_eq_false_of_at rfl, le_mul_iff_one_le_left hunits]
    constructor
    · intro hle
      exact .inl ⟨value, hle, rfl⟩
    · intro h
      rcases h with ⟨count, hcount, hvalue⟩ | hmiscount
      · exact Number.int.inj hvalue ▸ hcount
      · contradiction
  | real x =>
    have hcount : ¬(Number.real x).IsCount := fun ⟨_, _, hcount⟩ => nomatch hcount
    rw [or_iff_right hcount]
    cases x with
    | nan => exact ⟨fun _ => .nan, fun _ => rfl⟩
    | infinite negative =>
      cases negative with
      | true => exact ⟨nofun, nofun⟩
      | false => exact ⟨fun _ => .infinite, fun _ => rfl⟩
    | finite negative units hrepresentable =>
      rw [lt_one_eq_false_of_at rfl]
      cases negative with
      | true =>
        constructor
        · intro hle
          have : (unitsPerOne : Int) ≤ -units := hle
          omega
        · intro h
          contradiction
      | false =>
        constructor
        · intro hle
          exact .finite hrepresentable (Int.ofNat_le.1 hle)
        · intro h
          cases h with
          | finite _ hone => exact Int.ofNat_le.2 hone

end Number

/-- Numbers are fit to be bucket limits: there is one at least, all are finite and none a truth
value, and they increase. -/
structure AreLimits (values : List Number) : Prop where
  nonempty : values ≠ []
  bound : ∀ n ∈ values, isBound n = true
  increasing : values.Pairwise fun a b => a.lt b = true

/-- The limits of any bounds are fit. -/
theorem Bounds.areLimits (bounds : Bounds) : AreLimits bounds.values :=
  ⟨bounds.nonempty, bounds.bound, bounds.increasing⟩

namespace Settings

open Value (lookup)

/-- The settings that count something. -/
inductive CountField
  | workers
  | parallelThreshold
  deriving DecidableEq, Repr

namespace CountField

/-- The name of a count. -/
def name : CountField → String
  | workers => "workers"
  | parallelThreshold => "parallel_threshold"

/-- A count of settings, unless it is left open. -/
def of? : CountField → Settings → Option Number
  | workers, settings => settings.workers
  | parallelThreshold, settings => some settings.parallelThreshold

/-- Settings with another count. -/
def put (n : Number) : CountField → Settings → Settings
  | workers, settings => { settings with workers := some n }
  | parallelThreshold, settings => { settings with parallelThreshold := n }

end CountField

/-- Settings are valid: the counts that are not left open are counts, and the limits are fit. -/
structure IsValid (settings : Settings) : Prop where
  counts : ∀ (field : CountField) (n : Number), field.of? settings = some n → n.IsCount
  functions : AreLimits settings.limits.functions.values
  files : AreLimits settings.limits.files.values

/-! ## What is loaded -/

/-- A number is taken for a count exactly if it is not less than one. -/
theorem atLeastOne_eq_ok_iff {name : String} {n found : Number} :
    atLeastOne name (.number n) = .ok found ↔ n.lt (.int 1) = false ∧ n = found := by
  rw [atLeastOne, Value.number?]
  cases hless : n.lt (.int 1) <;> simp [hless]

/-- Whatever is taken for a count is not less than one. -/
theorem lt_one_of_atLeastOne {name : String} {value : Value} {n : Number}
    (h : atLeastOne name value = .ok n) : n.lt (.int 1) = false := by
  obtain rfl := eq_number_of_atLeastOne h
  exact (atLeastOne_eq_ok_iff.1 h).1

theorem lt_one_of_readWorkers {entries : Entries} {n : Number}
    (h : readWorkers entries = .ok (some n)) : n.lt (.int 1) = false := by
  unfold readWorkers at h
  split at h
  · cases Except.ok.inj h
  · obtain ⟨found, hfound, hsome⟩ := map_eq_ok_iff.1 h
    exact Option.some.inj hsome ▸ lt_one_of_atLeastOne hfound

theorem lt_one_of_readThreshold {entries : Entries} {n : Number}
    (h : readThreshold entries = .ok n) : n.lt (.int 1) = false := by
  unfold readThreshold at h
  split at h
  · rw [← Except.ok.inj h]
    exact Number.lt_one_eq_false_iff.2 (.inl ⟨10, by decide, rfl⟩)
  · exact lt_one_of_atLeastOne h

/-- A number of workers that is not less than one is read. -/
theorem readWorkers_of_lookup {entries : Entries} {n : Number}
    (h : lookup ("workers" : String) entries = some (.number n)) (hn : n.lt (.int 1) = false) :
    readWorkers entries = .ok (some n) := by
  rw [readWorkers, Value.field?, h]
  exact congrArg (Except.map some) (atLeastOne_eq_ok_iff.2 ⟨hn, rfl⟩)

theorem readThreshold_of_lookup {entries : Entries} {n : Number}
    (h : lookup ("parallel_threshold" : String) entries = some (.number n))
    (hn : n.lt (.int 1) = false) : readThreshold entries = .ok n := by
  rw [readThreshold, h]
  exact atLeastOne_eq_ok_iff.2 ⟨hn, rfl⟩

/-- The counts of settings that are made of merged entries are not less than one. -/
theorem lt_one_of_ofMerged {entries : Entries} {given : Option Limits} {settings : Settings}
    (h : ofMerged entries given = .ok settings) {field : CountField} {n : Number}
    (hn : field.of? settings = some n) : n.lt (.int 1) = false := by
  obtain ⟨_, _, hread⟩ := ofMerged_eq_ok_iff.1 h
  obtain ⟨hholds, -⟩ := holds_of_ofEntries hread
  cases field with
  | workers =>
    have hworkers := hholds.workers
    have hsome : settings.workers = some n := hn
    rw [hsome] at hworkers
    exact lt_one_of_readWorkers hworkers
  | parallelThreshold =>
    obtain rfl : settings.parallelThreshold = n := Option.some.inj hn
    exact lt_one_of_readThreshold hholds.parallelThreshold

/-- A miscount stands among settings exactly if it is what is given for the count. -/
theorem Follows.of?_eq_some_iff {settings : Settings} {given : Text → Option Value}
    {limits : Option Limits} (h : settings.Follows given limits) {field : CountField} {n : Number}
    (hn : n.IsMiscount) :
    field.of? settings = some n ↔ given field.name = some (.number n) := by
  cases field with
  | workers =>
    have hworkers := h.workers
    show settings.workers = some n ↔ given ("workers" : String) = some (.number n)
    unfold GivesOptional at hworkers
    split at hworkers
    · rename_i hgiven
      rw [hworkers, hgiven]
      exact ⟨nofun, nofun⟩
    · rename_i hgiven
      rw [hworkers, hgiven]
      exact ⟨nofun, nofun⟩
    · rename_i value _ hgiven
      obtain ⟨found, hfound, rfl⟩ := hworkers
      rw [hfound, hgiven, Option.some.injEq, Option.some.injEq, Value.number.injEq]
  | parallelThreshold =>
    have hthreshold := h.parallelThreshold
    show some settings.parallelThreshold = some n ↔
      given ("parallel_threshold" : String) = some (.number n)
    unfold GivesOrStandard at hthreshold
    split at hthreshold
    · rename_i hgiven
      have hstandard : (Number.int 10).IsCount := ⟨10, by decide, rfl⟩
      rw [hthreshold, hgiven]
      exact ⟨fun hsame => absurd (Option.some.inj hsame ▸ hstandard) hn.not_isCount, nofun⟩
    · rename_i value hgiven
      rw [hgiven, hthreshold, Option.some.injEq, Option.some.injEq, Value.number.injEq]

/-- Settings that follow what is given and have no count below one are valid exactly if no miscount
is given for a count. -/
theorem Follows.isValid_iff {settings : Settings} {given : Text → Option Value}
    {limits : Option Limits} (h : settings.Follows given limits)
    (hone : ∀ (field : CountField) (n : Number), field.of? settings = some n →
      n.lt (.int 1) = false) :
    settings.IsValid ↔ ∀ (field : CountField) (n : Number),
      given field.name = some (.number n) → ¬n.IsMiscount := by
  constructor
  · intro hvalid field n hgiven hmiscount
    have hn := (h.of?_eq_some_iff hmiscount).2 hgiven
    exact hmiscount.not_isCount (hvalid.counts field n hn)
  · intro hnone
    refine ⟨fun field n hn => ?_, Bounds.areLimits _, Bounds.areLimits _⟩
    rcases Number.lt_one_eq_false_iff.1 (hone field n hn) with hcount | hmiscount
    · exact hcount
    · exact absurd hmiscount (hnone field n ((h.of?_eq_some_iff hmiscount).1 hn))

/-! ## What miscounts are taken for -/

/-- Entries that differ in a count alone: one is a number, the other is one. -/
structure DifferIn (field : CountField) (n : Number) (entries others : Entries) : Prop where
  keys : entries.map Prod.fst = others.map Prod.fst
  number : lookup field.name entries = some (.number n)
  one : lookup field.name others = some (.number (.int 1))
  same : ∀ name ∈ fieldNames, (name : Text) ≠ field.name →
    lookup name entries = lookup name others

/-- The first unknown name is told by the names. -/
theorem unknownField?_congr {known : List String} {entries others : Entries}
    (h : entries.map Prod.fst = others.map Prod.fst) :
    unknownField? known entries = unknownField? known others := by
  have hkeys : ∀ entries : Entries, unknownField? known entries =
      (entries.map Prod.fst).find? fun key => !known.any fun name => key == (name : Text) := by
    intro entries
    rw [unknownField?, List.find?_map]
    rfl
  rw [hkeys, hkeys, h]

theorem DifferIn.without {field : CountField} {n : Number} {entries others : Entries}
    (h : DifferIn field n entries others) :
    DifferIn field n (without limitsField entries) (without limitsField others) := by
  have hfield : (field.name : Text) ≠ limitsField := by cases field <;> decide
  refine ⟨?keys, ?number, ?one, ?same⟩
  case keys => rw [keys_without, keys_without, h.keys]
  case number => rw [lookup_without_of_ne hfield, h.number]
  case one => rw [lookup_without_of_ne hfield, h.one]
  case same =>
    intro name hname hother
    by_cases hlimits : (name : Text) = limitsField
    · rw [hlimits, lookup_without_self, lookup_without_self]
    · rw [lookup_without_of_ne hlimits, lookup_without_of_ne hlimits, h.same name hname hother]

/-- Settings are read from entries that differ in a count as they are with one for it. -/
theorem DifferIn.ofEntries_eq {field : CountField} {n : Number} {entries others : Entries}
    (h : DifferIn field n entries others) (hn : n.IsMiscount) (limits : Limits) :
    ofEntries entries limits = (ofEntries others limits).map (field.put n) := by
  have hnames : checkNames "MeasureSettings" fieldNames entries =
      checkNames "MeasureSettings" fieldNames others := by
    rw [checkNames, checkNames, unknownField?_congr h.keys]
  have hdefines : readTexts "defines" entries = readTexts "defines" others := by
    rw [readTexts, readTexts, h.same "defines" (by decide) (by cases field <;> decide)]
  have hdirectories : readTexts "include_directories" entries =
      readTexts "include_directories" others := by
    rw [readTexts, readTexts, h.same "include_directories" (by decide) (by cases field <;> decide)]
  have hverbosity : readVerbosity entries = readVerbosity others := by
    rw [readVerbosity, readVerbosity, h.same "verbosity" (by decide) (by cases field <;> decide)]
  have hlogFile : readLogFile entries = readLogFile others := by
    rw [readLogFile, readLogFile, Value.field?, Value.field?,
      h.same "log_file" (by decide) (by cases field <;> decide)]
  have hnumber : n.lt (.int 1) = false := Number.lt_one_eq_false_iff.2 (.inr hn)
  have hone : (Number.int 1).lt (.int 1) = false :=
    Number.lt_one_eq_false_iff.2 (.inl ⟨1, by decide, rfl⟩)
  rw [ofEntries, ofEntries, hnames, hdefines, hdirectories, hverbosity, hlogFile]
  -- The first field that is refused decides, and it is never the one that differs.
  rcases checkNames "MeasureSettings" fieldNames others with _ | _
  · rfl
  rcases readTexts "defines" others with _ | _
  · rfl
  rcases readTexts "include_directories" others with _ | _
  · rfl
  cases field with
  | workers =>
    have hthreshold : readThreshold entries = readThreshold others := by
      rw [readThreshold, readThreshold, h.same "parallel_threshold" (by decide) (by decide)]
    rw [readWorkers_of_lookup h.number hnumber, readWorkers_of_lookup h.one hone, hthreshold]
    rcases readThreshold others with _ | _
    · rfl
    rcases readVerbosity others with _ | _
    · rfl
    rcases readLogFile others with _ | _ <;> rfl
  | parallelThreshold =>
    have hworkers : readWorkers entries = readWorkers others := by
      rw [readWorkers, readWorkers, Value.field?, Value.field?,
        h.same "workers" (by decide) (by decide)]
    rw [readThreshold_of_lookup h.number hnumber, readThreshold_of_lookup h.one hone, hworkers]
    rcases readWorkers others with _ | _
    · rfl
    rcases readVerbosity others with _ | _
    · rfl
    rcases readLogFile others with _ | _ <;> rfl

/-- Settings are made of merged entries that differ in a count as they are with one for it. -/
theorem DifferIn.ofMerged_eq {field : CountField} {n : Number} {entries others : Entries}
    (h : DifferIn field n entries others) (hn : n.IsMiscount) (given : Option Limits) :
    ofMerged entries given = (ofMerged others given).map (field.put n) := by
  have hlimits : mergedLimits entries given = mergedLimits others given := by
    unfold mergedLimits Value.field?
    rw [h.same limitsField (by decide) (by cases field <;> decide)]
  rw [ofMerged, ofMerged, hlimits]
  rcases mergedLimits others given with _ | limits
  · rfl
  have hnames : givenNames (Settings.without limitsField entries) limits =
      givenNames (Settings.without limitsField others) limits := by
    rw [givenNames, givenNames, h.without.keys]
  show (Except.ok limits).bind _ = ((Except.ok limits).bind _).map _
  rw [ok_bind, ok_bind]
  dsimp only
  rw [h.without.ofEntries_eq hn, hnames]
  cases ofEntries (Settings.without limitsField others) (limits.getD .standard) with
  | ok settings => rfl
  | error failure => cases failure <;> rfl

/-- What is merged are the entries of the caller put over those of the other sources. -/
theorem mergedEntries_eq_map (host : Host) (file : Option NamedFile) (caller : Entries) :
    mergedEntries host file caller =
      (mergedEntries host file []).map fun lower => overlay lower (applyFlags caller) := by
  unfold mergedEntries
  rcases globalPath host with _ | path
  · rfl
  show (readOptional host path).bind _ = ((readOptional host path).bind _).map _
  rcases readOptional host path with _ | _
  · rfl
  show (readOptional host (projectPath host)).bind _ =
    ((readOptional host (projectPath host)).bind _).map _
  rcases readOptional host (projectPath host) with _ | _
  · rfl
  show (readExplicit host file).bind _ = ((readExplicit host file).bind _).map _
  rcases readExplicit host file with _ | _
  · rfl
  show (ofVariables host.environment).bind _ = ((ofVariables host.environment).bind _).map _
  rcases ofVariables host.environment with _ | _ <;> rfl

/-- The names after a flag was replaced are told by the names and by the flag. -/
theorem keys_applyFlag_congr {flag : Text} {verbosity : Verbosity} {entries others : Entries}
    (hkeys : entries.map Prod.fst = others.map Prod.fst)
    (hflag : lookup flag entries = lookup flag others) :
    (applyFlag flag verbosity entries).map Prod.fst =
      (applyFlag flag verbosity others).map Prod.fst := by
  rw [applyFlag, applyFlag, hflag]
  cases lookup flag others with
  | none => exact hkeys
  | some value =>
    dsimp only
    rw [keys_without, keys_without]
    split
    · rw [keys_putEntry, keys_putEntry, hkeys]
    · rw [hkeys]

/-- What a caller gives with a number put for a count. -/
def Overrides.put (overrides : Overrides) (field : CountField) (n : Number) : Overrides :=
  { overrides with entries := putEntry field.name (.number n) overrides.entries }

section Put

variable (overrides : Overrides) (field : CountField)

theorem lookup_put_of_ne (m : Number) {name : Text} (h : name ≠ field.name) :
    lookup name (overrides.put field m).entries = lookup name overrides.entries :=
  lookup_putEntry_of_ne h (.number m) overrides.entries

/-- A count is none of the names that stand for a verbosity. -/
theorem CountField.ne_flag : ("quiet" : String) ≠ (field.name : Text) ∧
    ("verbose" : String) ≠ (field.name : Text) ∧ (field.name : Text) ≠ verbosityField := by
  cases field <;> decide

/-- What is given under the other names does not depend on a number that is put for a count. -/
theorem callerGives_put_of_ne (m : Number) {name : Text} (h : name ≠ field.name) :
    callerGives (overrides.put field m).entries name = callerGives overrides.entries name := by
  obtain ⟨hquiet, hverbose, -⟩ := field.ne_flag
  rw [callerGives, callerGives, isFlagged, isFlagged, isFlagged, isFlagged,
    lookup_put_of_ne overrides field m hquiet, lookup_put_of_ne overrides field m hverbose,
    lookup_put_of_ne overrides field m h]

/-- The names that a caller gives do not depend on the number that is put for a count. -/
theorem keys_applyFlags_put (m k : Number) :
    (applyFlags (overrides.put field m).entries).map Prod.fst =
      (applyFlags (overrides.put field k).entries).map Prod.fst := by
  obtain ⟨hquiet, hverbose, -⟩ := field.ne_flag
  have hkeys : (overrides.put field m).entries.map Prod.fst =
      (overrides.put field k).entries.map Prod.fst := by
    rw [Overrides.put, Overrides.put, keys_putEntry, keys_putEntry]
  have hverboseFlag : lookup ("verbose" : String) (overrides.put field m).entries =
      lookup ("verbose" : String) (overrides.put field k).entries := by
    rw [lookup_put_of_ne overrides field m hverbose, lookup_put_of_ne overrides field k hverbose]
  apply keys_applyFlag_congr (keys_applyFlag_congr hkeys hverboseFlag)
  rw [lookup_applyFlag _ _ (by decide), lookup_applyFlag _ _ (by decide), isFlagged, isFlagged,
    hverboseFlag, lookup_put_of_ne overrides field m hquiet,
    lookup_put_of_ne overrides field k hquiet]

/-- What is merged when a caller gives a number for a count differs in the count alone from what is
merged when it gives one. -/
theorem differIn_overlay_put (hnames : (overrides.entries.map Prod.fst).Nodup) (n : Number)
    (lower : Entries) :
    DifferIn field n (overlay lower (applyFlags (overrides.put field n).entries))
      (overlay lower (applyFlags (overrides.put field (.int 1)).entries)) := by
  have hmem : field.name ∈ fieldNames := by cases field <;> decide
  have hgives : ∀ m, ∀ name ∈ fieldNames,
      lookup name (overlay lower (applyFlags (overrides.put field m).entries)) =
        (callerGives (overrides.put field m).entries name).or (lookup name lower) := by
    intro m name hname
    have hnodup : ((overrides.put field m).entries.map Prod.fst).Nodup :=
      nodup_putEntry (field.name : Text) (Value.number m) hnames
    obtain ⟨hquiet, hverbose⟩ := ne_flag_of_mem_fieldNames name hname
    rw [lookup_overlay (name : Text) lower (nodup_applyFlags hnodup),
      lookup_applyFlags _ hquiet hverbose]
  have hgiven : ∀ m, lookup field.name
      (overlay lower (applyFlags (overrides.put field m).entries)) = some (.number m) := by
    intro m
    rw [hgives m field.name hmem, callerGives_of_ne field.ne_flag.2.2, Overrides.put,
      lookup_putEntry_self]
    rfl
  refine ⟨keys_overlay_congr rfl (keys_applyFlags_put overrides field n (.int 1)), hgiven n,
    hgiven (.int 1), fun name hname hne => ?_⟩
  rw [hgives n name hname, hgives (.int 1) name hname, callerGives_put_of_ne overrides field n hne,
    callerGives_put_of_ne overrides field (.int 1) hne]

/-- A miscount that a caller gives is taken like a one: the same settings but for the count come of
it, or the same failure. -/
theorem load_put_miscount (host : Host) (file : Option NamedFile)
    (hnames : (overrides.entries.map Prod.fst).Nodup) {n : Number} (hn : n.IsMiscount) :
    load host file (overrides.put field n) =
      (load host file (overrides.put field (.int 1))).map (field.put n) := by
  rw [load, load, mergedEntries_eq_map host file (overrides.put field n).entries,
    mergedEntries_eq_map host file (overrides.put field (.int 1)).entries]
  rcases mergedEntries host file [] with _ | lower
  · rfl
  · exact (differIn_overlay_put overrides field hnames n lower).ofMerged_eq hn overrides.limits

end Put

/-- Settings that are loaded follow the sources and have fit limits. They are valid if and only if
no source gives a miscount for a count that no source before it gives; and a miscount that a caller
gives is taken like a one. -/
theorem load_isValid_iff (host : Host) (file : Option NamedFile) (overrides : Overrides)
    (hnames : (overrides.entries.map Prod.fst).Nodup) :
    (∀ settings, load host file overrides = .ok settings →
      AreLimits settings.limits.functions.values ∧ AreLimits settings.limits.files.values ∧
      ∃ tables : Tables, tables.Read host file ∧
        settings.Follows (firstGiven (sources host.environment overrides.entries tables))
          overrides.limits ∧
        (settings.IsValid ↔ ∀ (field : CountField) (n : Number),
          firstGiven (sources host.environment overrides.entries tables) field.name =
            some (.number n) → ¬n.IsMiscount)) ∧
    ∀ (field : CountField) (n : Number), n.IsMiscount →
      load host file (overrides.put field n) =
        (load host file (overrides.put field (.int 1))).map (field.put n) := by
  refine ⟨fun settings h => ⟨Bounds.areLimits _, Bounds.areLimits _, ?_⟩,
    fun field n hn => load_put_miscount overrides field host file hnames hn⟩
  obtain ⟨tables, htables, hfollows⟩ := follows_of_load hnames h
  obtain ⟨entries, _, hsettings⟩ := bind_eq_ok_iff.1 h
  exact ⟨tables, htables, hfollows, hfollows.isValid_iff fun _ _ => lt_one_of_ofMerged hsettings⟩

/-- A caller that gives both counts. -/
def countOverrides : Overrides where
  entries := [((CountField.workers.name : Text), .number (.int 2)),
    ((CountField.parallelThreshold.name : Text), .number (.int 5))]
  limits := none

/-- A host without variables, whose project has a settings file with a number of workers. -/
def workersHost (given : List UInt8) : Host := { sampleHost given with environment := [] }

/-- Settings with counts that a caller gives are loaded and valid. -/
theorem load_countOverrides :
    (countOverrides.entries.map Prod.fst).Nodup ∧
      ∃ settings, load (workersHost [49]) none countOverrides = .ok settings ∧
        settings.IsValid := by
  have hnames : (countOverrides.entries.map Prod.fst).Nodup := by decide
  have hok : (load (workersHost [49]) none countOverrides).toOption.isSome = true := by
    decide +kernel
  obtain ⟨settings, hload⟩ : ∃ settings, load (workersHost [49]) none countOverrides =
      .ok settings := by
    cases hload : load (workersHost [49]) none countOverrides with
    | ok settings => exact ⟨settings, rfl⟩
    | error failure =>
      rw [hload] at hok
      contradiction
  obtain ⟨-, -, tables, -, -, hvalid⟩ :=
    (load_isValid_iff (workersHost [49]) none countOverrides hnames).1 settings hload
  refine ⟨hnames, settings, hload, hvalid.2 fun field n hgiven hmiscount => ?_⟩
  cases field with
  | workers =>
    obtain rfl : Number.int 2 = n := Value.number.inj (Option.some.inj hgiven)
    contradiction
  | parallelThreshold =>
    obtain rfl : Number.int 5 = n := Value.number.inj (Option.some.inj hgiven)
    contradiction

/-- A settings file whose number of workers is NaN is accepted, and the settings are not valid. -/
theorem load_nan_workers :
    ∃ settings, load (workersHost [110, 97, 110]) none ⟨[], none⟩ = .ok settings ∧
      settings.workers = some (.real .nan) ∧ ¬settings.IsValid := by
  refine ⟨{ standard with workers := some (.real .nan) }, rfl, rfl, fun hvalid => ?_⟩
  exact Number.IsMiscount.nan.not_isCount (hvalid.counts .workers _ rfl)

end Settings

end SourceGauge
