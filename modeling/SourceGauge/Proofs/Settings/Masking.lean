import SourceGauge.Proofs.Settings.Sources

/-!
# Masked values

A value that a settings file gives is masked where a source before the file gives the same setting.
What is loaded is then the same whatever the file gives instead: the merged entries have the same
names in the same order, and the same values under all of them. Limits that a caller has read before
mask those of every file, although the names of the settings are told apart by nothing else.

Nothing is said of names that a file has and another lacks, only of the values under them.
-/

namespace SourceGauge.Settings

open Value (lookup)

/-! ## Replacing a value -/

/-- Entries with another value under a name. -/
def replaceValue (name : Text) (value : Value) (entries : Entries) : Entries :=
  entries.map fun entry => if entry.1 = name then (name, value) else entry

theorem keys_replaceValue (name : Text) (value : Value) (entries : Entries) :
    (replaceValue name value entries).map Prod.fst = entries.map Prod.fst := by
  rw [replaceValue, List.map_map]
  refine List.map_congr_left fun entry _ => ?_
  by_cases h : entry.1 = name
  · rw [Function.comp_apply, if_pos h, h]
  · rw [Function.comp_apply, if_neg h]

theorem lookup_replaceValue_of_ne {name other : Text} (h : other ≠ name) (value : Value)
    (entries : Entries) : lookup other (replaceValue name value entries) = lookup other entries := by
  induction entries with
  | nil => rfl
  | cons entry rest ih =>
    obtain ⟨found, held⟩ := entry
    rw [replaceValue, List.map_cons, ← replaceValue]
    by_cases hfound : found = name
    · rw [if_pos hfound, lookup_cons_of_ne (Ne.symm h), lookup_cons_of_ne (hfound ▸ Ne.symm h), ih]
    · rw [if_neg hfound]
      by_cases hother : found = other
      · subst hother
        rw [lookup_cons_self, lookup_cons_self]
      · rw [lookup_cons_of_ne hother, lookup_cons_of_ne hother, ih]

/-- The settings files, by their rank. -/
inductive FileRank
  | named
  | project
  | global
  deriving DecidableEq, Repr

/-- How many sources stand before a file. -/
def FileRank.before : FileRank → Nat
  | named => 2
  | project => 3
  | global => 4

/-- The tables with another value under a name of one of them. -/
def Tables.replace (tables : Tables) (rank : FileRank) (name : Text) (value : Value) : Tables :=
  match rank with
  | .named => { tables with named := replaceValue name value tables.named }
  | .project => { tables with project := replaceValue name value tables.project }
  | .global => { tables with global := replaceValue name value tables.global }

/-- Whether a setting is given by the caller's limits or by a source that stands before a file. -/
def IsMasked (environment : List (Text × Text)) (overrides : Overrides) (tables : Tables)
    (rank : FileRank) (name : Text) : Prop :=
  (name = limitsField ∧ overrides.limits.isSome) ∨
    (firstGiven ((sources environment overrides.entries tables).take rank.before) name).isSome

/-- What some of the first sources give is what all of them give. -/
theorem firstGiven_eq_of_take {given : List (Text → Option Value)} {count : Nat} {name : Text}
    (h : (firstGiven (given.take count) name).isSome) :
    firstGiven given name = firstGiven (given.take count) name := by
  obtain ⟨value, hvalue⟩ := Option.isSome_iff_exists.1 h
  have hsplit : firstGiven given name =
      (firstGiven (given.take count) name).or (firstGiven (given.drop count) name) := by
    rw [firstGiven, firstGiven, firstGiven, ← List.findSome?_append, List.take_append_drop]
  rw [hsplit, hvalue, Option.some_or]

/-- The sources before a file do not depend on what it gives. -/
theorem take_sources_replace (environment : List (Text × Text)) (caller : Entries)
    (tables : Tables) (rank : FileRank) (name : Text) (value : Value) :
    (sources environment caller (tables.replace rank name value)).take rank.before =
      (sources environment caller tables).take rank.before := by
  cases rank <;> rfl

/-- Merged entries have the same names in the same order when a value is replaced. -/
theorem keys_merged_replace (tables : Tables) (rank : FileRank) (name : Text) (value : Value)
    (environment caller : Entries) :
    (merged (tables.replace rank name value) environment caller).map Prod.fst =
      (merged tables environment caller).map Prod.fst := by
  have hkeys := keys_replaceValue name value
  refine keys_overlay_congr (keys_overlay_congr (keys_overlay_congr (keys_overlay_congr ?_ ?_) ?_)
    rfl) rfl
  all_goals cases rank <;> first | exact hkeys _ | rfl

/-! ## Loading -/

section Replace

variable {tables : Tables} {host other : Host} {file : Option NamedFile} {rank : FileRank}
  {name : Text} {value : Value} {environment caller : Entries}

/-- Under the other names stands what stood there. -/
theorem lookup_merged_replace_of_ne (h : tables.Read host file)
    (hother : (tables.replace rank name value).Read other file)
    (henvironment : ofVariables host.environment = .ok environment)
    (hsame : other.environment = host.environment) (hcaller : (caller.map Prod.fst).Nodup)
    {found : Text} (hfound : found ≠ name) :
    lookup found (merged (tables.replace rank name value) environment caller) =
      lookup found (merged tables environment caller) := by
  rw [lookup_merged hother (hsame ▸ henvironment) hcaller, lookup_merged h henvironment hcaller]
  cases rank <;> simp only [Tables.replace, lookup_replaceValue_of_ne hfound]

/-- Under a name that a source before the file gives stands what stood there. -/
theorem lookup_merged_replace_self (h : tables.Read host file)
    (hother : (tables.replace rank name value).Read other file)
    (henvironment : ofVariables host.environment = .ok environment)
    (hsame : other.environment = host.environment) (hcaller : (caller.map Prod.fst).Nodup)
    (hquiet : name ≠ ("quiet" : String)) (hverbose : name ≠ ("verbose" : String))
    (hgiven : (firstGiven ((sources host.environment caller tables).take rank.before) name).isSome) :
    lookup name (merged (tables.replace rank name value) environment caller) =
      lookup name (merged tables environment caller) := by
  rw [lookup_merged_eq_firstGiven hother (hsame ▸ henvironment) hcaller hquiet hverbose,
    lookup_merged_eq_firstGiven h henvironment hcaller hquiet hverbose, hsame,
    firstGiven_eq_of_take hgiven]
  rw [← take_sources_replace host.environment caller tables rank name value] at hgiven ⊢
  exact firstGiven_eq_of_take hgiven

end Replace

/-- Where the limits were read before, those among the merged entries are not looked at. -/
theorem ofMerged_congr_of_limits {entries others : Entries} (limits : Limits)
    (h : without limitsField entries = without limitsField others) :
    ofMerged entries (some limits) = ofMerged others (some limits) := by
  rw [ofMerged, ofMerged, mergedLimits, mergedLimits, h]

/-- A masked value may be any other: the same settings or the same failure come of it. -/
theorem load_replace {tables : Tables} {host other : Host} {file : Option NamedFile}
    {overrides : Overrides} {rank : FileRank} {name : String} {value : Value}
    (hnames : (overrides.entries.map Prod.fst).Nodup) (hname : name ∈ fieldNames)
    (h : tables.Read host file)
    (hother : (tables.replace rank name value).Read other file)
    (hsame : other.environment = host.environment)
    (hmasked : IsMasked host.environment overrides tables rank name) :
    load other file overrides = load host file overrides := by
  rw [load, load, mergedEntries_of_read h, mergedEntries_of_read hother, hsame]
  cases henvironment : ofVariables host.environment with
  | error failure => rfl
  | ok environment =>
    have hkeys := keys_merged_replace tables rank name value environment overrides.entries
    have hnodup := nodup_merged hother environment overrides.entries
    have hvalues := fun found (hfound : found ≠ (name : Text)) =>
      lookup_merged_replace_of_ne h hother henvironment hsame hnames hfound
    show ofMerged (merged (tables.replace rank name value) environment overrides.entries)
        overrides.limits = ofMerged (merged tables environment overrides.entries) overrides.limits
    rcases hmasked with ⟨hlimitsField, hlimits⟩ | hgiven
    · rw [hlimitsField] at hkeys hnodup hvalues ⊢
      obtain ⟨limits, hlimits⟩ := Option.isSome_iff_exists.1 hlimits
      rw [hlimits]
      refine ofMerged_congr_of_limits limits (eq_of_lookup (nodup_without hnodup _) ?_ ?_)
      · rw [keys_without, keys_without, hkeys]
      · intro found
        by_cases hfound : found = limitsField
        · subst hfound
          rw [lookup_without_self, lookup_without_self]
        · rw [lookup_without_of_ne hfound, lookup_without_of_ne hfound, hvalues found hfound]
    · refine congrArg (fun entries => ofMerged entries overrides.limits)
        (eq_of_lookup hnodup hkeys fun found => ?_)
      by_cases hfound : found = (name : Text)
      · obtain ⟨hquiet, hverbose⟩ := ne_flag_of_mem_fieldNames name hname
        rw [hfound]
        exact lookup_merged_replace_self h hother henvironment hsame hnames hquiet hverbose hgiven
      · exact hvalues found hfound

end SourceGauge.Settings
