import Mathlib.Algebra.Ring.Int.Defs
import SourceGauge.Proofs.Settings.Refusals

/-!
# The promise of loading settings

Loading settings promises to fail with nothing but a complaint about a setting or about a path. It
keeps the promise unless a failure escapes, and these are the causes for which one does: the home
directory is not known, a settings file is not named by a path or cannot be looked for, its octets
are no text, a number in it is too long or its values are nested too deep, a value that is refused
cannot be shown, or a bucket bound cannot be rounded. All of them lie in what is given, and none in
how it is merged.

Nothing is said of which cause comes first where there are several.
-/

namespace SourceGauge

/-- Whether loading settings promises a failure: a complaint about a setting or about a path. -/
def Failure.isPromised (failure : Failure) : Bool :=
  match failure.report with
  | .inl complaint => complaint.kind == .invalidSetting || complaint.kind == .invalidPath
  | .inr _ => false

namespace Settings

/-! ## Causes -/

/-- Whether an outcome of loading settings is promised: settings, or a promised failure. -/
def keepsPromise (outcome : Except Failure Settings) : Bool :=
  match outcome with
  | .ok _ => true
  | .error failure => failure.isPromised

theorem isPromised_setting (key : Text) (value : Value) (fault : SettingFault) :
    (Failure.setting key value fault).isPromised = true := rfl

theorem isPromised_path (path : Path) (fault : PathFault) :
    (Failure.path path fault).isPromised = true := rfl

/-- A path under which settings are looked for. -/
def IsSettingsPath (host : Host) (file : Option NamedFile) (path : Path) : Prop :=
  globalPath host = .ok path ∨ path = projectPath host ∨ file = some (.path path)

/-- A failure that is not promised, with its cause in what is given. -/
inductive Escapes (host : Host) (file : Option NamedFile) (overrides : Overrides) : Failure → Prop
  | noHome (h : host.home = none) : Escapes host file overrides .noHome
  | notAPath {typeName : String} (h : file = some (.other typeName)) :
    Escapes host file overrides (.noMember typeName "exists")
  | unreachable {path : Path} {failure : Failure} (hpath : IsSettingsPath host file path)
    (h : host.lookAt path = .error failure) : Escapes host file overrides failure
  | undecodable {path : Path} {octets : List UInt8} {fault : Utf8.Fault}
    (hpath : IsSettingsPath host file path) (hread : host.readFile path = .ok octets)
    (h : Utf8.decode octets = .error fault) : Escapes host file overrides (.undecodable fault)
  | tooManyDigits {path : Path} {text : List Char} {count : Nat}
    (hpath : IsSettingsPath host file path) (hread : host.readText path = .ok text)
    (h : Toml.read text = .error (.tooManyDigits count)) :
    Escapes host file overrides (.value (.tooManyDigits count))
  | tooDeep {path : Path} {text : List Char} (hpath : IsSettingsPath host file path)
    (hread : host.readText path = .ok text) (h : Toml.read text = .error .tooDeep) :
    Escapes host file overrides (.nesting .settings)
  | unshowable {entries : Entries} {value : Value} {failure : Failure}
    (hmerged : mergedEntries host file overrides.entries = .ok entries)
    (hgiven : IsGiven entries value) (h : Failure.unshowable? value = some failure) :
    Escapes host file overrides failure
  | unbounded {entries : Entries} {n : Number}
    (hmerged : mergedEntries host file overrides.entries = .ok entries)
    (hgiven : IsGiven entries (.number n)) (h : n.isFinite? = none) :
    Escapes host file overrides (.overflow .real)

/-! ## Settings files -/

section Files

variable {host : Host} {file : Option NamedFile} {overrides : Overrides} {path : Path}
  {failure : Failure}

/-- A file that is there is refused with a complaint about it, or for its content. -/
theorem escapes_of_readFile (hpath : IsSettingsPath host file path)
    (hexists : host.exists? path = .ok true) (h : readFile host path = .error failure) :
    failure.isPromised = true ∨ Escapes host file overrides failure := by
  obtain ⟨found, hfound, hsome⟩ := map_eq_ok_iff.1 hexists
  have husable : Host.unusable? path = none := by
    unfold Host.lookAt at hfound
    split at hfound
    · obtain rfl := Except.ok.inj hfound
      contradiction
    · assumption
  unfold readFile at h
  split at h
  · rw [← Except.error.inj h]
    exact .inl (isPromised_setting _ _ _)
  · rename_i other hnotSystem hrefused
    obtain rfl := Except.error.inj h
    rcases bind_eq_error_iff.1 hrefused with hread | ⟨octets, hread, hdecode⟩
    · unfold Host.readFile at hread
      rw [husable] at hread
      obtain ⟨fault, _, rfl⟩ := mapError_eq_error_iff.1 hread
      exact absurd rfl (hnotSystem _ _)
    · obtain ⟨fault, hfault, rfl⟩ := mapError_eq_error_iff.1 hdecode
      exact .inr (.undecodable hpath hread hfault)
  · rename_i text htext
    split at h
    · contradiction
    · rw [← Except.error.inj h]
      exact .inl (isPromised_setting _ _ _)
    · rename_i hdigits
      rw [← Except.error.inj h]
      exact .inr (.tooManyDigits hpath htext hdigits)
    · rename_i hdeep
      rw [← Except.error.inj h]
      exact .inr (.tooDeep hpath htext hdeep)

theorem escapes_of_exists? (hpath : IsSettingsPath host file path)
    (h : host.exists? path = .error failure) : Escapes host file overrides failure :=
  .unreachable hpath (map_eq_error_iff.1 h)

theorem escapes_of_readOptional (hpath : IsSettingsPath host file path)
    (h : readOptional host path = .error failure) :
    failure.isPromised = true ∨ Escapes host file overrides failure := by
  rcases bind_eq_error_iff.1 h with hexists | ⟨found, hexists, h⟩
  · exact .inr (escapes_of_exists? hpath hexists)
  · cases found with
    | true => exact escapes_of_readFile hpath hexists h
    | false => contradiction

theorem escapes_of_readExplicit (h : readExplicit host file = .error failure) :
    failure.isPromised = true ∨ Escapes host file overrides failure := by
  unfold readExplicit at h
  split at h
  · contradiction
  · rw [← Except.error.inj h]
    exact .inr (.notAPath rfl)
  · rename_i path
    rcases bind_eq_error_iff.1 h with hexists | ⟨found, hexists, h⟩
    · exact .inr (escapes_of_exists? (.inr (.inr rfl)) hexists)
    · cases found with
      | true => exact escapes_of_readFile (.inr (.inr rfl)) hexists h
      | false =>
        rw [← Except.error.inj h]
        exact .inl (isPromised_path _ _)

/-- A variable that cannot be read is a complaint about the setting. -/
theorem isPromised_of_ofVariables {environment : List (Text × Text)}
    (h : ofVariables environment = .error failure) : failure.isPromised = true := by
  obtain ⟨form, _, hrefused⟩ := exists_of_mapOk_error (map_eq_error_iff.1 h)
  unfold variableEntry at hrefused
  dsimp only at hrefused
  split at hrefused
  · contradiction
  · split at hrefused
    · contradiction
    · rw [← Except.error.inj hrefused]
      exact isPromised_setting _ _ _

/-- Merging fails with a promised complaint, or a failure escapes from a file. -/
theorem escapes_of_mergedEntries
    (h : mergedEntries host file overrides.entries = .error failure) :
    failure.isPromised = true ∨ Escapes host file overrides failure := by
  rcases bind_eq_error_iff.1 h with hhome | ⟨path, hpath, h⟩
  · unfold globalPath at hhome
    split at hhome
    · rename_i hnone
      rw [← Except.error.inj hhome]
      exact .inr (.noHome hnone)
    · contradiction
  rcases bind_eq_error_iff.1 h with hglobal | ⟨_, _, h⟩
  · exact escapes_of_readOptional (.inl hpath) hglobal
  rcases bind_eq_error_iff.1 h with hproject | ⟨_, _, h⟩
  · exact escapes_of_readOptional (.inr (.inl rfl)) hproject
  rcases bind_eq_error_iff.1 h with hnamed | ⟨_, _, h⟩
  · exact escapes_of_readExplicit hnamed
  rcases bind_eq_error_iff.1 h with henvironment | ⟨_, _, h⟩
  · exact .inl (isPromised_of_ofVariables henvironment)
  · contradiction

/-- A failure that escapes is not promised. -/
theorem Escapes.isPromised_eq_false (h : Escapes host file overrides failure) :
    failure.isPromised = false := by
  cases h with
  | unreachable _ h =>
    unfold Host.lookAt at h
    split at h
    · contradiction
    · obtain ⟨fault, _, rfl⟩ := mapError_eq_error_iff.1 h
      rfl
  | unshowable _ _ h =>
    rcases Failure.cause_of_unshowable? h with rfl | rfl <;> rfl
  | _ => rfl

/-- Loading fails with a promised complaint, or a failure escapes. -/
theorem escapes_of_load (h : load host file overrides = .error failure) :
    failure.isPromised = true ∨ Escapes host file overrides failure := by
  rcases bind_eq_error_iff.1 h with hmerged | ⟨entries, hmerged, h⟩
  · exact escapes_of_mergedEntries hmerged
  · cases comesOf_of_ofMerged h with
    | setting key value fault => exact .inl (isPromised_setting key value fault)
    | unshowable hgiven hshown => exact .inr (.unshowable hmerged hgiven hshown)
    | unbounded hgiven hunbounded => exact .inr (.unbounded hmerged hgiven hunbounded)

end Files

/-- Loading settings keeps its promise exactly where no failure escapes: a failure that is no
complaint about a setting or about a path has one of the causes that are listed, and a failure that
has one of them is no such complaint. -/
theorem load_keeps_promise_iff (host : Host) (file : Option NamedFile) (overrides : Overrides) :
    keepsPromise (load host file overrides) = true ↔
      ∀ failure, load host file overrides = .error failure →
        ¬Escapes host file overrides failure := by
  cases hload : load host file overrides with
  | ok settings => exact ⟨fun _ => nofun, fun _ => rfl⟩
  | error failure =>
    constructor
    · rintro hpromised _ ⟨⟩ hescapes
      exact Bool.false_ne_true (hescapes.isPromised_eq_false.symm.trans hpromised)
    · intro hnone
      exact (escapes_of_load hload).resolve_right (hnone failure rfl)

/-- A caller that gives a bound beyond all reals. -/
def sampleLimits : Overrides where
  entries := [((limitsField : Text),
    .table [((Limits.filesField : Text), .list [.number (.int (10 ^ 400))])])]
  limits := none

/-- Two failures escape: of a settings file with an octet that is no text, and of a bound that
cannot be rounded. -/
theorem load_breaks_promise :
    load (sampleHost [49, 255]) none ⟨[], none⟩ =
        .error (.undecodable ⟨9, [255], .invalidStart⟩) ∧
      keepsPromise (load (sampleHost [49, 255]) none ⟨[], none⟩) = false ∧
      keepsPromise (load (sampleHost [49]) none sampleLimits) = false :=
  ⟨rfl, rfl, by decide +kernel⟩

end Settings

end SourceGauge
