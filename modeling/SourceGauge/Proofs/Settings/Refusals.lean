import SourceGauge.Proofs.Settings.Precedence

/-!
# Refused settings

What merged entries are refused for. Every refusal is a complaint about a setting, but for two: the
value to be refused may be one that cannot be shown, and a bucket bound may be a number that cannot
be rounded. Either is a part of a value that was given. A value of the wrong kind is a misfit at
first, and becomes a complaint about the settings as a whole.

Nothing is said of which refusal comes first where there are several.
-/

namespace SourceGauge

/-- A value and what it is made of. -/
inductive Value.Part : Value → Value → Prop
  | self (value : Value) : Part value value
  | item {part item : Value} {items : List Value} (hitem : item ∈ items) (h : Part part item) :
    Part part (.list items)
  | entry {part : Value} {entry : Text × Value} {entries : List (Text × Value)}
    (hentry : entry ∈ entries) (h : Part part entry.2) : Part part (.table entries)

/-- A part of a part is a part. -/
theorem Value.Part.trans {part middle whole : Value} (h : part.Part middle)
    (hmiddle : middle.Part whole) : part.Part whole := by
  induction hmiddle with
  | self => exact h
  | item hitem _ ih => exact .item hitem ih
  | entry hentry _ ih => exact .entry hentry ih

namespace Settings

open Value (lookup)

/-! ## Values -/

/-- A part of the value of an entry. -/
def IsGiven (entries : Entries) (part : Value) : Prop := ∃ entry ∈ entries, part.Part entry.2

/-- A failure that comes of values: a complaint about a setting, or that there is a value that cannot
be shown or a number that cannot be rounded. -/
inductive ComesOf (given : Value → Prop) : Failure → Prop
  | setting (key : Text) (value : Value) (fault : SettingFault) :
    ComesOf given (.setting key value fault)
  | unshowable {value : Value} {failure : Failure} (hgiven : given value)
    (h : Failure.unshowable? value = some failure) : ComesOf given failure
  | unbounded {n : Number} (hgiven : given (.number n)) (h : n.isFinite? = none) :
    ComesOf given (.overflow .real)

/-- The same failure comes of more values. -/
theorem ComesOf.mono {given more : Value → Prop} {failure : Failure} (h : ComesOf given failure)
    (hmore : ∀ value, given value → more value) : ComesOf more failure := by
  cases h with
  | setting key value fault => exact .setting key value fault
  | unshowable hgiven h => exact .unshowable (hmore _ hgiven) h
  | unbounded hgiven h => exact .unbounded (hmore _ hgiven) h

/-- Refusing a value that is given is a complaint about a setting unless it cannot be shown. -/
theorem comesOf_ofSetting {given : Value → Prop} {key : Text} {value : Value}
    {fault : SettingFault} (hgiven : given value) :
    ComesOf given (Failure.ofSetting key value fault) := by
  unfold Failure.ofSetting
  cases hshown : Failure.unshowable? value with
  | none => exact .setting key value fault
  | some failure => exact .unshowable hgiven hshown

/-- A value that is found is given. -/
theorem isGiven_of_lookup {entries : Entries} {name : Text} {value : Value}
    (h : lookup name entries = some value) : IsGiven entries value :=
  ⟨(name, value), mem_of_lookup h, .self value⟩

theorem isGiven_of_field? {entries : Entries} {name : Text} {value : Value}
    (h : Value.field? name entries = some value) : IsGiven entries value := by
  unfold Value.field? at h
  split at h
  · contradiction
  · exact isGiven_of_lookup h

/-- A part of a value that is given is given. -/
theorem IsGiven.part {entries : Entries} {part value : Value} (h : IsGiven entries value)
    (hpart : part.Part value) : IsGiven entries part := by
  obtain ⟨entry, hentry, hvalue⟩ := h
  exact ⟨entry, hentry, hpart.trans hvalue⟩

/-- What a value yields are its items, or texts. -/
theorem elements?_cases {value : Value} {items : List Value} (h : value.elements? = some items) :
    value = .list items ∨ ∃ texts : List Text, items = texts.map .text := by
  cases value with
  | text text =>
    exact .inr ⟨text.points.map fun point => ⟨[point]⟩, by
      rw [List.map_map]
      exact (Option.some.inj h).symm⟩
  | list held => exact .inl (congrArg Value.list (Option.some.inj h))
  | table entries =>
    exact .inr ⟨entries.map Prod.fst, by
      rw [List.map_map]
      exact (Option.some.inj h).symm⟩
  | _ => contradiction

/-- A list of texts can be shown. -/
theorem unshowable?_texts (texts : List Text) :
    Failure.unshowable? (.list (texts.map .text)) = none := by
  apply Failure.unshowable?_list
  intro item hitem
  obtain ⟨text, -, rfl⟩ := List.mem_map.1 hitem
  exact ⟨rfl, rfl⟩

/-! ## Fields -/

section Fields

variable {entries : Entries} {name : String} {failure : Failure}

theorem comesOf_of_readTexts (h : readTexts name entries = .error failure) :
    ComesOf (IsGiven entries) failure ∨ ∃ cause, failure = .misfit cause := by
  unfold readTexts at h
  split at h
  · contradiction
  · rw [← Except.error.inj h]
    exact .inl (.setting _ _ _)
  · rename_i value _ hvalue
    rcases bind_eq_error_iff.1 h with helements | ⟨items, hitems, hfailure⟩
    · exact .inr (Value.misfit_of_elements helements)
    · obtain ⟨item, hitem, hrefused⟩ := exists_of_mapOk_error hfailure
      unfold textOf at hrefused
      split at hrefused
      · contradiction
      · rename_i other hother
        rw [← Except.error.inj hrefused]
        refine .inl (comesOf_ofSetting ?_)
        rcases elements?_cases (elements?_of_elements hitems) with rfl | ⟨texts, rfl⟩
        · exact (isGiven_of_lookup hvalue).part (.item hitem (.self item))
        · obtain ⟨text, _, rfl⟩ := List.mem_map.1 hitem
          exact absurd rfl (hother text)

theorem comesOf_of_atLeastOne {value : Value} (hgiven : IsGiven entries value)
    (h : atLeastOne name value = .error failure) :
    ComesOf (IsGiven entries) failure ∨ ∃ cause, failure = .misfit cause := by
  unfold atLeastOne at h
  split at h
  · exact .inr ⟨_, (Except.error.inj h).symm⟩
  · split at h
    · rw [← Except.error.inj h]
      exact .inl (comesOf_ofSetting hgiven)
    · contradiction

theorem comesOf_of_readWorkers (h : readWorkers entries = .error failure) :
    ComesOf (IsGiven entries) failure ∨ ∃ cause, failure = .misfit cause := by
  unfold readWorkers at h
  split at h
  · contradiction
  · rename_i value hvalue
    exact comesOf_of_atLeastOne (isGiven_of_field? hvalue) (map_eq_error_iff.1 h)

theorem comesOf_of_readThreshold (h : readThreshold entries = .error failure) :
    ComesOf (IsGiven entries) failure ∨ ∃ cause, failure = .misfit cause := by
  unfold readThreshold at h
  split at h
  · contradiction
  · rename_i value hvalue
    exact comesOf_of_atLeastOne (isGiven_of_lookup hvalue) h

theorem comesOf_of_readVerbosity (h : readVerbosity entries = .error failure) :
    ComesOf (IsGiven entries) failure := by
  unfold readVerbosity at h
  split at h
  · contradiction
  · rename_i value hvalue
    split at h
    · contradiction
    · rw [← Except.error.inj h]
      exact comesOf_ofSetting (isGiven_of_lookup hvalue)

theorem comesOf_of_readLogFile (h : readLogFile entries = .error failure) :
    ComesOf (IsGiven entries) failure := by
  unfold readLogFile at h
  split at h
  · contradiction
  · contradiction
  · rename_i value _ hvalue
    rw [← Except.error.inj h]
    exact comesOf_ofSetting (isGiven_of_field? hvalue)

/-- A name that cannot be given is a misfit. -/
theorem misfit_of_checkNames {owner : String} {known : List String}
    (h : checkNames owner known entries = .error failure) : ∃ cause, failure = .misfit cause := by
  unfold checkNames at h
  split at h
  · contradiction
  · split at h
    · exact ⟨_, (Except.error.inj h).symm⟩
    · exact ⟨_, (Except.error.inj h).symm⟩

/-- Settings are refused for what their fields are given, or for a misfit. -/
theorem comesOf_of_ofEntries {limits : Limits} (h : ofEntries entries limits = .error failure) :
    ComesOf (IsGiven entries) failure ∨ ∃ cause, failure = .misfit cause := by
  rcases bind_eq_error_iff.1 h with h | ⟨_, _, h⟩
  · exact .inr (misfit_of_checkNames h)
  rcases bind_eq_error_iff.1 h with h | ⟨_, _, h⟩
  · exact comesOf_of_readTexts h
  rcases bind_eq_error_iff.1 h with h | ⟨_, _, h⟩
  · exact comesOf_of_readTexts h
  rcases bind_eq_error_iff.1 h with h | ⟨_, _, h⟩
  · exact comesOf_of_readWorkers h
  rcases bind_eq_error_iff.1 h with h | ⟨_, _, h⟩
  · exact comesOf_of_readThreshold h
  rcases bind_eq_error_iff.1 h with h | ⟨_, _, h⟩
  · exact .inl (comesOf_of_readVerbosity h)
  rcases bind_eq_error_iff.1 h with h | ⟨_, _, h⟩
  · exact .inl (comesOf_of_readLogFile h)
  · contradiction

end Fields

/-! ## Limits -/

/-- Refusing bounds is a complaint about them unless they cannot be shown. -/
theorem comesOf_ofBounds {items : List Value} {fault : BoundsFault} {failure : Failure}
    (h : Failure.ofBounds items fault = failure) :
    (∃ fault, failure = .bounds items fault) ∨
      ComesOf (fun part => part.Part (.list items)) failure := by
  subst h
  unfold Failure.ofBounds
  cases hshown : Failure.unshowable? (.list items) with
  | none => exact .inl ⟨fault, rfl⟩
  | some failure => exact .inr (.unshowable (.self _) hshown)

theorem comesOf_of_toBound {items : List Value} {item : Value} {failure : Failure}
    (hitem : item ∈ items) (h : Bounds.toBound items item = .error failure) :
    (∃ fault, failure = .bounds items fault) ∨
      ComesOf (fun part => part.Part (.list items)) failure := by
  unfold Bounds.toBound at h
  split at h
  · exact comesOf_ofBounds (Except.error.inj h)
  · rename_i n _
    split at h
    · contradiction
    · exact comesOf_ofBounds (Except.error.inj h)
    · rename_i hunbounded
      rw [← Except.error.inj h]
      exact .inr (.unbounded (.item hitem (.self _)) hunbounded)
  · exact comesOf_ofBounds (Except.error.inj h)

/-- Bounds that are refused are a complaint about them, or cannot be shown or rounded. -/
theorem comesOf_of_ofList {items : List Value} {failure : Failure}
    (h : Bounds.ofList items = .error failure) :
    (∃ fault, failure = .bounds items fault) ∨
      ComesOf (fun part => part.Part (.list items)) failure := by
  unfold Bounds.ofList at h
  split at h
  · exact .inl ⟨_, (Except.error.inj h).symm⟩
  · dsimp only at h
    split at h
    · rename_i hfailure
      obtain ⟨item, hitem, hrefused⟩ := exists_of_mapOk_error hfailure
      exact comesOf_of_toBound hitem (Except.error.inj h ▸ hrefused)
    · split at h
      · exact comesOf_ofBounds (Except.error.inj h)
      · split at h
        · exact comesOf_ofBounds (Except.error.inj h)
        · contradiction

/-- What comes of the items that a value yields comes of the value. -/
theorem ComesOf.of_elements {value : Value} {items : List Value} {failure : Failure}
    (hitems : value.elements? = some items)
    (h : ComesOf (fun part => part.Part (.list items)) failure) :
    ComesOf (fun part => part.Part value) failure := by
  rcases elements?_cases hitems with rfl | ⟨texts, rfl⟩
  · exact h
  · cases h with
    | setting key value fault => exact .setting key value fault
    | unshowable hpart hshown =>
      cases hpart with
      | self => rw [unshowable?_texts] at hshown; contradiction
      | item hitem hpart =>
        obtain ⟨text, _, rfl⟩ := List.mem_map.1 hitem
        cases hpart
        contradiction
    | unbounded hpart _ =>
      cases hpart with
      | item hitem hpart =>
        obtain ⟨text, _, rfl⟩ := List.mem_map.1 hitem
        contradiction

theorem comesOf_of_readField {name : String} {standard : Bounds} {entries : Entries}
    {failure : Failure} (h : Limits.readField name standard entries = .error failure) :
    (∃ cause, failure = .misfit cause) ∨ ∃ value, lookup name entries = some value ∧
      ComesOf (fun part => part.Part value) failure := by
  unfold Limits.readField at h
  split at h
  · contradiction
  · rename_i value hvalue
    split at h
    · contradiction
    · rw [← Except.error.inj h]
      exact .inr ⟨value, hvalue, .setting _ _ _⟩
    · rename_i other hnotBounds hrefused
      obtain rfl := Except.error.inj h
      rcases bind_eq_error_iff.1 hrefused with helements | ⟨items, hitems, hlist⟩
      · exact .inl (Value.misfit_of_elements helements)
      · rcases comesOf_of_ofList hlist with ⟨fault, rfl⟩ | hcomes
        · exact absurd rfl (hnotBounds _ _)
        · exact .inr ⟨value, hvalue, hcomes.of_elements (elements?_of_elements hitems)⟩

theorem comesOf_of_limitsEntries {entries : Entries} {failure : Failure}
    (h : Limits.ofEntries entries = .error failure) :
    (∃ cause, failure = .misfit cause) ∨ ∃ name value, lookup name entries = some value ∧
      ComesOf (fun part => part.Part value) failure := by
  rcases bind_eq_error_iff.1 h with h | ⟨_, _, h⟩
  · exact .inl (misfit_of_checkNames h)
  rcases bind_eq_error_iff.1 h with h | ⟨_, _, h⟩
  · exact (comesOf_of_readField h).imp_right fun hfield => ⟨_, hfield⟩
  rcases bind_eq_error_iff.1 h with h | ⟨_, _, h⟩
  · exact (comesOf_of_readField h).imp_right fun hfield => ⟨_, hfield⟩
  · contradiction

/-- Limits are refused for what their table holds. -/
theorem comesOf_of_limitsOf {value : Value} {failure : Failure}
    (h : limitsOf value = .error failure) : ComesOf (fun part => part.Part value) failure := by
  unfold limitsOf at h
  split at h
  · rename_i table
    rcases bind_eq_error_iff.1 h with hshape | ⟨entries, hentries, h⟩
    · obtain ⟨entry, _, hrefused⟩ := exists_of_mapOk_error hshape
      unfold checkShape at hrefused
      split at hrefused
      · contradiction
      · rw [← Except.error.inj hrefused]
        exact comesOf_ofSetting (.self _)
    · split at h
      · rw [← Except.error.inj h]
        exact comesOf_ofSetting (.self _)
      · rename_i hnotMisfit
        rcases comesOf_of_limitsEntries h with ⟨cause, rfl⟩ | ⟨name, value, hvalue, hcomes⟩
        · exact absurd h (hnotMisfit cause)
        · rcases lookup_checkShape hentries name with ⟨_, hnone⟩ | ⟨held, items, hheld, hitems, hlist⟩
          · rw [hnone] at hvalue
            contradiction
          · obtain rfl := Option.some.inj (hlist.symm.trans hvalue)
            obtain ⟨entry, hentry, hpart⟩ := isGiven_of_lookup hheld
            exact (hcomes.of_elements hitems).mono fun part h => .entry hentry (h.trans hpart)
  · rw [← Except.error.inj h]
    exact comesOf_ofSetting (.self _)

/-! ## Merged entries -/

/-- Merged entries are refused for what they hold. -/
theorem comesOf_of_ofMerged {entries : Entries} {given : Option Limits} {failure : Failure}
    (h : ofMerged entries given = .error failure) : ComesOf (IsGiven entries) failure := by
  rcases bind_eq_error_iff.1 h with hlimits | ⟨limits, _, h⟩
  · unfold mergedLimits at hlimits
    split at hlimits
    · contradiction
    · split at hlimits
      · contradiction
      · rename_i value hvalue
        exact (comesOf_of_limitsOf (map_eq_error_iff.1 hlimits)).mono fun part hpart =>
          (isGiven_of_field? hvalue).part hpart
  · dsimp only at h
    split at h
    · rw [← Except.error.inj h]
      exact .setting _ _ _
    · rename_i hnotMisfit
      rcases comesOf_of_ofEntries h with hcomes | ⟨cause, rfl⟩
      · refine hcomes.mono fun part ⟨entry, hentry, hpart⟩ => ⟨entry, ?_, hpart⟩
        exact List.mem_of_mem_filter hentry
      · exact absurd h (hnotMisfit cause)

end Settings

end SourceGauge
