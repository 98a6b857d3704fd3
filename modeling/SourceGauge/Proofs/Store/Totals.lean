import Mathlib.Data.List.Forall2
import Mathlib.Data.List.Perm.Basic
import SourceGauge.Proofs.Histogram.SameBounds
import SourceGauge.Proofs.Number.Sums
import SourceGauge.RecordStore

/-!
# Totals over records

The totals of a store have a sum for each measure that some record holds, and for no other. The sum
is what adding the values comes to one after the other, in the order of the records and starting
from zero. Where all values under a measure are natural numbers with a sum of at most `2 ^ 53`, it is
that sum, in whatever order the records are.

Values that are no numbers, or whole numbers too large to be reals, have no totals.
-/

namespace SourceGauge

/-- The real that a value adds to a sum. -/
def Value.addend? (value : Value) : Option Binary64 := value.number?.bind Number.toBinary64?

/-- Whether a value is numerically equal to a natural number. -/
def Value.IsNatural (value : Value) (n : Nat) : Prop :=
  ∃ number, value.number? = some number ∧ number.eqv (.int n) = true

/-- The values that records hold under a measure, in the order of the records. -/
def FileRecord.measured (measure : Measure) (records : List FileRecord) : List Value :=
  records.filterMap fun record => record.measures.get? measure

/-- The entries of a map under a key are what is found under it. -/
theorem OrderedMap.map_filter_entries {α β : Type} [DecidableEq α] (map : OrderedMap α β)
    (key : α) : (map.entries.filter fun entry => entry.1 = key).map Prod.snd =
      (map.get? key).toList := by
  obtain ⟨entries, nodup⟩ := map
  rw [get?]
  dsimp only
  induction entries with
  | nil => rfl
  | cons entry rest ih =>
    rw [List.map_cons, List.nodup_cons] at nodup
    by_cases hkey : entry.1 = key
    · have hrest : (rest.filter fun other => other.1 = key) = [] := by
        rw [List.filter_eq_nil_iff]
        intro other hother heq
        have hsame : other.1 = entry.1 := (of_decide_eq_true heq).trans hkey.symm
        exact nodup.1 (hsame ▸ List.mem_map_of_mem hother)
      rw [List.filter_cons_of_pos (by simpa using hkey), List.find?_cons_of_pos (by simpa using hkey),
        hrest]
      rfl
    · rw [List.filter_cons_of_neg (by simpa using hkey), List.find?_cons_of_neg (by simpa using hkey)]
      exact ih nodup.2

namespace RecordStore

/-- One more addend; a sum starts from zero. -/
def addOne (sum : Option Binary64) (x : Binary64) : Option Binary64 :=
  some ((sum.getD (.zero false)).add x)

/-- Sums are there as soon as something was added. -/
theorem foldl_addOne_none (xs : List Binary64) :
    xs.foldl addOne none = if xs.isEmpty then none else some (xs.foldl .add (.zero false)) := by
  have hsome : ∀ (others : List Binary64) sum,
      others.foldl addOne (some sum) = some (others.foldl .add sum) := by
    intro others
    induction others with
    | nil => exact fun _ => rfl
    | cons x rest ih => exact fun sum => ih (sum.add x)
  cases xs with
  | nil => rfl
  | cons x rest => exact hsome rest _

/-- Adding a value that is a real makes up the next sum. -/
theorem addTo_of_addend? {value : Value} {x : Binary64} (h : value.addend? = some x)
    (sum : Binary64) : addTo sum value = .ok (sum.add x) := by
  obtain ⟨number, hnumber, hx⟩ := Option.bind_eq_some_iff.1 h
  simp only [addTo, hnumber, hx]

/-- Adding the measures of records leaves the sums of what each measure adds. -/
theorem addMeasures_of_addends {entries : List (Measure × Value)}
    (h : ∀ entry ∈ entries, entry.2.addend?.isSome = true) (totals : OrderedMap Measure Binary64) :
    ∃ sums, addMeasures totals entries = .ok sums ∧ ∀ measure, sums.get? measure =
      (((entries.filter fun entry => entry.1 = measure).map Prod.snd).filterMap
        Value.addend?).foldl addOne (totals.get? measure) := by
  induction entries generalizing totals with
  | nil => exact ⟨totals, rfl, fun _ => rfl⟩
  | cons entry rest ih =>
    obtain ⟨measure, value⟩ := entry
    obtain ⟨x, hx⟩ := Option.isSome_iff_exists.1 (h (measure, value) List.mem_cons_self)
    have hstep := addTo_of_addend? hx ((totals.get? measure).getD (.zero false))
    obtain ⟨sums, hsums, hget⟩ := ih (fun other hother => h other (List.mem_cons_of_mem _ hother))
      (totals.put measure (((totals.get? measure).getD (.zero false)).add x))
    refine ⟨sums, ?_, fun other => ?_⟩
    · rw [addMeasures, hstep]
      exact hsums
    · rw [hget]
      by_cases hother : measure = other
      · subst hother
        rw [OrderedMap.get?_put_self, List.filter_cons_of_pos (by simp), List.map_cons,
          List.filterMap_cons_some hx, List.foldl_cons, addOne]
      · rw [OrderedMap.get?_put_of_ne _ _ (Ne.symm hother),
          List.filter_cons_of_neg (by simpa using hother)]

/-- What totals say about records: which measures have a sum, what the sums are, and where they are
exact. -/
structure TotalsOf (totals : OrderedMap Measure Binary64) (records : List FileRecord) : Prop where
  mem_keys_iff : ∀ measure,
    measure ∈ totals.keys ↔ ∃ record ∈ records, measure ∈ record.measures.keys
  sum_eq : ∀ measure sum, totals.get? measure = some sum →
    sum = ((FileRecord.measured measure records).filterMap Value.addend?).foldl .add (.zero false)
  sum_eq_ofInt : ∀ measure sum counts, totals.get? measure = some sum →
    List.Forall₂ Value.IsNatural (FileRecord.measured measure records) counts →
    counts.sum ≤ exactLimit → sum = .ofInt (counts.sum : Nat)

/-- The values under a measure in the entries of all records are what the records hold under it. -/
theorem map_filter_flatMap_entries (measure : Measure) (records : List FileRecord) :
    (((records.flatMap fun record => record.measures.entries).filter fun entry =>
      entry.1 = measure).map Prod.snd) = FileRecord.measured measure records := by
  rw [List.filter_flatMap, List.map_flatMap, FileRecord.measured, List.filterMap_eq_flatMap_toList]
  refine congrArg (List.flatMap · records) (funext fun record => ?_)
  exact record.measures.map_filter_entries measure

/-- Values that are natural numbers add up to their sum. -/
theorem foldl_addends_naturals {values : List Value} {counts : List Nat}
    (h : List.Forall₂ Value.IsNatural values counts) (hsum : counts.sum ≤ exactLimit) :
    (values.filterMap Value.addend?).foldl Binary64.add (.zero false) =
      .ofInt (counts.sum : Nat) := by
  have haddends : (values.filterMap Value.addend?).map (fun x => (Number.real x).extent?) =
      counts.map fun n => some (.at ((n : Int) * unitsPerOne)) := by
    induction h with
    | nil => rfl
    | @cons value n others rest hvalue hrest ih =>
      rw [List.sum_cons] at hsum
      obtain ⟨number, hnumber, hequal⟩ := hvalue
      have hplace : number.extent? = (Number.int n).extent? := by
        rw [Number.eqv_comm] at hequal
        exact ((Number.eqv_iff rfl).1 hequal).symm
      obtain ⟨x, hx, hxplace⟩ := Number.toBinary64?_natural (by omega) hplace
      have haddend : value.addend? = some x := by rw [Value.addend?, hnumber]; exact hx
      rw [List.filterMap_cons_some haddend, List.map_cons, List.map_cons, hxplace, ih (by omega)]
  rw [Binary64.zero_eq_ofInt, Binary64.foldl_add_naturals haddends (by omega), Nat.zero_add]

/-- A store whose records hold nothing but reals has totals. -/
theorem totals_of_addends {store : RecordStore}
    (h : ∀ record ∈ store.all, ∀ entry ∈ record.measures.entries, entry.2.addend?.isSome = true) :
    ∃ totals, store.totals = .ok totals ∧ TotalsOf totals store.all := by
  have hentries : ∀ entry ∈ store.all.flatMap fun record => record.measures.entries,
      entry.2.addend?.isSome = true := by
    intro entry hentry
    obtain ⟨record, hrecord, hmem⟩ := List.mem_flatMap.1 hentry
    exact h record hrecord entry hmem
  obtain ⟨totals, htotals, hget⟩ := addMeasures_of_addends hentries .empty
  have hsum : ∀ measure, totals.get? measure =
      if ((FileRecord.measured measure store.all).filterMap Value.addend?).isEmpty then none
      else some (((FileRecord.measured measure store.all).filterMap Value.addend?).foldl .add
        (.zero false)) := by
    intro measure
    rw [hget, map_filter_flatMap_entries]
    exact foldl_addOne_none _
  have hsome : ∀ measure sum, totals.get? measure = some sum →
      sum = ((FileRecord.measured measure store.all).filterMap Value.addend?).foldl .add
        (.zero false) := by
    intro measure sum hfound
    rw [hsum] at hfound
    split at hfound
    · contradiction
    · exact (Option.some.inj hfound).symm
  refine ⟨totals, htotals, fun measure => ?_, hsome, fun measure sum counts hfound hcounts hlimit =>
    (hsome measure sum hfound).trans (foldl_addends_naturals hcounts hlimit)⟩
  have hkeys : measure ∈ totals.keys ↔
      ∃ x, x ∈ (FileRecord.measured measure store.all).filterMap Value.addend? := by
    rw [← OrderedMap.isSome_get?_iff, hsum]
    cases (FileRecord.measured measure store.all).filterMap Value.addend? with
    | nil => simp
    | cons x rest => simp
  rw [hkeys]
  constructor
  · rintro ⟨x, hx⟩
    obtain ⟨value, hvalue, _⟩ := List.mem_filterMap.1 hx
    obtain ⟨record, hrecord, hfound⟩ := List.mem_filterMap.1 hvalue
    exact ⟨record, hrecord, OrderedMap.mem_keys_of_get? hfound⟩
  · rintro ⟨record, hrecord, hmeasure⟩
    obtain ⟨entry, hentry, rfl⟩ := List.mem_map.1 hmeasure
    obtain ⟨x, hx⟩ := Option.isSome_iff_exists.1 (h record hrecord entry hentry)
    exact ⟨x, List.mem_filterMap.2 ⟨entry.2, List.mem_filterMap.2
      ⟨record, hrecord, OrderedMap.get?_of_mem_entries hentry⟩, hx⟩⟩

/-- Where values are natural numbers with a sum in the range, the order of the records does not
matter. -/
theorem TotalsOf.get?_eq_of_perm {totals others : OrderedMap Measure Binary64}
    {records otherRecords : List FileRecord} (h : TotalsOf totals records)
    (hothers : TotalsOf others otherRecords) (hperm : otherRecords.Perm records)
    {measure : Measure} {counts : List Nat}
    (hcounts : List.Forall₂ Value.IsNatural (FileRecord.measured measure records) counts)
    (hlimit : counts.sum ≤ exactLimit) : others.get? measure = totals.get? measure := by
  have hmeasured : (FileRecord.measured measure otherRecords).Perm
      (FileRecord.measured measure records) := hperm.filterMap _
  obtain ⟨shuffled, hshuffled, hcountsPerm⟩ := List.perm_comp_forall₂ hmeasured hcounts
  have hsum : shuffled.sum = counts.sum := hcountsPerm.sum_nat
  have hkeys : measure ∈ others.keys ↔ measure ∈ totals.keys := by
    rw [hothers.mem_keys_iff, h.mem_keys_iff]
    simp only [hperm.mem_iff]
  rw [← OrderedMap.isSome_get?_iff, ← OrderedMap.isSome_get?_iff] at hkeys
  cases hother : others.get? measure with
  | none =>
    cases hfound : totals.get? measure with
    | none => rfl
    | some sum => simp [hother, hfound] at hkeys
  | some otherSum =>
    cases hfound : totals.get? measure with
    | none => simp [hother, hfound] at hkeys
    | some sum =>
      rw [h.sum_eq_ofInt measure sum counts hfound hcounts hlimit,
        hothers.sum_eq_ofInt measure otherSum shuffled hother hshuffled (hsum ▸ hlimit), hsum]

end RecordStore

end SourceGauge
