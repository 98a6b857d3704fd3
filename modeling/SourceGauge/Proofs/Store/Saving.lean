import SourceGauge.Proofs.Session.Histories
import SourceGauge.Proofs.Store.Distributions
import SourceGauge.Proofs.Store.Latest
import SourceGauge.Proofs.Store.Totals

/-!
# What a store says about the records that were saved

A store counts each key once, with the record that was saved last under it, whatever was saved
before: its keys, what is found under them, the totals and the merged distributions are told by the
records that stand. Records that were replaced show nowhere, and which of the standing records was
saved first shows in the order of the keys alone.

Totals are independent of the order where they are exact; other sums of reals are those of the
order in which the keys first came.
-/

namespace SourceGauge

open FileRecord

/-- The two distribution measures, and where a record holds their histograms. -/
def FileRecord.distributions : List (Measure × (FileRecord → Histogram)) :=
  [(.functionComplexityDistribution, functionComplexity),
    (.fileComplexityDistribution, fileComplexity)]

/-- Records hold the histograms of the distribution measures. -/
theorem FileRecord.histogram_of_mem_distributions {measure : Measure}
    {held : FileRecord → Histogram} (h : (measure, held) ∈ distributions) (record : FileRecord) :
    record.histogram measure = .ok (held record) := by
  simp only [distributions, List.mem_cons, Prod.mk.injEq, List.not_mem_nil, or_false] at h
  rcases h with ⟨rfl, rfl⟩ | ⟨rfl, rfl⟩ <;> rfl

/-- Whether records hold nothing but reals under their measures. -/
def FileRecord.Addable (records : List FileRecord) : Prop :=
  ∀ record ∈ records, ∀ entry ∈ record.measures.entries, entry.2.addend?.isSome = true

/-- How many things records count under a distribution measure. -/
def FileRecord.countedBy (held : FileRecord → Histogram) (records : List FileRecord) : Nat :=
  (records.map fun record => (held record).total).sum

/-- Something stands exactly if something was saved. -/
theorem FileRecord.standing_eq_nil_iff (records : List FileRecord) :
    standing records = [] ↔ records = [] := by
  constructor
  · intro h
    cases records with
    | nil => rfl
    | cons record rest =>
      have hlisted : record.identity? ∈ identities (record :: rest) :=
        List.mem_eraseDups.2 (List.mem_map_of_mem List.mem_cons_self)
      have hlast := List.filterMap_eq_nil_iff.1 h _ hlisted
      have hmem : record ∈ under record.identity? (record :: rest) :=
        List.mem_filter.2 ⟨List.mem_cons_self, by simp⟩
      rw [List.getLast?_eq_none_iff.1 hlast] at hmem
      exact absurd hmem List.not_mem_nil
  · rintro rfl
    rfl

namespace RecordStore

/-- What a store says about the records that were saved in it one after the other. -/
structure AccountsFor (store : RecordStore) (records : List FileRecord) : Prop where
  keys_eq : store.keys = distinctKeys records
  get_eq : ∀ key, key.IsKey → store.get key =
    match (under (key.identity? 0) records).getLast? with
    | some record => .ok record
    | none => .error (.missingKey key.full)
  saved_again : (store.saveAll records).outcome = .ok store
  totals : Addable (standing records) →
    ∃ totals, store.totals = .ok totals ∧ TotalsOf totals (standing records)
  distribution : ∀ measure held, (measure, held) ∈ distributions →
    countedBy held (standing records) < signedWordLimit →
    MergesTo (store.distribution measure) ((standing records).map held)
  none_iff : ∀ measure held, (measure, held) ∈ distributions →
    countedBy held (standing records) < signedWordLimit →
    (store.distribution measure = .ok none ↔ records = [])

/-- Stores in which the same records stand agree on merged counts and on exact totals, whatever was
saved before and in whatever order. -/
structure AgreeOn (store other : RecordStore) (records : List FileRecord) : Prop where
  counts_eq : ∀ measure held, (measure, held) ∈ distributions →
    countedBy held records < signedWordLimit →
    (other.distribution measure).toOption.map (·.map Histogram.counts) =
      (store.distribution measure).toOption.map (·.map Histogram.counts)
  totals_eq : ∀ totals others measure counts, store.totals = .ok totals →
    other.totals = .ok others → Addable records →
    List.Forall₂ Value.IsNatural (measured measure records) counts →
    counts.sum ≤ exactLimit → others.get? measure = totals.get? measure

/-- A store into which records were put accounts for them. -/
theorem accountsFor_putAll {records : List FileRecord}
    (hkeys : ∀ record ∈ records, record.key.IsKey) :
    (empty.putAll records).AccountsFor records := by
  have hall := all_putAll_eq hkeys
  have hmerges : ∀ measure held, (measure, held) ∈ distributions →
      countedBy held (standing records) < signedWordLimit →
      MergesTo ((empty.putAll records).distribution measure) ((standing records).map held) := by
    intro measure held hmeasure hlimit
    rw [distribution, hall]
    exact mergesTo_of_lt (fun record _ => histogram_of_mem_distributions hmeasure record) hlimit
  refine ⟨keys_putAll_eq hkeys, fun key hkey => get_putAll hkeys hkey, ?_, fun haddable => ?_,
    hmerges, fun measure held hmeasure hlimit => ?_⟩
  · rw [outcome_saveAll_of_hashable _ fun record hrecord => (hkeys record hrecord).1,
      putAll_putAll hkeys]
  · rw [← hall] at haddable ⊢
    exact totals_of_addends haddable
  · rw [(hmerges measure held hmeasure hlimit).none_iff, List.map_eq_nil_iff, standing_eq_nil_iff]

/-- After any sequence of saves a store accounts for the records that were saved, and it agrees with
every store in which the same records stand. -/
theorem accountsFor_of_saves {records : List FileRecord}
    (hkeys : ∀ record ∈ records, record.key.IsKey) :
    ∃ store, (empty.saveAll records).outcome = .ok store ∧ store.AccountsFor records ∧
      ∀ others other, (∀ record ∈ others, record.key.IsKey) →
        (empty.saveAll others).outcome = .ok other → (standing others).Perm (standing records) →
        store.AgreeOn other (standing records) := by
  have hsaved : ∀ saved : List FileRecord, (∀ record ∈ saved, record.key.IsKey) →
      (empty.saveAll saved).outcome = .ok (empty.putAll saved) := fun saved h =>
    outcome_saveAll_of_hashable empty fun record hrecord => (h record hrecord).1
  have haccounts := accountsFor_putAll hkeys
  refine ⟨empty.putAll records, hsaved records hkeys, haccounts, fun others other hothers hother
    hperm => ?_⟩
  have hotherAccounts : other.AccountsFor others := by
    rw [hsaved others hothers] at hother
    exact Except.ok.inj hother ▸ accountsFor_putAll hothers
  constructor
  · intro measure held hmeasure hlimit
    have hcounted : countedBy held (standing others) = countedBy held (standing records) :=
      (hperm.map _).sum_nat
    exact (haccounts.distribution measure held hmeasure hlimit).counts_eq_of_perm
      (hotherAccounts.distribution measure held hmeasure (hcounted ▸ hlimit)) (hperm.map held)
  · intro totals otherTotals measure counts htotals hotherTotals haddable hcounts hlimit
    obtain ⟨found, hfound, htotalsOf⟩ := haccounts.totals haddable
    obtain ⟨otherFound, hotherFound, hotherTotalsOf⟩ := hotherAccounts.totals
      fun record hrecord => haddable record (hperm.mem_iff.1 hrecord)
    rw [htotals] at hfound
    rw [hotherTotals] at hotherFound
    obtain rfl := Except.ok.inj hfound
    obtain rfl := Except.ok.inj hotherFound
    exact htotalsOf.get?_eq_of_perm hotherTotalsOf hperm hcounts hlimit

/-- A record with a number of lines and so many things in each of two buckets. -/
def sampleRecord (name : String) (lines below above : Nat) : FileRecord :=
  let histogram : Histogram := {
    measure := .fileComplexityDistribution
    bounds := {
      values := [.int 0, .int 5]
      nonempty := List.cons_ne_nil _ _
      bound := by decide +kernel
      increasing := by decide +kernel }
    counts := [below, above]
    mode := .memory
    size_eq := rfl }
  ⟨.text name, ⟨[(.lines, .number (.int lines))], by simp⟩, histogram, histogram⟩

/-- Saves of two files, the first of them twice. -/
def sampleSaves : List FileRecord :=
  [sampleRecord "b" 3 1 0, sampleRecord "a" 4 2 1, sampleRecord "b" 5 0 7]

/-- The sample counts the first file with what was saved last for it, and agrees with the store in
which the two files were saved once and the other way round. -/
theorem accountsFor_sampleSaves :
    (∀ record ∈ sampleSaves, record.key.IsKey) ∧
      ∃ store other, (empty.saveAll sampleSaves).outcome = .ok store ∧
        (empty.saveAll (sampleSaves.drop 1)).outcome = .ok other ∧
        store.keys = [.text "b", .text "a"] ∧
        (∃ totals, store.totals = .ok totals ∧ totals.get? .lines = some (.ofInt (9 : Nat))) ∧
        (∃ merged, store.distribution .fileComplexityDistribution = .ok (some merged) ∧
          merged.counts[1]? = some 8) ∧
        (other.distribution .fileComplexityDistribution).toOption.map (·.map Histogram.counts) =
          (store.distribution .fileComplexityDistribution).toOption.map
            (·.map Histogram.counts) := by
  have hkeys : ∀ record ∈ sampleSaves, record.key.IsKey := by
    simp [sampleSaves, sampleRecord, Value.isKey_text]
  have hstanding : standing sampleSaves = [sampleRecord "b" 5 0 7, sampleRecord "a" 4 2 1] := rfl
  have hothers : ∀ record ∈ sampleSaves.drop 1, record.key.IsKey := fun record hrecord =>
    hkeys record (List.mem_of_mem_drop hrecord)
  have hother : (empty.saveAll (sampleSaves.drop 1)).outcome =
      .ok (empty.putAll (sampleSaves.drop 1)) :=
    outcome_saveAll_of_hashable empty fun record hrecord => (hothers record hrecord).1
  have hperm : (standing (sampleSaves.drop 1)).Perm (standing sampleSaves) := List.Perm.swap _ _ _
  have hmeasure : (Measure.fileComplexityDistribution, FileRecord.fileComplexity) ∈
      distributions := by simp [distributions]
  have hlimit : countedBy FileRecord.fileComplexity (standing sampleSaves) <
      signedWordLimit := by decide +kernel
  have haddable : Addable (standing sampleSaves) := by
    rw [hstanding]
    unfold Addable
    decide +kernel
  obtain ⟨store, hstore, haccounts, hagrees⟩ := accountsFor_of_saves hkeys
  obtain ⟨totals, htotals, htotalsOf⟩ := haccounts.totals haddable
  refine ⟨hkeys, store, _, hstore, hother, haccounts.keys_eq, ⟨totals, htotals, ?_⟩, ?_,
    (hagrees _ _ hothers hother hperm).counts_eq _ _ hmeasure hlimit⟩
  · have hnaturals : List.Forall₂ Value.IsNatural (measured .lines (standing sampleSaves)) [5, 4] :=
      .cons ⟨.int 5, rfl, by decide +kernel⟩ (.cons ⟨.int 4, rfl, by decide +kernel⟩ .nil)
    have hpresent : Measure.lines ∈ totals.keys :=
      (htotalsOf.mem_keys_iff .lines).2 ⟨sampleRecord "a" 4 2 1, by simp [hstanding], by decide⟩
    obtain ⟨sum, hsum⟩ := Option.isSome_iff_exists.1 (OrderedMap.isSome_get?_iff.2 hpresent)
    have hnine : [5, 4].sum = 9 := rfl
    rw [hsum, htotalsOf.sum_eq_ofInt .lines sum [5, 4] hsum hnaturals (by decide), hnine]
  · have hsame : ∀ a ∈ (standing sampleSaves).map FileRecord.fileComplexity,
        ∀ b ∈ (standing sampleSaves).map FileRecord.fileComplexity,
          a.bounds.same b.bounds = true := by
      rw [hstanding]
      decide +kernel
    obtain ⟨merged, hmerged, hbounds, hbuckets⟩ :=
      (haccounts.distribution _ _ hmeasure hlimit).sums (by simp [hstanding]) hsame
    have hsize : merged.bounds.size = 2 := Bounds.size_eq_of_same (hbounds _ List.mem_cons_self)
    exact ⟨merged, hmerged, (hbuckets 1 (by omega)).trans rfl⟩

end RecordStore

end SourceGauge
