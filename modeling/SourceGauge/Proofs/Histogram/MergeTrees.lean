import SourceGauge.Proofs.Histogram.Feeding
import SourceGauge.Proofs.Histogram.Merging

/-!
# Trees of merges

Groups of calls are counted by a builder of their own each, and the histograms are merged in pairs,
in any order and with any grouping: a tree with the groups at its leaves. As long as fewer than
`2 ^ 63` things are counted altogether, the histogram at the root is that of one builder that is
fed all that was counted, in any order. A group that counts nothing is the empty histogram, which
changes nothing.

Nothing is assumed about the values or the bounds: each value falls into its bucket whatever else
is counted, also where the search rounds.
-/

namespace SourceGauge

/-- Groups of calls, and how their histograms are merged. -/
inductive MergeTree
  | group (calls : List Builder.Call)
  | join (left right : MergeTree)

/-- The tally of nothing is the empty histogram. -/
theorem Histogram.tallied_nil (measure : Measure) (bounds : Bounds) :
    tallied measure bounds [] = .empty measure bounds := by
  simp only [tallied, empty, bounds.tally_nil]

namespace MergeTree

/-- The histogram at the root of a tree, each group being counted by a builder of its own. -/
def histogram (measure : Measure) (bounds : Bounds) : MergeTree → Except Failure Histogram
  | group calls => ((Builder.new measure bounds).callAll calls).build.2
  | join left right => do
    let first ← left.histogram measure bounds
    let second ← right.histogram measure bounds
    first.merge second

/-- All that is counted in the groups of a tree. -/
def accepted : MergeTree → List (Number × Nat)
  | group calls => Builder.accepted calls
  | join left right => left.accepted ++ right.accepted

variable (measure : Measure) (bounds : Bounds)

/-- The histogram at the root is that of all that is counted. -/
theorem histogram_eq_tallied {tree : MergeTree}
    (h : timesCounted tree.accepted < signedWordLimit) :
    tree.histogram measure bounds = .ok (.tallied measure bounds tree.accepted) := by
  induction tree with
  | group calls => exact Builder.build_callAll measure bounds h
  | join left right ihLeft ihRight =>
    have hsum : timesCounted left.accepted + timesCounted right.accepted < signedWordLimit := by
      rw [← timesCounted_append]
      exact h
    have hleft := ihLeft (by omega)
    have hright := ihRight (by omega)
    rw [histogram, hleft, hright]
    exact Histogram.merge_tallied measure bounds h

/-- Merging with the empty histogram changes nothing, on either side. -/
theorem merge_empty {adds : List (Number × Nat)} (h : timesCounted adds < signedWordLimit) :
    (Histogram.tallied measure bounds adds).merge (.empty measure bounds) =
        .ok (.tallied measure bounds adds) ∧
      (Histogram.empty measure bounds).merge (.tallied measure bounds adds) =
        .ok (.tallied measure bounds adds) := by
  have hright : timesCounted (adds ++ []) < signedWordLimit := by
    rw [List.append_nil]
    exact h
  have hmerged := Histogram.merge_tallied measure bounds hright
  rw [List.append_nil] at hmerged
  rw [← Histogram.tallied_nil]
  exact ⟨hmerged, Histogram.merge_tallied measure bounds h⟩

/-- Any tree of merges comes to the histogram of one builder that is fed, in any order, all that is
counted in the groups, and a group that counts nothing may be left out or added. -/
theorem histogram_eq_single_pass (measure : Measure) (bounds : Bounds) {tree : MergeTree}
    {calls : List Builder.Call} (hsplit : (Builder.accepted calls).Perm tree.accepted)
    (hcounts : timesCounted tree.accepted < signedWordLimit) :
    ∃ histogram, tree.histogram measure bounds = .ok histogram ∧
      ((Builder.new measure bounds).callAll calls).build.2 = .ok histogram ∧
      histogram.merge (.empty measure bounds) = .ok histogram ∧
      (Histogram.empty measure bounds).merge histogram = .ok histogram ∧
      ∀ idle, Builder.accepted idle = [] →
        (group idle).histogram measure bounds = .ok (.empty measure bounds) ∧
        (join tree (group idle)).histogram measure bounds = .ok histogram ∧
        (join (group idle) tree).histogram measure bounds = .ok histogram := by
  have htree := tree.histogram_eq_tallied measure bounds hcounts
  have hcalls : timesCounted (Builder.accepted calls) < signedWordLimit := by
    rw [timesCounted_perm hsplit]
    exact hcounts
  obtain ⟨hright, hleft⟩ := merge_empty measure bounds hcounts
  refine ⟨_, htree, ?_, hright, hleft, fun idle hidle => ?_⟩
  · rw [Builder.build_callAll measure bounds hcalls, Histogram.tallied_perm measure bounds hsplit]
  · have hempty : (group idle).histogram measure bounds = .ok (.empty measure bounds) := by
      rw [histogram_eq_tallied, accepted, hidle, Histogram.tallied_nil]
      rw [accepted, hidle]
      decide
    refine ⟨hempty, ?_, ?_⟩
    · rw [histogram, htree, hempty]
      exact hright
    · rw [histogram, htree, hempty]
      exact hleft

/-- The last calls of the sample and no calls, merged with its first calls. -/
def sampleTree : MergeTree :=
  .join (.join (.group (Builder.sampleCalls.drop 2)) (.group []))
    (.group (Builder.sampleCalls.take 2))

/-- The groups of the sample come to what its calls come to in one builder. -/
theorem histogram_sampleTree :
    (Builder.accepted Builder.sampleCalls).Perm sampleTree.accepted ∧
      timesCounted sampleTree.accepted < signedWordLimit ∧
      ∃ histogram,
        sampleTree.histogram .fileComplexityDistribution Builder.sampleBounds = .ok histogram ∧
        ((Builder.new .fileComplexityDistribution Builder.sampleBounds).callAll
          Builder.sampleCalls).build.2 = .ok histogram := by
  have hsplit : (Builder.accepted Builder.sampleCalls).Perm sampleTree.accepted := by
    decide +kernel
  have hcounts : timesCounted sampleTree.accepted < signedWordLimit := by decide +kernel
  obtain ⟨histogram, htree, hcalls, _⟩ :=
    histogram_eq_single_pass .fileComplexityDistribution Builder.sampleBounds hsplit hcounts
  exact ⟨hsplit, hcounts, histogram, htree, hcalls⟩

end MergeTree

end SourceGauge
