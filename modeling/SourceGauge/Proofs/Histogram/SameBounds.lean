import Mathlib.Data.List.Basic
import SourceGauge.Histogram.Bounds

/-!
# Bounds as places on the line

Bounds are compared by where they lie: two lists of bounds are the same exactly if they name the
same places, so a whole number and a real may stand for each other. Whether numbers increase is a
matter of their places as well, and the values of bounds are accepted as the bounds that they are.
-/

namespace SourceGauge

namespace Number

/-- A number that lies somewhere is equal to the numbers that lie there. -/
theorem eqv_iff {a b : Number} {x : Extent} (h : a.extent? = some x) :
    a.eqv b = true ↔ a.extent? = b.extent? := by
  rw [eqv, h]
  cases hb : b.extent? with
  | none => simp
  | some y => simp

/-- The strict order looks at nothing but where numbers lie. -/
theorem lt_congr {a b c d : Number} (hac : a.extent? = c.extent?) (hbd : b.extent? = d.extent?) :
    a.lt b = c.lt d := by
  rw [lt, lt, hac, hbd]

/-- What is greater than a number is not at most it. -/
theorem not_le_of_lt {a b : Number} (h : a.lt b = true) : b.le a = false := by
  rw [lt] at h
  rw [le]
  cases ha : a.extent? with
  | none => simp [ha] at h
  | some x =>
    cases hb : b.extent? with
    | none => simp [ha, hb] at h
    | some y => simpa [ha, hb] using h

end Number

namespace Bounds

/-- Where bounds lie. -/
def places (bounds : Bounds) : List (Option Extent) := bounds.values.map Number.extent?

/-- Bounds are the same exactly if they lie in the same places. -/
theorem same_iff {a b : Bounds} : a.same b = true ↔ a.places = b.places := by
  have hsame : ∀ numbers others : List Number, (∀ n ∈ numbers, isBound n = true) →
      (sameNumbers numbers others = true ↔
        numbers.map Number.extent? = others.map Number.extent?) := by
    intro numbers
    induction numbers with
    | nil => intro others _; cases others <;> simp [sameNumbers]
    | cons n rest ih =>
      intro others hbound
      obtain ⟨x, hx⟩ := extent?_of_isBound (hbound n List.mem_cons_self)
      cases others with
      | nil => simp [sameNumbers]
      | cons other more =>
        rw [sameNumbers, Bool.and_eq_true, Number.eqv_iff hx,
          ih more fun m hm => hbound m (List.mem_cons_of_mem n hm), List.map_cons, List.map_cons,
          List.cons.injEq]
  exact hsame a.values b.values a.bound

/-- Bounds that are the same make up as many buckets. -/
theorem size_eq_of_same {a b : Bounds} (h : a.same b = true) : a.size = b.size := by
  have hplaces := congrArg List.length (same_iff.1 h)
  rwa [places, places, List.length_map, List.length_map] at hplaces

/-- Numbers in the places of increasing ones increase. -/
theorem pairwise_of_places {numbers others : List Number}
    (hplaces : numbers.map Number.extent? = others.map Number.extent?)
    (h : others.Pairwise fun a b => a.lt b = true) :
    numbers.Pairwise fun a b => a.lt b = true := by
  induction numbers generalizing others with
  | nil => exact .nil
  | cons n rest ih =>
    cases others with
    | nil => simp at hplaces
    | cons other more =>
      rw [List.map_cons, List.map_cons, List.cons.injEq] at hplaces
      obtain ⟨hfirst, hmore⟩ := List.pairwise_cons.1 h
      refine List.pairwise_cons.2 ⟨fun later hlater => ?_, ih hplaces.2 hmore⟩
      have hplace : later.extent? ∈ more.map Number.extent? :=
        hplaces.2 ▸ List.mem_map_of_mem hlater
      obtain ⟨found, hfound, hextent⟩ := List.mem_map.1 hplace
      rw [Number.lt_congr hplaces.1 hextent.symm]
      exact hfirst found hfound

/-- Among increasing numbers no neighbours fall. -/
theorem firstFall?_eq_none {numbers : List Number}
    (h : numbers.Pairwise fun a b => a.lt b = true) : firstFall? numbers = none := by
  induction numbers with
  | nil => rfl
  | cons a rest ih =>
    obtain ⟨hfirst, hrest⟩ := List.pairwise_cons.1 h
    cases rest with
    | nil => rfl
    | cons b others =>
      rw [firstFall?, Number.not_le_of_lt (hfirst b List.mem_cons_self), if_neg (by simp)]
      exact ih hrest

/-- What is accepted as a bound is the number that it is accepted as. -/
theorem eq_number_of_toBound {all : List Value} {value : Value} {n : Number}
    (h : toBound all value = .ok n) : value = .number n := by
  unfold toBound at h
  split at h
  · contradiction
  · split at h
    · rw [Except.ok.inj h]
    · contradiction
    · contradiction
  · contradiction

/-- A bound is accepted as itself. -/
theorem toBound_number (all : List Value) {n : Number} (h : isBound n = true) :
    toBound all (.number n) = .ok n := by
  have hfinite := isFinite?_of_isBound h
  cases n with
  | flag value => contradiction
  | int value =>
    rw [toBound, hfinite]
    simp
  | real x =>
    rw [toBound, hfinite]
    simp

/-- The values of bounds are accepted as these bounds. -/
theorem ofList_values (bounds : Bounds) : ofList (bounds.values.map .number) = .ok bounds := by
  have hvalues : mapOk (toBound (bounds.values.map .number)) (bounds.values.map .number) =
      .ok bounds.values := by
    rw [mapOk_map, mapOk_eq_ok_iff]
    exact List.map_congr_left fun n hn => toBound_number _ (bounds.bound n hn)
  unfold ofList
  split
  · rename_i hnil
    exact absurd (List.map_eq_nil_iff.1 hnil) bounds.nonempty
  · dsimp only
    split
    · rename_i herror
      rw [hvalues] at herror
      contradiction
    · rename_i numbers hnumbers
      obtain rfl : bounds.values = numbers := Except.ok.inj (hvalues.symm.trans hnumbers)
      split
      · rename_i hfall
        rw [firstFall?_eq_none bounds.increasing] at hfall
        contradiction
      · rw [dif_neg bounds.nonempty]

end Bounds

end SourceGauge
