/-!
# Sequences of outcomes

Applying an operation that may fail to every item of a list. The items are taken in order and
the first failure is the outcome; without one, the results stand in the order of the items.
-/

namespace SourceGauge

variable {ε α β : Type}

@[simp] theorem ok_bind (value : α) (next : α → Except ε β) :
    (Except.ok value).bind next = next value := rfl

@[simp] theorem error_bind (failure : ε) (next : α → Except ε β) :
    (Except.error failure).bind next = .error failure := rfl

/-- Going on from an outcome succeeds exactly if it is a success and what comes next is one. -/
theorem bind_eq_ok_iff {outcome : Except ε α} {next : α → Except ε β} {result : β} :
    outcome.bind next = .ok result ↔ ∃ value, outcome = .ok value ∧ next value = .ok result := by
  cases outcome <;> simp

/-- Going on from an outcome fails exactly if it is a failure or what comes next is one. -/
theorem bind_eq_error_iff {outcome : Except ε α} {next : α → Except ε β} {failure : ε} :
    outcome.bind next = .error failure ↔
      outcome = .error failure ∨ ∃ value, outcome = .ok value ∧ next value = .error failure := by
  cases outcome <;> simp

/-- An outcome that is carried on succeeds exactly if it did before. -/
theorem map_eq_ok_iff {outcome : Except ε α} {f : α → β} {result : β} :
    outcome.map f = .ok result ↔ ∃ value, outcome = .ok value ∧ f value = result := by
  cases outcome <;> simp [Except.map]

/-- An outcome that is carried on fails as it did before. -/
theorem map_eq_error_iff {outcome : Except ε α} {f : α → β} {failure : ε} :
    outcome.map f = .error failure ↔ outcome = .error failure := by
  cases outcome <;> simp [Except.map]

/-- An outcome whose failure is told otherwise succeeds exactly if it did before. -/
theorem mapError_eq_ok_iff {ε' : Type} {outcome : Except ε α} {f : ε → ε'} {result : α} :
    outcome.mapError f = .ok result ↔ outcome = .ok result := by
  cases outcome with
  | ok value => exact ⟨fun h => congrArg _ (Except.ok.inj h), fun h => congrArg _ (Except.ok.inj h)⟩
  | error cause => exact ⟨nofun, nofun⟩

/-- An outcome whose failure is told otherwise fails exactly if it did before. -/
theorem mapError_eq_error_iff {ε' : Type} {outcome : Except ε α} {f : ε → ε'} {failure : ε'} :
    outcome.mapError f = .error failure ↔ ∃ cause, outcome = .error cause ∧ f cause = failure := by
  cases outcome with
  | ok value => exact ⟨nofun, fun ⟨_, hcause, _⟩ => nomatch hcause⟩
  | error cause =>
    refine ⟨fun h => ⟨cause, rfl, Except.error.inj h⟩, ?_⟩
    rintro ⟨_, ⟨⟩, rfl⟩
    rfl

/-- The results of an operation on every item, or its first failure. -/
def mapOk (f : α → Except ε β) : List α → Except ε (List β)
  | [] => .ok []
  | item :: rest =>
    match f item with
    | .error failure => .error failure
    | .ok result =>
      match mapOk f rest with
      | .error failure => .error failure
      | .ok results => .ok (result :: results)

/-- All items succeed exactly when each one gives the result in its place. -/
theorem mapOk_eq_ok_iff {f : α → Except ε β} {items : List α} {results : List β} :
    mapOk f items = .ok results ↔ items.map f = results.map .ok := by
  induction items generalizing results with
  | nil => cases results <;> simp [mapOk]
  | cons item rest ih =>
    unfold mapOk
    cases hitem : f item with
    | error failure => cases results <;> simp [hitem]
    | ok result =>
      cases hrest : mapOk f rest with
      | error failure =>
        cases results with
        | nil => simp
        | cons first others =>
          have hno := @ih others
          simp only [hrest, reduceCtorEq, false_iff] at hno
          simp [hitem, hno]
      | ok found =>
        have hfound := (@ih found).1 hrest
        cases results with
        | nil => simp
        | cons first others =>
          have hother := @ih others
          simp only [hrest, Except.ok.injEq] at hother
          simp [hitem, hother]

/-- Operations that agree on the items have the same results. -/
theorem mapOk_congr {f g : α → Except ε β} {items : List α} (h : ∀ item ∈ items, f item = g item) :
    mapOk f items = mapOk g items := by
  induction items with
  | nil => rfl
  | cons item rest ih =>
    rw [mapOk, mapOk, h item List.mem_cons_self,
      ih fun other hother => h other (List.mem_cons_of_mem item hother)]

/-- Operations with the same successes on the items have the same lists of results. -/
theorem mapOk_eq_ok_congr {f g : α → Except ε β} {items : List α} {results : List β}
    (h : ∀ item ∈ items, ∀ result, f item = .ok result ↔ g item = .ok result) :
    mapOk f items = .ok results ↔ mapOk g items = .ok results := by
  rw [mapOk_eq_ok_iff, mapOk_eq_ok_iff]
  induction items generalizing results with
  | nil => rfl
  | cons item rest ih =>
    cases results with
    | nil => simp
    | cons result others =>
      rw [List.map_cons, List.map_cons, List.map_cons, List.cons.injEq, List.cons.injEq,
        h item List.mem_cons_self result, ih fun other hother => h other (by simp [hother])]

/-- An operation on items that are made of others is one on the others. -/
theorem mapOk_map {γ : Type} (f : α → Except ε β) (g : γ → α) (items : List γ) :
    mapOk f (items.map g) = mapOk (fun item => f (g item)) items := by
  induction items with
  | nil => rfl
  | cons item rest ih => rw [List.map_cons, mapOk, mapOk, ih]

/-- There are as many results as items. -/
theorem length_of_mapOk {f : α → Except ε β} {items : List α} {results : List β}
    (h : mapOk f items = .ok results) : results.length = items.length := by
  have hlengths := congrArg List.length (mapOk_eq_ok_iff.1 h)
  simpa using hlengths.symm

/-- Every result comes from an item. -/
theorem exists_of_mem_mapOk {f : α → Except ε β} {items : List α} {results : List β} {result : β}
    (h : mapOk f items = .ok results) (hresult : result ∈ results) :
    ∃ item ∈ items, f item = .ok result := by
  have hmem : Except.ok result ∈ items.map f := by
    rw [mapOk_eq_ok_iff.1 h]
    exact List.mem_map_of_mem hresult
  obtain ⟨item, hitem, heq⟩ := List.mem_map.1 hmem
  exact ⟨item, hitem, heq⟩

/-- Every item gives one of the results. -/
theorem exists_result_of_mapOk {f : α → Except ε β} {items : List α} {results : List β} {item : α}
    (h : mapOk f items = .ok results) (hitem : item ∈ items) :
    ∃ result ∈ results, f item = .ok result := by
  have hmem : f item ∈ results.map Except.ok := by
    rw [← mapOk_eq_ok_iff.1 h]
    exact List.mem_map_of_mem hitem
  obtain ⟨result, hresult, heq⟩ := List.mem_map.1 hmem
  exact ⟨result, hresult, heq.symm⟩

/-- What is known of each item from what becomes of it is known of all from the results. -/
theorem map_eq_map_of_mapOk {γ : Type} {f : α → Except ε β} {p : α → γ} {q : β → γ} {items : List α}
    {results : List β} (h : mapOk f items = .ok results)
    (hf : ∀ item result, f item = .ok result → p item = q result) :
    items.map p = results.map q := by
  have hresults := mapOk_eq_ok_iff.1 h
  clear h
  induction items generalizing results with
  | nil =>
    cases results with
    | nil => rfl
    | cons result rest => simp at hresults
  | cons item rest ih =>
    cases results with
    | nil => simp at hresults
    | cons result others =>
      rw [List.map_cons, List.map_cons, List.cons.injEq] at hresults
      rw [List.map_cons, List.map_cons, hf item result hresults.1, ih hresults.2]

/-- Items that are known from what becomes of them are known from the results. -/
theorem eq_map_of_mapOk {f : α → Except ε β} {g : β → α} {items : List α} {results : List β}
    (h : mapOk f items = .ok results)
    (hf : ∀ item result, f item = .ok result → item = g result) : items = results.map g :=
  (List.map_id items).symm.trans (map_eq_map_of_mapOk (p := id) h hf)

/-- A failure comes from the first item that does not succeed. -/
theorem mapOk_eq_error_iff {f : α → Except ε β} {items : List α} {failure : ε} :
    mapOk f items = .error failure ↔ ∃ before item after, items = before ++ item :: after ∧
      (∀ other ∈ before, ∃ result, f other = .ok result) ∧ f item = .error failure := by
  induction items with
  | nil => simp [mapOk]
  | cons first rest ih =>
    rw [mapOk]
    cases hfirst : f first with
    | error cause =>
      constructor
      · intro h
        exact ⟨[], first, rest, rfl, fun _ h => absurd h List.not_mem_nil,
          hfirst.trans (congrArg _ (Except.error.inj h))⟩
      · rintro ⟨before, item, after, hitems, hbefore, hitem⟩
        cases before with
        | nil =>
          obtain ⟨rfl, _⟩ := List.cons.inj hitems
          rw [hfirst] at hitem
          exact congrArg _ (Except.error.inj hitem)
        | cons other more =>
          obtain ⟨rfl, _⟩ := List.cons.inj hitems
          obtain ⟨result, hresult⟩ := hbefore first List.mem_cons_self
          rw [hfirst] at hresult
          contradiction
    | ok result =>
      have hrest : (∃ before item after, first :: rest = before ++ item :: after ∧
          (∀ other ∈ before, ∃ result, f other = .ok result) ∧ f item = .error failure) ↔
          mapOk f rest = .error failure := by
        rw [ih]
        constructor
        · rintro ⟨before, item, after, hitems, hbefore, hitem⟩
          cases before with
          | nil =>
            obtain ⟨rfl, _⟩ := List.cons.inj hitems
            rw [hfirst] at hitem
            contradiction
          | cons other more =>
            exact ⟨more, item, after, (List.cons.inj hitems).2,
              fun found hfound => hbefore found (List.mem_cons_of_mem other hfound), hitem⟩
        · rintro ⟨before, item, after, rfl, hbefore, hitem⟩
          refine ⟨first :: before, item, after, rfl, fun other hother => ?_, hitem⟩
          rcases List.mem_cons.1 hother with rfl | hother
          · exact ⟨result, hfirst⟩
          · exact hbefore other hother
      rw [hrest]
      cases mapOk f rest <;> simp

/-- A failure comes from an item. -/
theorem exists_of_mapOk_error {f : α → Except ε β} {items : List α} {failure : ε}
    (h : mapOk f items = .error failure) : ∃ item ∈ items, f item = .error failure := by
  obtain ⟨before, item, after, rfl, _, hitem⟩ := mapOk_eq_error_iff.1 h
  exact ⟨item, by simp, hitem⟩

end SourceGauge
