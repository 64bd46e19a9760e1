import IdlBindings.Generation.SideBySide
import IdlBindings.Proofs.Sequence

/-!
Steps that are taken side by side. They succeed exactly when the same steps succeed in
order, and with the same results. Where they fail, the error is that of one of the items:
which one, the choice alone decides.
-/

namespace IdlBindings.ErrorChoice

variable {α β ε : Type} (choice : ErrorChoice ε)

/-- Reports the given error wherever it is among those to choose from. -/
def preferring [DecidableEq ε] (error : ε) : ErrorChoice ε where
  pick first rest := if error ∈ first :: rest then error else first
  pick_mem first rest := by
    split
    · assumption
    · exact List.mem_cons_self

theorem mem_errors_iff {results : List (Except ε α)} {error : ε} :
    error ∈ errors results ↔ .error error ∈ results := by
  rw [errors, List.mem_filterMap]
  constructor
  · rintro ⟨result, hmem, hresult⟩
    cases result with
    | ok value => cases hresult
    | error found =>
        cases hresult
        exact hmem
  · exact fun hmem => ⟨_, hmem, rfl⟩

variable {choice} in
theorem mem_of_collect_eq_error {results : List (Except ε α)} {error : ε}
    (h : choice.collect results = .error error) : .error error ∈ results := by
  rw [collect] at h
  rw [← mem_errors_iff]
  cases herrors : errors results with
  | nil =>
      rw [herrors] at h
      cases h
  | cons first rest =>
      rw [herrors] at h
      cases h
      exact choice.pick_mem first rest

theorem collect_cons_ok (value : α) (results : List (Except ε α)) :
    choice.collect (.ok value :: results) = (choice.collect results).map (value :: ·) := by
  have herrors : errors (.ok value :: results) = errors results := rfl
  rw [collect, collect, herrors]
  cases errors results with
  | nil => rfl
  | cons first rest => rfl

/-- Taken side by side, steps end as they do in order, except that the choice puts its
error in the place of the first. -/
theorem collect_map (step : α → Except ε β) (items : List α) :
    choice.collect (items.map step) =
      (items.mapM step).mapError fun first =>
        choice.pick first (errors (items.map step)).tail := by
  induction items with
  | nil => rfl
  | cons item items ih =>
      rw [List.map_cons, List.mapM_cons]
      cases step item with
      | error error => rfl
      | ok value =>
          have herrors : errors (.ok value :: items.map step) = errors (items.map step) := rfl
          rw [collect_cons_ok, ih, herrors]
          cases items.mapM step with
          | error error => rfl
          | ok values => rfl

/-- The error of a traversal that fails with `first` in order. -/
def reported (choice : ErrorChoice ε) (sideBySide : Bool) (results : List (Except ε α))
    (first : ε) : ε :=
  if sideBySide then choice.pick first (errors results).tail else first

theorem traverse_eq (sideBySide : Bool) (step : α → Except ε β) (items : List α) :
    choice.traverse sideBySide step items =
      (items.mapM step).mapError (choice.reported sideBySide (items.map step)) := by
  cases sideBySide with
  | true => exact choice.collect_map step items
  | false =>
      change items.mapM step = (items.mapM step).mapError fun first => first
      cases items.mapM step with
      | error error => rfl
      | ok values => rfl

variable {choice} {sideBySide : Bool} {step : α → Except ε β} {items : List α}

theorem traverse_eq_ok_iff {results : List β} :
    choice.traverse sideBySide step items = .ok results ↔
      List.Forall₂ (fun item result => step item = .ok result) items results := by
  rw [traverse_eq, Sequence.mapError_eq_ok_iff, Sequence.mapM_eq_ok_iff]

theorem traverse_first (sideBySide : Bool) (step : α → Except ε β) (items : List α) :
    first.traverse sideBySide step items = items.mapM step := by
  have hfirst : first.reported sideBySide (items.map step) = fun error => error := by
    funext error
    cases sideBySide with
    | true => rfl
    | false => rfl
  rw [traverse_eq, hfirst]
  cases items.mapM step with
  | error error => rfl
  | ok values => rfl

/-- A traversal fails with the error of an item. In order, or where the choice is for the
first error, all items before it have succeeded. -/
theorem traverse_eq_error {error : ε} (h : choice.traverse sideBySide step items = .error error) :
    ∃ before item after, items = before ++ item :: after ∧ step item = .error error ∧
      (sideBySide = false ∨ choice = .first →
        ∀ earlier ∈ before, ∃ result, step earlier = .ok result) := by
  by_cases hfirst : sideBySide = false ∨ choice = .first
  · have hordered : items.mapM step = .error error := by
      rcases hfirst with rfl | rfl
      · exact h
      · rw [← h, traverse_first]
    obtain ⟨before, item, after, hitems, hbefore, hitem⟩ := Sequence.mapM_eq_error hordered
    exact ⟨before, item, after, hitems, hitem, fun _ => hbefore⟩
  · obtain ⟨hparallel, -⟩ := not_or.mp hfirst
    have hcollect : choice.collect (items.map step) = .error error := by
      rw [← h, traverse, if_pos (by simpa using hparallel)]
    obtain ⟨item, hitem, hfailed⟩ := List.mem_map.mp (mem_of_collect_eq_error hcollect)
    obtain ⟨before, after, hitems⟩ := List.append_of_mem hitem
    exact ⟨before, item, after, hitems, hfailed, fun hordered => absurd hordered hfirst⟩

/-- Side by side, any of the errors can be the one that is reported. -/
theorem traverse_preferring [DecidableEq ε] {error : ε} {item : α} (hitem : item ∈ items)
    (hfailed : step item = .error error) :
    (preferring error).traverse true step items = .error error := by
  have hmem : error ∈ errors (items.map step) :=
    mem_errors_iff.mpr (List.mem_map.mpr ⟨item, hitem, hfailed⟩)
  change (preferring error).collect (items.map step) = .error error
  rw [collect]
  cases herrors : errors (items.map step) with
  | nil =>
      rw [herrors] at hmem
      cases hmem
  | cons first rest =>
      rw [herrors] at hmem
      exact congrArg Except.error (if_pos hmem)

theorem traverse_comp {ι : Type} (step : α → Except ε β) (f : ι → α) (items : List ι) :
    choice.traverse sideBySide step (items.map f) =
      choice.traverse sideBySide (step ∘ f) items := by
  rw [traverse, traverse, List.map_map, List.mapM_map]

section Change

variable {γ : Type} {other : α → Except ε γ}

theorem errors_map {change : α → β → γ} (h : ∀ item, other item = (step item).map (change item))
    (items : List α) : errors (items.map other) = errors (items.map step) := by
  induction items with
  | nil => rfl
  | cons item items ih =>
      rw [List.map_cons, List.map_cons, h]
      cases step item with
      | error error => exact congrArg (List.cons error) ih
      | ok value => exact ih

/-- Steps with the same errors whose results in order differ by a change differ by it in any
traversal, and they report the same error. -/
theorem traverse_of_mapM {change : List β → List γ}
    (hresults : items.mapM other = (items.mapM step).map change)
    (herrors : errors (items.map other) = errors (items.map step)) :
    choice.traverse sideBySide other items =
      (choice.traverse sideBySide step items).map change := by
  have hreported : choice.reported sideBySide (items.map other) =
      choice.reported sideBySide (items.map step) := by
    funext error
    rw [reported, reported, herrors]
  rw [traverse_eq, traverse_eq, hreported, hresults]
  cases items.mapM step with
  | error error => rfl
  | ok values => rfl

theorem traverse_map {change : β → γ} (h : ∀ item, other item = (step item).map change)
    (items : List α) :
    choice.traverse sideBySide other items =
      (choice.traverse sideBySide step items).map (List.map change) :=
  traverse_of_mapM (Sequence.mapM_map h items) (errors_map h items)

theorem traverse_zipWith {change : α → β → γ}
    (h : ∀ item, other item = (step item).map (change item)) (items : List α) :
    choice.traverse sideBySide other items =
      (choice.traverse sideBySide step items).map (List.zipWith change items) :=
  traverse_of_mapM (Sequence.mapM_zipWith h items) (errors_map h items)

end Change

end IdlBindings.ErrorChoice
