import Mathlib.Data.List.Forall2

/-!
Steps that may fail, taken in order. A sequence succeeds when every step does,
and fails with the error of the first step that fails, before which all steps
have succeeded.
-/

namespace IdlBindings.Sequence

variable {α β ε ε' : Type}

theorem bind_eq_ok_iff {first : Except ε α} {next : α → Except ε β} {result : β} :
    (first >>= next) = .ok result ↔ ∃ a, first = .ok a ∧ next a = .ok result := by
  cases first with
  | error e => simp [bind, Except.bind]
  | ok a => simp [bind, Except.bind]

/-- Two steps fail with the error of the one that fails first. -/
theorem bind_eq_error_iff {first : Except ε α} {next : α → Except ε β} {error : ε} :
    first >>= next = .error error ↔
      first = .error error ∨ ∃ a, first = .ok a ∧ next a = .error error := by
  cases first with
  | error e => simp [Bind.bind, Except.bind]
  | ok a => simp [Bind.bind, Except.bind]

theorem map_eq_ok_iff {f : α → β} {x : Except ε α} {b : β} :
    x.map f = .ok b ↔ ∃ a, x = .ok a ∧ f a = b := by
  cases x with
  | error e => simp [Except.map]
  | ok a => simp [Except.map]

theorem map_eq_error_iff {f : α → β} {x : Except ε α} {error : ε} :
    x.map f = .error error ↔ x = .error error := by
  cases x with
  | error e => simp [Except.map]
  | ok a => simp [Except.map]

theorem exists_map_eq_ok_iff {f : α → β} {x : Except ε α} :
    (∃ b, x.map f = .ok b) ↔ ∃ a, x = .ok a := by
  cases x with
  | error e => simp [Except.map]
  | ok a => simp [Except.map]

theorem mapError_eq_ok_iff {f : ε → ε'} {x : Except ε α} {a : α} :
    x.mapError f = .ok a ↔ x = .ok a := by
  cases x with
  | error e => simp [Except.mapError]
  | ok b => simp [Except.mapError]

theorem mapError_eq_error_iff {f : ε → ε'} {x : Except ε α} {error : ε'} :
    x.mapError f = .error error ↔ ∃ e, x = .error e ∧ f e = error := by
  cases x with
  | error e => simp [Except.mapError]
  | ok b => simp [Except.mapError]

theorem forM_cons (step : α → Except ε Unit) (item : α) (items : List α) :
    (item :: items).forM step = (step item >>= fun _ => items.forM step) := rfl

theorem forM_eq_ok_iff {step : α → Except ε Unit} {items : List α} :
    items.forM step = .ok () ↔ ∀ item ∈ items, step item = .ok () := by
  induction items with
  | nil => exact ⟨fun _ _ hmem => (List.not_mem_nil hmem).elim, fun _ => rfl⟩
  | cons item items ih =>
      rw [forM_cons, bind_eq_ok_iff, ih, List.forall_mem_cons]
      exact ⟨fun ⟨(), hfirst, hrest⟩ => ⟨hfirst, hrest⟩, fun ⟨hfirst, hrest⟩ => ⟨(), hfirst, hrest⟩⟩

theorem forM_eq_error {step : α → Except ε Unit} {items : List α} {error : ε}
    (h : items.forM step = .error error) :
    ∃ before item after, items = before ++ item :: after ∧
      (∀ earlier ∈ before, step earlier = .ok ()) ∧ step item = .error error := by
  induction items with
  | nil => cases h
  | cons item items ih =>
      rw [forM_cons] at h
      cases hstep : step item with
      | error e =>
          rw [hstep] at h
          cases h
          exact ⟨[], item, items, rfl, fun _ hmem => (List.not_mem_nil hmem).elim, hstep⟩
      | ok u =>
          rw [hstep] at h
          obtain ⟨before, failed, after, rfl, hbefore, hfailed⟩ := ih h
          refine ⟨item :: before, failed, after, rfl, ?_, hfailed⟩
          exact List.forall_mem_cons.mpr ⟨hstep, hbefore⟩

theorem mapM_eq_ok_iff {step : α → Except ε β} {items : List α} {results : List β} :
    items.mapM step = .ok results ↔
      List.Forall₂ (fun item result => step item = .ok result) items results := by
  induction items generalizing results with
  | nil =>
      rw [List.mapM_nil, List.forall₂_nil_left_iff]
      exact ⟨fun h => (Except.ok.inj h).symm, fun h => by rw [h]; rfl⟩
  | cons item items ih =>
      rw [List.mapM_cons, bind_eq_ok_iff]
      constructor
      · rintro ⟨result, hfirst, hrest⟩
        obtain ⟨others, hothers, hresults⟩ := bind_eq_ok_iff.mp hrest
        cases hresults
        exact .cons hfirst (ih.mp hothers)
      · intro h
        cases h with
        | @cons _ result _ others hfirst hothers =>
            exact ⟨result, hfirst, bind_eq_ok_iff.mpr ⟨others, ih.mpr hothers, rfl⟩⟩

/-- Steps that give the same up to a change of the result give the same sequence up to
that change. -/
theorem mapM_map {γ : Type} {step : α → Except ε β} {other : α → Except ε γ} {change : β → γ}
    (h : ∀ item, other item = (step item).map change) (items : List α) :
    items.mapM other = (items.mapM step).map (List.map change) := by
  induction items with
  | nil => rfl
  | cons item items ih =>
      rw [List.mapM_cons, List.mapM_cons, h, ih]
      cases step item with
      | error e => rfl
      | ok result =>
          cases items.mapM step with
          | error e => rfl
          | ok results => rfl

/-- Where each result is changed along with its item, the results are changed side by
side with the items. -/
theorem mapM_zipWith {γ : Type} {step : α → Except ε β} {other : α → Except ε γ}
    {change : α → β → γ} (h : ∀ item, other item = (step item).map (change item))
    (items : List α) :
    items.mapM other = (items.mapM step).map (List.zipWith change items) := by
  induction items with
  | nil => rfl
  | cons item items ih =>
      rw [List.mapM_cons, List.mapM_cons, h, ih]
      cases step item with
      | error e => rfl
      | ok result =>
          cases items.mapM step with
          | error e => rfl
          | ok results => rfl

theorem mapM_eq_error {step : α → Except ε β} {items : List α} {error : ε}
    (h : items.mapM step = .error error) :
    ∃ before item after, items = before ++ item :: after ∧
      (∀ earlier ∈ before, ∃ result, step earlier = .ok result) ∧ step item = .error error := by
  induction items with
  | nil => cases h
  | cons item items ih =>
      rw [List.mapM_cons] at h
      cases hstep : step item with
      | error e =>
          rw [hstep] at h
          cases h
          exact ⟨[], item, items, rfl, fun _ hmem => (List.not_mem_nil hmem).elim, hstep⟩
      | ok result =>
          rw [hstep] at h
          have hrest : items.mapM step = .error error := by
            cases hitems : items.mapM step with
            | error e =>
                rw [hitems] at h
                cases h
                rfl
            | ok results =>
                rw [hitems] at h
                cases h
          obtain ⟨before, failed, after, rfl, hbefore, hfailed⟩ := ih hrest
          refine ⟨item :: before, failed, after, rfl, ?_, hfailed⟩
          exact List.forall_mem_cons.mpr ⟨⟨result, hstep⟩, hbefore⟩

/-- Results that stand side by side with items split where the items do. -/
theorem forall₂_split {R : α → β → Prop} {items before after : List α} {item : α}
    {results : List β} (hitems : items = before ++ item :: after)
    (h : List.Forall₂ R items results) :
    ∃ first result rest, results = first ++ result :: rest ∧
      List.Forall₂ R before first ∧ R item result ∧ List.Forall₂ R after rest := by
  subst hitems
  induction before generalizing results with
  | nil =>
      cases h with
      | @cons _ result _ rest hitem hafter => exact ⟨[], result, rest, rfl, .nil, hitem, hafter⟩
  | cons earlier before ih =>
      cases h with
      | @cons _ found _ others hfound hothers =>
          obtain ⟨first, result, rest, rfl, hbefore, hitem, hafter⟩ := ih hothers
          exact ⟨found :: first, result, rest, rfl, .cons hfound hbefore, hitem, hafter⟩

theorem exists_zip_of_mem {R : α → β → Prop} {items : List α} {results : List β}
    (h : List.Forall₂ R items results) {item : α} (hmem : item ∈ items) :
    ∃ result, (item, result) ∈ items.zip results ∧ R item result := by
  induction h with
  | nil => cases hmem
  | @cons _ result _ _ hfirst _ ih =>
      rcases List.mem_cons.mp hmem with rfl | hlater
      · exact ⟨result, List.mem_cons_self, hfirst⟩
      · obtain ⟨found, hfound, hrelated⟩ := ih hlater
        exact ⟨found, List.mem_cons_of_mem _ hfound, hrelated⟩

theorem exists_right_of_mem {R : α → β → Prop} {items : List α} {results : List β}
    (h : List.Forall₂ R items results) {item : α} (hmem : item ∈ items) :
    ∃ result ∈ results, R item result := by
  obtain ⟨result, hpair, hresult⟩ := exists_zip_of_mem h hmem
  exact ⟨result, (List.of_mem_zip hpair).2, hresult⟩

theorem exists_left_of_mem {R : α → β → Prop} {items : List α} {results : List β}
    (h : List.Forall₂ R items results) {result : β} (hmem : result ∈ results) :
    ∃ item ∈ items, R item result :=
  exists_right_of_mem (R := flip R) h.flip hmem

end IdlBindings.Sequence
