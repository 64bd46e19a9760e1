import IdlBindings.Proofs.Generation.Dependence
import IdlBindings.Proofs.Registry.Order
import Mathlib.Data.List.FinRange

/-!
The order of the units of a run does not matter. All units are registered before any
is generated, so parents and pointers may be declared before or after their users.
A run of the same units in another order succeeds when the first one does, and its
results stand in that other order.
-/

namespace IdlBindings.Generation

theorem sameAnswers_runRegistry {units others : List SourceUnit} (hperm : units.Perm others)
    (hdistinct : (declaredNames units).Nodup) :
    (runRegistry units).SameAnswers (runRegistry others) := by
  apply Registry.sameAnswers_ofUnits (hperm.map SourceUnit.bindable)
  rw [declaredNames_map_bindable]
  exact hdistinct

theorem generate_of_sameAnswers {registry other : Registry} (h : registry.SameAnswers other)
    (templates : TemplateSet) (settings : Settings) (unit : SourceUnit) :
    generate registry templates settings unit = generate other templates settings unit := by
  apply generate_congr
  intro kind c _
  exact ⟨h.emittedName?_eq _, h.parent_eq _, h.fieldSet_eq _,
    fun declared _ => h.target_eq declared⟩

theorem Registrable.of_perm {units others : List SourceUnit} (h : Registrable units)
    (hperm : units.Perm others) : Registrable others where
  valid unit hunit := h.valid unit (hperm.mem_iff.mpr hunit)
  distinct := (declaredNames_perm hperm).nodup_iff.mp h.distinct
  acyclic := declaresParent_eq_of_perm hperm ▸ h.acyclic

theorem forall₂_ofFn_iff {α β : Type} {n : Nat} {R : α → β → Prop} {items : Fin n → α}
    {results : List β} :
    List.Forall₂ R (List.ofFn items) results ↔
      ∃ outs : Fin n → β, results = List.ofFn outs ∧ ∀ i, R (items i) (outs i) := by
  rw [List.forall₂_iff_get]
  constructor
  · rintro ⟨hlength, hsteps⟩
    rw [List.length_ofFn] at hlength
    subst hlength
    refine ⟨results.get, (List.ofFn_get results).symm, fun i => ?_⟩
    have hstep := hsteps i (by simp) i.isLt
    simpa using hstep
  · rintro ⟨outs, rfl, hsteps⟩
    refine ⟨by simp, fun i hi hi' => ?_⟩
    simpa using hsteps ⟨i, by simpa using hi⟩

/-- For all units and all orders: a run that succeeds also succeeds in the other order,
and unit for unit with the same result. A registry can be built from the units in one
order exactly when it can be in the other, and then each name stands for the same
class, with the same kind, unit and place in its unit. -/
theorem generateAll_reordered {n : Nat} (units : Fin n → SourceUnit) (order : Equiv.Perm (Fin n))
    (templates : TemplateSet) (settings : Settings) (choice : ErrorChoice GenerationError) :
    (∀ generated, generateAll (List.ofFn units) templates settings choice = .ok generated →
      ∃ outs : Fin n → GeneratedUnit, generated = List.ofFn outs ∧
        ∀ other, generateAll (List.ofFn (units ∘ order)) templates settings other =
          .ok (List.ofFn (outs ∘ order))) ∧
    ((∃ registry, Registry.build (List.ofFn units) = .ok registry) ↔
      ∃ registry, Registry.build (List.ofFn (units ∘ order)) = .ok registry) ∧
    ∀ registry other, Registry.build (List.ofFn units) = .ok registry →
      Registry.build (List.ofFn (units ∘ order)) = .ok other →
      ∀ name, registry.get? name = other.get? name := by
  have hperm : (List.ofFn units).Perm (List.ofFn (units ∘ order)) :=
    (order.ofFn_comp_perm units).symm
  refine ⟨?_, Registry.exists_build_iff_of_perm hperm, ?_⟩
  · intro generated hok
    obtain ⟨hregistrable, hgenerated⟩ := generateAll_eq_ok_iff.mp hok
    obtain ⟨outs, rfl, houts⟩ := forall₂_ofFn_iff.mp hgenerated
    refine ⟨outs, rfl, fun other => ?_⟩
    refine generateAll_eq_ok_iff.mpr ⟨hregistrable.of_perm hperm, forall₂_ofFn_iff.mpr ?_⟩
    refine ⟨outs ∘ order, rfl, fun i => ?_⟩
    -- In another order every unit gives the same as before.
    rw [← generate_of_sameAnswers (sameAnswers_runRegistry hperm hregistrable.distinct)]
    exact houts (order i)
  · intro registry other hregistry hother
    exact (Registry.sameAnswers_of_build hperm hregistry hother).get?_eq

/-- The derived class may come before its parent. -/
theorem generateAll_reordered_shapes :
    ∃ templates base derived, TemplateSet.ofSources TemplateSet.slotsOnly = .ok templates ∧
      (∀ choice, generateAll shapes templates { strict := true } choice = .ok [base, derived]) ∧
      ∀ choice, generateAll shapes.reverse templates { strict := true } choice =
        .ok [derived, base] := by
  obtain ⟨templates, hread⟩ := TemplateSet.exists_ofSources_slotsOnly
  obtain ⟨generated, hgenerated⟩ : ∃ generated, ∀ choice,
      generateAll shapes templates { strict := true } choice = .ok generated :=
    exists_generateAll registrable_shapes (TemplateSet.loaded_of_ofSources hread)
      fun _ => by decide
  obtain ⟨hreordered, _⟩ :=
    generateAll_reordered shapes.get Fin.revPerm templates { strict := true } .first
  obtain ⟨outs, rfl, hreversed⟩ := hreordered generated (hgenerated .first)
  exact ⟨templates, outs ⟨0, by decide⟩, outs ⟨1, by decide⟩, hread, hgenerated, hreversed⟩

end IdlBindings.Generation
