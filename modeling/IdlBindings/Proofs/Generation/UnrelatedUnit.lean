import IdlBindings.Proofs.Generation.Dependence
import IdlBindings.Proofs.Registry.Extension
import Mathlib.Data.List.Flatten

/-!
A unit that no other unit of a run refers to. It may be put anywhere among the others or
left out: the others are generated to the same text with the same diagnostics. All that
is looked up for a class is reached from it over parents and pointers, and by these the
other units never come to a class of that unit.
-/

namespace IdlBindings

/-- A class refers to its parent and to the classes that its attributes, arguments and
results point to, by the names under which they are declared. -/
def ClassDecl.RefersTo (c : ClassDecl) (declared : String) : Prop :=
  c.parent = some declared ∨ ∃ member ∈ c.members, .pointer declared ∈ member.types

instance (c : ClassDecl) (declared : String) : Decidable (c.RefersTo declared) :=
  inferInstanceAs (Decidable (_ ∨ _))

theorem ClassDecl.Uses.refersTo {c : ClassDecl} {declared : String} (h : c.Uses declared) :
    declared = c.name ∨ c.RefersTo declared := by
  cases h with
  | self => exact Or.inl rfl
  | parent h => exact Or.inr (Or.inl h)
  | pointer hmember h => exact Or.inr (Or.inr ⟨_, hmember, h⟩)

theorem declaredNames_sublist {units others : List SourceUnit} (h : units.Sublist others) :
    (declaredNames units).Sublist (declaredNames others) :=
  h.flatMap _

namespace Generation

open Relation

/-- No class of the units refers to a class of `unit`. -/
def Unrelated (unit : SourceUnit) (units : List SourceUnit) : Prop :=
  ∀ other ∈ units, ∀ entry ∈ other.classes, ∀ declared ∈ unit.classNames,
    ¬ entry.2.RefersTo declared

instance (unit : SourceUnit) (units : List SourceUnit) : Decidable (Unrelated unit units) :=
  inferInstanceAs (Decidable (∀ other ∈ units, _))

theorem Registrable.of_sublist {units others : List SourceUnit} (h : Registrable others)
    (hsublist : units.Sublist others) : Registrable units where
  valid unit hunit := h.valid unit (hsublist.subset hunit)
  distinct := h.distinct.sublist (declaredNames_sublist hsublist)
  acyclic name hloop := by
    refine h.acyclic name (TransGen.mono ?_ name name hloop)
    rintro child parent ⟨unit, hunit, hentry⟩
    exact ⟨unit, hsublist.subset hunit, hentry⟩

theorem Registrable.acyclic_runRegistry {units : List SourceUnit} (h : Registrable units) :
    (runRegistry units).Acyclic :=
  (acyclic_runRegistry_iff h.distinct).mpr h.acyclic

variable {before after : List SourceUnit} {unit : SourceUnit}

theorem agreeExcept_runRegistry (h : Registrable (before ++ unit :: after)) :
    (runRegistry (before ++ after)).AgreeExcept (runRegistry (before ++ unit :: after))
      unit.classNames := by
  have hnodup : (declaredNames (before.map SourceUnit.bindable ++
      unit.bindable :: after.map SourceUnit.bindable)).Nodup := by
    rw [← List.map_cons, ← List.map_append, declaredNames_map_bindable]
    exact h.distinct
  have hnames : unit.bindable.classNames = unit.classNames := by
    rw [SourceUnit.classNames, SourceUnit.classes_bindable, List.map_map]
    rfl
  rw [runRegistry, runRegistry, List.map_append, List.map_append, List.map_cons, ← hnames]
  exact Registry.agreeExcept_ofUnits hnodup

theorem noParentIn_runRegistry (h : Unrelated unit (before ++ after)) :
    (runRegistry (before ++ after)).NoParentIn unit.classNames := by
  intro found hfound parent hparent hmem
  obtain ⟨other, hother, c, hc, hdecl⟩ := exists_declaration_of_mem hfound
  rw [hdecl] at hparent
  exact h other hother (found.kind, c) (SourceUnit.mem_classes_iff.mpr hc) parent hmem
    (Or.inl hparent)

/-- A class of another unit has a name that the unit does not declare. -/
theorem name_not_mem_classNames (h : (declaredNames (before ++ unit :: after)).Nodup)
    {other : SourceUnit} (hother : other ∈ before ++ after) {kind : ClassKind} {c : ClassDecl}
    (hc : Declaration.class kind c ∈ other.declarations) : c.name ∉ unit.classNames := by
  have hnodup : (unit.classNames ++ declaredNames (before ++ after)).Nodup :=
    (declaredNames_perm List.perm_middle).nodup_iff.mp h
  intro hmem
  refine List.disjoint_of_nodup_append hnodup hmem ?_
  exact List.mem_flatMap.mpr ⟨other, hother,
    List.mem_map.mpr ⟨(kind, c), SourceUnit.mem_classes_iff.mpr hc, rfl⟩⟩

/-- With and without the unit, the registry tells the same about a class of another. -/
theorem agreeOn_of_unrelated (hregistrable : Registrable (before ++ unit :: after))
    (hunrelated : Unrelated unit (before ++ after)) {other : SourceUnit}
    (hother : other ∈ before ++ after) {kind : ClassKind} {c : ClassDecl}
    (hc : Declaration.class kind c ∈ other.declarations) :
    (runRegistry (before ++ after)).AgreeOn (runRegistry (before ++ unit :: after)) c.bindable := by
  have hsmaller : Registrable (before ++ after) :=
    hregistrable.of_sublist ((List.Sublist.refl before).append (List.sublist_cons_self unit after))
  have hagree := agreeExcept_runRegistry hregistrable
  have hparents := noParentIn_runRegistry hunrelated
  have hname := name_not_mem_classNames hregistrable.distinct hother hc
  have hreferred : ∀ declared, c.RefersTo declared → declared ∉ unit.classNames := by
    intro declared hrefers hmem
    exact hunrelated other hother (kind, c) (SourceUnit.mem_classes_iff.mpr hc) declared hmem
      hrefers
  refine ⟨hagree.emittedName?_eq hname, hagree.parent_eq ?_, ?_, ?_⟩
  · exact fun parent hparent => hreferred parent (Or.inl hparent)
  · obtain ⟨found, hfound, _, hdecl⟩ := get?_bindable_of_declaration hsmaller hother hc
    rw [← hdecl]
    exact hagree.fieldSet_eq hsmaller.acyclic_runRegistry hregistrable.acyclic_runRegistry hparents
      hname hfound
  · intro declared huses
    rcases huses.of_bindable.refersTo with rfl | hrefers
    · exact hagree.target_eq hname
    · exact hagree.target_eq (hreferred declared hrefers)

theorem generate_of_unrelated (hregistrable : Registrable (before ++ unit :: after))
    (hunrelated : Unrelated unit (before ++ after)) {other : SourceUnit}
    (hother : other ∈ before ++ after) (templates : TemplateSet) (settings : Settings) :
    generate (runRegistry (before ++ after)) templates settings other =
      generate (runRegistry (before ++ unit :: after)) templates settings other :=
  generate_congr (fun _ _ hc => agreeOn_of_unrelated hregistrable hunrelated hother hc)
    templates settings

/-- Where a run with an unrelated unit succeeds, so does the run without it, and every
other unit gives the same in both: they differ by what that unit gives, in its place. -/
theorem generateAll_beside_unrelated {templates : TemplateSet} {settings : Settings}
    {choice : ErrorChoice GenerationError} {extended : List GeneratedUnit}
    (hunrelated : Unrelated unit (before ++ after))
    (hok : generateAll (before ++ unit :: after) templates settings choice = .ok extended) :
    ∃ first out rest, extended = first ++ out :: rest ∧ first.length = before.length ∧
      ∀ other, generateAll (before ++ after) templates settings other = .ok (first ++ rest) := by
  obtain ⟨hregistrable, hgenerated⟩ := generateAll_eq_ok_iff.mp hok
  have hsmaller : Registrable (before ++ after) :=
    hregistrable.of_sublist ((List.Sublist.refl before).append (List.sublist_cons_self unit after))
  obtain ⟨first, out, rest, hsplit, hfirst, _, hrest⟩ :=
    Sequence.forall₂_split rfl hgenerated
  refine ⟨first, out, rest, hsplit, hfirst.length_eq.symm, fun other => ?_⟩
  refine generateAll_eq_ok_iff.mpr ⟨hsmaller, ?_⟩
  have hothers := (List.forall₂_and_left _ _).mpr
    ⟨fun other hother => hother, List.rel_append hfirst hrest⟩
  refine hothers.imp fun other result hresult => ?_
  rw [generate_of_unrelated hregistrable hunrelated hresult.1]
  exact hresult.2

/-- A unit that refers to the shapes, but is not referred to by them. -/
def canvas : SourceUnit :=
  ⟨"canvas.idl", [.class .interface ⟨"Canvas", some "Shape",
    [.operation ⟨"draw", [⟨"circle", .pointer "Circle", false⟩], .void⟩]⟩]⟩

/-- The shapes with that unit between them. -/
def drawnShapes : List SourceUnit :=
  shapes.take 1 ++ canvas :: shapes.drop 1

theorem registrable_drawnShapes : Registrable drawnShapes :=
  registrable_of_checks (by decide) (by decide) rfl

theorem generateAll_beside_unrelated_canvas :
    Unrelated canvas shapes ∧
    ∃ templates base drawn rest, TemplateSet.ofSources TemplateSet.slotsOnly = .ok templates ∧
      (∀ choice, generateAll drawnShapes templates { strict := true } choice =
        .ok (base :: drawn :: rest)) ∧
      ∀ choice, generateAll shapes templates { strict := true } choice = .ok (base :: rest) := by
  have hunrelated : Unrelated canvas (shapes.take 1 ++ shapes.drop 1) := by decide
  obtain ⟨templates, hread⟩ := TemplateSet.exists_ofSources_slotsOnly
  obtain ⟨generated, hgenerated⟩ : ∃ generated, ∀ choice,
      generateAll drawnShapes templates { strict := true } choice = .ok generated :=
    exists_generateAll registrable_drawnShapes (TemplateSet.loaded_of_ofSources hread)
      fun _ => by decide
  obtain ⟨first, drawn, rest, rfl, hfirst, hshapes⟩ :=
    generateAll_beside_unrelated hunrelated (hgenerated .first)
  obtain ⟨base, rfl⟩ := List.length_eq_one_iff.mp hfirst
  exact ⟨hunrelated, templates, base, drawn, rest, hread, hgenerated, hshapes⟩

end Generation

end IdlBindings
