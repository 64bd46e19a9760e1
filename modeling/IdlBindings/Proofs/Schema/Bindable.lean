import IdlBindings.Proofs.Registry.Ancestry
import IdlBindings.Schema.Check

/-!
Leaving members out keeps everything else of a unit: its file name, and the
order, kinds, names and parents of its classes.
-/

namespace IdlBindings

@[simp] theorem ClassDecl.name_bindable (c : ClassDecl) : c.bindable.name = c.name := rfl

theorem Declaration.class?_bindable (declaration : Declaration) :
    declaration.bindable.class? =
      declaration.class?.map fun entry => (entry.1, entry.2.bindable) := by
  cases declaration with
  | «class» kind decl => rfl
  | function f => rfl
  | unknown kind name => rfl

theorem SourceUnit.mem_classes_iff {unit : SourceUnit} {kind : ClassKind} {decl : ClassDecl} :
    (kind, decl) ∈ unit.classes ↔ Declaration.class kind decl ∈ unit.declarations := by
  constructor
  · intro h
    obtain ⟨declaration, hmem, hclass⟩ := List.mem_filterMap.mp h
    cases declaration with
    | «class» found foundDecl =>
        cases hclass
        exact hmem
    | function f => cases hclass
    | unknown other name => cases hclass
  · intro h
    exact List.mem_filterMap.mpr ⟨_, h, rfl⟩

theorem SourceUnit.classes_bindable (unit : SourceUnit) :
    unit.bindable.classes = unit.classes.map fun entry => (entry.1, entry.2.bindable) := by
  unfold classes bindable
  rw [List.filterMap_map, List.map_filterMap]
  exact List.filterMap_congr fun declaration _ => declaration.class?_bindable

theorem declaredNames_map_bindable (units : List SourceUnit) :
    declaredNames (units.map SourceUnit.bindable) = declaredNames units := by
  unfold declaredNames
  rw [List.flatMap_map]
  refine List.flatMap_congr fun unit _ => ?_
  rw [SourceUnit.classes_bindable, List.map_map]
  rfl

theorem declaresParent_map_bindable_iff {units : List SourceUnit} {child parent : String} :
    DeclaresParent (units.map SourceUnit.bindable) child parent ↔
      DeclaresParent units child parent := by
  constructor
  · rintro ⟨_, hunit, _, hentry, hname, hparent⟩
    obtain ⟨unit, hmem, rfl⟩ := List.mem_map.mp hunit
    rw [SourceUnit.classes_bindable] at hentry
    obtain ⟨entry, hclass, rfl⟩ := List.mem_map.mp hentry
    exact ⟨unit, hmem, entry, hclass, hname, hparent⟩
  · rintro ⟨unit, hmem, entry, hclass, hname, hparent⟩
    refine ⟨unit.bindable, List.mem_map_of_mem hmem, (entry.1, entry.2.bindable), ?_, hname,
      hparent⟩
    rw [SourceUnit.classes_bindable]
    exact List.mem_map.mpr ⟨entry, hclass, rfl⟩

end IdlBindings
