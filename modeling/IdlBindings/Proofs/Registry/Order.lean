import IdlBindings.Proofs.Registry.Ancestry
import IdlBindings.Registry.Lineage

/-!
The order in which units are registered does not matter. A registry is asked for the
class of a name and for the number of its classes, and once no name occurs twice
both are the same for any order of the same classes. Which registries can be built
depends on names and parents only, so that is the same as well.
-/

namespace IdlBindings

theorem declaredNames_perm {units others : List SourceUnit} (h : units.Perm others) :
    (declaredNames units).Perm (declaredNames others) :=
  h.flatMap_right _

theorem declaresParent_eq_of_perm {units others : List SourceUnit} (h : units.Perm others) :
    DeclaresParent units = DeclaresParent others := by
  funext child parent
  apply propext
  simp only [DeclaresParent, h.mem_iff]

namespace Registry

/-- Two registries that give the same answers: each name stands for the same class in
both, and there are as many classes in one as in the other. -/
structure SameAnswers (registry other : Registry) : Prop where
  get?_eq : ∀ name, registry.get? name = other.get? name
  size_eq : registry.size = other.size

theorem sameAnswers_of_perm {registry other : Registry}
    (hperm : registry.classes.Perm other.classes) (hnodup : registry.classNames.Nodup) :
    registry.SameAnswers other := by
  have hnames : registry.classNames.Perm other.classNames := hperm.map RegisteredClass.name
  have hother : other.classNames.Nodup := hnames.nodup_iff.mp hnodup
  refine ⟨fun name => ?_, hperm.length_eq⟩
  apply Option.ext
  intro c
  rw [get?_eq_some_iff hnodup, get?_eq_some_iff hother, hperm.mem_iff]

theorem sameAnswers_ofUnits {units others : List SourceUnit} (hperm : units.Perm others)
    (hnodup : (declaredNames units).Nodup) : (ofUnits units).SameAnswers (ofUnits others) := by
  apply sameAnswers_of_perm
  · exact hperm.flatMap_right SourceUnit.entries
  · rw [classNames_ofUnits]
    exact hnodup

/-- Whether the classes of some units can be registered does not depend on the order of
the units. -/
theorem exists_build_iff_of_perm {units others : List SourceUnit} (hperm : units.Perm others) :
    (∃ registry, build units = .ok registry) ↔ ∃ registry, build others = .ok registry := by
  rw [exists_build_iff, exists_build_iff, (declaredNames_perm hperm).nodup_iff,
    declaresParent_eq_of_perm hperm]

theorem sameAnswers_of_build {units others : List SourceUnit} (hperm : units.Perm others)
    {registry other : Registry} (h : build units = .ok registry)
    (hother : build others = .ok other) : registry.SameAnswers other := by
  obtain ⟨hnodup, _, rfl⟩ := build_eq_ok_iff.mp h
  obtain ⟨_, _, rfl⟩ := build_eq_ok_iff.mp hother
  exact sameAnswers_ofUnits hperm hnodup

namespace SameAnswers

variable {registry other : Registry}

theorem emittedName?_eq (h : registry.SameAnswers other) (declared : String) :
    registry.emittedName? declared = other.emittedName? declared := by
  rw [emittedName?, emittedName?, h.get?_eq]

theorem parent_eq (h : registry.SameAnswers other) (c : ClassDecl) :
    registry.parent c = other.parent c := by
  cases hparent : c.parent with
  | none => simp only [Registry.parent, hparent]
  | some name => simp only [Registry.parent, hparent, h.get?_eq name]

theorem target_eq (h : registry.SameAnswers other) (declared : String) :
    registry.target declared = other.target declared := by
  rw [target, target, h.get?_eq]

theorem ancestorsFrom_eq (h : registry.SameAnswers other) (fuel : Nat) (seen : List String)
    (parent : Option String) :
    registry.ancestorsFrom fuel seen parent = other.ancestorsFrom fuel seen parent := by
  induction fuel generalizing seen parent with
  | zero => rfl
  | succ fuel ih =>
      cases parent with
      | none => rfl
      | some name =>
          rw [ancestorsFrom, ancestorsFrom, h.get?_eq name]
          cases other.get? name with
          | none => rfl
          | some found => simp only [ih]

theorem fieldSet_eq (h : registry.SameAnswers other) (c : ClassDecl) :
    registry.fieldSet c = other.fieldSet c := by
  have hancestors : registry.ancestors c = other.ancestors c := by
    rw [ancestors, ancestors, h.size_eq, h.ancestorsFrom_eq]
  have hcontains : registry.contains = other.contains := by
    funext name
    rw [contains, contains, h.get?_eq]
  rw [fieldSet, fieldSet, hancestors, hcontains]

end SameAnswers

end Registry

end IdlBindings
