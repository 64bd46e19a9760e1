import IdlBindings.Proofs.Binding.DictionaryParts
import IdlBindings.Proofs.Generation.Dependence
import IdlBindings.Proofs.Generation.MemberAccount
import IdlBindings.Proofs.Generation.Release

/-!
Parents of the other kind. An interface looks at the kind of its parent: of a dictionary it
takes nothing over and says so. A dictionary does not look: it has the fields of all its
registered ancestors, those of interfaces too, and all it may report is an ancestor that is
not registered.
-/

namespace IdlBindings

namespace Registry

/-- The same classes with other kinds. -/
def withKinds (registry : Registry) (kinds : RegisteredClass → ClassKind) : Registry :=
  ⟨registry.classes.map fun entry => { entry with kind := kinds entry }⟩

variable (registry : Registry) (kinds : RegisteredClass → ClassKind)

theorem get?_withKinds (name : String) :
    (registry.withKinds kinds).get? name =
      (registry.get? name).map fun entry => { entry with kind := kinds entry } := by
  rw [get?, withKinds, List.find?_map]
  rfl

theorem ancestorsFrom_withKinds (fuel : Nat) (seen : List String) (parent : Option String) :
    (registry.withKinds kinds).ancestorsFrom fuel seen parent =
      registry.ancestorsFrom fuel seen parent := by
  induction fuel generalizing seen parent with
  | zero => rfl
  | succ fuel ih =>
      cases parent with
      | none => rfl
      | some name =>
          rw [ancestorsFrom, ancestorsFrom, get?_withKinds]
          cases registry.get? name with
          | none => rfl
          | some found => simp only [Option.map_some, ih]

/-- What a class has of fields does not depend on any kind. -/
theorem fieldSet_withKinds (c : ClassDecl) :
    (registry.withKinds kinds).fieldSet c = registry.fieldSet c := by
  have hancestors : (registry.withKinds kinds).ancestors c = registry.ancestors c := by
    have hsize : (registry.withKinds kinds).size = registry.size := List.length_map _
    rw [ancestors, ancestors, hsize, ancestorsFrom_withKinds]
  have hcontains (name : String) :
      (registry.withKinds kinds).contains name = registry.contains name := by
    rw [contains, contains, get?_withKinds, Option.isSome_map]
  simp only [fieldSet, hancestors, hcontains]

variable {registry}

theorem get?_of_parent {c : ClassDecl} {parent : RegisteredClass}
    (h : registry.parent c = .registered parent) :
    c.parent = some parent.decl.name ∧ registry.get? parent.decl.name = some parent := by
  rw [Registry.parent] at h
  cases hname : c.parent with
  | none => simp only [hname, reduceCtorEq] at h
  | some name =>
      cases hfound : registry.get? name with
      | none => simp only [hname, hfound, reduceCtorEq] at h
      | some found =>
          simp only [hname, hfound] at h
          cases h
          obtain rfl : parent.decl.name = name := (get?_some hfound).2
          exact ⟨rfl, hfound⟩

/-- A registered parent is the nearest ancestor, unless it has the name of the class. -/
theorem head?_ancestors {c : ClassDecl} {parent : RegisteredClass}
    (h : registry.parent c = .registered parent) (hne : parent.decl.name ≠ c.name) :
    (registry.ancestors c).head? = some parent.decl := by
  obtain ⟨hname, hfound⟩ := get?_of_parent h
  have hsize : registry.size = registry.size - 1 + 1 := by
    have hpos : 0 < registry.classes.length := List.length_pos_of_mem (get?_some hfound).1
    exact (Nat.sub_add_cancel hpos).symm
  rw [ancestors, hname, hsize, ancestorsFrom, hfound]
  simp only [if_neg (mt List.mem_singleton.mp hne), List.head?_cons]

theorem not_registered_of_missingAncestor {c : ClassDecl} {missing : String}
    (h : (registry.fieldSet c).missingAncestor = some missing) : registry.get? missing = none := by
  have hnot := (Option.filter_eq_some_iff.mp h).2
  rw [Bool.not_eq_true', contains] at hnot
  exact Option.isNone_iff_eq_none.mp (Option.isSome_eq_false_iff.mp hnot)

end Registry

/-- A notice is about a class and not about one of its members. -/
def Notice.isAboutClass (notice : Notice) : Bool :=
  notice.member.isNone

namespace Binding

open Naming

/-- What is reported of a member names it. -/
theorem filter_isAboutClass_bindMembers (registry : Registry) (className : String) (pool : Pool)
    (c : ClassDecl) :
    (bindMembers registry className pool (memberRequests c)).2.filter Notice.isAboutClass = [] := by
  rw [List.filter_eq_nil_iff]
  intro notice hnotice
  obtain ⟨member, _, hsettled⟩ := settled_of_mem_notices hnotice
  cases hsettled with
  | attributeType | resultType | argumentType => exact Bool.false_ne_true

theorem filter_isAboutClass_bindFields (registry : Registry) (className : String) (pool : Pool)
    (fields : List Attribute) :
    (bindFields registry className pool fields).2.filter Notice.isAboutClass = [] := by
  induction fields generalizing pool with
  | nil => rfl
  | cons a rest ih =>
      rw [bindFields]
      cases emittedType registry .field a.type with
      | error cause => exact ih pool
      | ok type => exact ih _

variable {registry : Registry} {c : ClassDecl} {parent : RegisteredClass}

/-- All that a dictionary reports without a member is an ancestor that is not registered. -/
theorem missing_of_isAboutClass {objectName : String} {notice : Notice}
    (hmem : notice ∈ (bindDictionary registry c objectName).2)
    (hclass : notice.isAboutClass = true) :
    ∃ missing, registry.get? missing = none ∧
      notice = ⟨c.name, none, .unresolvedParent missing⟩ := by
  rcases List.mem_append.mp hmem with hparent | hfield
  · obtain ⟨missing, hmissing, rfl⟩ := List.mem_map.mp hparent
    exact ⟨missing, Registry.not_registered_of_missingAncestor (Option.mem_toList.mp hmissing), rfl⟩
  · have hnone := filter_isAboutClass_bindFields registry c.name (.ofReserved [])
      (registry.fieldSet c).fields
    exact absurd hclass (List.filter_eq_nil_iff.mp hnone notice hfield)

/-- The kind of a parent counts for interfaces only. An interface under a dictionary stands
alone: it holds no parent and gives access to none, its members are its own, and one notice
without a member says so. A dictionary is bound alike whatever the kinds of all classes. So
the attributes of an interface above it are fields of it, unless they are declared again
nearer or cannot be emitted, and nothing is reported about the interface. -/
theorem parent_kind_heeded_by_interface_only (hparent : registry.parent c = .registered parent)
    (objectName : String) :
    (parent.kind = .dictionary →
      (bindInterface registry c objectName).1.fragment.slot? "parent_field" = some "" ∧
      (bindInterface registry c objectName).1.fragment.slot? "inheritance" = some "" ∧
      (∀ m ∈ (bindInterface registry c objectName).1.members, ∃ member ∈ c.members, ∃ bound,
        Settled registry c.name member (.bound bound) ∧ m ∈ bound) ∧
      (bindInterface registry c objectName).2.filter Notice.isAboutClass =
        [⟨c.name, none, .unsupportedMember
          ("interface cannot inherit from dictionary '" ++ parent.decl.name ++ "'")⟩]) ∧
    (∀ kinds, bindDictionary (registry.withKinds kinds) c objectName =
      bindDictionary registry c objectName) ∧
    (parent.decl.name ≠ c.name → (registry.ancestors c).head? = some parent.decl) ∧
    (∀ before a after, registry.lineageAttributes c = before ++ a :: after →
      a.name ∉ after.map Attribute.name → isEmittableField registry a = true →
      ∃ field ∈ (bindDictionary registry c objectName).1.fields, field.StandsFor a) ∧
    ∀ notice ∈ (bindDictionary registry c objectName).2, notice.isAboutClass = true →
      ∃ missing, registry.get? missing = none ∧
        notice = ⟨c.name, none, .unresolvedParent missing⟩ := by
  obtain ⟨hname, hfound⟩ := Registry.get?_of_parent hparent
  refine ⟨fun hkind => ?_, fun kinds => ?_, Registry.head?_ancestors hparent,
    fun before a after hsplit hlast hemittable => ?_,
    fun notice hmem hclass => missing_of_isAboutClass hmem hclass⟩
  · have hnone : registry.NoInterface parent.decl.name := by
      intro found hagain
      rw [hfound] at hagain
      cases hagain
      exact hkind
    obtain ⟨hfield, haccess, -⟩ := neverReleases_of_noInterface objectName hname hnone
    refine ⟨hfield, haccess, fun m hm => settled_of_mem hm, ?_⟩
    rw [notices_of_bindInterface, List.filter_append, filter_isAboutClass_bindMembers,
      List.append_nil, parentNotice?, hname, Option.bind_some, hfound]
    simp only [if_pos hkind]
    rfl
  · rw [bindDictionary, bindDictionary, Registry.fieldSet_withKinds]
    simp only [bindFields_eq (registry.withKinds kinds) registry]
  · apply Sequence.exists_right_of_mem (standFor_fields registry c objectName)
    refine List.mem_filter.mpr ⟨?_, hemittable⟩
    rw [Registry.fields_eq_putFields, hsplit]
    exact mem_putFields_of_last [] hlast

/-- A dictionary under an interface, and an interface under that dictionary. -/
def mixedKinds : List SourceUnit :=
  [⟨"shape", [.class .interface ⟨"Shape", none, [.attribute ⟨"area", .double, true⟩]⟩]⟩,
    ⟨"circle_init", [.class .dictionary ⟨"CircleInit", some "Shape",
      [.attribute ⟨"radius", .double, false⟩]⟩]⟩,
    ⟨"circle", [.class .interface ⟨"Circle", some "CircleInit",
      [.attribute ⟨"name", .domString, true⟩]⟩]⟩]

theorem parent_kind_heeded_by_interface_only_mixedKinds :
    ∃ circle init, (Registry.ofUnits mixedKinds).get? "Circle" = some circle ∧
      (Registry.ofUnits mixedKinds).parent circle.decl = .registered init ∧
      init.kind = .dictionary ∧
      (bindInterface (.ofUnits mixedKinds) circle.decl "Circle").1.fragment.slot? "parent_field" =
        some "" ∧
      (bindInterface (.ofUnits mixedKinds) circle.decl "Circle").2.filter Notice.isAboutClass =
        [⟨"Circle", none,
          .unsupportedMember "interface cannot inherit from dictionary 'CircleInit'"⟩] ∧
      ∃ shape, (Registry.ofUnits mixedKinds).parent init.decl = .registered shape ∧
        shape.kind = .interface ∧
        ∃ field ∈ (bindDictionary (.ofUnits mixedKinds) init.decl "CircleInit").1.fields,
          field.StandsFor ⟨"area", .double, true⟩ := by
  let circle : ClassDecl := ⟨"Circle", some "CircleInit", [.attribute ⟨"name", .domString, true⟩]⟩
  let init : ClassDecl := ⟨"CircleInit", some "Shape", [.attribute ⟨"radius", .double, false⟩]⟩
  have hcircle : (Registry.ofUnits mixedKinds).parent circle = .registered _ := rfl
  have hinit : (Registry.ofUnits mixedKinds).parent init = .registered _ := rfl
  obtain ⟨hfield, -, -, hnotice⟩ :=
    (parent_kind_heeded_by_interface_only hcircle "Circle").1 rfl
  obtain ⟨-, -, hinherited, -⟩ := (parent_kind_heeded_by_interface_only hinit "CircleInit").2
  exact ⟨_, _, rfl, hcircle, rfl, hfield, hnotice, _, hinit, rfl,
    hinherited [] ⟨"area", .double, true⟩ _ rfl (by decide) rfl⟩

/-- The dictionary under the interface has the attribute of the interface as a field, and
nothing is reported. -/
theorem interface_attribute_inherited_mixedKinds :
    ∃ init shape, (Registry.ofUnits mixedKinds).get? "CircleInit" = some init ∧
      init.kind = .dictionary ∧
      (Registry.ofUnits mixedKinds).parent init.decl = .registered shape ∧
      shape.kind = .interface ∧ .attribute ⟨"area", .double, true⟩ ∈ shape.decl.members ∧
      (bindDictionary (.ofUnits mixedKinds) init.decl "CircleInit").1.fields =
        [⟨"area", .double⟩, ⟨"radius", .double⟩] ∧
      (bindDictionary (.ofUnits mixedKinds) init.decl "CircleInit").2 = [] :=
  ⟨_, _, rfl, rfl, rfl, rfl, List.mem_singleton_self _, by decide, rfl⟩

end Binding

end IdlBindings
