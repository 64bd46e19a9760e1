import IdlBindings.Proofs.Registry.Fields

/-!
The fields that a class inherits. They are collected over the whole chain of its ancestors,
the farthest first; read from the class upwards they are the fields of its parent, with its
own attributes put in. So each field is the declaration of its name that is nearest to the
class, and the chain breaks off at an ancestor only where that one is not registered.
-/

namespace IdlBindings

/-- Fields in order, with one more. It takes the place of a field of its name, and comes last
where there is none. -/
def withField (fields : List Attribute) (a : Attribute) : List Attribute :=
  if a.name ∈ fields.map Attribute.name then
    fields.map fun field => if field.name = a.name then a else field
  else fields ++ [a]

/-- The last attribute of its name among some attributes. -/
def Attribute.IsLastOf (a : Attribute) (declared : List Attribute) : Prop :=
  ∃ before after, declared = before ++ a :: after ∧ a.name ∉ after.map Attribute.name

theorem Attribute.isLastOf_cons_iff {a first : Attribute} {rest : List Attribute} :
    a.IsLastOf (first :: rest) ↔
      (a = first ∧ a.name ∉ rest.map Attribute.name) ∨ a.IsLastOf rest := by
  constructor
  · rintro ⟨before, after, hsplit, hlast⟩
    cases before with
    | nil =>
        cases hsplit
        exact Or.inl ⟨rfl, hlast⟩
    | cons _ before =>
        cases hsplit
        exact Or.inr ⟨before, after, rfl, hlast⟩
  · rintro (⟨rfl, hlast⟩ | ⟨before, after, rfl, hlast⟩)
    · exact ⟨[], rest, rfl, hlast⟩
    · exact ⟨first :: before, after, rfl, hlast⟩

section Put

variable {fields : List Attribute} (hnodup : (fields.map Attribute.name).Nodup)

include hnodup

theorem putField_eq_withField (a : Attribute) : putField a fields = withField fields a := by
  rw [putField_eq hnodup, withField]
  by_cases hmem : a.name ∈ fields.map Attribute.name
  · rw [if_pos hmem, if_pos hmem, List.append_nil]
    apply List.map_congr_left
    intro field _
    simp only [Attribute.overriddenBy, @eq_comm _ a.name]
  · have hkept : fields.map (·.overriddenBy [a]) = fields := by
      apply map_overriddenBy_of_disjoint
      intro field hfield hsame
      rw [List.map_singleton, List.mem_singleton] at hsame
      exact hmem (hsame ▸ List.mem_map_of_mem hfield)
    rw [if_neg hmem, if_neg hmem, hkept]

theorem putFields_eq_foldl_withField (added : List Attribute) :
    putFields fields added = added.foldl withField fields := by
  induction added generalizing fields with
  | nil => rfl
  | cons a rest ih =>
      rw [List.foldl_cons, ← putField_eq_withField hnodup]
      exact ih (nodup_putField hnodup a)

theorem mem_putField_iff {a other : Attribute} :
    a ∈ putField other fields ↔ a = other ∨ (a ∈ fields ∧ a.name ≠ other.name) := by
  constructor
  · intro hmem
    rw [putField_eq hnodup] at hmem
    rcases List.mem_append.mp hmem with hkept | hnew
    · obtain ⟨field, hfield, rfl⟩ := List.mem_map.mp hkept
      simp only [Attribute.overriddenBy]
      by_cases hsame : other.name = field.name
      · exact Or.inl (if_pos hsame)
      · rw [if_neg hsame]
        exact Or.inr ⟨hfield, Ne.symm hsame⟩
    · split at hnew
      · cases hnew
      · exact Or.inl (List.mem_singleton.mp hnew)
  · rintro (rfl | ⟨hmem, hne⟩)
    · exact mem_putField a fields
    · exact mem_putField_of_ne hmem hne

/-- Once attributes were added, a field is the last of its name among them, or was there
before and is not among them by name. -/
theorem mem_putFields_iff {a : Attribute} {added : List Attribute} :
    a ∈ putFields fields added ↔
      a.IsLastOf added ∨ (a ∈ fields ∧ a.name ∉ added.map Attribute.name) := by
  induction added generalizing fields with
  | nil =>
      have hnone : ¬ a.IsLastOf [] := by
        rintro ⟨before, after, hsplit, -⟩
        exact List.append_ne_nil_of_right_ne_nil before (List.cons_ne_nil a after) hsplit.symm
      simp only [hnone, false_or, List.map_nil, List.not_mem_nil, not_false_eq_true, and_true]
      rfl
  | cons first rest ih =>
      have hstep : putFields fields (first :: rest) = putFields (putField first fields) rest := rfl
      rw [hstep, ih (nodup_putField hnodup first), mem_putField_iff hnodup,
        Attribute.isLastOf_cons_iff, List.map_cons, List.mem_cons]
      tauto

theorem names_start_putFields (added : List Attribute) :
    fields.map Attribute.name <+: (putFields fields added).map Attribute.name := by
  obtain ⟨new, hnew⟩ := exists_putFields_eq hnodup added
  have hkept : (fields.map (·.overriddenBy added)).map Attribute.name =
      fields.map Attribute.name := by
    rw [List.map_map]
    exact List.map_congr_left fun field _ => field.name_overriddenBy added
  rw [hnew, List.map_append, hkept]
  exact List.prefix_append _ _

end Put

namespace Registry

open Relation

/-- The declaration of its name that is nearest to a class: the last one in the class or,
where the class declares no such attribute, the one nearest to its parent. -/
inductive NearestTo (registry : Registry) (a : Attribute) : ClassDecl → Prop
  | own {c : ClassDecl} (hlast : a.IsLastOf c.attributes) : NearestTo registry a c
  | inherited {c : ClassDecl} {parentName : String} {parent : RegisteredClass}
      (hnone : a.name ∉ c.attributes.map Attribute.name) (hparent : c.parent = some parentName)
      (hfound : registry.get? parentName = some parent)
      (hnearest : NearestTo registry a parent.decl) : NearestTo registry a c

/-- No class is registered under the name of the parent, if there is one. -/
def NoParent (registry : Registry) (c : ClassDecl) : Prop :=
  ∀ parentName, c.parent = some parentName → registry.get? parentName = none

variable {registry : Registry}

/-- To show something of all registered classes, it can be assumed of their parents. -/
theorem parent_induction (hacyclic : registry.Acyclic) {p : String → RegisteredClass → Prop}
    (hroot : ∀ name found, registry.get? name = some found → registry.NoParent found.decl →
      p name found)
    (hstep : ∀ name found parentName parent, registry.get? name = some found →
      found.decl.parent = some parentName → registry.get? parentName = some parent →
      p parentName parent → p name found)
    {name : String} {found : RegisteredClass} (hfound : registry.get? name = some found) :
    p name found := by
  have hlineage := lineage_ancestors hacyclic hfound
  generalize hparent : found.decl.parent = parentName, registry.ancestors found.decl = ancestors
    at hlineage
  induction hlineage generalizing name found with
  | root =>
      apply hroot name found hfound
      intro other hother
      rw [hparent] at hother
      cases hother
  | missing hmissing =>
      apply hroot name found hfound
      intro other hother
      rw [hparent] at hother
      cases hother
      exact hmissing
  | step hnext _ ih => exact hstep name found _ _ hfound hparent hnext (ih hnext rfl)

theorem ancestors_of_noParent {c : ClassDecl} (h : registry.NoParent c) :
    registry.ancestors c = [] := by
  unfold ancestors
  cases registry.size with
  | zero => rfl
  | succ fuel =>
      cases hparent : c.parent with
      | none => rfl
      | some parentName => rw [ancestorsFrom, h parentName hparent]

theorem fields_of_noParent {c : ClassDecl} (h : registry.NoParent c) :
    (registry.fieldSet c).fields = putFields [] c.attributes := by
  rw [fieldSet, ancestors_of_noParent h]
  rfl

/-- The fields of a class are the declarations nearest to it. -/
theorem mem_fields_iff_nearestTo (hacyclic : registry.Acyclic) {name : String}
    {found : RegisteredClass} (hfound : registry.get? name = some found) {a : Attribute} :
    a ∈ (registry.fieldSet found.decl).fields ↔ registry.NearestTo a found.decl := by
  refine parent_induction (p := fun _ found =>
    a ∈ (registry.fieldSet found.decl).fields ↔ registry.NearestTo a found.decl)
    hacyclic ?_ ?_ hfound
  · intro name found _ hnone
    have hempty : (([] : List Attribute).map Attribute.name).Nodup := List.nodup_nil
    rw [fields_of_noParent hnone, mem_putFields_iff hempty]
    constructor
    · rintro (hlast | ⟨hmem, -⟩)
      · exact .own hlast
      · cases hmem
    · intro hnearest
      cases hnearest with
      | own hlast => exact Or.inl hlast
      | inherited _ hparent hregistered _ =>
          rw [hnone _ hparent] at hregistered
          cases hregistered
  · intro name found parentName parent hfound hname hparent ih
    rw [fieldSet_of_parent hacyclic hfound hname hparent,
      mem_putFields_iff (registry.nodup_fieldSet parent.decl), ih]
    constructor
    · rintro (hlast | ⟨hnearest, hnone⟩)
      · exact .own hlast
      · exact .inherited hnone hname hparent hnearest
    · intro hnearest
      cases hnearest with
      | own hlast => exact Or.inl hlast
      | inherited hnone hagain hregistered hnearest =>
          rw [hname] at hagain
          cases hagain
          rw [hparent] at hregistered
          cases hregistered
          exact Or.inr ⟨hnearest, hnone⟩

theorem missingAncestor_of_noParent {c : ClassDecl} (h : registry.NoParent c) :
    (registry.fieldSet c).missingAncestor = c.parent := by
  rw [fieldSet, ancestors_of_noParent h]
  change c.parent.filter (fun name => !registry.contains name) = c.parent
  cases hparent : c.parent with
  | none => rfl
  | some parentName =>
      have hmissing : registry.contains parentName = false := by
        rw [contains, h parentName hparent]
        rfl
      rw [Option.filter_some, hmissing]
      rfl

theorem missingAncestor_of_parent (hacyclic : registry.Acyclic) {name parentName : String}
    {found parent : RegisteredClass} (hfound : registry.get? name = some found)
    (hname : found.decl.parent = some parentName)
    (hparent : registry.get? parentName = some parent) :
    (registry.fieldSet found.decl).missingAncestor =
      (registry.fieldSet parent.decl).missingAncestor := by
  simp only [fieldSet, ancestors_of_parent hacyclic hfound hname hparent, List.getLastD_cons]

theorem not_inherits_of_missing {name other : String} (h : registry.get? name = none) :
    ¬ registry.Inherits name other := by
  intro hinherits
  rw [Inherits, parentOf?, h] at hinherits
  cases hinherits

theorem inherits_iff {name parentName : String} {found : RegisteredClass}
    (hfound : registry.get? name = some found) :
    registry.Inherits name parentName ↔ found.decl.parent = some parentName := by
  rw [Inherits, parentOf?, hfound, Option.bind_some]

/-- The chain of parents breaks off at the one name on it that is not registered. -/
theorem missingAncestor_eq_some_iff (hacyclic : registry.Acyclic) {name missing : String}
    {found : RegisteredClass} (hfound : registry.get? name = some found) :
    (registry.fieldSet found.decl).missingAncestor = some missing ↔
      TransGen registry.Inherits name missing ∧ registry.get? missing = none := by
  refine parent_induction (p := fun name found =>
    (registry.fieldSet found.decl).missingAncestor = some missing ↔
      TransGen registry.Inherits name missing ∧ registry.get? missing = none)
    hacyclic ?_ ?_ hfound
  · intro name found hfound hnone
    rw [missingAncestor_of_noParent hnone, ← inherits_iff hfound]
    constructor
    · intro hinherits
      exact ⟨.single hinherits, hnone missing ((inherits_iff hfound).mp hinherits)⟩
    · rintro ⟨hreaches, -⟩
      obtain ⟨next, hnext, hrest⟩ := TransGen.head'_iff.mp hreaches
      have hlast : registry.get? next = none := hnone next ((inherits_iff hfound).mp hnext)
      rcases ReflTransGen.cases_head hrest with rfl | ⟨_, hfurther, _⟩
      · exact hnext
      · exact absurd hfurther (not_inherits_of_missing hlast)
  · intro name found parentName parent hfound hname hparent ih
    have hinherits : registry.Inherits name parentName := (inherits_iff hfound).mpr hname
    rw [missingAncestor_of_parent hacyclic hfound hname hparent, ih]
    constructor
    · rintro ⟨hreaches, hmissing⟩
      exact ⟨.head hinherits hreaches, hmissing⟩
    · rintro ⟨hreaches, hmissing⟩
      obtain ⟨next, hnext, hrest⟩ := TransGen.head'_iff.mp hreaches
      obtain rfl : parentName = next := Option.some.inj (hinherits.symm.trans hnext)
      refine ⟨?_, hmissing⟩
      rcases ReflTransGen.cases_head hrest with rfl | ⟨further, hfurther, hon⟩
      · rw [hmissing] at hparent
        cases hparent
      · exact TransGen.head' hfurther hon

/-- The fields of a class in a registry that can be built. Without a registered parent they
are its own attributes, put in one after the other. With one they are the fields of the
parent, with its own attributes put in, so the names of the parent's fields come first. Each
name stands once, for the declaration nearest to the class, and an ancestor is missing
exactly when the chain of parents ends at a name that is not registered. -/
theorem fieldSet_inherited {units : List SourceUnit} (hbuild : build units = .ok registry)
    {name : String} {found : RegisteredClass} (hfound : registry.get? name = some found) :
    (registry.NoParent found.decl →
      (registry.fieldSet found.decl).fields = found.decl.attributes.foldl withField []) ∧
    (∀ parentName parent, found.decl.parent = some parentName →
      registry.get? parentName = some parent →
      (registry.fieldSet found.decl).fields =
          found.decl.attributes.foldl withField (registry.fieldSet parent.decl).fields ∧
        (registry.fieldSet parent.decl).fields.map Attribute.name <+:
          (registry.fieldSet found.decl).fields.map Attribute.name) ∧
    ((registry.fieldSet found.decl).fields.map Attribute.name).Nodup ∧
    (∀ a, a ∈ (registry.fieldSet found.decl).fields ↔ registry.NearestTo a found.decl) ∧
    ∀ missing, (registry.fieldSet found.decl).missingAncestor = some missing ↔
      TransGen registry.Inherits name missing ∧ registry.get? missing = none := by
  obtain ⟨-, hacyclic, rfl⟩ := build_eq_ok_iff.mp hbuild
  refine ⟨fun hnone => ?_, fun parentName parent hname hparent => ?_, nodup_fieldSet _ _,
    fun a => mem_fields_iff_nearestTo hacyclic hfound,
    fun missing => missingAncestor_eq_some_iff hacyclic hfound⟩
  · have hempty : (([] : List Attribute).map Attribute.name).Nodup := List.nodup_nil
    rw [fields_of_noParent hnone, putFields_eq_foldl_withField hempty]
  · have hkeys := nodup_fieldSet (ofUnits units) parent.decl
    rw [fieldSet_of_parent hacyclic hfound hname hparent]
    exact ⟨putFields_eq_foldl_withField hkeys _, names_start_putFields hkeys _⟩

/-- Three dictionaries, each above the next, and a parent of the first that no unit declares.
The last declares an inherited field again. -/
def eventChain : List SourceUnit :=
  [⟨"mouse_event_init.idl", [.class .dictionary ⟨"MouseEventInit", some "UIEventInit",
      [.attribute ⟨"clientX", .double, false⟩, .attribute ⟨"cancelable", .int64, false⟩]⟩]⟩,
    ⟨"event_init.idl", [.class .dictionary ⟨"EventInit", some "BaseInit",
      [.attribute ⟨"bubbles", .boolean, false⟩, .attribute ⟨"cancelable", .boolean, false⟩]⟩]⟩,
    ⟨"ui_event_init.idl", [.class .dictionary ⟨"UIEventInit", some "EventInit",
      [.attribute ⟨"detail", .int32, false⟩]⟩]⟩]

theorem build_eventChain : build eventChain = .ok (ofUnits eventChain) := by
  refine build_eq_ok_iff.mpr ⟨by decide, ?_, rfl⟩
  exact acyclic_of_checkLoops_eq_ok (by rfl)

theorem fieldSet_inherited_eventChain :
    ∃ found parent, (ofUnits eventChain).get? "MouseEventInit" = some found ∧
      (ofUnits eventChain).get? "UIEventInit" = some parent ∧
      (ofUnits eventChain).fieldSet found.decl =
        ⟨[⟨"bubbles", .boolean, false⟩, ⟨"cancelable", .int64, false⟩, ⟨"detail", .int32, false⟩,
          ⟨"clientX", .double, false⟩], some "BaseInit"⟩ ∧
      ((ofUnits eventChain).fieldSet parent.decl).fields.map Attribute.name <+:
        ((ofUnits eventChain).fieldSet found.decl).fields.map Attribute.name ∧
      (ofUnits eventChain).NearestTo ⟨"cancelable", .int64, false⟩ found.decl ∧
      TransGen (ofUnits eventChain).Inherits "MouseEventInit" "BaseInit" := by
  have hfound : (ofUnits eventChain).get? "MouseEventInit" = some _ := rfl
  have hparent : (ofUnits eventChain).get? "UIEventInit" = some _ := rfl
  obtain ⟨-, hinherited, -, hnearest, hmissing⟩ := fieldSet_inherited build_eventChain hfound
  refine ⟨_, _, hfound, hparent, by decide, (hinherited _ _ rfl hparent).2, ?_, ?_⟩
  · exact (hnearest _).mp (by decide)
  · exact ((hmissing "BaseInit").mp (by decide)).1

end Registry

end IdlBindings
