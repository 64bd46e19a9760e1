import IdlBindings.Proofs.Registry.Extension

/-!
The fields of a dictionary and those of its parent. Adding attributes to a list of fields
never moves a field: one that is declared again keeps its place, and what is new comes
after all others. In a registry without loops the fields of a class are those of its
parent with its own attributes added.
-/

namespace IdlBindings

/-- The declaration of a field that counts once attributes were added: the last of them
that has its name, if there is one. -/
def Attribute.overriddenBy (a : Attribute) : List Attribute → Attribute
  | [] => a
  | first :: rest => (if first.name = a.name then first else a).overriddenBy rest

namespace Attribute

theorem name_overriddenBy (a : Attribute) (added : List Attribute) :
    (a.overriddenBy added).name = a.name := by
  induction added generalizing a with
  | nil => rfl
  | cons first rest ih =>
      rw [overriddenBy, ih]
      split
      · assumption
      · rfl

theorem overriddenBy_of_not_mem {a : Attribute} {added : List Attribute}
    (h : a.name ∉ added.map Attribute.name) : a.overriddenBy added = a := by
  induction added with
  | nil => rfl
  | cons first rest ih =>
      rw [List.map_cons, List.mem_cons, not_or] at h
      rw [overriddenBy, if_neg (Ne.symm h.1), ih h.2]

end Attribute

theorem map_overriddenBy_of_disjoint {fields added : List Attribute}
    (h : ∀ a ∈ fields, a.name ∉ added.map Attribute.name) :
    fields.map (·.overriddenBy added) = fields := by
  rw [List.map_congr_left fun a hmem => Attribute.overriddenBy_of_not_mem (h a hmem), List.map_id']

/-- Putting a field changes the one of its name in its place, where no name is there
twice, and otherwise adds it at the end. -/
theorem putField_eq {fields : List Attribute} (hnodup : (fields.map Attribute.name).Nodup)
    (a : Attribute) :
    putField a fields = fields.map (·.overriddenBy [a]) ++
      if a.name ∈ fields.map Attribute.name then [] else [a] := by
  induction fields with
  | nil => rfl
  | cons first rest ih =>
      obtain ⟨hfirst, hrest⟩ := List.nodup_cons.mp hnodup
      rw [putField, List.map_cons, List.map_cons, Attribute.overriddenBy, Attribute.overriddenBy]
      by_cases hname : first.name = a.name
      · have hothers : rest.map (·.overriddenBy [a]) = rest := by
          apply map_overriddenBy_of_disjoint
          intro other hother hsame
          rw [List.map_singleton, List.mem_singleton, ← hname] at hsame
          exact hfirst (hsame ▸ List.mem_map_of_mem hother)
        rw [if_pos hname, if_pos hname.symm, if_pos (List.mem_cons.mpr (Or.inl hname.symm)),
          hothers, List.append_nil]
      · have hlater : a.name ∈ first.name :: rest.map Attribute.name ↔
            a.name ∈ rest.map Attribute.name := by
          rw [List.mem_cons, or_iff_right (Ne.symm hname)]
        rw [if_neg hname, if_neg (Ne.symm hname), ih hrest]
        simp only [hlater, List.cons_append]

theorem nodup_putField {fields : List Attribute} (hnodup : (fields.map Attribute.name).Nodup)
    (a : Attribute) : ((putField a fields).map Attribute.name).Nodup := by
  have hkept : (fields.map (·.overriddenBy [a])).map Attribute.name =
      fields.map Attribute.name := by
    rw [List.map_map]
    exact List.map_congr_left fun other _ => other.name_overriddenBy [a]
  rw [putField_eq hnodup, List.map_append, hkept]
  by_cases hmem : a.name ∈ fields.map Attribute.name
  · rwa [if_pos hmem, List.map_nil, List.append_nil]
  · rw [if_neg hmem, List.map_singleton]
    exact List.nodup_append.mpr ⟨hnodup, List.nodup_singleton _, fun name hname other hother => by
      rintro rfl
      exact hmem (List.mem_singleton.mp hother ▸ hname)⟩

/-- Adding attributes leaves every field in its place and puts what is new after them. -/
theorem exists_putFields_eq {fields : List Attribute} (hnodup : (fields.map Attribute.name).Nodup)
    (added : List Attribute) :
    ∃ new, putFields fields added = fields.map (·.overriddenBy added) ++ new := by
  induction added generalizing fields with
  | nil => exact ⟨[], by rw [List.append_nil]; exact (List.map_id' fields).symm⟩
  | cons a rest ih =>
      obtain ⟨new, hnew⟩ := ih (nodup_putField hnodup a)
      have hstep : putFields fields (a :: rest) = putFields (putField a fields) rest := rfl
      rw [hstep, hnew, putField_eq hnodup, List.map_append, List.map_map, List.append_assoc]
      exact ⟨_, rfl⟩

theorem nodup_putFields {fields : List Attribute} (hnodup : (fields.map Attribute.name).Nodup)
    (added : List Attribute) : ((putFields fields added).map Attribute.name).Nodup := by
  induction added generalizing fields with
  | nil => exact hnodup
  | cons a rest ih => exact ih (nodup_putField hnodup a)

theorem mem_putField (a : Attribute) (fields : List Attribute) : a ∈ putField a fields := by
  induction fields with
  | nil => exact List.mem_singleton_self a
  | cons first rest ih =>
      rw [putField]
      split
      · exact List.mem_cons_self
      · exact List.mem_cons_of_mem _ ih

theorem mem_putField_of_ne {a other : Attribute} {fields : List Attribute} (hmem : a ∈ fields)
    (hne : a.name ≠ other.name) : a ∈ putField other fields := by
  induction fields with
  | nil => cases hmem
  | cons first rest ih =>
      rw [putField]
      rcases List.mem_cons.mp hmem with rfl | hrest
      · rw [if_neg hne]
        exact List.mem_cons_self
      · split
        · exact List.mem_cons_of_mem _ hrest
        · exact List.mem_cons_of_mem _ (ih hrest)

/-- Of the attributes of one name that are added, the last is the field of that name. -/
theorem mem_putFields_of_last (fields : List Attribute) {before after : List Attribute}
    {a : Attribute} (hlast : a.name ∉ after.map Attribute.name) :
    a ∈ putFields fields (before ++ a :: after) := by
  have hkept (fields : List Attribute) (hmem : a ∈ fields) : a ∈ putFields fields after := by
    induction after generalizing fields with
    | nil => exact hmem
    | cons first rest ih =>
        rw [List.map_cons, List.mem_cons, not_or] at hlast
        exact ih hlast.2 _ (mem_putField_of_ne hmem hlast.1)
  rw [putFields, List.foldl_append, List.foldl_cons]
  exact hkept _ (mem_putField a _)

namespace Registry

variable {registry : Registry}

/-- The attributes of a class and of its registered ancestors, those of the farthest first. -/
def lineageAttributes (registry : Registry) (c : ClassDecl) : List Attribute :=
  (c :: registry.ancestors c).reverse.flatMap ClassDecl.attributes

theorem fields_eq_putFields (registry : Registry) (c : ClassDecl) :
    (registry.fieldSet c).fields = putFields [] (registry.lineageAttributes c) := by
  have hall (ancestors : List ClassDecl) (fields : List Attribute) :
      ancestors.foldl (fun fields a => putFields fields a.attributes) fields =
        putFields fields (ancestors.flatMap ClassDecl.attributes) := by
    rw [putFields, List.foldl_flatMap]
    rfl
  rw [lineageAttributes, List.reverse_cons, ← hall, List.foldl_append]
  rfl

theorem nodup_fieldSet (registry : Registry) (c : ClassDecl) :
    ((registry.fieldSet c).fields.map Attribute.name).Nodup := by
  rw [fields_eq_putFields]
  apply nodup_putFields
  exact List.nodup_nil

/-- The ancestors of a class are its parent and the ancestors of that. -/
theorem ancestors_of_parent (hacyclic : registry.Acyclic) {name parentName : String}
    {found parent : RegisteredClass} (hfound : registry.get? name = some found)
    (hname : found.decl.parent = some parentName)
    (hparent : registry.get? parentName = some parent) :
    registry.ancestors found.decl = parent.decl :: registry.ancestors parent.decl := by
  have hlineage := lineage_ancestors hacyclic hfound
  rw [hname] at hlineage
  exact hlineage.unique (.step hparent (lineage_ancestors hacyclic hparent))

/-- The fields of a class are those of its parent with its own attributes added. -/
theorem fieldSet_of_parent (hacyclic : registry.Acyclic) {name parentName : String}
    {found parent : RegisteredClass} (hfound : registry.get? name = some found)
    (hname : found.decl.parent = some parentName)
    (hparent : registry.get? parentName = some parent) :
    (registry.fieldSet found.decl).fields =
      putFields (registry.fieldSet parent.decl).fields found.decl.attributes := by
  rw [fields_eq_putFields, fields_eq_putFields, lineageAttributes, lineageAttributes,
    ancestors_of_parent hacyclic hfound hname hparent, List.reverse_cons, List.flatMap_append,
    putFields, List.foldl_append, List.flatMap_singleton]
  rfl

end Registry

end IdlBindings
