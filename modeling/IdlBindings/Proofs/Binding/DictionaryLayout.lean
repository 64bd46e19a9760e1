import IdlBindings.Proofs.Binding.Names
import IdlBindings.Proofs.Registry.Fields

/-!
The layout of a derived dictionary. Its fields are those of its parent, each in its place,
and what is new after them; names are handed out in that order. A field that comes later
therefore renames none that comes before, and the native form of the parent is the start
of that of the dictionary, as long as the same fields can be emitted.
-/

namespace IdlBindings.Binding

open Naming

/-- A field is emitted with the type it is declared with. -/
theorem eq_of_emittedType_field {registry : Registry} {type emitted : ValueType}
    (h : emittedType registry .field type = .ok emitted) : emitted = type := by
  cases type with
  | void => cases h
  | pointer className => cases h
  | unsupported => cases h
  | _ =>
      cases h
      rfl

/-- The fields that are bound for fields of which all can be emitted. -/
def namedFields (names : List String) (fields : List Attribute) : List BoundField :=
  List.zipWith (fun name a => ⟨name, a.type⟩) names fields

theorem bindFields_eq_namedFields (registry : Registry) (className : String) (pool : Pool)
    (fields : List Attribute) :
    (bindFields registry className pool fields).1 =
      namedFields (pool.handOut (askedFields registry fields))
        (fields.filter (isEmittableField registry)) := by
  induction fields generalizing pool with
  | nil => rfl
  | cons a rest ih =>
      rw [bindFields, askedFields]
      cases htype : emittedType registry .field a.type with
      | error cause =>
          have hskipped : isEmittableField registry a = false := isOk_of_eq_error htype
          rw [List.filter_cons_of_neg (by simp [hskipped])]
          exact ih pool
      | ok type =>
          have hmet : isEmittableField registry a = true := isOk_of_eq_ok htype
          obtain rfl := eq_of_emittedType_field htype
          rw [List.filter_cons_of_pos hmet]
          exact congrArg (List.cons _) (ih _)

/-- The fields of a class that are emitted when it is bound as a dictionary. -/
def emittedFields (registry : Registry) (c : ClassDecl) : List Attribute :=
  (registry.fieldSet c).fields.filter (isEmittableField registry)

/-- The names that these fields have in the emitted code. -/
def fieldNames (registry : Registry) (c : ClassDecl) : List String :=
  (Pool.ofReserved []).handOut (askedFields registry (registry.fieldSet c).fields)

theorem fields_of_bindDictionary (registry : Registry) (c : ClassDecl) (objectName : String) :
    (bindDictionary registry c objectName).1.fields =
      namedFields (fieldNames registry c) (emittedFields registry c) :=
  bindFields_eq_namedFields registry c.name (.ofReserved []) (registry.fieldSet c).fields

theorem length_fieldNames (registry : Registry) (c : ClassDecl) :
    (fieldNames registry c).length = (emittedFields registry c).length := by
  rw [fieldNames, Pool.length_handOut, askedFields, List.length_map, emittedFields]

theorem map_name_namedFields {names : List String} {fields : List Attribute}
    (h : names.length = fields.length) :
    (namedFields names fields).map BoundField.name = names := by
  induction names generalizing fields with
  | nil => rfl
  | cons name names ih =>
      cases fields with
      | nil => cases h
      | cons a fields => exact congrArg (List.cons name) (ih (Nat.succ.inj h))

/-- Overriding fields by attributes that can be emitted where they can changes neither
which of them are emitted nor what they are called. -/
theorem filter_overriddenBy {registry : Registry} {fields own : List Attribute}
    (hkept : ∀ a ∈ fields,
      isEmittableField registry (a.overriddenBy own) = isEmittableField registry a) :
    (fields.map (·.overriddenBy own)).filter (isEmittableField registry) =
      (fields.filter (isEmittableField registry)).map (·.overriddenBy own) := by
  rw [List.filter_map]
  exact congrArg _ (List.filter_congr hkept)

variable {registry : Registry} {name parentName : String} {found parent : RegisteredClass}

/-- The emitted fields of a class start with those of its parent, overridden, and so do
their names. -/
theorem emittedFields_of_parent (hacyclic : registry.Acyclic)
    (hfound : registry.get? name = some found) (hname : found.decl.parent = some parentName)
    (hparent : registry.get? parentName = some parent)
    (hkept : ∀ inherited ∈ (registry.fieldSet parent.decl).fields,
      ∀ own ∈ (registry.fieldSet found.decl).fields, own.name = inherited.name →
        isEmittableField registry own = isEmittableField registry inherited) :
    (emittedFields registry parent.decl).map (·.overriddenBy found.decl.attributes) <+:
        emittedFields registry found.decl ∧
      fieldNames registry parent.decl <+: fieldNames registry found.decl := by
  have hfields := Registry.fieldSet_of_parent hacyclic hfound hname hparent
  obtain ⟨new, hnew⟩ := exists_putFields_eq (registry.nodup_fieldSet parent.decl)
    found.decl.attributes
  rw [hnew] at hfields
  have hsame : ∀ a ∈ (registry.fieldSet parent.decl).fields,
      isEmittableField registry (a.overriddenBy found.decl.attributes) =
        isEmittableField registry a := by
    intro a ha
    apply hkept a ha
    · rw [hfields]
      exact List.mem_append_left _ (List.mem_map_of_mem ha)
    · exact a.name_overriddenBy _
  have hasked : askedFields registry (registry.fieldSet found.decl).fields =
      askedFields registry (registry.fieldSet parent.decl).fields ++ askedFields registry new := by
    rw [hfields, askedFields, List.filter_append, filter_overriddenBy hsame, List.map_append,
      List.map_map]
    simp only [Function.comp_def, Attribute.name_overriddenBy]
    rfl
  constructor
  · rw [emittedFields, emittedFields, hfields, List.filter_append, filter_overriddenBy hsame]
    exact List.prefix_append _ _
  · rw [fieldNames, fieldNames, hasked, Pool.handOut_append]
    exact List.prefix_append _ _

theorem getElem?_namedFields {names : List String} {fields : List Attribute} {i : Nat}
    {fieldName : String} {a : Attribute} (hname : names[i]? = some fieldName)
    (hfield : fields[i]? = some a) : (namedFields names fields)[i]? = some ⟨fieldName, a.type⟩ := by
  rw [namedFields, List.getElem?_zipWith, hname, hfield]

theorem getElem?_of_startsWith {α : Type} {first whole : List α} (h : first <+: whole) {i : Nat}
    {a : α} (ha : first[i]? = some a) : whole[i]? = some a := by
  obtain ⟨hi, rfl⟩ := List.getElem?_eq_some_iff.mp ha
  exact List.prefix_iff_getElem?.mp h i hi

/-- A dictionary starts with the layout of its parent, in every registry that can be built
and whatever the kind of the parent: where no field that it declares again can be emitted
in one and not in the other, the names of the parent's fields, in both forms, are the first
of its own. A field that it does not declare again is written alike in both. -/
theorem layout_starts_with_parent {units : List SourceUnit}
    (hbuild : Registry.build units = .ok registry) (hfound : registry.get? name = some found)
    (hname : found.decl.parent = some parentName)
    (hparent : registry.get? parentName = some parent)
    (hkept : ∀ inherited ∈ (registry.fieldSet parent.decl).fields,
      ∀ own ∈ (registry.fieldSet found.decl).fields, own.name = inherited.name →
        isEmittableField registry own = isEmittableField registry inherited)
    (objectName parentObjectName : String) :
    let base := (bindDictionary registry parent.decl parentObjectName).1
    let derived := (bindDictionary registry found.decl objectName).1
    (∀ binding ∈ [base, derived],
      binding.fragment.slot? "fields" =
          some (String.join (binding.fields.map BoundField.valueField)) ∧
        binding.fragment.slot? "raw_fields" =
          some (String.join (binding.fields.map BoundField.nativeField))) ∧
    base.fields.map BoundField.name <+: derived.fields.map BoundField.name ∧
    base.fields.length = (emittedFields registry parent.decl).length ∧
    ∀ (i : Nat) (inherited : Attribute),
      (emittedFields registry parent.decl)[i]? = some inherited →
      inherited.name ∉ found.decl.attributes.map Attribute.name →
      ∃ field, base.fields[i]? = some field ∧ derived.fields[i]? = some field ∧
        field.type = inherited.type := by
  intro base derived
  obtain ⟨-, hacyclic, rfl⟩ := Registry.build_eq_ok_iff.mp hbuild
  obtain ⟨hfields, hnames⟩ := emittedFields_of_parent hacyclic hfound hname hparent hkept
  have hbase : base.fields = namedFields _ _ := fields_of_bindDictionary _ parent.decl _
  have hderived : derived.fields = namedFields _ _ := fields_of_bindDictionary _ found.decl _
  have hlength := length_fieldNames (.ofUnits units) parent.decl
  refine ⟨fun binding _ => ⟨rfl, rfl⟩, ?_, ?_, fun i inherited hinherited hown => ?_⟩
  · rw [hbase, hderived, map_name_namedFields hlength, map_name_namedFields (length_fieldNames _ _)]
    exact hnames
  · rw [hbase, namedFields, List.length_zipWith, hlength, Nat.min_self]
  · obtain ⟨hi, -⟩ := List.getElem?_eq_some_iff.mp hinherited
    rw [← hlength] at hi
    obtain ⟨fieldName, hfieldName⟩ : ∃ fieldName,
        (fieldNames (.ofUnits units) parent.decl)[i]? = some fieldName :=
      ⟨_, List.getElem?_eq_getElem hi⟩
    have hsame : (emittedFields (.ofUnits units) found.decl)[i]? = some inherited := by
      apply getElem?_of_startsWith hfields
      rw [List.getElem?_map, hinherited, Option.map_some, Attribute.overriddenBy_of_not_mem hown]
    refine ⟨⟨fieldName, inherited.type⟩, ?_, ?_, rfl⟩
    · rw [hbase, getElem?_namedFields hfieldName hinherited]
    · rw [hderived, getElem?_namedFields (getElem?_of_startsWith hnames hfieldName) hsame]

/-- A dictionary and one derived from it, which declares one of the fields again with
another type and adds fields, one of them with a name that is taken in snake case. -/
def events : List SourceUnit :=
  [⟨"event_init.idl", [.class .dictionary ⟨"EventInit", none,
      [.attribute ⟨"bubbles", .boolean, false⟩, .attribute ⟨"target", .pointer "Node", false⟩,
        .attribute ⟨"composed", .boolean, false⟩]⟩]⟩,
    ⟨"custom_event_init.idl", [.class .dictionary ⟨"CustomEventInit", some "EventInit",
      [.attribute ⟨"Bubbles", .any, false⟩, .attribute ⟨"composed", .int32, false⟩]⟩]⟩]

theorem build_events : Registry.build events = .ok (.ofUnits events) := by
  refine Registry.build_eq_ok_iff.mpr ⟨by decide, ?_, rfl⟩
  exact Registry.acyclic_of_checkLoops_eq_ok (by rfl)

theorem layout_starts_with_parent_events :
    ∃ found parent, (Registry.ofUnits events).get? "CustomEventInit" = some found ∧
      (Registry.ofUnits events).get? "EventInit" = some parent ∧
      ((bindDictionary (.ofUnits events) parent.decl "EventInit").1.fields.map BoundField.name =
        ["bubbles", "composed"]) ∧
      ((bindDictionary (.ofUnits events) found.decl "CustomEventInit").1.fields.map
        BoundField.name = ["bubbles", "composed", "bubbles_2"]) ∧
      ∃ field,
        (bindDictionary (.ofUnits events) parent.decl "EventInit").1.fields[0]? = some field ∧
        (bindDictionary (.ofUnits events) found.decl "CustomEventInit").1.fields[0]? =
          some field := by
  have hfound : (Registry.ofUnits events).get? "CustomEventInit" = some _ := rfl
  have hparent : (Registry.ofUnits events).get? "EventInit" = some _ := rfl
  have hlayout := layout_starts_with_parent build_events hfound rfl hparent (by decide)
    "CustomEventInit" "EventInit"
  obtain ⟨field, hbase, hderived, -⟩ := hlayout.2.2.2 0 ⟨"bubbles", .boolean, false⟩ rfl (by decide)
  exact ⟨_, _, hfound, hparent, by decide, by decide, field, hbase, hderived⟩

end IdlBindings.Binding
