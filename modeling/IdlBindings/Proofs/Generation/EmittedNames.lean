import IdlBindings.Proofs.Generation.ReferenceClosure
import Mathlib.Data.List.Flatten
import Mathlib.Data.List.Nodup
import Mathlib.Data.List.Perm.Basic

/-!
The names under which the classes of a run are emitted. The first class of a unit takes
the name that the file stands for, and every other class keeps its own. Of these names
only the declared ones are compared with each other: those that files give are not
compared, neither among themselves nor with the names that classes keep. So a run may
emit two classes under one name, and it does not exactly when both comparisons would
find nothing.
-/

namespace IdlBindings

namespace SourceUnit

/-- The name that the file gives to the first class of the unit. -/
def givenName? (unit : SourceUnit) : Option String :=
  if unit.classes.isEmpty || Naming.className unit.stem == "" then none
  else some (Naming.className unit.stem)

/-- The names of the classes that are emitted as they are declared. -/
def keptNames (unit : SourceUnit) : List String :=
  (unit.classes.drop unit.givenName?.toList.length).map fun entry => entry.2.name

theorem givenName?_bindable (unit : SourceUnit) : unit.bindable.givenName? = unit.givenName? := by
  rw [givenName?, classes_bindable, List.isEmpty_map]
  rfl

theorem keptNames_bindable (unit : SourceUnit) : unit.bindable.keptNames = unit.keptNames := by
  rw [keptNames, givenName?_bindable, classes_bindable, ← List.map_drop, List.map_map]
  rfl

theorem keptNames_sublist (unit : SourceUnit) :
    unit.keptNames.Sublist (unit.classes.map fun entry => entry.2.name) :=
  (List.drop_sublist _ _).map _

end SourceUnit

theorem map_emittedName_entriesFrom_false (unit : String)
    (classes : List (ClassKind × ClassDecl)) :
    (entriesFrom unit false classes).map RegisteredClass.emittedName =
      classes.map fun entry => entry.2.name := by
  induction classes with
  | nil => rfl
  | cons entry classes ih =>
      rw [entriesFrom, List.map_cons, List.map_cons, ih]
      rfl

theorem SourceUnit.map_emittedName_entries (unit : SourceUnit) :
    unit.entries.map RegisteredClass.emittedName = unit.givenName?.toList ++ unit.keptNames := by
  rw [entries, keptNames, givenName?]
  cases unit.classes with
  | nil => rfl
  | cons entry classes =>
      rw [entriesFrom, List.map_cons, map_emittedName_entriesFrom_false,
        RegisteredClass.emittedName]
      have hderived : Naming.className (fileStem unit.fileName) = Naming.className unit.stem := rfl
      by_cases hstem : Naming.className unit.stem = ""
      · simp [hderived, hstem]
      · simp [hderived, hstem]

namespace Registry

/-- What is emitted are the names that files give and those that classes keep. -/
theorem emittedNames_perm (units : List SourceUnit) :
    ((ofUnits units).classes.map RegisteredClass.emittedName).Perm
      (units.filterMap SourceUnit.givenName? ++ units.flatMap SourceUnit.keptNames) := by
  rw [ofUnits, List.map_flatMap, List.filterMap_eq_flatMap_toList]
  simp only [SourceUnit.map_emittedName_entries]
  exact (List.flatMap_append_perm units _ _).symm

theorem nodup_keptNames {units : List SourceUnit} (h : (declaredNames units).Nodup) :
    (units.flatMap SourceUnit.keptNames).Nodup :=
  h.sublist (List.Sublist.flatMap_right units fun unit _ => unit.keptNames_sublist)

theorem nodup_emittedNames_iff {units : List SourceUnit} (h : (declaredNames units).Nodup) :
    ((ofUnits units).classes.map RegisteredClass.emittedName).Nodup ↔
      (units.filterMap SourceUnit.givenName?).Nodup ∧
        (units.filterMap SourceUnit.givenName?).Disjoint (units.flatMap SourceUnit.keptNames) := by
  rw [(emittedNames_perm units).nodup_iff, List.nodup_append']
  exact ⟨fun ⟨hgiven, _, hdisjoint⟩ => ⟨hgiven, hdisjoint⟩,
    fun ⟨hgiven, hdisjoint⟩ => ⟨hgiven, nodup_keptNames h, hdisjoint⟩⟩

theorem emittedName?_of_mem {registry : Registry} (hnodup : registry.classNames.Nodup)
    {c : RegisteredClass} (hc : c ∈ registry.classes) :
    registry.emittedName? c.name = some c.emittedName := by
  rw [emittedName?, (get?_eq_some_iff hnodup).mpr ⟨hc, rfl⟩]
  rfl

theorem emittedName?_injective_iff {registry : Registry} (hnodup : registry.classNames.Nodup) :
    (∀ c ∈ registry.classes, ∀ d ∈ registry.classes,
        registry.emittedName? c.name = registry.emittedName? d.name → c = d) ↔
      (registry.classes.map RegisteredClass.emittedName).Nodup := by
  rw [List.nodup_map_iff_inj_on hnodup.of_map]
  refine forall₂_congr fun c hc => forall₂_congr fun d hd => ?_
  rw [emittedName?_of_mem hnodup hc, emittedName?_of_mem hnodup hd, Option.some.injEq]

end Registry

namespace Generation

open Binding

theorem classNames_runRegistry (units : List SourceUnit) :
    (runRegistry units).classNames = declaredNames units := by
  rw [runRegistry, Registry.classNames_ofUnits, declaredNames_map_bindable]

theorem nodup_emittedNames_runRegistry_iff {units : List SourceUnit}
    (h : (declaredNames units).Nodup) :
    ((runRegistry units).classes.map RegisteredClass.emittedName).Nodup ↔
      (units.filterMap SourceUnit.givenName?).Nodup ∧
        (units.filterMap SourceUnit.givenName?).Disjoint (units.flatMap SourceUnit.keptNames) := by
  rw [runRegistry, Registry.nodup_emittedNames_iff ((declaredNames_map_bindable units).symm ▸ h),
    List.filterMap_map, List.flatMap_map,
    List.filterMap_congr fun unit _ => unit.givenName?_bindable,
    List.flatMap_congr fun unit _ => unit.keptNames_bindable]

/-- The fragments of a unit carry the names of its classes, in their order. -/
theorem map_objectName_fragments (registry : Registry) (unit : SourceUnit) :
    ((fragments registry unit).map fun fragment => fragment.slot? "object_name") =
      unit.classes.map fun entry => some (objectName registry unit entry.2) := by
  rw [fragments, SourceUnit.classes, List.map_filterMap, List.map_filterMap]
  refine List.filterMap_congr fun declaration _ => ?_
  cases declaration with
  | «class» kind c =>
      obtain ⟨fragment, hfragment, _, _, hname⟩ := bindDeclaration_class registry unit kind c
      rw [hfragment]
      exact congrArg some hname
  | function f => rfl
  | unknown kind name => rfl

theorem some_objectName {units : List SourceUnit} (hregistrable : Registrable units)
    {unit : SourceUnit} (hunit : unit ∈ units) {entry : ClassKind × ClassDecl}
    (hentry : entry ∈ unit.classes) :
    some (objectName (runRegistry units) unit entry.2) =
      (runRegistry units).emittedName? entry.2.name := by
  obtain ⟨found, hfound, _⟩ :=
    get?_of_declaration hregistrable hunit (SourceUnit.mem_classes_iff.mp hentry)
  rw [objectName_of_get? hfound, Registry.emittedName?, hfound]
  rfl

/-- A run emits every class that it registers once, under its emitted name. -/
theorem emitted_objectNames {units : List SourceUnit} (hregistrable : Registrable units) :
    (units.flatMap fun unit => (fragments (runRegistry units) unit).map
        fun fragment => fragment.slot? "object_name") =
      (runRegistry units).classes.map fun c => (runRegistry units).emittedName? c.name := by
  have hnames : ((runRegistry units).classes.map fun c => (runRegistry units).emittedName? c.name) =
      (declaredNames units).map (runRegistry units).emittedName? := by
    rw [← classNames_runRegistry, Registry.classNames, List.map_map]
    rfl
  rw [hnames, declaredNames, List.map_flatMap]
  refine List.flatMap_congr fun unit hunit => ?_
  rw [map_objectName_fragments, List.map_map]
  exact List.map_congr_left fun entry hentry => some_objectName hregistrable hunit hentry

/-- In a run that succeeds, the fragments are emitted under the emitted names of the
registered classes, one each. No two classes share such a name exactly when no two files
give the same name and no file gives a name that another class keeps. -/
theorem emittedNames_distinct_iff {units : List SourceUnit} {templates : TemplateSet}
    {settings : Settings} {choice : ErrorChoice GenerationError} {generated : List GeneratedUnit}
    (hok : generateAll units templates settings choice = .ok generated) :
    buildRegistry units = .ok (runRegistry units) ∧
    (units.flatMap fun unit => (fragments (runRegistry units) unit).map
        fun fragment => fragment.slot? "object_name") =
      ((runRegistry units).classes.map fun c => (runRegistry units).emittedName? c.name) ∧
    ((∀ c ∈ (runRegistry units).classes, ∀ d ∈ (runRegistry units).classes,
        (runRegistry units).emittedName? c.name = (runRegistry units).emittedName? d.name →
          c = d) ↔
      (units.filterMap SourceUnit.givenName?).Nodup ∧
        (units.filterMap SourceUnit.givenName?).Disjoint
          (units.flatMap SourceUnit.keptNames)) := by
  obtain ⟨hregistrable, -⟩ := generateAll_eq_ok_iff.mp hok
  refine ⟨buildRegistry_eq_ok_iff.mpr ⟨hregistrable, rfl⟩, emitted_objectNames hregistrable, ?_⟩
  have hnames : (runRegistry units).classNames.Nodup := by
    rw [classNames_runRegistry]
    exact hregistrable.distinct
  rw [Registry.emittedName?_injective_iff hnames]
  exact nodup_emittedNames_runRegistry_iff hregistrable.distinct

theorem emittedNames_distinct_shapes :
    ∃ templates generated, TemplateSet.ofSources TemplateSet.slotsOnly = .ok templates ∧
      (∀ choice, generateAll shapes templates { strict := true } choice = .ok generated) ∧
      ∀ c ∈ (runRegistry shapes).classes, ∀ d ∈ (runRegistry shapes).classes,
        (runRegistry shapes).emittedName? c.name = (runRegistry shapes).emittedName? d.name →
          c = d := by
  obtain ⟨templates, hread⟩ := TemplateSet.exists_ofSources_slotsOnly
  obtain ⟨generated, hgenerated⟩ : ∃ generated, ∀ choice,
      generateAll shapes templates { strict := true } choice = .ok generated :=
    exists_generateAll registrable_shapes (TemplateSet.loaded_of_ofSources hread)
      fun _ => by decide
  obtain ⟨_, _, hdistinct⟩ := emittedNames_distinct_iff (hgenerated .first)
  have hgiven : (shapes.filterMap SourceUnit.givenName?).Nodup := by decide
  have hkept : shapes.flatMap SourceUnit.keptNames = [] := by decide
  refine ⟨templates, generated, hread, hgenerated, hdistinct.mpr ⟨hgiven, ?_⟩⟩
  rw [hkept]
  exact List.disjoint_nil_right _

/-- A unit whose file gives its first class the name of the second. -/
def points : List SourceUnit :=
  [⟨"point", [.class .interface ⟨"Shape", none, []⟩, .class .interface ⟨"Point", none, []⟩]⟩]

theorem registrable_points : Registrable points :=
  registrable_of_checks (by decide) (by decide) rfl

/-- A run of that unit succeeds, by any templates, and emits two classes as `Point`. -/
theorem emittedName_shared_points :
    (∃ templates, TemplateSet.ofSources TemplateSet.slotsOnly = .ok templates) ∧
    (∀ sources templates, TemplateSet.ofSources sources = .ok templates →
      ∃ generated, ∀ choice,
        generateAll points templates { strict := true } choice = .ok generated) ∧
    ∃ c ∈ (runRegistry points).classes, ∃ d ∈ (runRegistry points).classes, c ≠ d ∧
      (runRegistry points).emittedName? c.name = some "Point" ∧
      (runRegistry points).emittedName? d.name = some "Point" := by
  refine ⟨TemplateSet.exists_ofSources_slotsOnly, fun sources templates hread => ?_, ?_⟩
  · exact exists_generateAll registrable_points (TemplateSet.loaded_of_ofSources hread)
      fun _ => by decide
  · refine ⟨⟨.interface, "point", true, ⟨"Shape", none, []⟩⟩, by decide,
      ⟨.interface, "point", false, ⟨"Point", none, []⟩⟩, by decide, by decide, ?_, ?_⟩
    · decide
    · decide

end Generation

end IdlBindings
