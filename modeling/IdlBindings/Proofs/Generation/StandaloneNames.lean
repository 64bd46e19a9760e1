import IdlBindings.Proofs.Generation.EmittedNames

/-!
The names of the classes of a unit that is generated on its own. A registry marks the
first class of a unit when it is registered; without an entry the class is compared with
the first of its unit by name. As no name is declared twice, both find the same class, and
both leave it its own name when the file gives none. So classes are named alike whether or
not their unit is registered.
-/

namespace IdlBindings

theorem map_class_entriesFrom (unit : String) (isPrimary : Bool)
    (classes : List (ClassKind × ClassDecl)) :
    ((entriesFrom unit isPrimary classes).map fun c => (c.kind, c.decl)) = classes := by
  induction classes generalizing isPrimary with
  | nil => rfl
  | cons entry classes ih =>
      rw [entriesFrom, List.map_cons, ih]

namespace Generation

/-- Over a registry that holds them, the classes of a unit have their emitted names. -/
theorem map_objectName_of_registered {units : List SourceUnit}
    (hnodup : (declaredNames units).Nodup) {unit : SourceUnit} (hunit : unit ∈ units) :
    (unit.classes.map fun entry => objectName (.ofUnits units) unit entry.2) =
      unit.givenName?.toList ++ unit.keptNames := by
  rw [← SourceUnit.map_emittedName_entries, ← map_class_entriesFrom unit.fileName true unit.classes,
    List.map_map]
  refine List.map_congr_left fun c hc => ?_
  have hmem : c ∈ (Registry.ofUnits units).classes := List.mem_flatMap.mpr ⟨unit, hunit, hc⟩
  have hnames : (Registry.ofUnits units).classNames.Nodup := by
    rwa [Registry.classNames_ofUnits]
  exact objectName_of_get? ((Registry.get?_eq_some_iff hnames).mpr ⟨hmem, rfl⟩) unit

theorem objectName_of_not_registered {registry : Registry} {c : ClassDecl}
    (h : registry.get? c.name = none) {unit : SourceUnit} {first : ClassKind × ClassDecl}
    {others : List (ClassKind × ClassDecl)} (hclasses : unit.classes = first :: others) :
    objectName registry unit c =
      if first.2.name = c.name ∧ Naming.className unit.stem ≠ "" then Naming.className unit.stem
      else c.name := by
  rw [objectName, Registry.emittedName?, h, hclasses]
  simp

/-- Over a registry that holds none of them, they have the same names. -/
theorem map_objectName_of_not_registered {unit : SourceUnit} {registry : Registry}
    (hnodup : (unit.classes.map fun entry => entry.2.name).Nodup)
    (hfree : ∀ entry ∈ unit.classes, registry.get? entry.2.name = none) :
    (unit.classes.map fun entry => objectName registry unit entry.2) =
      unit.givenName?.toList ++ unit.keptNames := by
  rw [SourceUnit.keptNames, SourceUnit.givenName?]
  cases hclasses : unit.classes with
  | nil => rfl
  | cons first others =>
      rw [hclasses] at hnodup hfree
      obtain ⟨hfirst, hothers⟩ := List.forall_mem_cons.mp hfree
      have hlater : (others.map fun entry => objectName registry unit entry.2) =
          others.map fun entry => entry.2.name := by
        refine List.map_congr_left fun entry hentry => ?_
        rw [objectName_of_not_registered (hothers entry hentry) hclasses, if_neg]
        rintro ⟨hsame, _⟩
        exact (List.nodup_cons.mp hnodup).1 (List.mem_map.mpr ⟨entry, hentry, hsame.symm⟩)
      rw [List.map_cons, hlater, objectName_of_not_registered hfirst hclasses]
      by_cases hstem : Naming.className unit.stem = ""
      · simp [hstem]
      · simp [hstem]

/-- Classes have the same names over a registry that holds none of them as over the
registry of their unit, where they are looked up. The first class takes the name that the
file gives, if it gives one, and the others keep theirs. -/
theorem named_alike_unregistered {unit : SourceUnit} {own other : Registry}
    (hown : Registry.build [unit] = .ok own)
    (hother : ∀ entry ∈ unit.classes, other.contains entry.2.name = false) :
    (∀ entry ∈ unit.classes,
      other.emittedName? entry.2.name = none ∧
      own.emittedName? entry.2.name = some (objectName own unit entry.2) ∧
      objectName other unit entry.2 = objectName own unit entry.2) ∧
    (unit.classes.map fun entry => objectName other unit entry.2) =
      unit.givenName?.toList ++ unit.keptNames := by
  obtain ⟨hnodup, _, rfl⟩ := Registry.build_eq_ok_iff.mp hown
  have hfree : ∀ entry ∈ unit.classes, other.get? entry.2.name = none := by
    intro entry hentry
    simpa [Registry.contains] using hother entry hentry
  have hnames : (unit.classes.map fun entry => entry.2.name).Nodup := by
    simpa [declaredNames] using hnodup
  have hfallback := map_objectName_of_not_registered hnames hfree
  have hsame := hfallback.trans (map_objectName_of_registered hnodup List.mem_cons_self).symm
  refine ⟨fun entry hentry => ⟨?_, ?_, List.map_inj_left.mp hsame entry hentry⟩, hfallback⟩
  · rw [Registry.emittedName?, hfree entry hentry]
    rfl
  · obtain ⟨c, hc, _, hdecl⟩ := Registry.exists_mem_classes_ofUnits List.mem_cons_self hentry
    have hfound : (Registry.ofUnits [unit]).get? entry.2.name = some c :=
      (Registry.get?_eq_some_iff (by rwa [Registry.classNames_ofUnits])).mpr
        ⟨hc, congrArg ClassDecl.name hdecl⟩
    rw [objectName_of_get? hfound, Registry.emittedName?, hfound]
    rfl

/-- A unit whose first class comes after a function and is named by the file. -/
def rectangles : SourceUnit :=
  ⟨"dom_rect.idl", [.function ⟨"area", [], .double⟩, .class .dictionary ⟨"Rect", none, []⟩,
    .unknown "enum" (some "Corner"), .class .interface ⟨"RectList", some "Rect", []⟩]⟩

theorem named_alike_unregistered_rectangles :
    ∃ own, Registry.build [rectangles] = .ok own ∧
      (∀ entry ∈ rectangles.classes,
        objectName (.ofUnits shapes) rectangles entry.2 = objectName own rectangles entry.2) ∧
      (rectangles.classes.map fun entry => objectName (.ofUnits shapes) rectangles entry.2) =
        ["DOMRect", "RectList"] := by
  have hown : Registry.build [rectangles] = .ok (.ofUnits [rectangles]) :=
    Registry.build_eq_ok_iff.mpr
      ⟨by decide, Registry.acyclic_of_checkLoops_eq_ok (by rfl), rfl⟩
  have hfree : ∀ entry ∈ rectangles.classes,
      (Registry.ofUnits shapes).contains entry.2.name = false := by decide
  obtain ⟨hsame, hnames⟩ := named_alike_unregistered hown hfree
  refine ⟨_, hown, fun entry hentry => (hsame entry hentry).2.2, ?_⟩
  rw [hnames]
  decide

end Generation

end IdlBindings
