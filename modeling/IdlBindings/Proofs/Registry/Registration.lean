import IdlBindings.Proofs.Sequence
import IdlBindings.Registry.Basic
import Mathlib.Data.List.Nodup

/-!
What registering units amounts to. The classes of all units, in order, are added
one after the other; that succeeds exactly when no name occurs twice, and then
the registry holds these classes and no others. It fails at the first class
whose name is taken.
-/

namespace IdlBindings

/-- The entries for the classes of a unit, of which the first may be primary. -/
def entriesFrom (unit : String) (isPrimary : Bool) :
    List (ClassKind × ClassDecl) → List RegisteredClass
  | [] => []
  | (kind, decl) :: rest => ⟨kind, unit, isPrimary, decl⟩ :: entriesFrom unit false rest

/-- What a unit adds to a registry. -/
def SourceUnit.entries (unit : SourceUnit) : List RegisteredClass :=
  entriesFrom unit.fileName true unit.classes

def RegisteredClass.name (c : RegisteredClass) : String :=
  c.decl.name

namespace Registry

def classNames (registry : Registry) : List String :=
  registry.classes.map RegisteredClass.name

theorem get?_eq_none_iff {registry : Registry} {name : String} :
    registry.get? name = none ↔ name ∉ registry.classNames := by
  unfold get? classNames
  rw [List.find?_eq_none, List.mem_map]
  constructor
  · rintro hnone ⟨c, hmem, rfl⟩
    exact hnone c hmem (decide_eq_true rfl)
  · intro hnone c hmem hname
    exact hnone ⟨c, hmem, of_decide_eq_true hname⟩

theorem get?_some {registry : Registry} {name : String} {c : RegisteredClass}
    (h : registry.get? name = some c) : c ∈ registry.classes ∧ c.name = name := by
  have hname : c.decl.name = name := by simpa using List.find?_some h
  exact ⟨List.mem_of_find?_eq_some h, hname⟩

/-- Where names are distinct, a class is found under its own name. -/
theorem get?_eq_some_iff {registry : Registry} (hnodup : registry.classNames.Nodup)
    {name : String} {c : RegisteredClass} :
    registry.get? name = some c ↔ c ∈ registry.classes ∧ c.name = name := by
  refine ⟨get?_some, ?_⟩
  rintro ⟨hmem, rfl⟩
  cases hfound : registry.get? c.name with
  | none =>
      exact absurd (List.mem_map_of_mem hmem) (get?_eq_none_iff.mp hfound)
  | some found =>
      obtain ⟨hfoundMem, hname⟩ := get?_some hfound
      rw [List.inj_on_of_nodup_map hnodup hfoundMem hmem hname]

theorem add_of_fresh {registry : Registry} {entry : RegisteredClass}
    (h : entry.name ∉ registry.classNames) :
    registry.add entry = .ok ⟨registry.classes ++ [entry]⟩ := by
  unfold add
  rw [show registry.get? entry.decl.name = none from get?_eq_none_iff.mpr h]

theorem add_of_taken {registry : Registry} {entry : RegisteredClass}
    (h : entry.name ∈ registry.classNames) :
    ∃ earlier ∈ registry.classes, earlier.name = entry.name ∧
      registry.add entry = .error (.duplicateClass entry.name earlier.unit entry.unit) := by
  cases hfound : registry.get? entry.name with
  | none => exact absurd h (get?_eq_none_iff.mp hfound)
  | some earlier =>
      obtain ⟨hmem, hname⟩ := get?_some hfound
      refine ⟨earlier, hmem, hname, ?_⟩
      unfold add
      rw [show registry.get? entry.decl.name = some earlier from hfound]
      rfl

/-- Adding entries one by one succeeds exactly when their names are new and
distinct, and appends them in order. -/
theorem foldlM_add_eq_ok_iff {registry result : Registry} {entries : List RegisteredClass} :
    entries.foldlM add registry = .ok result ↔
      (entries.map RegisteredClass.name).Nodup ∧
      (∀ entry ∈ entries, entry.name ∉ registry.classNames) ∧
      result = ⟨registry.classes ++ entries⟩ := by
  induction entries generalizing registry with
  | nil =>
      rw [List.foldlM_nil]
      constructor
      · intro h
        cases h
        simp
      · rintro ⟨_, _, rfl⟩
        simp only [List.append_nil]
        rfl
  | cons entry entries ih =>
      rw [List.foldlM_cons, Sequence.bind_eq_ok_iff]
      by_cases hfresh : entry.name ∈ registry.classNames
      · constructor
        · rintro ⟨next, hnext, _⟩
          obtain ⟨_, _, _, herror⟩ := add_of_taken hfresh
          rw [herror] at hnext
          cases hnext
        · rintro ⟨_, hnew, _⟩
          exact absurd hfresh (hnew entry (by simp))
      · rw [add_of_fresh hfresh]
        constructor
        · rintro ⟨next, hnext, hrest⟩
          cases hnext
          obtain ⟨hnodup, hnew, rfl⟩ := ih.mp hrest
          have hlater : ∀ later ∈ entries,
              later.name ∉ registry.classNames ∧ later.name ≠ entry.name := by
            intro later hmem
            simpa [classNames] using hnew later hmem
          refine ⟨?_, ?_, by simp⟩
          · rw [List.map_cons, List.nodup_cons]
            refine ⟨fun hmem => ?_, hnodup⟩
            obtain ⟨later, hlaterMem, hsame⟩ := List.mem_map.mp hmem
            exact (hlater later hlaterMem).2 hsame
          · exact List.forall_mem_cons.mpr ⟨hfresh, fun later hmem => (hlater later hmem).1⟩
        · rintro ⟨hnodup, hnew, rfl⟩
          rw [List.map_cons, List.nodup_cons] at hnodup
          refine ⟨_, rfl, ih.mpr ⟨hnodup.2, ?_, by simp⟩⟩
          intro later hmem htaken
          have hcases : later.name ∈ registry.classNames ∨ later.name = entry.name := by
            simpa [classNames] using htaken
          rcases hcases with hold | hsame
          · exact hnew later (List.mem_cons_of_mem entry hmem) hold
          · exact hnodup.1 (hsame ▸ List.mem_map_of_mem hmem)

/-- Adding entries fails at the first whose name is taken, by what was there or
by an earlier entry. -/
theorem foldlM_add_eq_error {registry : Registry} {entries : List RegisteredClass}
    {error : SchemaError} (h : entries.foldlM add registry = .error error) :
    ∃ before entry after earlier, entries = before ++ entry :: after ∧
      (before.map RegisteredClass.name).Nodup ∧
      (∀ added ∈ before, added.name ∉ registry.classNames) ∧
      earlier ∈ registry.classes ++ before ∧ earlier.name = entry.name ∧
      error = .duplicateClass entry.name earlier.unit entry.unit := by
  induction entries generalizing registry with
  | nil => cases h
  | cons entry entries ih =>
      rw [List.foldlM_cons] at h
      by_cases hfresh : entry.name ∈ registry.classNames
      · obtain ⟨earlier, hmem, hname, hadd⟩ := add_of_taken hfresh
        rw [hadd] at h
        cases h
        exact ⟨[], entry, entries, earlier, rfl, List.nodup_nil, by simp, by simpa using hmem,
          hname, rfl⟩
      · rw [add_of_fresh hfresh] at h
        obtain ⟨before, failed, after, earlier, rfl, hnodup, hnew, hmem, hname, herror⟩ := ih h
        have hlater : ∀ added ∈ before,
            added.name ∉ registry.classNames ∧ added.name ≠ entry.name := by
          intro added hadded
          simpa [classNames] using hnew added hadded
        refine ⟨entry :: before, failed, after, earlier, rfl, ?_, ?_, by simpa using hmem,
          hname, herror⟩
        · rw [List.map_cons, List.nodup_cons]
          refine ⟨fun hsame => ?_, hnodup⟩
          obtain ⟨added, hadded, heq⟩ := List.mem_map.mp hsame
          exact (hlater added hadded).2 heq
        · exact List.forall_mem_cons.mpr ⟨hfresh, fun added hadded => (hlater added hadded).1⟩

/-- Registering classes is adding their entries; what it keeps after an error is
not seen by those who stop there. -/
theorem addClasses_eq_foldlM (unit : String) (isPrimary : Bool) (registry : Registry)
    (classes : List (ClassKind × ClassDecl)) :
    (match addClasses unit isPrimary registry classes with
      | (_, some error) => Except.error error
      | (next, none) => .ok next) = (entriesFrom unit isPrimary classes).foldlM add registry := by
  induction classes generalizing isPrimary registry with
  | nil => rfl
  | cons entry classes ih =>
      obtain ⟨kind, decl⟩ := entry
      rw [entriesFrom, List.foldlM_cons, addClasses]
      cases hadd : registry.add ⟨kind, unit, isPrimary, decl⟩ with
      | error e => rfl
      | ok next => exact ih false next

theorem registerAll_eq_foldlM (registry : Registry) (units : List SourceUnit) :
    registry.registerAll units = (units.flatMap SourceUnit.entries).foldlM add registry := by
  induction units generalizing registry with
  | nil => rfl
  | cons unit units ih =>
      have hunit := addClasses_eq_foldlM unit.fileName true registry unit.classes
      rw [List.flatMap_cons, List.foldlM_append, registerAll, register, SourceUnit.entries, ← hunit]
      rcases addClasses unit.fileName true registry unit.classes with ⟨next, error⟩
      cases error with
      | none => exact ih next
      | some error => rfl

end Registry

/-- The names of the interfaces and dictionaries of some units. -/
def declaredNames (units : List SourceUnit) : List String :=
  units.flatMap fun unit => unit.classes.map fun entry => entry.2.name

theorem map_name_entriesFrom (unit : String) (isPrimary : Bool)
    (classes : List (ClassKind × ClassDecl)) :
    (entriesFrom unit isPrimary classes).map RegisteredClass.name =
      classes.map fun entry => entry.2.name := by
  induction classes generalizing isPrimary with
  | nil => rfl
  | cons entry classes ih =>
      rw [entriesFrom, List.map_cons, List.map_cons, ih false]
      rfl

theorem map_name_flatMap_entries (units : List SourceUnit) :
    (units.flatMap SourceUnit.entries).map RegisteredClass.name = declaredNames units := by
  rw [List.map_flatMap]
  exact List.flatMap_congr fun unit _ => map_name_entriesFrom _ _ _

theorem mem_entriesFrom {unit : String} {isPrimary : Bool}
    {classes : List (ClassKind × ClassDecl)} {c : RegisteredClass}
    (h : c ∈ entriesFrom unit isPrimary classes) :
    c.unit = unit ∧ (c.kind, c.decl) ∈ classes := by
  induction classes generalizing isPrimary with
  | nil => cases h
  | cons entry classes ih =>
      rcases List.mem_cons.mp h with rfl | hrest
      · exact ⟨rfl, List.mem_cons_self⟩
      · obtain ⟨hunit, hmem⟩ := ih hrest
        exact ⟨hunit, List.mem_cons_of_mem entry hmem⟩

theorem exists_mem_entriesFrom (unit : String) (isPrimary : Bool)
    {classes : List (ClassKind × ClassDecl)} {kind : ClassKind} {decl : ClassDecl}
    (h : (kind, decl) ∈ classes) :
    ∃ c ∈ entriesFrom unit isPrimary classes, c.kind = kind ∧ c.decl = decl := by
  induction classes generalizing isPrimary with
  | nil => cases h
  | cons entry classes ih =>
      rcases List.mem_cons.mp h with rfl | hrest
      · exact ⟨_, List.mem_cons_self, rfl, rfl⟩
      · obtain ⟨c, hmem, hc⟩ := ih false hrest
        exact ⟨c, List.mem_cons_of_mem _ hmem, hc⟩

namespace Registry

/-- The registry that holds the classes of some units. -/
def ofUnits (units : List SourceUnit) : Registry :=
  ⟨units.flatMap SourceUnit.entries⟩

theorem classNames_ofUnits (units : List SourceUnit) :
    (ofUnits units).classNames = declaredNames units :=
  map_name_flatMap_entries units

theorem registerAll_empty_eq_ok_iff {units : List SourceUnit} {registry : Registry} :
    empty.registerAll units = .ok registry ↔
      (declaredNames units).Nodup ∧ registry = ofUnits units := by
  rw [registerAll_eq_foldlM, foldlM_add_eq_ok_iff, map_name_flatMap_entries]
  simp [empty, classNames, ofUnits]

/-- A class of the registry is declared by one of the units. -/
theorem mem_classes_ofUnits {units : List SourceUnit} {c : RegisteredClass}
    (h : c ∈ (ofUnits units).classes) :
    ∃ unit ∈ units, c.unit = unit.fileName ∧ (c.kind, c.decl) ∈ unit.classes := by
  obtain ⟨unit, hunit, hmem⟩ := List.mem_flatMap.mp h
  exact ⟨unit, hunit, mem_entriesFrom hmem⟩

theorem exists_mem_classes_ofUnits {units : List SourceUnit} {unit : SourceUnit}
    (hunit : unit ∈ units) {kind : ClassKind} {decl : ClassDecl}
    (h : (kind, decl) ∈ unit.classes) :
    ∃ c ∈ (ofUnits units).classes, c.kind = kind ∧ c.decl = decl := by
  obtain ⟨c, hmem, hc⟩ := exists_mem_entriesFrom unit.fileName true h
  exact ⟨c, List.mem_flatMap.mpr ⟨unit, hunit, hmem⟩, hc⟩

end Registry

end IdlBindings
