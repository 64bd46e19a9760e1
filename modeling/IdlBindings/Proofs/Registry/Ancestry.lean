import IdlBindings.Proofs.Registry.Registration
import Mathlib.Data.List.Perm.Subperm
import Mathlib.Logic.Relation

/-!
Chains of parents. The search for loops follows parents for at most one step more
than there are classes: without meeting a name again it passes through different
registered classes, so by then the chain has ended. A registry is therefore
accepted exactly when no class is its own proper ancestor.
-/

namespace IdlBindings

/-- A class that some units declare and its parent, by name. -/
def DeclaresParent (units : List SourceUnit) (child parent : String) : Prop :=
  ∃ unit ∈ units, ∃ entry ∈ unit.classes, entry.2.name = child ∧ entry.2.parent = some parent

namespace Registry

open Relation

/-- A registered class and its parent, by name. The parent may be missing. -/
def Inherits (registry : Registry) (child parent : String) : Prop :=
  registry.parentOf? child = some parent

/-- No class is its own proper ancestor. -/
def Acyclic (registry : Registry) : Prop :=
  ∀ name, ¬ TransGen registry.Inherits name name

/-- The chain of parents from a name ends. -/
def Ends (registry : Registry) (name : String) : Prop :=
  Acc (fun parent child => registry.Inherits child parent) name

theorem Inherits.mem_classNames {registry : Registry} {child parent : String}
    (h : registry.Inherits child parent) : child ∈ registry.classNames := by
  obtain ⟨c, hfound, _⟩ := Option.bind_eq_some_iff.mp h
  obtain ⟨hmem, hname⟩ := get?_some hfound
  exact hname ▸ List.mem_map_of_mem hmem

theorem ends_of_parentOf?_eq_none {registry : Registry} {name : String}
    (h : registry.parentOf? name = none) : registry.Ends name := by
  refine Acc.intro name fun parent hparent => ?_
  rw [Inherits, h] at hparent
  cases hparent

theorem Inherits.ends {registry : Registry} {child parent : String}
    (h : registry.Inherits child parent) (hparent : registry.Ends parent) :
    registry.Ends child := by
  refine Acc.intro child fun other hother => ?_
  have hsame : parent = other := Option.some.inj (h.symm.trans hother)
  exact hsame ▸ hparent

/-- A name from which parents lead back to it has no end. -/
theorem Ends.not_self_ancestor {registry : Registry} {name : String} (h : registry.Ends name) :
    ¬ TransGen registry.Inherits name name := by
  induction h with
  | intro name _ ih =>
      intro hloop
      obtain ⟨parent, hparent, hback⟩ := TransGen.head'_iff.mp hloop
      exact ih parent hparent (TransGen.tail' hback hparent)

/-- A search that finds nothing has run to the end of the chain. The names passed
are registered and different, so the fuel outlasts them. -/
theorem ends_of_loopFrom_eq_none {registry : Registry} {fuel : Nat} {last : String}
    {passed : List String} (hnone : registry.loopFrom fuel last (last :: passed) = none)
    (hnodup : (last :: passed).Nodup) (hpassed : passed ⊆ registry.classNames)
    (hfuel : registry.size < fuel + passed.length) : registry.Ends last := by
  induction fuel generalizing last passed with
  | zero =>
      have hlength : passed.length ≤ registry.classNames.length :=
        ((List.nodup_cons.mp hnodup).2.subperm hpassed).length_le
      simp only [classNames, List.length_map] at hlength
      simp only [size] at hfuel
      omega
  | succ fuel ih =>
      rw [loopFrom] at hnone
      cases hparent : registry.parentOf? last with
      | none => exact ends_of_parentOf?_eq_none hparent
      | some parent =>
          simp only [hparent] at hnone
          by_cases hmet : parent ∈ last :: passed
          · rw [if_pos hmet] at hnone
            cases hnone
          · rw [if_neg hmet] at hnone
            have hinherits : registry.Inherits last parent := hparent
            apply hinherits.ends
            apply ih hnone (List.nodup_cons.mpr ⟨hmet, hnodup⟩)
            · exact List.cons_subset.mpr ⟨hinherits.mem_classNames, hpassed⟩
            · simp only [List.length_cons]
              omega

theorem ends_of_loop?_eq_none {registry : Registry} {name : String}
    (h : registry.loop? name = none) : registry.Ends name :=
  ends_of_loopFrom_eq_none h (List.nodup_singleton name) (List.nil_subset _) (by simp)

/-- A name that is met again is its own proper ancestor, since all names of the
path lead to the last one. -/
theorem self_ancestor_of_loopFrom_eq_some {registry : Registry} {fuel : Nat} {last : String}
    {path found : List String} (hsome : registry.loopFrom fuel last path = some found)
    (hpath : ∀ name ∈ path, ReflTransGen registry.Inherits name last) :
    ∃ name, TransGen registry.Inherits name name := by
  induction fuel generalizing last path with
  | zero => cases hsome
  | succ fuel ih =>
      rw [loopFrom] at hsome
      cases hparent : registry.parentOf? last with
      | none => simp only [hparent, reduceCtorEq] at hsome
      | some parent =>
          have hinherits : registry.Inherits last parent := hparent
          simp only [hparent] at hsome
          by_cases hmet : parent ∈ path
          · exact ⟨parent, TransGen.tail' (hpath parent hmet) hinherits⟩
          · rw [if_neg hmet] at hsome
            apply ih hsome
            intro name hname
            rcases List.mem_cons.mp hname with rfl | hname
            · exact ReflTransGen.refl
            · exact (hpath name hname).tail hinherits

theorem mem_insertName {name other : String} {sorted : List String} :
    other ∈ insertName name sorted ↔ other = name ∨ other ∈ sorted := by
  induction sorted with
  | nil => simp [insertName]
  | cons first rest ih =>
      rw [insertName]
      split
      · simp
      · rw [List.mem_cons, ih, List.mem_cons]
        tauto

theorem mem_names {registry : Registry} {name : String} :
    name ∈ registry.names ↔ name ∈ registry.classNames := by
  unfold names classNames
  induction registry.classes with
  | nil => simp
  | cons c classes ih =>
      rw [List.foldr_cons, mem_insertName, ih, List.map_cons, List.mem_cons]
      rfl

theorem acyclic_of_checkLoops_eq_ok {registry : Registry}
    (h : registry.checkLoops = .ok ()) : registry.Acyclic := by
  intro name
  apply Ends.not_self_ancestor
  by_cases hmem : name ∈ registry.classNames
  · apply ends_of_loop?_eq_none
    rw [checkLoops] at h
    cases hfound : registry.names.findSome? registry.loop? with
    | none => exact List.findSome?_eq_none_iff.mp hfound name (mem_names.mpr hmem)
    | some path =>
        rw [hfound] at h
        cases h
  · apply ends_of_parentOf?_eq_none
    rw [parentOf?, get?_eq_none_iff.mpr hmem, Option.bind_none]

theorem checkLoops_eq_error {registry : Registry} {error : SchemaError}
    (h : registry.checkLoops = .error error) :
    ¬ registry.Acyclic ∧ ∃ path, error = .circularInheritance path := by
  rw [checkLoops] at h
  cases hfound : registry.names.findSome? registry.loop? with
  | none =>
      rw [hfound] at h
      cases h
  | some path =>
      rw [hfound] at h
      cases h
      obtain ⟨start, _, hloop⟩ := List.exists_of_findSome?_eq_some hfound
      obtain ⟨name, hname⟩ := self_ancestor_of_loopFrom_eq_some hloop (by
        intro name hname
        rw [List.mem_singleton.mp hname])
      exact ⟨fun hacyclic => hacyclic name hname, path, rfl⟩

theorem checkLoops_eq_ok_iff {registry : Registry} :
    registry.checkLoops = .ok () ↔ registry.Acyclic := by
  refine ⟨acyclic_of_checkLoops_eq_ok, fun hacyclic => ?_⟩
  cases hcheck : registry.checkLoops with
  | error error => exact absurd hacyclic (checkLoops_eq_error hcheck).1
  | ok u => rfl

/-- Where names are distinct, the registry inherits as the units declare. -/
theorem inherits_ofUnits_iff {units : List SourceUnit} (hnodup : (declaredNames units).Nodup)
    {child parent : String} :
    (ofUnits units).Inherits child parent ↔ DeclaresParent units child parent := by
  have hnames : (ofUnits units).classNames.Nodup := (classNames_ofUnits units).symm ▸ hnodup
  rw [Inherits, parentOf?, Option.bind_eq_some_iff]
  constructor
  · rintro ⟨c, hfound, hparent⟩
    obtain ⟨hmem, hname⟩ := get?_some hfound
    obtain ⟨unit, hunit, _, hclass⟩ := mem_classes_ofUnits hmem
    exact ⟨unit, hunit, (c.kind, c.decl), hclass, hname, hparent⟩
  · rintro ⟨unit, hunit, ⟨kind, decl⟩, hclass, hname, hparent⟩
    obtain ⟨c, hmem, _, rfl⟩ := exists_mem_classes_ofUnits hunit hclass
    exact ⟨c, (get?_eq_some_iff hnames).mpr ⟨hmem, hname⟩, hparent⟩

theorem acyclic_ofUnits_iff {units : List SourceUnit} (hnodup : (declaredNames units).Nodup) :
    (ofUnits units).Acyclic ↔ ∀ name, ¬ TransGen (DeclaresParent units) name name := by
  have hsame : (ofUnits units).Inherits = DeclaresParent units := by
    funext child parent
    exact propext (inherits_ofUnits_iff hnodup)
  rw [Acyclic, hsame]

/-- A registry is built exactly when no name is declared twice and no class is its
own proper ancestor, and it holds the classes of the units in order. -/
theorem build_eq_ok_iff {units : List SourceUnit} {registry : Registry} :
    build units = .ok registry ↔
      (declaredNames units).Nodup ∧ (ofUnits units).Acyclic ∧ registry = ofUnits units := by
  rw [build, Sequence.bind_eq_ok_iff]
  constructor
  · rintro ⟨registered, hregistered, hrest⟩
    obtain ⟨hnodup, rfl⟩ := registerAll_empty_eq_ok_iff.mp hregistered
    obtain ⟨_, hloops, hresult⟩ := Sequence.bind_eq_ok_iff.mp hrest
    cases hresult
    exact ⟨hnodup, checkLoops_eq_ok_iff.mp hloops, rfl⟩
  · rintro ⟨hnodup, hacyclic, rfl⟩
    refine ⟨_, registerAll_empty_eq_ok_iff.mpr ⟨hnodup, rfl⟩, ?_⟩
    exact Sequence.bind_eq_ok_iff.mpr ⟨(), checkLoops_eq_ok_iff.mpr hacyclic, rfl⟩

theorem exists_build_iff {units : List SourceUnit} :
    (∃ registry, build units = .ok registry) ↔
      (declaredNames units).Nodup ∧ ∀ name, ¬ TransGen (DeclaresParent units) name name := by
  simp only [build_eq_ok_iff]
  constructor
  · rintro ⟨_, hnodup, hacyclic, _⟩
    exact ⟨hnodup, (acyclic_ofUnits_iff hnodup).mp hacyclic⟩
  · rintro ⟨hnodup, hacyclic⟩
    exact ⟨_, hnodup, (acyclic_ofUnits_iff hnodup).mpr hacyclic, rfl⟩

/-- A repeated name is found before any loop is looked for. -/
theorem build_eq_error {units : List SourceUnit} {error : SchemaError}
    (h : build units = .error error) :
    (¬ (declaredNames units).Nodup ∧ ∃ name first second,
      error = .duplicateClass name first second) ∨
    ((declaredNames units).Nodup ∧ ¬ (ofUnits units).Acyclic ∧
      ∃ path, error = .circularInheritance path) := by
  rw [build] at h
  cases hregistered : empty.registerAll units with
  | error e =>
      rw [hregistered] at h
      cases h
      refine Or.inl ⟨fun hnodup => ?_, ?_⟩
      · rw [registerAll_empty_eq_ok_iff.mpr ⟨hnodup, rfl⟩] at hregistered
        cases hregistered
      · rw [registerAll_eq_foldlM] at hregistered
        obtain ⟨_, entry, _, earlier, _, _, _, _, _, herror⟩ := foldlM_add_eq_error hregistered
        exact ⟨entry.name, earlier.unit, entry.unit, herror⟩
  | ok registered =>
      obtain ⟨hnodup, rfl⟩ := registerAll_empty_eq_ok_iff.mp hregistered
      rw [hregistered] at h
      cases hloops : (ofUnits units).checkLoops with
      | error e =>
          have hsame : e = error := by
            change ((ofUnits units).checkLoops >>= fun _ => _) = _ at h
            rw [hloops] at h
            exact Except.error.inj h
          exact Or.inr ⟨hnodup, hsame ▸ checkLoops_eq_error hloops⟩
      | ok u =>
          change ((ofUnits units).checkLoops >>= fun _ => _) = _ at h
          rw [hloops] at h
          cases h

end Registry

end IdlBindings
