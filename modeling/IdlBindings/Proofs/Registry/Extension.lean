import IdlBindings.Proofs.Registry.Lineage
import IdlBindings.Proofs.Registry.Order

/-!
A registry with more classes. Looking up a name that none of the new classes has gives
what it gave before, so whatever is found by following names tells the same as long as
no new name is met on the way. Parents are followed the farthest: the walk over the
ancestors of a class stays among the old classes when none of them has a new parent.
-/

namespace IdlBindings

/-- The names of the interfaces and dictionaries of a unit. -/
def SourceUnit.classNames (unit : SourceUnit) : List String :=
  unit.classes.map fun entry => entry.2.name

namespace Registry

/-- Two registries that agree on all names but some. -/
def AgreeExcept (registry other : Registry) (names : List String) : Prop :=
  ∀ name, name ∉ names → registry.get? name = other.get? name

/-- No registered class has a parent of one of the names. -/
def NoParentIn (registry : Registry) (names : List String) : Prop :=
  ∀ c ∈ registry.classes, ∀ parent, c.decl.parent = some parent → parent ∉ names

theorem get?_ofUnits_cons {unit : SourceUnit} {name : String} (h : name ∉ unit.classNames)
    (units : List SourceUnit) :
    (ofUnits (unit :: units)).get? name = (ofUnits units).get? name := by
  have hnone : (⟨unit.entries⟩ : Registry).get? name = none := by
    rw [get?_eq_none_iff, classNames, SourceUnit.entries, map_name_entriesFrom]
    exact h
  rw [get?, ofUnits, List.flatMap_cons, List.find?_append,
    show unit.entries.find? _ = none from hnone, Option.none_or]
  rfl

/-- A unit that is put among others hides no class of theirs. -/
theorem agreeExcept_ofUnits {before after : List SourceUnit} {unit : SourceUnit}
    (hnodup : (declaredNames (before ++ unit :: after)).Nodup) :
    (ofUnits (before ++ after)).AgreeExcept (ofUnits (before ++ unit :: after))
      unit.classNames := by
  intro name hname
  have hsame := sameAnswers_ofUnits List.perm_middle hnodup
  rw [hsame.get?_eq, get?_ofUnits_cons hname]

namespace Lineage

variable {registry other : Registry} {parent : Option String} {ancestors : List ClassDecl}

theorem unique {others : List ClassDecl} (h : registry.Lineage parent ancestors)
    (hothers : registry.Lineage parent others) : ancestors = others := by
  induction h generalizing others with
  | root =>
      cases hothers
      rfl
  | missing hmissing =>
      cases hothers with
      | missing _ => rfl
      | step hfound _ =>
          rw [hmissing] at hfound
          cases hfound
  | step hfound _ ih =>
      cases hothers with
      | missing hmissing =>
          rw [hmissing] at hfound
          cases hfound
      | step hagain hrest =>
          rw [hfound] at hagain
          cases hagain
          rw [ih hrest]

theorem registered (h : registry.Lineage parent ancestors) :
    ∀ ancestor ∈ ancestors, ∃ c ∈ registry.classes, c.decl = ancestor := by
  induction h with
  | root => exact fun _ hmem => (List.not_mem_nil hmem).elim
  | missing _ => exact fun _ hmem => (List.not_mem_nil hmem).elim
  | step hfound _ ih => exact List.forall_mem_cons.mpr ⟨⟨_, (get?_some hfound).1, rfl⟩, ih⟩

/-- The same ancestors are met in the other registry, since none of their names and of
the names of their parents is one on which the two may differ. -/
theorem of_agreeExcept {names : List String} (hagree : registry.AgreeExcept other names)
    (hparents : registry.NoParentIn names) (hparent : ∀ name, parent = some name → name ∉ names)
    (h : registry.Lineage parent ancestors) : other.Lineage parent ancestors := by
  induction h with
  | root => exact .root
  | @missing name hmissing =>
      rw [hagree name (hparent name rfl)] at hmissing
      exact .missing hmissing
  | @step name found _ hfound _ ih =>
      have hregistered := (get?_some hfound).1
      rw [hagree name (hparent name rfl)] at hfound
      exact .step hfound (ih (hparents found hregistered))

end Lineage

namespace AgreeExcept

variable {registry other : Registry} {names : List String}

theorem parent_eq (h : registry.AgreeExcept other names) {c : ClassDecl}
    (hparent : ∀ name, c.parent = some name → name ∉ names) :
    registry.parent c = other.parent c := by
  cases hname : c.parent with
  | none => simp only [Registry.parent, hname]
  | some name => simp only [Registry.parent, hname, h name (hparent name hname)]

theorem target_eq (h : registry.AgreeExcept other names) {declared : String}
    (hdeclared : declared ∉ names) : registry.target declared = other.target declared := by
  rw [target, target, h declared hdeclared]

theorem emittedName?_eq (h : registry.AgreeExcept other names) {declared : String}
    (hdeclared : declared ∉ names) :
    registry.emittedName? declared = other.emittedName? declared := by
  rw [emittedName?, emittedName?, h declared hdeclared]

/-- A class that both registries hold has the same ancestors in both. -/
theorem ancestors_eq (h : registry.AgreeExcept other names) (hacyclic : registry.Acyclic)
    (hother : other.Acyclic) (hparents : registry.NoParentIn names) {name : String}
    (hname : name ∉ names) {found : RegisteredClass} (hfound : registry.get? name = some found) :
    registry.ancestors found.decl = other.ancestors found.decl := by
  have hlineage := lineage_ancestors hacyclic hfound
  have hparent := hparents found (get?_some hfound).1
  rw [h name hname] at hfound
  exact (hlineage.of_agreeExcept h hparents hparent).unique (lineage_ancestors hother hfound)

/-- So it also has the same fields: the chain breaks off at the same name, which neither
registry holds. -/
theorem fieldSet_eq (h : registry.AgreeExcept other names) (hacyclic : registry.Acyclic)
    (hother : other.Acyclic) (hparents : registry.NoParentIn names) {name : String}
    (hname : name ∉ names) {found : RegisteredClass} (hfound : registry.get? name = some found) :
    registry.fieldSet found.decl = other.fieldSet found.decl := by
  have hancestors := h.ancestors_eq hacyclic hother hparents hname hfound
  have hfarthest : ∃ c ∈ registry.classes,
      c.decl = (registry.ancestors found.decl).getLastD found.decl := by
    rw [List.getLastD_eq_getLast?]
    cases hlast : (registry.ancestors found.decl).getLast? with
    | none => exact ⟨found, (get?_some hfound).1, rfl⟩
    | some last =>
        exact (lineage_ancestors hacyclic hfound).registered last (List.mem_of_getLast? hlast)
  obtain ⟨farthest, hmem, hdecl⟩ := hfarthest
  have hmissing : (farthest.decl.parent.filter fun parent => !registry.contains parent) =
      farthest.decl.parent.filter fun parent => !other.contains parent := by
    cases hparent : farthest.decl.parent with
    | none => rfl
    | some parent =>
        have hcontains : registry.contains parent = other.contains parent := by
          rw [contains, contains, h parent (hparents farthest hmem parent hparent)]
        rw [Option.filter_some, Option.filter_some, hcontains]
  rw [fieldSet, fieldSet, ← hancestors, ← hdecl, hmissing]

end AgreeExcept

end Registry

end IdlBindings
