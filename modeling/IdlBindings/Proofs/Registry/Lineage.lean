import IdlBindings.Proofs.Registry.Ancestry
import IdlBindings.Registry.Lineage

/-!
The ancestors of a class. They are collected with a bound on their number and with a
list of names that may not come again. The bound is never reached, since each step
takes one registered name from those that are not yet on the list. Where no class is its
own proper ancestor, a registered class never meets a name on the list either, so the walk
follows parents until there is none or it is not registered.
-/

namespace IdlBindings.Registry

open Relation

/-- The registered classes met on the way up from the name of a parent. -/
inductive Lineage (registry : Registry) : Option String → List ClassDecl → Prop
  | root : Lineage registry none []
  | missing {name : String} (hmissing : registry.get? name = none) :
      Lineage registry (some name) []
  | step {name : String} {found : RegisteredClass} {ancestors : List ClassDecl}
      (hfound : registry.get? name = some found)
      (hrest : Lineage registry found.decl.parent ancestors) :
      Lineage registry (some name) (found.decl :: ancestors)

theorem inherits_of_get? {registry : Registry} {name parent : String} {found : RegisteredClass}
    (hfound : registry.get? name = some found) (hparent : found.decl.parent = some parent) :
    registry.Inherits found.decl.name parent := by
  have hname : found.decl.name = name := (get?_some hfound).2
  rw [Inherits, parentOf?, hname, hfound]
  exact hparent

/-- Whatever stands below a class, and the class itself, stands below its parent. -/
theorem below_parent {registry : Registry} {name parent : String} {found : RegisteredClass}
    {path : List String} (hfound : registry.get? name = some found)
    (hbelow : ∀ below ∈ path, TransGen registry.Inherits below name)
    (hparent : found.decl.parent = some parent) :
    ∀ below ∈ name :: path, TransGen registry.Inherits below parent := by
  obtain rfl : found.decl.name = name := (get?_some hfound).2
  have hinherits := inherits_of_get? hfound hparent
  exact List.forall_mem_cons.mpr
    ⟨TransGen.single hinherits, fun below hmem => (hbelow below hmem).tail hinherits⟩

/-- The walk upwards without a bound on its steps: what it collects from the name of a
parent when no name in `seen` may come again. -/
inductive Ascent (registry : Registry) : List String → Option String → List ClassDecl → Prop
  | root {seen : List String} : Ascent registry seen none []
  | missing {seen : List String} {name : String} (hmissing : registry.get? name = none) :
      Ascent registry seen (some name) []
  | met {seen : List String} {name : String} {found : RegisteredClass}
      (hfound : registry.get? name = some found) (hseen : name ∈ seen) :
      Ascent registry seen (some name) []
  | step {seen : List String} {name : String} {found : RegisteredClass}
      {ancestors : List ClassDecl} (hfound : registry.get? name = some found)
      (hnew : name ∉ seen) (hrest : Ascent registry (name :: seen) found.decl.parent ancestors) :
      Ascent registry seen (some name) (found.decl :: ancestors)

/-- The registered names that a walk may still meet. -/
def unseen (registry : Registry) (seen : List String) : List String :=
  registry.classNames.filter (· ∉ seen)

theorem length_unseen_cons_lt {registry : Registry} {name : String} {found : RegisteredClass}
    {seen : List String} (hfound : registry.get? name = some found) (hnew : name ∉ seen) :
    (registry.unseen (name :: seen)).length < (registry.unseen seen).length := by
  have hfewer : registry.unseen (name :: seen) = (registry.unseen seen).filter (· ≠ name) := by
    simp only [unseen, List.filter_filter, List.mem_cons, not_or, Bool.decide_and]
  have hregistered : name ∈ registry.unseen seen := by
    obtain ⟨hmem, rfl⟩ := get?_some hfound
    exact List.mem_filter.mpr ⟨List.mem_map_of_mem hmem, decide_eq_true hnew⟩
  rw [hfewer, List.length_filter_lt_length_iff_exists]
  exact ⟨name, hregistered, by simp⟩

/-- The bound is no less than the number of registered names that may still be met, so the
walk ends before it is reached. -/
theorem ascent_ancestorsFrom {registry : Registry} {fuel : Nat} {seen : List String}
    (parent : Option String) (hfuel : (registry.unseen seen).length ≤ fuel) :
    registry.Ascent seen parent (registry.ancestorsFrom fuel seen parent) := by
  induction fuel generalizing seen parent with
  | zero =>
      cases parent with
      | none => exact .root
      | some name =>
          cases hfound : registry.get? name with
          | none => exact .missing hfound
          | some found =>
              -- No registered name is left to be met for the first time.
              apply Ascent.met hfound
              by_contra hnew
              have hfewer := length_unseen_cons_lt hfound hnew
              omega
  | succ fuel ih =>
      cases parent with
      | none => exact .root
      | some name =>
          rw [ancestorsFrom]
          cases hfound : registry.get? name with
          | none => exact .missing hfound
          | some found =>
              obtain rfl : found.decl.name = name := (get?_some hfound).2
              by_cases hseen : found.decl.name ∈ seen
              · simp only [if_pos hseen]
                exact .met hfound hseen
              · have hfewer := length_unseen_cons_lt hfound hseen
                simp only [if_neg hseen]
                exact .step hfound hseen (ih _ (by omega))

theorem ascent_ancestors (registry : Registry) (c : ClassDecl) :
    registry.Ascent [c.name] c.parent (registry.ancestors c) := by
  apply ascent_ancestorsFrom
  calc (registry.unseen [c.name]).length
    _ ≤ registry.classNames.length := List.length_filter_le _ _
    _ = registry.size := List.length_map _

/-- A walk that starts above all of `seen` meets none of these names again: such a name
would be its own proper ancestor. -/
theorem Ascent.lineage {registry : Registry} (hacyclic : registry.Acyclic) {seen : List String}
    {parent : Option String} {ancestors : List ClassDecl}
    (h : registry.Ascent seen parent ancestors)
    (hbelow : ∀ name, parent = some name → ∀ below ∈ seen, TransGen registry.Inherits below name) :
    registry.Lineage parent ancestors := by
  induction h with
  | root => exact .root
  | missing hmissing => exact .missing hmissing
  | met _ hseen => exact absurd (hbelow _ rfl _ hseen) (hacyclic _)
  | step hfound _ _ ih =>
      exact .step hfound (ih fun _ hnext => below_parent hfound (hbelow _ rfl) hnext)

theorem lineage_ancestors {registry : Registry} (hacyclic : registry.Acyclic) {name : String}
    {found : RegisteredClass} (hfound : registry.get? name = some found) :
    registry.Lineage found.decl.parent (registry.ancestors found.decl) := by
  apply (registry.ascent_ancestors found.decl).lineage hacyclic
  intro parent hparent below hbelow
  rw [List.mem_singleton.mp hbelow]
  exact TransGen.single (inherits_of_get? hfound hparent)

end IdlBindings.Registry
