import IdlBindings.Proofs.Registry.Inheritance

/-!
The walk over the ancestors of any class, registered or not. It passes through registered
classes of different names, each the parent of the one before. In a registry that can be
built no registered class comes twice, so what cuts the walk short is at most the name of
the class it started from, and for a registered class not even that: its ancestors are its
parent and the ancestors of its parent.
-/

namespace IdlBindings.Registry

open Relation

/-- The registry has this very class under its name. -/
def Holds (registry : Registry) (c : ClassDecl) : Prop :=
  ∃ entry, registry.get? c.name = some entry ∧ entry.decl = c

/-- The second class is the one registered under the name of the parent of the first. -/
def IsParent (registry : Registry) (below above : ClassDecl) : Prop :=
  ∃ name entry, below.parent = some name ∧ registry.get? name = some entry ∧ entry.decl = above

/-- Where a walk that started from a class of the name `self` may stop: at a class without a
parent, with a parent that is not registered, or with a parent of the name `self`. -/
def StopsAt (registry : Registry) (self : String) (last : ClassDecl) : Prop :=
  last.parent = none ∨ (∃ name, last.parent = some name ∧ registry.get? name = none) ∨
    last.parent = some self

theorem holds_of_get? {registry : Registry} {name : String} {found : RegisteredClass}
    (h : registry.get? name = some found) : registry.Holds found.decl := by
  obtain rfl : found.decl.name = name := (get?_some h).2
  exact ⟨found, h, rfl⟩

namespace Ascent

variable {registry : Registry} {seen : List String} {parent : Option String}
  {ancestors : List ClassDecl}

theorem holds (h : registry.Ascent seen parent ancestors) :
    ∀ ancestor ∈ ancestors, registry.Holds ancestor := by
  induction h with
  | root | missing _ | met _ _ => exact fun _ hmem => (List.not_mem_nil hmem).elim
  | step hfound _ _ ih => exact List.forall_mem_cons.mpr ⟨holds_of_get? hfound, ih⟩

/-- Each name that is met is put on the list of those that may not come again. -/
theorem nodup_names (h : registry.Ascent seen parent ancestors) (hseen : seen.Nodup) :
    (seen.reverse ++ ancestors.map ClassDecl.name).Nodup := by
  induction h with
  | root | missing _ | met _ _ =>
      rw [List.map_nil, List.append_nil]
      exact List.nodup_reverse.mpr hseen
  | step hfound hnew _ ih =>
      have hrest := ih (List.nodup_cons.mpr ⟨hnew, hseen⟩)
      rw [List.reverse_cons, List.append_assoc, ← (get?_some hfound).2] at hrest
      exact hrest

theorem isChain (h : registry.Ascent seen parent ancestors) {c : ClassDecl}
    (hparent : c.parent = parent) : (c :: ancestors).IsChain registry.IsParent := by
  induction h generalizing c with
  | root | missing _ | met _ _ => exact .singleton c
  | step hfound _ _ ih =>
      exact List.isChain_cons_cons.mpr ⟨⟨_, _, hparent, hfound, rfl⟩, ih rfl⟩

/-- The walk stops for no name that it has met itself, since all of these stand below. -/
theorem stopsAt (hacyclic : registry.Acyclic) {self : String} {path : List String}
    (h : registry.Ascent (path ++ [self]) parent ancestors)
    (hbelow : ∀ name, parent = some name → ∀ below ∈ path, TransGen registry.Inherits below name)
    {c : ClassDecl} (hparent : c.parent = parent) :
    registry.StopsAt self (ancestors.getLastD c) := by
  generalize hseen : path ++ [self] = seen at h
  induction h generalizing path c with
  | root => exact Or.inl hparent
  | missing hmissing => exact Or.inr (Or.inl ⟨_, hparent, hmissing⟩)
  | met _ hmet =>
      subst hseen
      rcases List.mem_append.mp hmet with hpath | hself
      · exact absurd (hbelow _ rfl _ hpath) (hacyclic _)
      · exact Or.inr (Or.inr (List.mem_singleton.mp hself ▸ hparent))
  | step hfound _ _ ih =>
      subst hseen
      rw [List.getLastD_cons]
      exact ih (fun _ hnext => below_parent hfound (hbelow _ rfl) hnext) rfl List.cons_append

end Ascent

/-- The last of the classes met by following parents has none that is registered. -/
theorem Lineage.noParent {registry : Registry} {parent : Option String}
    {ancestors : List ClassDecl} (h : registry.Lineage parent ancestors) {c : ClassDecl}
    (hparent : c.parent = parent) : registry.NoParent (ancestors.getLastD c) := by
  induction h generalizing c with
  | root =>
      intro name hname
      rw [List.getLastD_nil, hparent] at hname
      cases hname
  | missing hmissing =>
      intro name hname
      rw [List.getLastD_nil, hparent] at hname
      cases hname
      exact hmissing
  | step _ _ ih =>
      rw [List.getLastD_cons]
      exact ih rfl

/-- The walk over the ancestors of a class in a registry that can be built. It ends. The
classes it meets are registered and have different names, none of them the name of the class
itself; the first is the parent of the class and each other the parent of the one before. It
stops where there is no registered parent or the parent has the name of the class. The latter
never happens to a registered class, whose ancestors are its parent and those of its parent. -/
theorem ancestors_walk {registry : Registry} {units : List SourceUnit}
    (hbuild : build units = .ok registry) (c : ClassDecl) :
    registry.Ascent [c.name] c.parent (registry.ancestors c) ∧
      (∀ ancestor ∈ registry.ancestors c, registry.Holds ancestor) ∧
      ((c :: registry.ancestors c).map ClassDecl.name).Nodup ∧
      (c :: registry.ancestors c).IsChain registry.IsParent ∧
      registry.StopsAt c.name ((registry.ancestors c).getLastD c) ∧
      (registry.Holds c →
        ((registry.ancestors c).getLastD c).parent ≠ some c.name ∧
        ∀ parentName parent, c.parent = some parentName →
          registry.get? parentName = some parent →
          registry.ancestors c = parent.decl :: registry.ancestors parent.decl) := by
  obtain ⟨-, hacyclic, rfl⟩ := build_eq_ok_iff.mp hbuild
  have hascent := (ofUnits units).ascent_ancestors c
  refine ⟨hascent, hascent.holds, hascent.nodup_names (List.nodup_singleton _),
    hascent.isChain rfl, ?_, ?_⟩
  · have hbelow (name : String) (_ : c.parent = some name) :
        ∀ below ∈ ([] : List String), TransGen (ofUnits units).Inherits below name :=
      fun _ hmem => (List.not_mem_nil hmem).elim
    exact Ascent.stopsAt hacyclic hascent hbelow rfl
  · rintro ⟨entry, hentry, rfl⟩
    refine ⟨fun hself => ?_, fun parentName parent hname hparent =>
      ancestors_of_parent hacyclic hentry hname hparent⟩
    -- The last ancestor has no registered parent, but the class itself is registered.
    have hnone := (lineage_ancestors hacyclic hentry).noParent rfl _ hself
    rw [hentry] at hnone
    cases hnone

/-- From a class that only has the name of a registered one, the walk stops where it comes to
that name. From a registered class it goes on to the end. -/
theorem ancestors_walk_eventChain :
    (ofUnits eventChain).StopsAt "UIEventInit"
        (((ofUnits eventChain).ancestors ⟨"UIEventInit", some "MouseEventInit", []⟩).getLastD
          ⟨"UIEventInit", some "MouseEventInit", []⟩) ∧
      ((ofUnits eventChain).ancestors ⟨"UIEventInit", some "MouseEventInit", []⟩).map
        ClassDecl.name = ["MouseEventInit"] ∧
      ∃ found parent, (ofUnits eventChain).get? "MouseEventInit" = some found ∧
        (ofUnits eventChain).get? "UIEventInit" = some parent ∧
        (ofUnits eventChain).ancestors found.decl =
          parent.decl :: (ofUnits eventChain).ancestors parent.decl ∧
        ((ofUnits eventChain).ancestors found.decl).map ClassDecl.name =
          ["UIEventInit", "EventInit"] := by
  have hfound : (ofUnits eventChain).get? "MouseEventInit" = some _ := rfl
  have hparent : (ofUnits eventChain).get? "UIEventInit" = some _ := rfl
  obtain ⟨-, -, -, -, hstops, -⟩ := ancestors_walk build_eventChain
    ⟨"UIEventInit", some "MouseEventInit", []⟩
  obtain ⟨-, -, -, -, -, hregistered⟩ := ancestors_walk build_eventChain _
  refine ⟨hstops, by decide, _, _, hfound, hparent, ?_, by decide⟩
  exact (hregistered (holds_of_get? hfound)).2 _ _ rfl hparent

end IdlBindings.Registry
