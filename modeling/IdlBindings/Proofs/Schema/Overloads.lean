import IdlBindings.Schema.Declaration
import Mathlib.Data.List.Induction
import Mathlib.Data.List.Nodup
import Mathlib.Data.List.Perm.Basic

/-!
Members by kind and operations by name. Taking the attributes and then the
operations, or the operations group by group, changes the order of the members and
nothing else. The groups are a stable partition: there is one for each name, in the order
in which the names come first, and it holds the operations of that name as they stand.
-/

namespace IdlBindings

/-- One more element is among the different ones at the end, unless it came before. -/
theorem eraseDups_concat (names : List String) (name : String) :
    (names ++ [name]).eraseDups = names.eraseDups ++ if name ∈ names then [] else [name] := by
  rw [List.eraseDups_append]
  split
  · rename_i hmem
    simp [List.removeAll, hmem]
  · rename_i hmem
    simp [List.removeAll, hmem, List.eraseDups_cons]

theorem nodup_eraseDups (names : List String) : names.eraseDups.Nodup := by
  induction names using List.reverseRecOn with
  | nil => exact List.nodup_nil
  | append_singleton names name ih =>
      rw [eraseDups_concat]
      split
      · rwa [List.append_nil]
      · rename_i hnew
        rw [List.nodup_append]
        refine ⟨ih, List.nodup_singleton name, fun other hother same hsame => ?_⟩
        rintro rfl
        exact hnew (List.mem_singleton.mp hsame ▸ List.mem_eraseDups.mp hother)

namespace ClassDecl

theorem addToGroup_perm (operation : Operation) (groups : List (String × List Operation)) :
    ((addToGroup operation groups).flatMap Prod.snd).Perm
      (groups.flatMap Prod.snd ++ [operation]) := by
  induction groups with
  | nil => exact List.Perm.refl _
  | cons entry groups ih =>
      obtain ⟨name, group⟩ := entry
      rw [addToGroup]
      split
      · simp only [List.flatMap_cons, List.append_assoc]
        exact (List.perm_append_comm).append_left group
      · simp only [List.flatMap_cons, List.append_assoc]
        exact ih.append_left group

theorem foldl_addToGroup_perm (operations : List Operation)
    (groups : List (String × List Operation)) :
    ((operations.foldl (fun groups operation => addToGroup operation groups) groups).flatMap
      Prod.snd).Perm (groups.flatMap Prod.snd ++ operations) := by
  induction operations generalizing groups with
  | nil => simp
  | cons operation operations ih =>
      rw [List.foldl_cons]
      refine (ih _).trans ?_
      have hfirst := (addToGroup_perm operation groups).append_right operations
      simpa only [List.append_assoc, List.singleton_append] using hfirst

/-- The groups hold every operation once. -/
theorem overloads_perm (c : ClassDecl) : (c.overloads.flatMap Prod.snd).Perm c.operations :=
  foldl_addToGroup_perm c.operations []

/-- The operations of each name, in the order of the names' first operations. -/
def groupedByName (operations : List Operation) : List (String × List Operation) :=
  (operations.map Operation.name).eraseDups.map fun name =>
    (name, operations.filter fun o => o.name = name)

/-- Adding an operation to groups of different names puts it at the end of the group of its
name. A name that has no group gets one, at the end, with what it had before, which is
nothing. -/
theorem addToGroup_map {names : List String} (hnodup : names.Nodup) (operation : Operation)
    {group : String → List Operation}
    (hempty : operation.name ∉ names → group operation.name = []) :
    addToGroup operation (names.map fun name => (name, group name)) =
      (names ++ if operation.name ∈ names then [] else [operation.name]).map fun name =>
        (name, group name ++ if operation.name = name then [operation] else []) := by
  induction names with
  | nil => simp [addToGroup, hempty]
  | cons first rest ih =>
      obtain ⟨hfirst, hrest⟩ := List.nodup_cons.mp hnodup
      rw [List.map_cons, addToGroup]
      by_cases hsame : first = operation.name
      · -- The later groups have other names, and their additions are empty.
        have hothers : (rest.map fun name => (name, group name)) = rest.map fun name =>
            (name, group name ++ if operation.name = name then [operation] else []) := by
          apply List.map_congr_left
          intro name hname
          have hne : operation.name ≠ name := fun heq => hfirst (hsame.trans heq ▸ hname)
          rw [if_neg hne, List.append_nil]
        rw [if_pos hsame, if_pos (hsame ▸ List.mem_cons_self), List.append_nil, List.map_cons,
          if_pos hsame.symm, hothers]
      · have hlater : operation.name ∈ first :: rest ↔ operation.name ∈ rest := by
          rw [List.mem_cons, or_iff_right (Ne.symm hsame)]
        rw [if_neg hsame, ih hrest (fun hnot => hempty (mt hlater.mp hnot))]
        simp only [hlater, List.cons_append, List.map_cons, if_neg (Ne.symm hsame),
          List.append_nil]

theorem addToGroup_groupedByName (operations : List Operation) (operation : Operation) :
    addToGroup operation (groupedByName operations) =
      groupedByName (operations ++ [operation]) := by
  have hempty : operation.name ∉ (operations.map Operation.name).eraseDups →
      operations.filter (fun o => o.name = operation.name) = [] := by
    intro hnew
    rw [List.filter_eq_nil_iff]
    intro o ho hname
    exact hnew (List.mem_eraseDups.mpr (of_decide_eq_true hname ▸ List.mem_map_of_mem ho))
  have hnames : ((operations ++ [operation]).map Operation.name).eraseDups =
      (operations.map Operation.name).eraseDups ++
        if operation.name ∈ (operations.map Operation.name).eraseDups then []
        else [operation.name] := by
    rw [List.map_append, List.map_singleton, eraseDups_concat]
    simp only [List.mem_eraseDups]
  rw [groupedByName, addToGroup_map (nodup_eraseDups _) operation hempty, groupedByName, hnames]
  simp only [List.filter_append, List.filter_singleton, Bool.cond_decide]

theorem overloads_eq_groupedByName (c : ClassDecl) : c.overloads = groupedByName c.operations := by
  unfold overloads
  induction c.operations using List.reverseRecOn with
  | nil => rfl
  | append_singleton operations operation ih =>
      rw [List.foldl_concat, ih, addToGroup_groupedByName]

/-- Grouping by name is a stable partition of the operations. Each name has one group, in
the order of first declaration; a group is never empty and holds the operations of its name
in the order of the class; and all groups together hold each operation once. -/
theorem overloads_partition (c : ClassDecl) :
    c.overloads.map Prod.fst = (c.operations.map Operation.name).eraseDups ∧
      (c.overloads.map Prod.fst).Nodup ∧
      (∀ entry ∈ c.overloads, entry.2 = (c.operations.filter fun o => o.name = entry.1) ∧
        entry.2 ≠ []) ∧
      (c.overloads.flatMap Prod.snd).Perm c.operations := by
  have hnames : c.overloads.map Prod.fst = (c.operations.map Operation.name).eraseDups := by
    rw [overloads_eq_groupedByName, groupedByName, List.map_map]
    exact List.map_id _
  refine ⟨hnames, hnames ▸ nodup_eraseDups _, ?_, c.overloads_perm⟩
  · intro entry hentry
    rw [overloads_eq_groupedByName] at hentry
    obtain ⟨name, hname, rfl⟩ := List.mem_map.mp hentry
    refine ⟨rfl, ?_⟩
    obtain ⟨o, ho, hsame⟩ := List.mem_map.mp (List.mem_eraseDups.mp hname)
    exact List.ne_nil_of_mem (List.mem_filter.mpr ⟨ho, decide_eq_true hsame⟩)

theorem filterMap_kinds_perm (members : List Member) :
    ((members.filterMap Member.attribute?).map Member.attribute ++
      (members.filterMap Member.operation?).map Member.operation).Perm members := by
  induction members with
  | nil => exact List.Perm.refl _
  | cons member members ih =>
      cases member with
      | «attribute» a => exact ih.cons _
      | operation o => exact List.perm_middle.trans (ih.cons _)

/-- A member is an attribute or an operation. -/
theorem members_perm (c : ClassDecl) :
    (c.attributes.map Member.attribute ++ c.operations.map Member.operation).Perm c.members :=
  filterMap_kinds_perm c.members

end ClassDecl

end IdlBindings
