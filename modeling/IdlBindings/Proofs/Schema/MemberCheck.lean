import IdlBindings.Schema.Check

/-!
The check of the members of a class, member by member. Each member is looked at
once, in the order of the class, and goes to one side: it is kept, or it is rejected
with what is wrong with it. Nothing is wrong with a member because of one that was
rejected, so a second check of the kept members keeps them all.
-/

namespace IdlBindings

/-- A member and what is wrong with it. -/
structure Examined where
  member : Member
  issue : Option MemberIssue

namespace Examined

def kept? (e : Examined) : Option Member :=
  if e.issue.isNone then some e.member else none

def rejection? (e : Examined) : Option Rejection :=
  e.issue.map fun issue => ⟨e.member.name, issue⟩

end Examined

/-- Looks at members in order, where `seen` holds the names of the attributes that
came before. -/
def examine (attributeNames seen : List String) : List Member → List Examined
  | [] => []
  | member :: rest =>
    ⟨member, memberIssue? attributeNames seen member⟩ ::
      examine attributeNames (seenAfter seen member) rest

theorem map_member_examine (attributeNames seen : List String) (members : List Member) :
    (examine attributeNames seen members).map Examined.member = members := by
  induction members generalizing seen with
  | nil => rfl
  | cons member members ih => rw [examine, List.map_cons, ih]

theorem splitMembers_eq (attributeNames seen : List String) (members : List Member) :
    splitMembers attributeNames seen members =
      ((examine attributeNames seen members).filterMap Examined.kept?,
        (examine attributeNames seen members).filterMap Examined.rejection?) := by
  induction members generalizing seen with
  | nil => rfl
  | cons member members ih =>
      rw [splitMembers, examine, ih]
      cases hissue : memberIssue? attributeNames seen member with
      | none => rfl
      | some issue => rfl

/-- A member that can stay among many attributes can stay among fewer. -/
theorem memberIssue?_eq_none_of_subset {attributeNames seen fewerNames fewerSeen : List String}
    (hnames : fewerNames ⊆ attributeNames) (hseen : fewerSeen ⊆ seen) {member : Member}
    (h : memberIssue? attributeNames seen member = none) :
    memberIssue? fewerNames fewerSeen member = none := by
  unfold memberIssue? at h ⊢
  by_cases hblank : Text.isBlank member.name = true
  · rw [if_pos hblank] at h
    cases h
  · rw [if_neg hblank] at h ⊢
    cases member with
    | «attribute» a =>
        have hnew : a.name ∉ seen := by
          intro hmem
          simp only [if_pos hmem, reduceCtorEq] at h
        simp only [if_neg (fun hmem => hnew (hseen hmem))]
    | operation o =>
        have hapart : o.name ∉ attributeNames := by
          intro hmem
          simp only [if_pos hmem, reduceCtorEq] at h
        simp only [if_neg hapart] at h
        simp only [if_neg (fun hmem => hapart (hnames hmem)), h]

theorem subset_seenAfter (seen : List String) (member : Member) : seen ⊆ seenAfter seen member := by
  cases member with
  | «attribute» a =>
      rw [seenAfter]
      split
      · exact List.Subset.refl seen
      · exact List.subset_cons_self a.name seen
  | operation o => exact List.Subset.refl seen

theorem seenAfter_subset {fewer seen : List String} (h : fewer ⊆ seen) (member : Member) :
    seenAfter fewer member ⊆ seenAfter seen member := by
  cases member with
  | «attribute» a =>
      rw [seenAfter, seenAfter]
      split
      · exact h
      · exact List.cons_subset_cons a.name h
  | operation o => exact h

/-- The kept members pass a check against fewer names. The names of rejected attributes
are remembered by the first check only, so what the second remembers is less. -/
theorem splitMembers_kept {attributeNames seen fewerNames fewerSeen : List String}
    (hnames : fewerNames ⊆ attributeNames) (hseen : fewerSeen ⊆ seen) (members : List Member) :
    splitMembers fewerNames fewerSeen (splitMembers attributeNames seen members).1 =
      ((splitMembers attributeNames seen members).1, []) := by
  induction members generalizing seen fewerSeen with
  | nil => rfl
  | cons member rest ih =>
      cases hissue : memberIssue? attributeNames seen member with
      | none =>
          have hkept := memberIssue?_eq_none_of_subset hnames hseen hissue
          simp only [splitMembers, hissue, hkept, ih (seenAfter_subset hseen member)]
      | some issue =>
          simp only [splitMembers, hissue]
          exact ih (List.Subset.trans hseen (subset_seenAfter seen member))

namespace ClassDecl

def examined (c : ClassDecl) : List Examined :=
  examine c.attributeNames [] c.members

theorem map_member_examined (c : ClassDecl) : c.examined.map Examined.member = c.members :=
  map_member_examine _ _ _

/-- The check keeps the members that nothing is wrong with and rejects the others. -/
theorem checkMembers_eq (c : ClassDecl) :
    c.checkMembers = ({ c with members := c.examined.filterMap Examined.kept? },
      c.examined.filterMap Examined.rejection?) := by
  rw [checkMembers, splitMembers_eq]
  rfl

theorem members_bindable_subset (c : ClassDecl) : c.bindable.members ⊆ c.members := by
  intro member hmember
  rw [bindable, checkMembers_eq] at hmember
  obtain ⟨e, he, hkept⟩ := List.mem_filterMap.mp hmember
  rw [Examined.kept?] at hkept
  split at hkept
  · cases hkept
    rw [← c.map_member_examined]
    exact List.mem_map_of_mem he
  · cases hkept

/-- A class that was checked passes the check as it is. -/
theorem checkMembers_bindable (c : ClassDecl) : c.bindable.checkMembers = (c.bindable, []) := by
  have hnames : c.bindable.attributeNames ⊆ c.attributeNames := by
    intro name hname
    obtain ⟨a, ha, rfl⟩ := List.mem_map.mp hname
    obtain ⟨member, hmember, hattribute⟩ := List.mem_filterMap.mp ha
    exact List.mem_map_of_mem
      (List.mem_filterMap.mpr ⟨member, c.members_bindable_subset hmember, hattribute⟩)
  have hsplit := splitMembers_kept hnames (List.nil_subset []) c.members
  simp only [checkMembers]
  rw [show c.bindable.members = (splitMembers c.attributeNames [] c.members).1 from rfl, hsplit]
  rfl

theorem bindable_bindable (c : ClassDecl) : c.bindable.bindable = c.bindable := by
  change c.bindable.checkMembers.1 = c.bindable
  rw [c.checkMembers_bindable]

end ClassDecl

theorem Declaration.bindable_bindable (declaration : Declaration) :
    declaration.bindable.bindable = declaration.bindable := by
  cases declaration with
  | «class» kind c => exact congrArg (Declaration.class kind) c.bindable_bindable
  | function f => rfl
  | unknown kind name => rfl

theorem SourceUnit.bindable_bindable (unit : SourceUnit) :
    unit.bindable.bindable = unit.bindable := by
  have hdeclarations : (unit.declarations.map Declaration.bindable).map Declaration.bindable =
      unit.declarations.map Declaration.bindable := by
    rw [List.map_map]
    exact List.map_congr_left fun declaration _ => declaration.bindable_bindable
  exact congrArg (SourceUnit.mk unit.fileName) hdeclarations

end IdlBindings
