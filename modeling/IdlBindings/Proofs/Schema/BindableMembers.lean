import IdlBindings.Proofs.Schema.MemberCheck
import Mathlib.Data.List.Induction
import Mathlib.Data.List.Nodup

/-!
Which members of a class can be bound. The check remembers the names of the attributes that
it has passed, and of each operation the names of the arguments that it has passed. What it
remembers is what stands before a member in its class, so the members it keeps can be told
from the class alone: the first attribute of each name, and the operations that share their
name with no attribute and whose arguments can be told apart.
-/

namespace IdlBindings

def Operation.argumentNames (o : Operation) : List String :=
  o.arguments.map Argument.name

/-- The names of the attributes among some members. -/
def attributeNamesOf (members : List Member) : List String :=
  (members.filterMap Member.attribute?).map Attribute.name

/-- That a member of a class can be bound, where `earlier` holds the members before it. -/
inductive ClassDecl.CanBind (c : ClassDecl) (earlier : List Member) : Member → Prop
  | attribute {a : Attribute} (hname : ¬ Text.isBlank a.name)
      (hfirst : a.name ∉ attributeNamesOf earlier) : CanBind c earlier (.attribute a)
  | operation {o : Operation} (hname : ¬ Text.isBlank o.name) (hapart : o.name ∉ c.attributeNames)
      (hnamed : "" ∉ o.argumentNames) (hdistinct : o.argumentNames.Nodup) :
      CanBind c earlier (.operation o)

/-- Arguments are valid when all have names, and none has that of another or one of `seen`. -/
theorem invalidArgument?_eq_none_iff {seen : List String} {arguments : List Argument} :
    invalidArgument? seen arguments = none ↔
      "" ∉ arguments.map Argument.name ∧ (arguments.map Argument.name).Nodup ∧
        ∀ name ∈ arguments.map Argument.name, name ∉ seen := by
  induction arguments generalizing seen with
  | nil => simp [invalidArgument?]
  | cons argument rest ih =>
      rw [invalidArgument?, List.map_cons, List.mem_cons, List.nodup_cons, List.forall_mem_cons]
      by_cases hinvalid : argument.name = "" ∨ argument.name ∈ seen
      · have hsome : (some argument.name : Option String) ≠ none := Option.some_ne_none _
        rw [if_pos hinvalid]
        refine iff_of_false hsome ?_
        rintro ⟨hnamed, -, hnew, -⟩
        rcases hinvalid with hempty | hseen
        · exact hnamed (Or.inl hempty.symm)
        · exact hnew hseen
      · obtain ⟨hnamed, hnew⟩ := not_or.mp hinvalid
        rw [if_neg hinvalid, ih]
        simp only [List.mem_cons, not_or]
        constructor
        · rintro ⟨hothers, hdistinct, hapart⟩
          exact ⟨⟨Ne.symm hnamed, hothers⟩, ⟨fun hmem => (hapart _ hmem).1 rfl, hdistinct⟩, hnew,
            fun name hmem => (hapart name hmem).2⟩
        · rintro ⟨⟨-, hothers⟩, ⟨hfirst, hdistinct⟩, -, hlater⟩
          refine ⟨hothers, hdistinct, fun name hmem => ⟨?_, hlater name hmem⟩⟩
          rintro rfl
          exact hfirst hmem

/-- The names remembered after some members are those of their attributes. Blank names are
not remembered, but no member with a blank name is kept. -/
theorem mem_foldl_seenAfter_iff {name : String} (hname : ¬ Text.isBlank name)
    {seen : List String} {members : List Member} :
    name ∈ members.foldl seenAfter seen ↔ name ∈ seen ∨ name ∈ attributeNamesOf members := by
  induction members generalizing seen with
  | nil => simp [attributeNamesOf]
  | cons member rest ih =>
      rw [List.foldl_cons, ih]
      cases member with
      | «attribute» a =>
          have hsplit : name ∈ attributeNamesOf (.attribute a :: rest) ↔
              name = a.name ∨ name ∈ attributeNamesOf rest := List.mem_cons
          have hafter : name ∈ seenAfter seen (.attribute a) ↔ name = a.name ∨ name ∈ seen := by
            rw [seenAfter]
            split
            · rename_i hblank
              have hne : name ≠ a.name := fun hsame => hname (hsame ▸ hblank)
              exact (or_iff_right hne).symm
            · exact List.mem_cons
          rw [hsplit, hafter, or_assoc, or_left_comm]
      | operation o => rfl

/-- What is wrong with a member depends on the attributes that stand before it. -/
theorem issue_of_examine_eq_append {attributeNames seen : List String} {members : List Member}
    {before after : List Examined} {e : Examined}
    (h : examine attributeNames seen members = before ++ e :: after) :
    e.issue = memberIssue? attributeNames ((before.map Examined.member).foldl seenAfter seen)
      e.member := by
  induction before generalizing seen members with
  | nil =>
      cases members with
      | nil => cases h
      | cons member rest =>
          cases h
          rfl
  | cons first before ih =>
      cases members with
      | nil => cases h
      | cons member rest =>
          obtain ⟨hfirst, hrest⟩ := List.cons.inj h
          have hmember : first.member = member := hfirst ▸ rfl
          rw [List.map_cons, List.foldl_cons, hmember]
          exact ih hrest

namespace ClassDecl

variable {c : ClassDecl}

/-- Nothing is wrong with a member exactly when it can be bound. -/
theorem memberIssue?_eq_none_iff {earlier : List Member} {member : Member} :
    memberIssue? c.attributeNames (earlier.foldl seenAfter []) member = none ↔
      c.CanBind earlier member := by
  unfold memberIssue?
  by_cases hblank : Text.isBlank member.name
  · rw [if_pos hblank]
    refine iff_of_false (Option.some_ne_none _) fun hbind => ?_
    cases hbind with
    | «attribute» hname _ => exact hname hblank
    | operation hname _ _ _ => exact hname hblank
  · rw [if_neg hblank]
    cases member with
    | «attribute» a =>
        have hseen : a.name ∈ earlier.foldl seenAfter [] ↔ a.name ∈ attributeNamesOf earlier :=
          (mem_foldl_seenAfter_iff hblank).trans (or_iff_right List.not_mem_nil)
        simp only [hseen]
        by_cases hrepeated : a.name ∈ attributeNamesOf earlier
        · rw [if_pos hrepeated]
          refine iff_of_false (Option.some_ne_none _) fun hbind => ?_
          cases hbind with
          | «attribute» _ hfirst => exact hfirst hrepeated
        · rw [if_neg hrepeated]
          exact iff_of_true rfl (.attribute hblank hrepeated)
    | operation o =>
        by_cases hshadows : o.name ∈ c.attributeNames
        · simp only [if_pos hshadows]
          refine iff_of_false (Option.some_ne_none _) fun hbind => ?_
          cases hbind with
          | operation _ hapart _ _ => exact hapart hshadows
        · simp only [if_neg hshadows, Option.map_eq_none_iff, invalidArgument?_eq_none_iff]
          constructor
          · rintro ⟨hnamed, hdistinct, -⟩
            exact .operation hblank hshadows hnamed hdistinct
          · intro hbind
            cases hbind with
            | operation _ _ hnamed hdistinct =>
                exact ⟨hnamed, hdistinct, fun _ _ => List.not_mem_nil⟩

theorem issue_eq_none_iff {before after : List Examined} {e : Examined}
    (h : c.examined = before ++ e :: after) :
    e.issue = none ↔ c.CanBind (before.map Examined.member) e.member := by
  rw [issue_of_examine_eq_append h, memberIssue?_eq_none_iff]

/-- Of a class that the check leaves as it is, every member can be bound. -/
theorem canBind_of_checkMembers (h : c.checkMembers = (c, [])) {before after : List Member}
    {member : Member} (hsplit : c.members = before ++ member :: after) :
    c.CanBind before member := by
  have hmembers := c.map_member_examined
  rw [hsplit] at hmembers
  obtain ⟨first, rest, hexamined, rfl, hrest⟩ := List.map_eq_append_iff.mp hmembers
  obtain ⟨e, later, rfl, rfl, -⟩ := List.map_eq_cons_iff.mp hrest
  have hnone : c.examined.filterMap Examined.rejection? = [] := by
    rw [checkMembers_eq] at h
    exact congrArg Prod.snd h
  have hmem : e ∈ c.examined := hexamined ▸ List.mem_append_right _ List.mem_cons_self
  have hissue : e.rejection? = none := List.filterMap_eq_nil_iff.mp hnone e hmem
  exact (issue_eq_none_iff hexamined).mp (Option.map_eq_none_iff.mp hissue)

theorem nodup_attributeNamesOf {members : List Member}
    (h : ∀ before a after, members = before ++ .attribute a :: after →
      a.name ∉ attributeNamesOf before) : (attributeNamesOf members).Nodup := by
  induction members using List.reverseRecOn with
  | nil => exact List.nodup_nil
  | append_singleton front last ih =>
      have hfront : (attributeNamesOf front).Nodup := by
        apply ih
        intro before a after hsplit
        apply h before a (after ++ [last])
        rw [hsplit, List.append_assoc, List.cons_append]
      have happend : attributeNamesOf (front ++ [last]) =
          attributeNamesOf front ++ attributeNamesOf [last] := by
        simp only [attributeNamesOf, List.filterMap_append, List.map_append]
      rw [happend]
      cases last with
      | «attribute» a =>
          have hnew : (a.name :: attributeNamesOf front).Nodup :=
            List.nodup_cons.mpr ⟨h front a [] rfl, hfront⟩
          exact List.nodup_append_comm.mp hnew
      | operation o => rwa [show attributeNamesOf [.operation o] = [] from rfl, List.append_nil]

/-- In a class that the check leaves as it is, no two attributes have the same name, and no
operation has the name of an attribute. -/
theorem names_apart_of_checkMembers (h : c.checkMembers = (c, [])) :
    c.attributeNames.Nodup ∧ ∀ o ∈ c.operations, o.name ∉ c.attributeNames := by
  constructor
  · apply nodup_attributeNamesOf
    intro before a after hsplit
    cases canBind_of_checkMembers h hsplit with
    | «attribute» _ hfirst => exact hfirst
  · intro o ho
    obtain ⟨member, hmember, hoperation⟩ := List.mem_filterMap.mp ho
    obtain ⟨before, after, hsplit⟩ := List.append_of_mem hmember
    have hbind := canBind_of_checkMembers h hsplit
    cases member with
    | «attribute» a => cases hoperation
    | operation found =>
        cases hoperation
        cases hbind with
        | operation _ hapart _ _ => exact hapart

/-- The check of the members of a class is an exact split. Every member is looked at once, in
order, and goes to one side: those that can be bound stay in the class, and of each of the
others there is one rejection. What stays has the names of its attributes apart from each
other and from those of its operations, and passes the check as it is. So leaving out what
cannot be bound changes a unit once. -/
theorem checkMembers_exact (c : ClassDecl) (unit : SourceUnit) :
    (c.checkMembers.1.name = c.name ∧ c.checkMembers.1.parent = c.parent) ∧
    (c.examined.map Examined.member = c.members ∧
      c.checkMembers.1.members = c.examined.filterMap Examined.kept? ∧
      c.checkMembers.2 = c.examined.filterMap Examined.rejection? ∧
      ∀ before e after, c.examined = before ++ e :: after →
        (e.issue = none ↔ c.CanBind (before.map Examined.member) e.member)) ∧
    c.checkMembers.1.attributeNames.Nodup ∧
    (∀ o ∈ c.checkMembers.1.operations, o.name ∉ c.checkMembers.1.attributeNames) ∧
    c.checkMembers.1.checkMembers = (c.checkMembers.1, []) ∧
    unit.bindable.bindable = unit.bindable := by
  have hagain : c.checkMembers.1.checkMembers = (c.checkMembers.1, []) := c.checkMembers_bindable
  obtain ⟨hnodup, hapart⟩ := names_apart_of_checkMembers hagain
  refine ⟨⟨rfl, rfl⟩, ⟨c.map_member_examined, ?_, ?_, fun _ _ _ => issue_eq_none_iff⟩, hnodup,
    hapart, hagain, unit.bindable_bindable⟩
  · rw [checkMembers_eq]
  · rw [checkMembers_eq]

end ClassDecl

end IdlBindings
