import IdlBindings.Proofs.Binding.MethodTable
import IdlBindings.Proofs.Generation.UnitText
import IdlBindings.Proofs.Schema.MemberCheck

/-!
No member of an interface is lost. Members are checked, then bound attributes first
and operations by name. Through all of that each of them is accounted for once: it
is bound, or one notice tells why it is not. Besides these notices an interface has
at most one, about its parent.
-/

namespace IdlBindings

namespace Binding

def BoundMember.isGetter : BoundMember → Bool
  | .getter _ _ => true
  | .setter _ _ | .call _ _ _ => false

def BoundMember.isCall : BoundMember → Bool
  | .call _ _ _ => true
  | .getter _ _ | .setter _ _ => false

/-- What there is to say about the parent of an interface: it is not declared, or it
is a dictionary. -/
def parentNotice? (registry : Registry) (c : ClassDecl) : Option Notice :=
  c.parent.bind fun name =>
    match registry.get? name with
    | none => some ⟨c.name, none, .unresolvedParent name⟩
    | some parent =>
      if parent.kind = .dictionary then
        some ⟨c.name, none, .unsupportedMember
          ("interface cannot inherit from dictionary '" ++ parent.decl.name ++ "'")⟩
      else none

theorem notice_of_bindParent (registry : Registry) (pool : Naming.Pool) (c : ClassDecl) :
    ((bindParent registry pool c).2.1.toList.map fun cause => ⟨c.name, none, cause⟩) =
      (parentNotice? registry c).toList := by
  unfold bindParent Registry.parent parentNotice?
  cases hname : c.parent with
  | none => rfl
  | some name =>
      simp only [Option.bind_some]
      cases hfound : registry.get? name with
      | none => rfl
      | some parent =>
          simp only
          cases hkind : parent.kind with
          | interface => rfl
          | dictionary => rfl

theorem notices_of_bindInterface (registry : Registry) (c : ClassDecl) (objectName : String) :
    (bindInterface registry c objectName).2 = (parentNotice? registry c).toList ++
      (bindMembers registry c.name (bindParent registry (.ofReserved reservedMembers) c).2.2
        (memberRequests c)).2 := by
  rw [← notice_of_bindParent registry (.ofReserved reservedMembers) c]
  rfl

end Binding

namespace Generation

open Binding

/-- How an examined member of the class `className` is accounted for: a rejected one
by a notice of the issue, which names it unless its name is blank, and any other by its
fate in binding. -/
inductive Accounted (registry : Registry) (className : String) : Examined → Fate → Prop
  | rejected {member : Member} {issue : MemberIssue} :
      Accounted registry className ⟨member, some issue⟩
        (.reported ⟨className, if Text.isBlank member.name then none else some member.name,
          .invalidMember issue⟩)
  | settled {member : Member} {fate : Fate} (h : Settled registry className member fate) :
      Accounted registry className ⟨member, none⟩ fate

variable {registry : Registry} {className : String}

/-- A member is one attribute, one operation or one notice. -/
theorem Accounted.count {e : Examined} {fate : Fate} (h : Accounted registry className e fate) :
    fate.members.countP BoundMember.isGetter + fate.members.countP BoundMember.isCall +
      fate.notice?.toList.length = 1 := by
  cases h with
  | rejected => rfl
  | settled h =>
      cases h with
      | getter | accessors | attributeType | call | resultType | argumentType => rfl

end Generation

end IdlBindings
