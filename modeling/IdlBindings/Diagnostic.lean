import IdlBindings.Schema.Check

/-!
Diagnostics name what a run leaves out of the generated code, and why. They do
not stop a run unless it is strict.
-/

namespace IdlBindings

inductive Cause
  | unsupportedMember (reason : String)
  | unsupportedObject (kind : String)
  | unresolvedParent (parent : String)
  | unresolvedClass (className : String)
  | invalidMember (issue : MemberIssue)
deriving DecidableEq

def Cause.message : Cause → String
  | .unsupportedMember reason => "unsupported member: " ++ reason
  | .unsupportedObject kind => "unsupported declaration kind '" ++ kind ++ "'"
  | .unresolvedParent parent =>
    "unresolved parent '" ++ parent ++ "', inherited members omitted"
  | .unresolvedClass className => "unresolved class '" ++ className ++ "'"
  | .invalidMember issue => issue.message ++ ", member skipped"

/-- A cause at a declaration or at one of its members. -/
structure Notice where
  object : String
  member : Option String
  cause : Cause
deriving DecidableEq

/-- A notice in the unit that it is about. -/
structure Diagnostic extends Notice where
  unit : String
deriving DecidableEq

def Notice.inUnit (notice : Notice) (unit : String) : Diagnostic :=
  { notice with unit := unit }

def Diagnostic.message (diagnostic : Diagnostic) : String :=
  match diagnostic.member with
  | some member =>
    diagnostic.unit ++ ": " ++ diagnostic.object ++ "." ++ member ++ ": " ++
      diagnostic.cause.message
  | none => diagnostic.unit ++ ": " ++ diagnostic.object ++ ": " ++ diagnostic.cause.message

end IdlBindings
