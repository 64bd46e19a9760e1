import IdlBindings.Schema.Declaration
import IdlBindings.Schema.Error
import IdlBindings.Text.Blank

/-!
Two levels of checks. A unit is valid when it has a file name to work with and
its classes have names and do not inherit from themselves. A member that
cannot be bound is left out on its own: it has no name, repeats an attribute,
shadows one, or has arguments that cannot be told apart.
-/

namespace IdlBindings

inductive MemberIssue
  | unnamed
  | duplicateAttribute
  | shadowsAttribute
  /-- The first argument that has no name or repeats one. -/
  | invalidArgument (argument : String)
deriving DecidableEq

def MemberIssue.message : MemberIssue → String
  | .unnamed => "member declared without a name"
  | .duplicateAttribute => "attribute declared more than once"
  | .shadowsAttribute => "operation shares its name with an attribute"
  | .invalidArgument argument => "argument name '" ++ argument ++ "' is missing or repeated"

/-- A member that was left out. -/
structure Rejection where
  member : String
  issue : MemberIssue
deriving DecidableEq

/-- The first argument without a name or with the name of an earlier one. -/
def invalidArgument? (seen : List String) : List Argument → Option String
  | [] => none
  | argument :: rest =>
    if argument.name = "" ∨ argument.name ∈ seen then some argument.name
    else invalidArgument? (argument.name :: seen) rest

/-- What is wrong with a member, given the names of all attributes of its class
and of the attributes that came before it. -/
def memberIssue? (attributeNames seen : List String) (member : Member) : Option MemberIssue :=
  if Text.isBlank member.name then some .unnamed
  else
    match member with
    | .attribute a => if a.name ∈ seen then some .duplicateAttribute else none
    | .operation o =>
      if o.name ∈ attributeNames then some .shadowsAttribute
      else (invalidArgument? [] o.arguments).map .invalidArgument

/-- The attribute names to remember after a member. -/
def seenAfter (seen : List String) : Member → List String
  | .attribute a => if Text.isBlank a.name then seen else a.name :: seen
  | .operation _ => seen

/-- Splits members into those that can be bound and those that cannot. -/
def splitMembers (attributeNames seen : List String) :
    List Member → List Member × List Rejection
  | [] => ([], [])
  | member :: rest =>
    let (kept, rejected) := splitMembers attributeNames (seenAfter seen member) rest
    match memberIssue? attributeNames seen member with
    | none => (member :: kept, rejected)
    | some issue => (kept, ⟨member.name, issue⟩ :: rejected)

namespace ClassDecl

def attributeNames (c : ClassDecl) : List String :=
  c.attributes.map Attribute.name

/-- The class with the members that can be bound, and the others. -/
def checkMembers (c : ClassDecl) : ClassDecl × List Rejection :=
  let (kept, rejected) := splitMembers c.attributeNames [] c.members
  ({ c with members := kept }, rejected)

def bindable (c : ClassDecl) : ClassDecl :=
  c.checkMembers.1

/-- The class has a name and is not its own parent. -/
def validate (fileName : String) (c : ClassDecl) : Except SchemaError Unit :=
  if Text.isBlank c.name then .error (.unnamedClass fileName)
  else if c.parent = some c.name then .error (.circularInheritance [c.name, c.name])
  else .ok ()

end ClassDecl

def Declaration.bindable : Declaration → Declaration
  | .class kind decl => .class kind decl.bindable
  | .function f => .function f
  | .unknown kind name => .unknown kind name

namespace SourceUnit

/-- The unit with only the members that can be bound. -/
def bindable (unit : SourceUnit) : SourceUnit :=
  { unit with declarations := unit.declarations.map Declaration.bindable }

def validate (unit : SourceUnit) : Except SchemaError Unit :=
  if unit.stem = "" then .error (.noUsableFileName unit.fileName)
  else unit.classes.forM fun entry => entry.2.validate unit.fileName

end SourceUnit

end IdlBindings
