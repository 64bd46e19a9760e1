import IdlBindings.Json.Value
import IdlBindings.Schema.Declaration

/-!
Declarations as JSON values. What is written here reads back as it was, up to
declarations of an unknown kind that carry the name of a known one.
-/

namespace IdlBindings

open Json

def ValueType.toValue : ValueType → Value
  | .pointer className =>
    .object [("class", .text className), ("kind", .text "pointer")]
  | type => .object [("kind", .text type.declaredName)]

def Argument.toValue (argument : Argument) : Value :=
  .object [("name", .text argument.name), ("optional", .boolean argument.isOptional),
    ("type", argument.type.toValue)]

def argumentsToValue (arguments : List Argument) : Value :=
  .array (arguments.map Argument.toValue)

def Member.toValue : Member → Value
  | .attribute a =>
    .object [("member", .text "attribute"), ("name", .text a.name),
      ("readonly", .boolean a.readonly), ("type", a.type.toValue)]
  | .operation o =>
    .object [("arguments", argumentsToValue o.arguments), ("member", .text "operation"),
      ("name", .text o.name), ("return_type", o.result.toValue)]

/-- The fields of a class; a class without parent has no such field. -/
def ClassDecl.toFields (c : ClassDecl) : List (String × Value) :=
  [("members", .array (c.members.map Member.toValue)), ("name", .text c.name)] ++
    (match c.parent with
      | some parent => [("parent", .text parent)]
      | none => [])

def ClassDecl.toValue (c : ClassDecl) : Value :=
  .object c.toFields

def Declaration.toFields : Declaration → List (String × Value)
  | .class _ decl => decl.toFields
  | .function f =>
    [("arguments", argumentsToValue f.arguments), ("name", .text f.name),
      ("return_type", f.result.toValue)]
  | .unknown _ (some name) => [("name", .text name)]
  | .unknown _ none => []

def Declaration.toValue (declaration : Declaration) : Value :=
  .object (("kind", .text declaration.kindName) :: declaration.toFields)

def SourceUnit.toValue (unit : SourceUnit) : Value :=
  .object [("filename", .text unit.fileName),
    ("objects", .array (unit.declarations.map Declaration.toValue))]

/-- The JSON text of a unit. -/
def SourceUnit.toText (unit : SourceUnit) : String :=
  unit.toValue.print

end IdlBindings
