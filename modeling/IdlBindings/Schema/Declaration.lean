/-!
What a declaration file declares: interfaces and dictionaries with their
attributes and operations, free functions, and declarations of a kind that is
not known, which are kept by kind and name so that the rest of the file can
still be used.
-/

namespace IdlBindings

/-- The type of an attribute, an argument or a result. -/
inductive ValueType
  | int32
  | int64
  | double
  | boolean
  | domString
  | legacyDomString
  | any
  | void
  /-- An object of a class, by the class's declared name. -/
  | pointer (className : String)
  /-- A type of a kind that is not known. -/
  | unsupported
deriving DecidableEq

namespace ValueType

/-- The type as it is named in declarations. -/
def declaredName : ValueType → String
  | .int32 => "int32"
  | .int64 => "int64"
  | .double => "double"
  | .boolean => "boolean"
  | .domString => "dom_string"
  | .legacyDomString => "legacy_dom_string"
  | .any => "any"
  | .void => "void"
  | .pointer className => className ++ "*"
  | .unsupported => "unsupported"

def isVoid (type : ValueType) : Bool :=
  type == .void

end ValueType

structure Argument where
  name : String
  type : ValueType
  isOptional : Bool := false
deriving DecidableEq

structure Attribute where
  name : String
  type : ValueType
  /-- A read-only attribute has no setter. -/
  readonly : Bool := false
deriving DecidableEq

structure Operation where
  name : String
  arguments : List Argument := []
  result : ValueType
deriving DecidableEq

inductive Member
  | attribute (a : Attribute)
  | operation (o : Operation)
deriving DecidableEq

namespace Member

def name : Member → String
  | .attribute a => a.name
  | .operation o => o.name

def attribute? : Member → Option Attribute
  | .attribute a => some a
  | .operation _ => none

def operation? : Member → Option Operation
  | .attribute _ => none
  | .operation o => some o

end Member

/-- An interface or a dictionary. -/
structure ClassDecl where
  name : String
  /-- The parent's declared name. -/
  parent : Option String := none
  members : List Member := []
deriving DecidableEq

namespace ClassDecl

def attributes (c : ClassDecl) : List Attribute :=
  c.members.filterMap Member.attribute?

def operations (c : ClassDecl) : List Operation :=
  c.members.filterMap Member.operation?

def addMember (c : ClassDecl) (member : Member) : ClassDecl :=
  { c with members := c.members ++ [member] }

/-- Adds an operation to the group of its name, or starts a group at the end. -/
def addToGroup (operation : Operation) :
    List (String × List Operation) → List (String × List Operation)
  | [] => [(operation.name, [operation])]
  | (name, group) :: groups =>
    if name = operation.name then (name, group ++ [operation]) :: groups
    else (name, group) :: addToGroup operation groups

/-- The operations by name, names in the order of their first declaration. -/
def overloads (c : ClassDecl) : List (String × List Operation) :=
  c.operations.foldl (fun groups operation => addToGroup operation groups) []

end ClassDecl

structure FreeFunction where
  name : String
  arguments : List Argument := []
  result : ValueType
deriving DecidableEq

inductive ClassKind
  | interface
  | dictionary
deriving DecidableEq

inductive Declaration
  | class (kind : ClassKind) (decl : ClassDecl)
  | function (f : FreeFunction)
  | unknown (kind : String) (name : Option String)
deriving DecidableEq

namespace Declaration

def name : Declaration → String
  | .class _ decl => decl.name
  | .function f => f.name
  | .unknown _ name => name.getD ""

def kindName : Declaration → String
  | .class .interface _ => "interface"
  | .class .dictionary _ => "dictionary"
  | .function _ => "global_function"
  | .unknown kind _ => kind

def class? : Declaration → Option (ClassKind × ClassDecl)
  | .class kind decl => some (kind, decl)
  | .function _ => none
  | .unknown _ _ => none

end Declaration

/-- One declaration file. -/
structure SourceUnit where
  fileName : String
  declarations : List Declaration := []
deriving DecidableEq

/-- A file name without its directories and without all its extensions. -/
def fileStem (fileName : String) : String :=
  let lastPart := (fileName.toList.reverse.takeWhile fun c => c != '/' && c != '\\').reverse
  String.ofList (lastPart.takeWhile (· != '.'))

namespace SourceUnit

def stem (unit : SourceUnit) : String :=
  fileStem unit.fileName

/-- The interfaces and dictionaries, in the order of the file. -/
def classes (unit : SourceUnit) : List (ClassKind × ClassDecl) :=
  unit.declarations.filterMap Declaration.class?

def addDeclaration (unit : SourceUnit) (declaration : Declaration) : SourceUnit :=
  { unit with declarations := unit.declarations ++ [declaration] }

end SourceUnit

end IdlBindings
