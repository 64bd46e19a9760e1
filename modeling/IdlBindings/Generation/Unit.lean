import IdlBindings.Binding.Dictionary
import IdlBindings.Binding.Interface
import IdlBindings.Generation.Settings
import IdlBindings.Schema.Loading
import IdlBindings.Template.Set
import IdlBindings.Text.Lines

/-!
The generated file of one unit. Declarations are bound in the order of the
unit, against a registry that is complete before; blank lines are dropped once
the whole file is put together.
-/

namespace IdlBindings

inductive GenerationError
  | load (error : LoadError)
  | schema (error : SchemaError)
  | io (fault : Files.IoFault)
  | template (error : TemplateError)
  /-- A strict run of a unit left diagnostics. -/
  | strict (unit : String) (count : Nat)
deriving DecidableEq

/-- The words for an error, where they do not come from the reader of JSON or
from the file system. -/
def GenerationError.message? : GenerationError → Option String
  | .load error => error.structureMessage?.map ("schema parse error: " ++ ·)
  | .schema error => some ("schema error: " ++ error.message)
  | .io _ => none
  | .template error => some error.message
  | .strict unit count =>
    some (toString count ++ " diagnostic(s) reported for unit '" ++ unit ++ "' in strict mode")

structure GeneratedUnit where
  fileName : String
  /-- The class name that the file name stands for. -/
  className : String
  source : String
  diagnostics : List Diagnostic
deriving DecidableEq

namespace GeneratedUnit

/-- The name of the file that is written for the unit. -/
def outputName (unit : GeneratedUnit) (fileExtension : String) : String :=
  fileStem unit.fileName ++ "." ++ fileExtension

end GeneratedUnit

namespace Generation

open Binding

/-- The name under which a class of a unit is emitted. A class that is not
registered is named as if its unit were the only one. -/
def objectName (registry : Registry) (unit : SourceUnit) (c : ClassDecl) : String :=
  match registry.emittedName? c.name with
  | some name => name
  | none =>
    let isPrimary := unit.classes.head?.any fun first => first.2.name = c.name
    let derived := Naming.className unit.stem
    if isPrimary && derived != "" then derived else c.name

/-- The notice of a member that was left out. -/
def rejectionNotice (className : String) (rejection : Rejection) : Notice :=
  { object := className
    member := if Text.isBlank rejection.member then none else some rejection.member
    cause := .invalidMember rejection.issue }

/-- The fragment of a declaration, if it has one, and what it leaves out. -/
def bindDeclaration (registry : Registry) (unit : SourceUnit) :
    Declaration → Option Fragment × List Notice
  | .class kind decl =>
    let name := objectName registry unit decl
    let (checked, rejections) := decl.checkMembers
    let rejected := rejections.map (rejectionNotice decl.name)
    match kind with
    | .interface =>
      let (binding, notices) := bindInterface registry checked name
      (some binding.fragment, rejected ++ notices)
    | .dictionary =>
      let (binding, notices) := bindDictionary registry checked name
      (some binding.fragment, rejected ++ notices)
  | .function _ => (none, [])
  | .unknown kind name =>
    (none, [⟨name.getD "<anonymous>", none, .unsupportedObject kind⟩])

def fragments (registry : Registry) (unit : SourceUnit) : List Fragment :=
  unit.declarations.filterMap fun declaration => (bindDeclaration registry unit declaration).1

def diagnostics (registry : Registry) (unit : SourceUnit) : List Diagnostic :=
  unit.declarations.flatMap fun declaration =>
    (bindDeclaration registry unit declaration).2.map fun notice => notice.inUnit unit.fileName

def renderAll (templates : TemplateSet) : List Fragment → Except TemplateError (List String)
  | [] => .ok []
  | fragment :: rest => do
    let text ← templates.render fragment
    return text :: (← renderAll templates rest)

/-- The values for the frame of a file. -/
def frame (unit : SourceUnit) (className : String) (contents : List String) : Fragment where
  kind := .base
  values :=
    [("source", unit.fileName), ("class_name", className),
      ("content", String.intercalate "\n" contents)]

/-- Generates one unit against a registry. -/
def generate (registry : Registry) (templates : TemplateSet) (settings : Settings)
    (unit : SourceUnit) : Except GenerationError GeneratedUnit := do
  let rendered ← (renderAll templates (fragments registry unit)).mapError .template
  let contents := rendered.filter fun text => !Text.isBlank text
  let found := diagnostics registry unit
  if settings.strict && !found.isEmpty then
    .error (.strict unit.fileName found.length)
  else
    let className := Naming.className unit.stem
    let source ← (templates.render (frame unit className contents)).mapError .template
    return ⟨unit.fileName, className, Text.dropBlankLines source, found⟩

end Generation

end IdlBindings
