import IdlBindings.Json.Value
import IdlBindings.Schema.Declaration

/-!
Reading declarations from JSON. A unit and the kinds of its declarations are
read in the order of the text. The rest of a declaration is evaluated first
and then decoded by sorted keys; a record whose fields are all well-formed but
not all there lacks the first of them in declaration order. Records may also
be written as sequences of their fields.
-/

namespace IdlBindings

open Json

/-- Where a type stands. Only inside a member may its kind be given by number,
and a sequence that is too long is told apart there by its exact length. -/
inductive Place
  | member
  | outside
deriving DecidableEq

def wrongKind (value : Value) (expected : Expected) : Fault :=
  .shape (.kind value.kind expected)

def wrongLength (found : Nat) (expected : Expected) : Fault :=
  .shape (.length found expected)

def readString : Value → Except Fault String
  | .text text => .ok text
  | value => .error (wrongKind value .text)

def readBoolean : Value → Except Fault Bool
  | .boolean value => .ok value
  | value => .error (wrongKind value .boolean)

def readItems {α : Type} (read : Value → Except Fault α) : Value → Except Fault (List α)
  | .array items => items.mapM read
  | value => .error (wrongKind value .sequence)

/-- A name that may be absent, also as null. -/
def readName? : Value → Except Fault (Option String)
  | .null => .ok none
  | value => (readString value).map some

/-- The field of that key, if there is one. -/
def optionalField {α : Type} (key : String) (read : Value → Except Fault α)
    (fields : List (String × Value)) : Except Fault (Option α) :=
  match Value.field? key fields with
  | none => .ok none
  | some value => (read value).map some

def present {α : Type} (key : String) : Option α → Except Fault α
  | none => .error (.shape (.missing key))
  | some value => .ok value

/-- Refuses elements beyond the fields of a record of `count` fields. -/
def noFurther (place : Place) (count : Nat) (items : List Value) : Except Fault Unit :=
  if items.length ≤ count then .ok ()
  else .error (wrongLength items.length
    (match place with
      | .member => .elements count
      | .outside => .fewerElements))

/-- The forms that a type can have, by the names and numbers of their kinds. -/
inductive TypeForm
  | plain (type : ValueType)
  | pointer

namespace TypeForm

/-- The known kinds; the position of each is its number. -/
def table : List (String × TypeForm) :=
  [("int32", .plain .int32), ("int64", .plain .int64), ("double", .plain .double),
    ("boolean", .plain .boolean), ("dom_string", .plain .domString),
    ("legacy_dom_string", .plain .legacyDomString), ("any", .plain .any),
    ("void", .plain .void), ("pointer", .pointer)]

def ofName (name : String) : TypeForm :=
  (table.lookup name).getD (.plain .unsupported)

def ofNumber (n : Nat) : TypeForm :=
  (table[n]?.map Prod.snd).getD (.plain .unsupported)

def read (place : Place) : Value → Except Fault TypeForm
  | .text name => .ok (ofName name)
  | .number (.natural n) =>
    match place with
    | .member => .ok (ofNumber n)
    | .outside => .error (wrongKind (.number (.natural n)) .tag)
  | value => .error (wrongKind value .tag)

def ofFields (form : TypeForm) (fields : List (String × Value)) : Except Fault ValueType :=
  match form with
  | .plain type => .ok type
  | .pointer => do
    let className ← optionalField "class" readString fields
    return .pointer (← present "class" className)

def ofItems (form : TypeForm) (items : List Value) : Except Fault ValueType :=
  match form with
  | .plain type => do
    noFurther .member 0 items
    return type
  | .pointer =>
    match items with
    | [] => .error (wrongLength 0 (.form "ParameterType" "Pointer" 1))
    | first :: _ => do
      let className ← readString first
      noFurther .member 1 items
      return .pointer className

end TypeForm

def ValueType.read (place : Place) : Value → Except Fault ValueType
  | .object fields =>
    match Value.field? "kind" fields with
    | none => .error (.shape (.missing "kind"))
    | some tag => do (← TypeForm.read place tag).ofFields fields
  | .array [] => .error (.shape (.missing "kind"))
  | .array (tag :: items) => do (← TypeForm.read place tag).ofItems items
  | value => .error (wrongKind value (.tagged "ParameterType"))

def Argument.read (place : Place) : Value → Except Fault Argument
  | .object fields => do
    let name ← optionalField "name" readString fields
    let isOptional ← optionalField "optional" readBoolean fields
    let type ← optionalField "type" (ValueType.read place) fields
    return ⟨← present "name" name, ← present "type" type, isOptional.getD false⟩
  | .array [] => .error (wrongLength 0 (.fields "FunctionArgument" 3))
  | .array (first :: rest) => do
    let name ← readString first
    match rest with
    | [] => .error (wrongLength 1 (.fields "FunctionArgument" 3))
    | second :: rest' => do
      let type ← ValueType.read place second
      let isOptional ← match rest' with
        | [] => .ok false
        | third :: _ => readBoolean third
      noFurther place 3 (first :: rest)
      return ⟨name, type, isOptional⟩
  | value => .error (wrongKind value (.record "FunctionArgument"))

def Attribute.ofFields (fields : List (String × Value)) : Except Fault Attribute := do
  let name ← optionalField "name" readString fields
  let readonly ← optionalField "readonly" readBoolean fields
  let type ← optionalField "type" (ValueType.read .member) fields
  return ⟨← present "name" name, ← present "type" type, readonly.getD false⟩

def Attribute.ofItems (items : List Value) : Except Fault Attribute :=
  match items with
  | [] => .error (wrongLength 0 (.fields "Attribute" 3))
  | first :: rest => do
    let name ← readString first
    match rest with
    | [] => .error (wrongLength 1 (.fields "Attribute" 3))
    | second :: rest' => do
      let type ← ValueType.read .member second
      let readonly ← match rest' with
        | [] => .ok false
        | third :: _ => readBoolean third
      noFurther .member 3 items
      return ⟨name, type, readonly⟩

def Operation.ofFields (fields : List (String × Value)) : Except Fault Operation := do
  let arguments ← optionalField "arguments" (readItems (Argument.read .member)) fields
  let name ← optionalField "name" readString fields
  let result ← optionalField "return_type" (ValueType.read .member) fields
  return ⟨← present "name" name, arguments.getD [], ← present "return_type" result⟩

/-- The arguments may be left out, but the result after them may not: its place
is the third in either case. -/
def Operation.ofItems (items : List Value) : Except Fault Operation :=
  match items with
  | [] => .error (wrongLength 0 (.fields "Operation" 3))
  | first :: rest => do
    let name ← readString first
    match rest with
    | [] => .error (wrongLength 2 (.fields "Operation" 3))
    | second :: rest' => do
      let arguments ← readItems (Argument.read .member) second
      match rest' with
      | [] => .error (wrongLength 2 (.fields "Operation" 3))
      | third :: _ => do
        let result ← ValueType.read .member third
        noFurther .member 3 items
        return ⟨name, arguments, result⟩

/-- The two forms of a member. -/
inductive MemberForm
  | attribute
  | operation

namespace MemberForm

def read : Value → Except Fault MemberForm
  | .text "attribute" => .ok .attribute
  | .text "operation" => .ok .operation
  | .text tag => .error (.shape (.form tag "attribute" "operation"))
  | value => .error (wrongKind value .tag)

def ofFields (form : MemberForm) (fields : List (String × Value)) : Except Fault Member :=
  match form with
  | .attribute => (Attribute.ofFields fields).map .attribute
  | .operation => (Operation.ofFields fields).map .operation

def ofItems (form : MemberForm) (items : List Value) : Except Fault Member :=
  match form with
  | .attribute => (Attribute.ofItems items).map .attribute
  | .operation => (Operation.ofItems items).map .operation

end MemberForm

def Member.read : Value → Except Fault Member
  | .object fields =>
    match Value.field? "member" fields with
    | none => .error (.shape (.missing "member"))
    | some tag => do (← MemberForm.read tag).ofFields fields
  | .array [] => .error (.shape (.missing "member"))
  | .array (tag :: items) => do (← MemberForm.read tag).ofItems items
  | value => .error (wrongKind value (.tagged "Member"))

def ClassDecl.ofFields (fields : List (String × Value)) : Except Fault ClassDecl := do
  let members ← optionalField "members" (readItems Member.read) fields
  let name ← optionalField "name" readString fields
  let parent ← optionalField "parent" readName? fields
  return ⟨← present "name" name, parent.getD none, members.getD []⟩

def ClassDecl.ofItems (items : List Value) : Except Fault ClassDecl :=
  match items with
  | [] => .error (wrongLength 0 (.fields "ClassObject" 3))
  | first :: rest => do
    let name ← readString first
    match rest with
    | [] => return ⟨name, none, []⟩
    | second :: rest' => do
      let parent ← readName? second
      let members ← match rest' with
        | [] => .ok []
        | third :: _ => readItems Member.read third
      noFurther .outside 3 items
      return ⟨name, parent, members⟩

/-- Reads a class that is given on its own. -/
def ClassDecl.read : Value → Except Fault ClassDecl
  | .object fields => ClassDecl.ofFields fields
  | .array items => ClassDecl.ofItems items
  | value => .error (wrongKind value (.record "ClassObject"))

def FreeFunction.ofFields (fields : List (String × Value)) : Except Fault FreeFunction := do
  let arguments ← optionalField "arguments" (readItems (Argument.read .outside)) fields
  let name ← optionalField "name" readString fields
  let result ← optionalField "return_type" (ValueType.read .outside) fields
  return ⟨← present "name" name, arguments.getD [], ← present "return_type" result⟩

/-- The declaration of a kind with the given body, sorted by key. -/
def Declaration.ofBody (kind : String) (body : List (String × Value)) :
    Except Fault Declaration :=
  if kind = "interface" then (ClassDecl.ofFields body).map (.class .interface)
  else if kind = "dictionary" then (ClassDecl.ofFields body).map (.class .dictionary)
  else if kind = "global_function" then (FreeFunction.ofFields body).map .function
  else
    .ok (.unknown kind
      (match Value.field? "name" body with
        | some (.text name) => some name
        | _ => none))

/-- How many containers are open around the fields of a declaration. -/
def declarationDepth : Nat := 3

/-- Goes through the entries of a declaration in the order of the text. `body`
holds what was read so far, last entry first. -/
def Declaration.ofEntries (kind : Option String) (body : List (String × Value))
    (cut : Option Cut) : List (Option String × Document) → Except Fault Declaration
  | [] => do
    closed cut
    let kind ← present "kind" kind
    Declaration.ofBody kind (Value.sortFields body.reverse)
  | (key, document) :: entries =>
    match key with
    | none => .error (.text .malformed)
    | some key =>
      if key = "kind" then
        match kind with
        | some _ => .error (.shape (.repeated "kind"))
        | none => do
          let kind ← document.readText
          Declaration.ofEntries (some kind) body cut entries
      else do
        let value ← document.value (greatestDepth - declarationDepth)
        Declaration.ofEntries kind ((key, value) :: body) cut entries

def Declaration.read : Document → Except Fault Declaration
  | .object entries cut => Declaration.ofEntries none [] cut entries
  | document => .error (document.mismatch (.record "RawObject"))

/-- The declarations of a unit. -/
def readDeclarations : Document → Except Fault (List Declaration)
  | .array items cut => do
    let declarations ← items.mapM Declaration.read
    closed cut
    return declarations
  | document => .error (document.mismatch .sequence)

namespace SourceUnit

/-- Goes through the entries of a unit in the order of the text. -/
def ofEntries (fileName : Option String) (declarations : Option (List Declaration))
    (cut : Option Cut) : List (Option String × Document) → Except Fault SourceUnit
  | [] => do
    closed cut
    let fileName ← present "filename" fileName
    return ⟨fileName, declarations.getD []⟩
  | (key, document) :: entries =>
    match key with
    | none => .error (.text .malformed)
    | some key =>
      if key = "filename" then
        match fileName with
        | some _ => .error (.shape (.repeated "filename"))
        | none => do
          let fileName ← document.readText
          ofEntries (some fileName) declarations cut entries
      else if key = "objects" then
        match declarations with
        | some _ => .error (.shape (.repeated "objects"))
        | none => do
          let declarations ← readDeclarations document
          ofEntries fileName (some declarations) cut entries
      else
        match document.flaw with
        | some verdict => .error (.text verdict)
        | none => ofEntries fileName declarations cut entries

/-- A unit written as a sequence has a file name and may have declarations. -/
def ofItems (cut : Option Cut) : List Document → Except Fault SourceUnit
  | [] => do
    closed cut
    .error (wrongLength 0 (.fields "SchemaUnit" 2))
  | first :: rest => do
    let fileName ← first.readText
    match rest with
    | [] => do
      closed cut
      return ⟨fileName, []⟩
    | second :: rest => do
      let declarations ← readDeclarations second
      match rest with
      | [] => do
        closed cut
        return ⟨fileName, declarations⟩
      | _ :: _ => .error (.text .malformed)

def ofDocument : Document → Except Fault SourceUnit
  | .object entries cut => ofEntries none none cut entries
  | .array items cut => ofItems cut items
  | document => .error (document.mismatch (.record "SchemaUnit"))

/-- Reads the unit that a JSON text holds. -/
def ofText (text : String) : Except Fault SourceUnit :=
  match Document.ofText text with
  | (document, trailing) => do
    let unit ← ofDocument document
    if trailing then .error (.text .malformed) else .ok unit

end SourceUnit

end IdlBindings
