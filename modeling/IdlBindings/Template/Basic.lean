import IdlBindings.Text.Blank

/-!
Templates are text with slots in double braces. A kind of template has a fixed
set of slots, and each of them must occur. Rendering puts the values of a
fragment into the slots and changes nothing else.
-/

namespace IdlBindings

inductive TemplateKind
  | base
  | interface
  | dictionary
  | globalFunction
deriving DecidableEq

namespace TemplateKind

def all : List TemplateKind :=
  [.base, .interface, .dictionary, .globalFunction]

def name : TemplateKind → String
  | .base => "base"
  | .interface => "interface"
  | .dictionary => "dictionary"
  | .globalFunction => "global_function"

def ofName? (name : String) : Option TemplateKind :=
  all.find? fun kind => kind.name = name

/-- The file that replaces the template of this kind in a template directory. -/
def fileName (kind : TemplateKind) : String :=
  kind.name ++ ".rs.tpl"

def slots : TemplateKind → List String
  | .base => ["source", "class_name", "content"]
  | .interface =>
    ["object_name", "class_name", "parent_table_field", "table_fields", "parent_field",
      "initialize_body", "members", "inheritance"]
  | .dictionary =>
    ["object_name", "class_name", "fields", "raw_fields", "to_native_body", "raw_init",
      "from_raw_fields"]
  | .globalFunction => ["name", "content"]

end TemplateKind

/-- Values for the slots of a template of one kind. -/
structure Fragment where
  kind : TemplateKind
  values : List (String × String)
deriving DecidableEq

namespace Fragment

def slot? (fragment : Fragment) (name : String) : Option String :=
  fragment.values.lookup name

/-- A fragment with a value for every slot of its kind, where the slots that
are not given are empty and only those count. -/
def filled (kind : TemplateKind) (given : List (String × String)) : Fragment :=
  ⟨kind, kind.slots.map fun slot => (slot, (given.lookup slot).getD "")⟩

end Fragment

inductive TemplateFault
  | unterminated
  | unknownSlot (name : String)
  | missingSlot (name : String)
  | otherKind (kind : TemplateKind)
  | noValue (slot : String)
deriving DecidableEq

def TemplateFault.message : TemplateFault → String
  | .unterminated => "unterminated placeholder"
  | .unknownSlot name => "unknown slot '" ++ name ++ "'"
  | .missingSlot name => "missing slot '" ++ name ++ "'"
  | .otherKind kind => "cannot render a " ++ kind.name ++ " fragment"
  | .noValue slot => "fragment has no value for slot '" ++ slot ++ "'"

/-- A fault in the template of a kind. -/
structure TemplateError where
  kind : TemplateKind
  fault : TemplateFault
deriving DecidableEq

def TemplateError.message (error : TemplateError) : String :=
  "template '" ++ error.kind.name ++ "': " ++ error.fault.message

inductive Segment
  | literal (text : List Char)
  | slot (name : String)
deriving DecidableEq

structure Template where
  kind : TemplateKind
  segments : List Segment
deriving DecidableEq

namespace Template

def literalSegments : List Char → List Segment
  | [] => []
  | text => [.literal text]

/-- What is being read: text between slots, or what stands between the braces
of one. Both hold the characters so far, last one first. -/
inductive Reading
  | text (chars : List Char)
  | slot (chars : List Char)

/-- The segments of a text from the middle of one on. The name of a slot may
have blanks around it. -/
def segmentsFrom (kind : TemplateKind) : Reading → List Char → Except TemplateFault (List Segment)
  | .text chars, [] => .ok (literalSegments chars.reverse)
  | .text chars, '\x7b' :: '\x7b' :: rest => do
    let segments ← segmentsFrom kind (.slot []) rest
    return literalSegments chars.reverse ++ segments
  | .text chars, c :: rest => segmentsFrom kind (.text (c :: chars)) rest
  | .slot _, [] => .error .unterminated
  | .slot chars, '\x7d' :: '\x7d' :: rest =>
    let name := String.ofList (Text.trim chars.reverse)
    if name ∈ kind.slots then do
      let segments ← segmentsFrom kind (.text []) rest
      return .slot name :: segments
    else .error (.unknownSlot name)
  | .slot chars, c :: rest => segmentsFrom kind (.slot (c :: chars)) rest

def segmentsOf (kind : TemplateKind) (text : List Char) : Except TemplateFault (List Segment) :=
  segmentsFrom kind (.text []) text

/-- Reads a template and checks that every slot of its kind occurs. -/
def parse (kind : TemplateKind) (source : String) : Except TemplateError Template :=
  match segmentsOf kind source.toList with
  | .error fault => .error ⟨kind, fault⟩
  | .ok segments =>
    match kind.slots.find? fun slot => !segments.contains (.slot slot) with
    | some slot => .error ⟨kind, .missingSlot slot⟩
    | none => .ok ⟨kind, segments⟩

/-- The text of a segment. -/
def renderSegment (fragment : Fragment) : Segment → Except TemplateFault String
  | .literal text => .ok (String.ofList text)
  | .slot name =>
    match fragment.slot? name with
    | some value => .ok value
    | none => .error (.noValue name)

def renderSegments (fragment : Fragment) : List Segment → Except TemplateFault String
  | [] => .ok ""
  | segment :: rest => do
    let text ← renderSegment fragment segment
    return text ++ (← renderSegments fragment rest)

def render (template : Template) (fragment : Fragment) : Except TemplateError String :=
  if fragment.kind = template.kind then
    (renderSegments fragment template.segments).mapError fun fault => ⟨template.kind, fault⟩
  else .error ⟨template.kind, .otherKind fragment.kind⟩

end Template

end IdlBindings
