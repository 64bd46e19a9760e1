import IdlBindings.Json.Document
import IdlBindings.Text.Quoted

/-!
Why a JSON text cannot be read as the thing that is asked for: it breaks off,
or it is a document of another shape.
-/

namespace IdlBindings.Json

/-- The value that stands in the text. -/
inductive Found
  | null
  | boolean (value : Bool)
  | number (value : Number)
  | text (value : String)
  | sequence
  | map
deriving DecidableEq

/-- What should stand there. -/
inductive Expected
  | text
  | boolean
  | sequence
  /-- The tag that tells which form a tagged value has. -/
  | tag
  | record (name : String)
  | tagged (name : String)
  /-- A record written as a sequence of its fields. -/
  | fields (name : String) (count : Nat)
  /-- The one field of a tagged form, written as a sequence. -/
  | form (name variant : String) (count : Nat)
  | elements (count : Nat)
  | fewerElements
deriving DecidableEq

inductive Mismatch
  | missing (field : String)
  | repeated (field : String)
  | kind (found : Found) (expected : Expected)
  | length (found : Nat) (expected : Expected)
  /-- A tag that names none of the two forms there are. -/
  | form (tag first second : String)
deriving DecidableEq

inductive Fault
  | text (verdict : Break)
  | shape (mismatch : Mismatch)
deriving DecidableEq

def Found.describe : Found → String
  | .null => "null"
  | .boolean true => "boolean `true`"
  | .boolean false => "boolean `false`"
  | .number (.real isNegative magnitude) =>
    "floating point `" ++ (Number.real isNegative magnitude).text ++ "`"
  | .number value => "integer `" ++ value.text ++ "`"
  | .text value => "string " ++ Text.quoted value
  | .sequence => "sequence"
  | .map => "map"

def countElements (count : Nat) : String :=
  if count = 1 then "1 element" else toString count ++ " elements"

def Expected.describe : Expected → String
  | .text => "a string"
  | .boolean => "a boolean"
  | .sequence => "a sequence"
  | .tag => "variant identifier"
  | .record name => "struct " ++ name
  | .tagged name => "internally tagged enum " ++ name
  | .fields name count => "struct " ++ name ++ " with " ++ countElements count
  | .form name variant count =>
    "struct variant " ++ name ++ "::" ++ variant ++ " with " ++ countElements count
  | .elements count => countElements count ++ " in sequence"
  | .fewerElements => "fewer elements in array"

def Mismatch.message : Mismatch → String
  | .missing field => "missing field `" ++ field ++ "`"
  | .repeated field => "duplicate field `" ++ field ++ "`"
  | .kind found expected =>
    "invalid type: " ++ found.describe ++ ", expected " ++ expected.describe
  | .length found expected =>
    "invalid length " ++ toString found ++ ", expected " ++ expected.describe
  | .form tag first second =>
    "unknown variant `" ++ tag ++ "`, expected `" ++ first ++ "` or `" ++ second ++ "`"

/-- Why a document is not what is expected, when its kind is not. A value that
is not well-formed itself is reported as such. -/
def Document.mismatch (expected : Expected) : Document → Fault
  | .null => .shape (.kind .null expected)
  | .boolean value => .shape (.kind (.boolean value) expected)
  | .number numeral =>
    match numeral.number? with
    | some value => .shape (.kind (.number value) expected)
    | none => .text .malformed
  | .text (some value) => .shape (.kind (.text value) expected)
  | .text none => .text .malformed
  | .array _ _ => .shape (.kind .sequence expected)
  | .object _ _ => .shape (.kind .map expected)
  | .broken cut => .text cut.read

/-- Reads a string. -/
def Document.readText : Document → Except Fault String
  | .text (some value) => .ok value
  | document => .error (document.mismatch .text)

mutual

/-- Where a document that is only skipped breaks off, if it does. -/
def Document.flaw : Document → Option Break
  | .array items cut => (Document.flawOfItems items).or (cut.map Cut.skip)
  | .object entries cut => (Document.flawOfEntries entries).or (cut.map Cut.skip)
  | .broken cut => some cut.skip
  | .null | .boolean _ | .number _ | .text _ => none
termination_by structural document => document

def Document.flawOfItems : List Document → Option Break
  | [] => none
  | item :: items => item.flaw.or (Document.flawOfItems items)
termination_by structural items => items

def Document.flawOfEntries : List (Option String × Document) → Option Break
  | [] => none
  | (_, value) :: entries => value.flaw.or (Document.flawOfEntries entries)
termination_by structural entries => entries

end

end IdlBindings.Json
