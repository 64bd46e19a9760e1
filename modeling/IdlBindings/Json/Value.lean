import IdlBindings.Json.Fault

/-!
JSON values. Reading a document evaluates its numbers, limits how deep it may
be nested, and keeps the entries of each object sorted by key, where the last
of several entries with one key counts. Writing puts out the fields of an
object in the order in which they are held.
-/

namespace IdlBindings.Json

inductive Value
  | null
  | boolean (value : Bool)
  | number (value : Number)
  | text (value : String)
  | array (items : List Value)
  | object (fields : List (String × Value))

namespace Value

def ofNat (n : Nat) : Value := .number (.natural n)

/-- Puts a field in its place by the order of keys, over one of that key. -/
def insertField (key : String) (value : Value) :
    List (String × Value) → List (String × Value)
  | [] => [(key, value)]
  | (k, v) :: fields =>
    if key < k then (key, value) :: (k, v) :: fields
    else if key = k then (key, value) :: fields
    else (k, v) :: insertField key value fields

def sortFields (entries : List (String × Value)) : List (String × Value) :=
  entries.foldl (fun fields entry => insertField entry.1 entry.2 fields) []

def field? (key : String) (fields : List (String × Value)) : Option Value :=
  fields.lookup key

def kind : Value → Found
  | .null => .null
  | .boolean value => .boolean value
  | .number value => .number value
  | .text value => .text value
  | .array _ => .sequence
  | .object _ => .map

end Value

/-- How many containers may be open at once. -/
def greatestDepth : Nat := 127

/-- The verdict on the end of a container that is read. -/
def closed (cut : Option Cut) : Except Fault Unit :=
  match cut with
  | some cut => .error (.text cut.read)
  | none => .ok ()

mutual

/-- Reads a document in which up to `room` containers may be nested. -/
def Document.value (room : Nat) : Document → Except Fault Value
  | .null => .ok .null
  | .boolean b => .ok (.boolean b)
  | .number numeral =>
    match numeral.number? with
    | some n => .ok (.number n)
    | none => .error (.text .malformed)
  | .text (some s) => .ok (.text s)
  | .text none => .error (.text .malformed)
  | .array items cut =>
    match room with
    | 0 => .error (.text .malformed)
    | room + 1 => do
      let values ← Document.values room items
      closed cut
      return .array values
  | .object entries cut =>
    match room with
    | 0 => .error (.text .malformed)
    | room + 1 => do
      let fields ← Document.fields room entries
      closed cut
      return .object (Value.sortFields fields)
  | .broken cut => .error (.text cut.read)
termination_by structural document => document

def Document.values (room : Nat) : List Document → Except Fault (List Value)
  | [] => .ok []
  | item :: items => do
    let first ← item.value room
    let rest ← Document.values room items
    return first :: rest
termination_by structural items => items

/-- The entries of an object in the order of the text. -/
def Document.fields (room : Nat) :
    List (Option String × Document) → Except Fault (List (String × Value))
  | [] => .ok []
  | (key, document) :: entries =>
    match key with
    | none => .error (.text .malformed)
    | some key => do
      let value ← document.value room
      let rest ← Document.fields room entries
      return (key, value) :: rest
termination_by structural entries => entries

end

/-- Reads a text that is one value and nothing else. -/
def Value.parse (text : String) : Except Fault Value :=
  match Document.ofText text with
  | (document, trailing) => do
    let value ← document.value greatestDepth
    if trailing then .error (.text .malformed) else .ok value

mutual

def Value.tokens : Value → List Token
  | .null => [.null]
  | .boolean b => [.boolean b]
  | .number n => [.number n.numeral]
  | .text s => [.text (some s)]
  | .array items => .openArray :: (Value.tokensOfItems items ++ [.closeArray])
  | .object fields => .openObject :: (Value.tokensOfFields fields ++ [.closeObject])
termination_by structural value => value

def Value.tokensOfItems : List Value → List Token
  | [] => []
  | [item] => item.tokens
  | item :: items => item.tokens ++ .comma :: Value.tokensOfItems items
termination_by structural items => items

def Value.tokensOfFields : List (String × Value) → List Token
  | [] => []
  | [(key, value)] => .text (some key) :: .colon :: value.tokens
  | (key, value) :: fields =>
    .text (some key) :: .colon :: (value.tokens ++ .comma :: Value.tokensOfFields fields)
termination_by structural fields => fields

end

/-- The text of a value, without space between the tokens. -/
def Value.print (value : Value) : String :=
  String.ofList (value.tokens.flatMap Token.chars)

end IdlBindings.Json
