import IdlBindings.Json.Token

/-!
A document is a JSON text taken apart without judging its contents: entries
stand in the order of the text, keys may repeat, numbers are only spelled. A
text that breaks off gives a document that breaks off at the same place, with
the verdict kept there, so that a reader who goes through the document in
order meets a wrong value first whenever it comes first in the text.
-/

namespace IdlBindings.Json

inductive Document
  | null
  | boolean (value : Bool)
  | number (numeral : Numeral)
  /-- A string; `none` if a surrogate in it has no partner. -/
  | text (content : Option String)
  /-- Items and, if the array is not closed, the verdict after the last one. -/
  | array (items : List Document) (cut : Option Cut)
  /-- Entries and, if the object is not closed, the verdict after the last one. -/
  | object (entries : List (Option String × Document)) (cut : Option Cut)
  /-- The text breaks off where a value should stand. -/
  | broken (cut : Cut)

/-- A container that is still open, last item first. -/
inductive Frame
  | array (items : List Document)
  | object (entries : List (Option String × Document))
  /-- An object in which the value of `key` is to come. -/
  | entry (entries : List (Option String × Document)) (key : Option String)

/-- What may come next in the innermost open container. -/
inductive Expectation
  | value
  | itemOrEnd
  | keyOrEnd
  | key
  | colon
  | commaOrEnd
deriving DecidableEq

/-- A document that is being put together, or one that is complete and may be
followed by further text. -/
inductive Assembly
  | underway (expected : Expectation) (frames : List Frame)
  | complete (document : Document) (trailing : Bool)

namespace Frame

def add (document : Document) : Frame → Frame
  | .array items => .array (document :: items)
  | .object entries => .object entries
  | .entry entries key => .object ((key, document) :: entries)

def close (cut : Option Cut) : Frame → Document
  | .array items => .array items.reverse cut
  | .object entries => .object entries.reverse cut
  | .entry entries _ => .object entries.reverse cut

end Frame

namespace Assembly

def initial : Assembly := .underway .value []

/-- A value is complete. -/
def settle (document : Document) : List Frame → Assembly
  | [] => .complete document false
  | frame :: frames => .underway .commaOrEnd (frame.add document :: frames)

/-- Puts an unfinished value into its containers, which stay open. -/
def collapse (cut : Cut) (document : Document) : List Frame → Document
  | [] => document
  | frame :: frames => collapse cut ((frame.add document).close (some cut)) frames

/-- What there is when the text breaks off where a value should stand. -/
def brokenValue (cut : Cut) (frames : List Frame) : Document :=
  collapse cut (.broken cut) frames

/-- What there is when the text breaks off between the values of the innermost
container. -/
def brokenContainer (cut : Cut) : List Frame → Document
  | [] => .broken cut
  | frame :: frames => collapse cut (frame.close (some cut)) frames

/-- No further token matters. -/
def abandon (document : Document) : Assembly :=
  .complete document false

/-- A token where a value should stand. -/
def stepValue (token : Token) (frames : List Frame) : Assembly :=
  match token with
  | .openArray => .underway .itemOrEnd (.array [] :: frames)
  | .openObject => .underway .keyOrEnd (.object [] :: frames)
  | .null => settle .null frames
  | .boolean value => settle (.boolean value) frames
  | .number numeral => settle (.number numeral) frames
  | .text content => settle (.text content) frames
  | .broken _ cut => abandon (brokenValue cut frames)
  | .closeArray | .closeObject | .comma | .colon => abandon (brokenValue (.both .malformed) frames)

/-- A token where a key should stand. -/
def stepKey (token : Token) (frames : List Frame) : Assembly :=
  match token, frames with
  | .text key, .object entries :: frames => .underway .colon (.entry entries key :: frames)
  | .broken true cut, frames => abandon (brokenContainer cut frames)
  | _, frames => abandon (brokenContainer (.both .malformed) frames)

def step (assembly : Assembly) (token : Token) : Assembly :=
  match assembly with
  | .complete document _ => .complete document true
  | .underway .value frames => stepValue token frames
  | .underway .itemOrEnd frames =>
    match token, frames with
    | .closeArray, frame :: frames => settle (frame.close none) frames
    | token, frames => stepValue token frames
  | .underway .keyOrEnd frames =>
    match token, frames with
    | .closeObject, frame :: frames => settle (frame.close none) frames
    | token, frames => stepKey token frames
  | .underway .key frames => stepKey token frames
  | .underway .colon frames =>
    match token with
    | .colon => .underway .value frames
    | _ => abandon (brokenValue (.both .malformed) frames)
  | .underway .commaOrEnd frames =>
    match token, frames with
    | .comma, .array items :: frames => .underway .value (.array items :: frames)
    | .comma, .object entries :: frames => .underway .key (.object entries :: frames)
    | .closeArray, .array items :: frames => settle (Frame.close none (.array items)) frames
    | .closeObject, .object entries :: frames => settle (Frame.close none (.object entries)) frames
    | _, frames => abandon (brokenContainer (.both .malformed) frames)

/-- The tokens are over. Tells the document and whether text followed it. -/
def finish : Assembly → Document × Bool
  | .complete document trailing => (document, trailing)
  | .underway expected frames =>
    match expected with
    | .value | .colon => (brokenValue (.both .truncated) frames, false)
    | .itemOrEnd | .keyOrEnd | .key | .commaOrEnd =>
      (brokenContainer (.both .truncated) frames, false)

end Assembly

/-- The document that tokens spell, and whether tokens follow it. -/
def Document.ofTokens (tokens : List Token) : Document × Bool :=
  (tokens.foldl Assembly.step .initial).finish

/-- The document that a text starts with, and whether more than space follows. -/
def Document.ofText (text : String) : Document × Bool :=
  ofTokens (Token.scan text.toList)

end IdlBindings.Json
