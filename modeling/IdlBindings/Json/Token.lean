import IdlBindings.Json.Numeral

/-!
The tokens of a JSON text. Scanning never fails: where the text cannot be
continued, the last token is `broken` and says why. The same text may be read
or skipped later. Skipping takes a string with half a surrogate pair, and it
blames an unfinished number rather than the end of the text, so a break holds
one verdict for each way.
-/

namespace IdlBindings.Json

/-- A text ends too early, or holds something that cannot stand there. -/
inductive Break
  | truncated
  | malformed
deriving DecidableEq

/-- The verdict on a place where a text breaks off, when that place is read
and when it is only skipped. -/
structure Cut where
  read : Break
  skip : Break
deriving DecidableEq

def Cut.both (verdict : Break) : Cut :=
  ⟨verdict, verdict⟩

inductive Token
  | openArray
  | closeArray
  | openObject
  | closeObject
  | comma
  | colon
  | null
  | boolean (value : Bool)
  | number (numeral : Numeral)
  /-- A string; `none` if a surrogate in it has no partner. -/
  | text (content : Option String)
  /-- The text breaks off here, inside a string if `inText`. -/
  | broken (inText : Bool) (cut : Cut)
deriving DecidableEq

/-- A string read in part, last character first. `lead` is a high surrogate
that waits for its partner. -/
structure OpenText where
  chars : List Char
  lead : Option Nat
  paired : Bool

namespace OpenText

def empty : OpenText := ⟨[], none, true⟩

def push (text : OpenText) (c : Char) : OpenText :=
  ⟨c :: text.chars, none, text.paired && text.lead.isNone⟩

def isHighSurrogate (unit : Nat) : Bool :=
  0xd800 ≤ unit && unit ≤ 0xdbff

def isLowSurrogate (unit : Nat) : Bool :=
  0xdc00 ≤ unit && unit ≤ 0xdfff

/-- Adds a code unit of sixteen bits. -/
def pushUnit (text : OpenText) (unit : Nat) : OpenText :=
  match text.lead with
  | some high =>
    if isLowSurrogate unit then
      ⟨Char.ofNat (0x10000 + (high - 0xd800) * 0x400 + (unit - 0xdc00)) :: text.chars, none,
        text.paired⟩
    else ⟨text.chars, none, false⟩
  | none =>
    if isHighSurrogate unit then ⟨text.chars, some unit, text.paired⟩
    else if isLowSurrogate unit then ⟨text.chars, none, false⟩
    else ⟨Char.ofNat unit :: text.chars, none, text.paired⟩

def content (text : OpenText) : Option String :=
  if text.paired && text.lead.isNone then some (String.ofList text.chars.reverse) else none

/-- The string breaks off. Reading stops at a surrogate without partner, which
comes earlier. -/
def broken (text : OpenText) (verdict : Break) : Token :=
  .broken true ⟨if text.paired then verdict else .malformed, verdict⟩

end OpenText

/-- The part of a number that is being spelled. -/
inductive NumeralPart
  | sign
  | zero
  | whole
  | point
  | fraction
  | mark
  | markSign
  | exponent
deriving DecidableEq

/-- A number read in part, digits last first. -/
structure OpenNumeral where
  part : NumeralPart
  negative : Bool
  whole : List Nat
  fraction : List Nat
  exponentNegative : Bool
  exponent : Nat

namespace OpenNumeral

def start (negative : Bool) (part : NumeralPart) (whole : List Nat) : OpenNumeral :=
  ⟨part, negative, whole, [], false, 0⟩

def numeral (number : OpenNumeral) : Numeral where
  negative := number.negative
  whole := number.whole.reverse
  fraction := number.fraction.reverse
  exponent :=
    if number.part = .exponent then
      some (if number.exponentNegative then -(number.exponent : Int) else number.exponent)
    else none

/-- What another character does to a number: it goes on, it is over before
the character, or it cannot be one. -/
inductive Next
  | more (number : OpenNumeral)
  | over
  | broken

def digitOf (c : Char) : Nat :=
  c.toNat - 48

def isMark (c : Char) : Bool :=
  c == 'e' || c == 'E'

def next (number : OpenNumeral) (c : Char) : Next :=
  match number.part with
  | .sign =>
    if c == '0' then .more { number with part := .zero, whole := [0] }
    else if c.isDigit then .more { number with part := .whole, whole := [digitOf c] }
    else .broken
  | .zero =>
    if c.isDigit then .broken
    else if c == '.' then .more { number with part := .point }
    else if isMark c then .more { number with part := .mark }
    else .over
  | .whole =>
    if c.isDigit then .more { number with whole := digitOf c :: number.whole }
    else if c == '.' then .more { number with part := .point }
    else if isMark c then .more { number with part := .mark }
    else .over
  | .point =>
    if c.isDigit then .more { number with part := .fraction, fraction := [digitOf c] }
    else .broken
  | .fraction =>
    if c.isDigit then .more { number with fraction := digitOf c :: number.fraction }
    else if isMark c then .more { number with part := .mark }
    else .over
  | .mark =>
    if c.isDigit then .more { number with part := .exponent, exponent := digitOf c }
    else if c == '+' then .more { number with part := .markSign }
    else if c == '-' then .more { number with part := .markSign, exponentNegative := true }
    else .broken
  | .markSign =>
    if c.isDigit then .more { number with part := .exponent, exponent := digitOf c }
    else .broken
  | .exponent =>
    if c.isDigit then .more { number with exponent := number.exponent * 10 + digitOf c }
    else .over

def isComplete (number : OpenNumeral) : Bool :=
  match number.part with
  | .zero | .whole | .fraction | .exponent => true
  | .sign | .point | .mark | .markSign => false

end OpenNumeral

/-- What the scanner is in the middle of. -/
inductive Mode
  | between
  /-- A literal with the letters still to come. -/
  | literal (letter : Char) (rest : List Char) (token : Token)
  | inText (text : OpenText)
  /-- After a backslash. -/
  | escape (text : OpenText)
  /-- After `\u`, with the characters that should be hexadecimal digits. -/
  | unitEscape (text : OpenText) (digits : List Char)
  | inNumber (number : OpenNumeral)
  /-- After a break. -/
  | stopped

/-- The tokens so far, last first, and what comes next. -/
structure Scanner where
  mode : Mode
  tokens : List Token

namespace Scanner

def initial : Scanner := ⟨.between, []⟩

def stop (tokens : List Token) (token : Token) : Scanner :=
  ⟨.stopped, token :: tokens⟩

def emit (tokens : List Token) (token : Token) : Scanner :=
  ⟨.between, token :: tokens⟩

def isSpace (c : Char) : Bool :=
  c == ' ' || c == '\n' || c == '\t' || c == '\r'

/-- The first character of a token, or space before one. -/
def start (tokens : List Token) (c : Char) : Scanner :=
  if isSpace c then ⟨.between, tokens⟩
  else if c == '[' then emit tokens .openArray
  else if c == ']' then emit tokens .closeArray
  else if c == '\x7b' then emit tokens .openObject
  else if c == '\x7d' then emit tokens .closeObject
  else if c == ',' then emit tokens .comma
  else if c == ':' then emit tokens .colon
  else if c == '"' then ⟨.inText .empty, tokens⟩
  else if c == 'n' then ⟨.literal 'u' ['l', 'l'] .null, tokens⟩
  else if c == 't' then ⟨.literal 'r' ['u', 'e'] (.boolean true), tokens⟩
  else if c == 'f' then ⟨.literal 'a' ['l', 's', 'e'] (.boolean false), tokens⟩
  else if c == '-' then ⟨.inNumber (.start true .sign []), tokens⟩
  else if c == '0' then ⟨.inNumber (.start false .zero [0]), tokens⟩
  else if c.isDigit then ⟨.inNumber (.start false .whole [OpenNumeral.digitOf c]), tokens⟩
  else stop tokens (.broken false (.both .malformed))

/-- The character that a backslash and `c` stand for. -/
def escaped? (c : Char) : Option Char :=
  if c == '"' then some '"'
  else if c == '\\' then some '\\'
  else if c == '/' then some '/'
  else if c == 'b' then some '\x08'
  else if c == 'f' then some '\x0c'
  else if c == 'n' then some '\n'
  else if c == 'r' then some '\r'
  else if c == 't' then some '\t'
  else none

def hexDigit? (c : Char) : Option Nat :=
  if c.isDigit then some (c.toNat - 48)
  else if 'a' ≤ c && c ≤ 'f' then some (c.toNat - 87)
  else if 'A' ≤ c && c ≤ 'F' then some (c.toNat - 55)
  else none

def hexValue? (digits : List Char) : Option Nat :=
  digits.foldlM (fun value c => (hexDigit? c).map (value * 16 + ·)) 0

/-- An escaped code unit takes four bytes of the text, whatever they hold. -/
def unitBytes (digits : List Char) : Nat :=
  digits.foldl (fun total c => total + c.utf8Size) 0

def step (scanner : Scanner) (c : Char) : Scanner :=
  let tokens := scanner.tokens
  match scanner.mode with
  | .between => start tokens c
  | .literal letter rest token =>
    if c != letter then stop tokens (.broken false (.both .malformed))
    else
      match rest with
      | [] => emit tokens token
      | next :: rest => ⟨.literal next rest token, tokens⟩
  | .inText text =>
    if c == '"' then emit tokens (.text text.content)
    else if c == '\\' then ⟨.escape text, tokens⟩
    else if c.toNat < 0x20 then stop tokens (text.broken .malformed)
    else ⟨.inText (text.push c), tokens⟩
  | .escape text =>
    if c == 'u' then ⟨.unitEscape text [], tokens⟩
    else
      match escaped? c with
      | some char => ⟨.inText (text.push char), tokens⟩
      | none => stop tokens (text.broken .malformed)
  | .unitEscape text digits =>
    let digits := digits ++ [c]
    if unitBytes digits < 4 then ⟨.unitEscape text digits, tokens⟩
    else
      match hexValue? digits with
      | some unit => ⟨.inText (text.pushUnit unit), tokens⟩
      | none => stop tokens (text.broken .malformed)
  | .inNumber number =>
    match number.next c with
    | .more number => ⟨.inNumber number, tokens⟩
    | .over => start (.number number.numeral :: tokens) c
    | .broken => stop tokens (.broken false (.both .malformed))
  | .stopped => scanner

/-- The tokens when the text is over, first one first. -/
def finish (scanner : Scanner) : List Token :=
  let tokens := scanner.tokens
  match scanner.mode with
  | .between => tokens.reverse
  | .literal _ _ _ => (Token.broken false (.both .truncated) :: tokens).reverse
  | .inText text | .escape text | .unitEscape text _ =>
    (text.broken .truncated :: tokens).reverse
  | .inNumber number =>
    if number.isComplete then (.number number.numeral :: tokens).reverse
    else (Token.broken false ⟨.truncated, .malformed⟩ :: tokens).reverse
  | .stopped => tokens.reverse

end Scanner

/-- The tokens of a text; only the last can be broken. -/
def Token.scan (chars : List Char) : List Token :=
  (chars.foldl Scanner.step .initial).finish

/-- The character that stands after a backslash for `c`, where there is one. -/
def shortEscape? (c : Char) : Option Char :=
  if c == '"' then some '"'
  else if c == '\\' then some '\\'
  else if c == '\x08' then some 'b'
  else if c == '\x0c' then some 'f'
  else if c == '\n' then some 'n'
  else if c == '\r' then some 'r'
  else if c == '\t' then some 't'
  else none

/-- A character as it is written inside a string: control characters are
escaped, everything else stands for itself. -/
def writtenChar (c : Char) : List Char :=
  match shortEscape? c with
  | some letter => ['\\', letter]
  | none =>
    if c.toNat < 0x20 then
      ['\\', 'u', '0', '0', Nat.digitChar (c.toNat / 16), Nat.digitChar (c.toNat % 16)]
    else [c]

def writtenText (text : String) : List Char :=
  '"' :: (text.toList.flatMap writtenChar ++ ['"'])

/-- The characters of a token. A broken token has no text of its own. -/
def Token.chars : Token → List Char
  | .openArray => ['[']
  | .closeArray => [']']
  | .openObject => ['\x7b']
  | .closeObject => ['\x7d']
  | .comma => [',']
  | .colon => [':']
  | .null => "null".toList
  | .boolean true => "true".toList
  | .boolean false => "false".toList
  | .number numeral => numeral.chars
  | .text content => writtenText (content.getD "")
  | .broken _ _ => []

end IdlBindings.Json
