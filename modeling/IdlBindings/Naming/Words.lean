/-!
The words of a name. A word is a run of ASCII letters and digits; any other
character separates words, and inside a run a new word starts at a capital
after a small letter or a digit, and at the last capital of an acronym that a
small letter follows (`HTMLElement` is `HTML`, `Element`).
-/

namespace IdlBindings.Naming

/-- Whether `c` starts a new word right after `last`, with `next` to come. -/
def startsWord (last c : Char) (next : Option Char) : Bool :=
  c.isUpper && (last.isLower || last.isDigit || (last.isUpper && next.any Char.isLower))

/-- The word spelled by `current`, last character first, if there is one. -/
def finishedWord : List Char → List (List Char)
  | [] => []
  | current => [current.reverse]

/-- The words of a text that continues the word `current`, which is given last
character first. -/
def wordsFrom (current : List Char) : List Char → List (List Char)
  | [] => finishedWord current
  | c :: rest =>
    if c.isAlphanum then
      match current with
      | [] => wordsFrom [c] rest
      | last :: _ =>
        if startsWord last c rest.head? then finishedWord current ++ wordsFrom [c] rest
        else wordsFrom (c :: current) rest
    else finishedWord current ++ wordsFrom [] rest

def words (chars : List Char) : List (List Char) :=
  wordsFrom [] chars

def lowerWord (word : List Char) : List Char :=
  word.map Char.toLower

/-- Puts the first character in upper case. -/
def capitalize : List Char → List Char
  | [] => []
  | c :: rest => c.toUpper :: rest

/-- Words in lower case, joined by underscores. -/
def snakeCase (name : String) : String :=
  String.intercalate "_" ((words name.toList).map fun word => String.ofList (lowerWord word))

/-- Words in lower case, each but the first with a capital. -/
def camelChars (chars : List Char) : List Char :=
  match (words chars).map lowerWord with
  | [] => []
  | first :: rest => first ++ rest.flatMap capitalize

def camelCase (name : String) : String :=
  String.ofList (camelChars name.toList)

end IdlBindings.Naming
