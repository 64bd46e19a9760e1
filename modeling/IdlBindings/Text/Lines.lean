import IdlBindings.Text.Blank

/-!
Lines of a text. A line ends at a line feed, which takes one carriage return
right before it along; what follows the last line feed is a line of its own
when it is not empty, and keeps its carriage returns.
-/

namespace IdlBindings.Text

/-- The characters of a line that a line feed ends, given last character first. -/
def endedLine : List Char → List Char
  | '\r' :: chars => chars.reverse
  | chars => chars.reverse

/-- The lines of a text, when `current` holds the characters of the line begun
so far, last character first. -/
def linesFrom (current : List Char) : List Char → List (List Char)
  | [] => if current.isEmpty then [] else [current.reverse]
  | c :: rest =>
    if c = '\n' then endedLine current :: linesFrom [] rest
    else linesFrom (c :: current) rest

def lines (chars : List Char) : List (List Char) :=
  linesFrom [] chars

/-- Keeps the lines that are not blank and ends each by a line feed. -/
def dropBlankLines (text : String) : String :=
  String.ofList (((lines text.toList).filter fun line => !line.all isBlankChar).flatMap
    fun line => line ++ ['\n'])

end IdlBindings.Text
