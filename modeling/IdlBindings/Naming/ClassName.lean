import IdlBindings.Naming.Words

/-!
The class name that a file name stands for. Well-known acronyms at the front
keep all their capitals (`dom_string` is `DOMString`), and some names are
spelled by tradition. The tables are tried in order, traditional names first.
-/

namespace IdlBindings.Naming

/-- Names spelled by tradition, by the lower-case form of the file name. -/
def traditionalNames : List (String × String) :=
  [("htmliframeelement", "HTMLIFrameElement")]

/-- Acronyms that may start a class name, by their lower-case form; the first
that fits wins, so the longer of two stands first. -/
def acronyms : List (String × String) :=
  [("svgsvg", "SVGSVG"), ("dom", "DOM"), ("html", "HTML"), ("svg", "SVG"), ("css", "CSS"),
    ("ui", "UI")]

/-- The class name for words already run together in camel case. -/
def classNameOfCamel (camel : List Char) : List Char :=
  let lower := lowerWord camel
  match traditionalNames.find? fun entry => entry.1.toList = lower with
  | some entry => entry.2.toList
  | none =>
    match acronyms.find? fun entry => entry.1.toList.isPrefixOf lower with
    | some entry => entry.2.toList ++ capitalize (camel.drop entry.1.length)
    | none => capitalize camel

def className (fileName : String) : String :=
  String.ofList (classNameOfCamel (camelChars fileName.toList))

end IdlBindings.Naming
