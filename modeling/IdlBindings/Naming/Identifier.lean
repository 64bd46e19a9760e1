import IdlBindings.Naming.Words

/-!
Identifiers of the generated code: declared names in snake case, kept off the
words that the generated language reserves.
-/

namespace IdlBindings.Naming

def reservedWords : List String :=
  ["type", "match", "ref", "move", "loop", "impl", "mod", "use", "where", "fn", "in", "as",
    "self", "struct", "enum", "trait", "async", "await", "dyn", "box"]

/-- A reserved word gets a trailing underscore. -/
def unreserved (name : String) : String :=
  if name ∈ reservedWords then name ++ "_" else name

/-- The identifier for a name whose snake case is `snake`. -/
def identifierOfSnake (snake : String) : String :=
  match snake.toList with
  | [] => "unnamed"
  | c :: _ => if c.isDigit then "_" ++ snake else unreserved snake

def identifier (name : String) : String :=
  identifierOfSnake (snakeCase name)

end IdlBindings.Naming
