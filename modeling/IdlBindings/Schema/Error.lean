/-!
Why units cannot be used together. Problems of single members are not errors;
they are issues that leave the member out.
-/

namespace IdlBindings

inductive SchemaError
  /-- A class is declared in two units, or twice in one. -/
  | duplicateClass (name first second : String)
  /-- A class is its own ancestor; the path follows parents up to a class that
  it already holds. -/
  | circularInheritance (path : List String)
  | noUsableFileName (fileName : String)
  | unnamedClass (fileName : String)
deriving DecidableEq

def SchemaError.message : SchemaError → String
  | .duplicateClass name first second =>
    "duplicate class '" ++ name ++ "' declared in '" ++ first ++ "' and '" ++ second ++ "'"
  | .circularInheritance path =>
    "circular inheritance detected: " ++ String.intercalate " -> " path
  | .noUsableFileName fileName =>
    "validation error: unit '" ++ fileName ++ "' has no usable file name"
  | .unnamedClass fileName =>
    "validation error: class declared without a name in '" ++ fileName ++ "'"

end IdlBindings
