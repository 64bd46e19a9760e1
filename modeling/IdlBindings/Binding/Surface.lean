import IdlBindings.Schema.Declaration

/-!
The text of a type on each surface of the generated code: in the function
pointers of a method table, which cross the native boundary, and in the
methods of a wrapper, which do not.
-/

namespace IdlBindings.Binding

inductive Surface
  | publicReturn
  | publicParameter
  | methodReturn
  | methodParameter
deriving DecidableEq

namespace Surface

def all : List Surface :=
  [.publicReturn, .publicParameter, .methodReturn, .methodParameter]

/-- The two surfaces of a method table. -/
def isPublic : Surface → Bool
  | .publicReturn | .publicParameter => true
  | .methodReturn | .methodParameter => false

end Surface

/-- The name of the method table of a class. -/
def methodTable (className : String) : String :=
  className ++ "RustMethods"

/-- The text of a type on a surface, if the type can stand there. -/
def typeText? (type : ValueType) (surface : Surface) : Option String :=
  match type with
  | .int32 | .int64 => some "i64"
  | .double => some (if surface.isPublic then "c_double" else "f64")
  | .boolean => some (if surface.isPublic then "Boolean" else "bool")
  | .domString | .legacyDomString =>
    match surface with
    | .publicReturn | .publicParameter => some "*const c_char"
    | .methodReturn => some "String"
    | .methodParameter => some "&str"
  | .any =>
    match surface with
    | .publicReturn => some "RustValue<ScriptValueRefRustMethods>"
    | .publicParameter => some "*const OpaquePtr"
    | .methodReturn => some "ScriptValueRef"
    | .methodParameter => some "&ScriptValueRef"
  | .void =>
    match surface with
    | .publicReturn => some "c_void"
    | .methodReturn => some "()"
    | .publicParameter | .methodParameter => none
  | .pointer className =>
    match surface with
    | .publicReturn | .publicParameter => some ("RustValue<" ++ methodTable className ++ ">")
    | .methodReturn => some className
    | .methodParameter => some ("&" ++ className)
  | .unsupported => none

/-- The text of a type on a surface; where it cannot stand, a pointer to
nothing known. -/
def typeText (type : ValueType) (surface : Surface) : String :=
  (typeText? type surface).getD "*const c_void"

end IdlBindings.Binding
