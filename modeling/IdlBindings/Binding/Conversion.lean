import IdlBindings.Schema.Declaration

/-!
How a value crosses the native boundary in the generated code. A text is put
into a buffer by statements of its own, so that the buffer outlives its use.
Pointer types are expected to carry the emitted name of their class.
-/

namespace IdlBindings.Binding

/-- Statements to run first, and the expression that is passed on. -/
structure Conversion where
  statements : List String := []
  expression : String
deriving DecidableEq

/-- An argument held by the local `name`, as it is passed to a native call. -/
def passArgument (name : String) : ValueType → Conversion
  | .domString | .legacyDomString =>
    { statements := ["let " ++ name ++ " = to_native_string(" ++ name ++ ")?;"]
      expression := name ++ ".as_ptr()" }
  | .boolean => { expression := "Boolean::from(" ++ name ++ ")" }
  | .any => { expression := name ++ ".as_ptr()" }
  | .pointer _ => { expression := name ++ ".boundary().as_rust_value()" }
  | .int32 | .int64 | .double | .void | .unsupported => { expression := name }

/-- A native result as the value of a wrapper method, in the executing context
`context`. -/
def takeResult (type : ValueType) (value context : String) : String :=
  match type with
  | .pointer className =>
    "unsafe \x7b " ++ className ++ "::initialize(BoundaryHandle::from_rust_value(" ++ value ++
      ", " ++ context ++ ")) \x7d"
  | .domString | .legacyDomString => "unsafe \x7b take_native_string(" ++ value ++ ") \x7d"
  | .boolean => "Ok(" ++ value ++ " != 0)"
  | .any => "Ok(ScriptValueRef::from_rust_value(" ++ value ++ "))"
  | .void => "Ok(())"
  | .int32 | .int64 | .double | .unsupported => "Ok(" ++ value ++ ")"

/-- A dictionary field on its way to the native side. -/
def storeField (field : String) : ValueType → Conversion
  | .domString | .legacyDomString =>
    { statements :=
        ["let " ++ field ++ "_buffer = to_native_string(&self." ++ field ++ ")?;",
          "let " ++ field ++ "_ptr = " ++ field ++ "_buffer.as_ptr();",
          "strings.push(" ++ field ++ "_buffer);"]
      expression := field ++ "_ptr" }
  | .boolean => { expression := "Boolean::from(self." ++ field ++ ")" }
  | .any => { expression := "self." ++ field ++ ".to_rust_value()" }
  | .int32 | .int64 | .double | .void | .pointer _ | .unsupported =>
    { expression := "self." ++ field }

/-- A dictionary field on its way from the native side, which keeps its own
strings. -/
def loadField (field : String) : ValueType → String
  | .domString | .legacyDomString => "unsafe \x7b copy_native_string(raw." ++ field ++ ") \x7d?"
  | .boolean => "raw." ++ field ++ " != 0"
  | .any => "ScriptValueRef::from_rust_value(raw." ++ field ++ ")"
  | .int32 | .int64 | .double | .void | .pointer _ | .unsupported => "raw." ++ field

end IdlBindings.Binding
