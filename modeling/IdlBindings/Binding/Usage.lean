import IdlBindings.Diagnostic
import IdlBindings.Registry.Lineage

/-!
Which types can be bound where they are used. A pointer that can be bound is
turned to the emitted name of its class.
-/

namespace IdlBindings.Binding

/-- Where a type is used. -/
inductive Usage
  /-- The result of an operation, which may be nothing. -/
  | result
  /-- An attribute or an argument. -/
  | value
  /-- A dictionary field, which holds no pointers. -/
  | field
deriving DecidableEq

/-- The type as it is emitted, or why it cannot be. -/
def emittedType (registry : Registry) (usage : Usage) : ValueType → Except Cause ValueType
  | .unsupported => .error (.unsupportedMember "type has no mapping")
  | .void =>
    if usage = .result then .ok .void
    else .error (.unsupportedMember "void is only valid as a return type")
  | .pointer className =>
    if usage = .field then
      .error (.unsupportedMember "pointer-typed dictionary fields are not supported")
    else
      match registry.target className with
      | .interface emittedName => .ok (.pointer emittedName)
      | .dictionary emittedName =>
        .error (.unsupportedMember ("pointer to dictionary '" ++ emittedName ++ "'"))
      | .missing => .error (.unresolvedClass className)
  | type => .ok type

end IdlBindings.Binding
