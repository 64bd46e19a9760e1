/-!
What can go wrong when a value crosses the boundary to the native side.
-/

namespace IdlBindings.Native

/-- What a null pointer should have pointed to. -/
inductive Referent
  | string
  | object
  | methodTable
  | exceptionStateTable
deriving DecidableEq

def Referent.describe : Referent → String
  | .string => "string"
  | .object => "object"
  | .methodTable => "method table"
  | .exceptionStateTable => "exception state method table"

inductive BoundaryFault
  /-- The bytes from that position on are not text. -/
  | invalidUtf8 (validUpTo : Nat)
  | interiorNul (position : Nat)
  | nullPointer (referent : Referent)
  | disposed
  | exception (message : String)
deriving DecidableEq

def BoundaryFault.message : BoundaryFault → String
  | .invalidUtf8 validUpTo =>
    "invalid UTF-8 in native string at byte " ++ toString validUpTo
  | .interiorNul position =>
    "string contains an interior NUL byte at position " ++ toString position
  | .nullPointer referent =>
    "null " ++ referent.describe ++ " pointer received from native side"
  | .disposed => "native object has been disposed"
  | .exception message => "native exception: " ++ message

end IdlBindings.Native
