import IdlBindings.Native.Handle
import IdlBindings.Native.Strings

/-!
Exceptions of the native side. A call leaves an exception behind or not; a
check turns one into a fault and asks the native side for its message.
-/

namespace IdlBindings.Native

/-- An exception as the native side puts it into words: a buffer and how many
of its bytes count. -/
structure RaisedException where
  message : Option NativeString
  length : Nat

/-- The native side of an exception state. -/
structure ExceptionSource where
  raised : Option RaisedException
  /-- The executing contexts for which a message was asked, first one first. -/
  asked : List (Option Address)

namespace ExceptionSource

def quiet : ExceptionSource := ⟨none, []⟩

def raise (source : ExceptionSource) (exception : RaisedException) : ExceptionSource :=
  { source with raised := some exception }

def clear (source : ExceptionSource) : ExceptionSource :=
  { source with raised := none }

end ExceptionSource

/-- The method table of exception states. -/
structure ExceptionTable where
  version : Int
deriving DecidableEq

structure ExceptionState where
  table : Option ExceptionTable

namespace ExceptionState

/-- Whether the native side has raised an exception. -/
def hasException (state : ExceptionState) (source : ExceptionSource) :
    Except BoundaryFault Bool :=
  match state.table with
  | none => .error (.nullPointer .exceptionStateTable)
  | some _ => .ok source.raised.isSome

/-- Turns an exception into a fault; the context goes along with the request
for its message. -/
def check (state : ExceptionState) (context : Option Address) (source : ExceptionSource) :
    Except BoundaryFault Unit × ExceptionSource :=
  match state.table, source.raised with
  | none, _ => (.error (.nullPointer .exceptionStateTable), source)
  | some _, none => (.ok (), source)
  | some _, some exception =>
    (match takeBuffer exception.length exception.message with
      | .error fault => .error fault
      | .ok message => .error (.exception message),
      { source with asked := source.asked ++ [context] })

end ExceptionState

end IdlBindings.Native
