import IdlBindings.Native.Fault

/-!
A handle holds a native object with its executing context, its method table
and the address of its status, all of which travel together. The native side
owns the objects and marks them as disposed in their status. A null pointer is
`none`.
-/

namespace IdlBindings.Native

abbrev Address := Nat

/-- The flag in each status, which only the native side changes. -/
abbrev StatusMemory := Address → Int

/-- An object as native calls take and return it. -/
structure NativeValue (Table : Type) where
  object : Option Address
  table : Option Table
  status : Option Address
deriving DecidableEq

def NativeValue.isNull {Table : Type} (value : NativeValue Table) : Bool :=
  value.object.isNone

structure Handle (Table : Type) where
  object : Option Address
  context : Option Address
  table : Option Table
  status : Option Address
deriving DecidableEq

namespace Handle

variable {Table : Type}

/-- Takes a native value in an executing context. -/
def ofNativeValue (value : NativeValue Table) (context : Option Address) : Handle Table :=
  ⟨value.object, context, value.table, value.status⟩

def toNativeValue (handle : Handle Table) : NativeValue Table :=
  ⟨handle.object, handle.table, handle.status⟩

/-- The same object, seen through another method table. -/
def withTable {Other : Type} (handle : Handle Table) (table : Option Other) : Handle Other :=
  ⟨handle.object, handle.context, table, handle.status⟩

/-- An object without a status is never disposed of. -/
def isDisposed (memory : StatusMemory) (handle : Handle Table) : Bool :=
  handle.status.any fun address => memory address != 0

/-- The method table, if there is an object, it has one and is not disposed of. -/
def methods (memory : StatusMemory) (handle : Handle Table) : Except BoundaryFault Table :=
  match handle.object, handle.table with
  | none, _ => .error (.nullPointer .object)
  | some _, none => .error (.nullPointer .methodTable)
  | some _, some table => if handle.isDisposed memory then .error .disposed else .ok table

end Handle

/-- A dynamic value: an object and its method table, without a status. -/
structure ScriptValue (Table : Type) where
  object : Option Address
  table : Option Table
deriving DecidableEq

namespace ScriptValue

variable {Table : Type}

def ofNativeValue (value : NativeValue Table) : ScriptValue Table :=
  ⟨value.object, value.table⟩

def toNativeValue (value : ScriptValue Table) : NativeValue Table :=
  ⟨value.object, value.table, none⟩

end ScriptValue

/-- Booleans cross the boundary as integers. -/
def widenBoolean (value : Bool) : Int :=
  if value then 1 else 0

end IdlBindings.Native
