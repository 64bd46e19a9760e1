import IdlBindings.Binding.Conversion
import IdlBindings.Binding.Surface
import IdlBindings.Binding.Usage
import IdlBindings.Naming.Identifier
import IdlBindings.Naming.Pool
import IdlBindings.Template.Basic

/-!
The binding of a dictionary: a plain value, its native form, and an owner for
the strings that the native form refers to. All three are written from one
list of fields, inherited ones included. Operations mean nothing here.
-/

namespace IdlBindings.Binding

open Naming

structure BoundField where
  name : String
  type : ValueType
deriving DecidableEq

structure DictionaryBinding where
  objectName : String
  className : String
  fields : List BoundField
deriving DecidableEq

/-- Binds fields in order. One that cannot be bound takes no name and leaves a
notice instead. -/
def bindFields (registry : Registry) (className : String) (pool : Pool) :
    List Attribute → List BoundField × List Notice
  | [] => ([], [])
  | a :: rest =>
    match emittedType registry .field a.type with
    | .error cause =>
      let (fields, notices) := bindFields registry className pool rest
      (fields, ⟨className, some a.name, cause⟩ :: notices)
    | .ok type =>
      let (name, pool) := pool.allocate (identifier a.name)
      let (fields, notices) := bindFields registry className pool rest
      (⟨name, type⟩ :: fields, notices)

/-- Binds a dictionary that is emitted as `objectName`, and reports what it
leaves out. -/
def bindDictionary (registry : Registry) (c : ClassDecl) (objectName : String) :
    DictionaryBinding × List Notice :=
  let fieldSet := registry.fieldSet c
  let (fields, notices) := bindFields registry c.name (.ofReserved []) fieldSet.fields
  (⟨objectName, c.name, fields⟩,
    (fieldSet.missingAncestor.toList.map fun parent =>
      ⟨c.name, none, .unresolvedParent parent⟩) ++ notices)

namespace BoundField

def valueField (field : BoundField) : String :=
  "    pub " ++ field.name ++ ": " ++ typeText field.type .methodReturn ++ ",\n"

def nativeField (field : BoundField) : String :=
  "    pub " ++ field.name ++ ": " ++ typeText field.type .publicReturn ++ ",\n"

/-- The statements that put the field's text into a buffer, if it is one. -/
def storeStatements (field : BoundField) : String :=
  String.join ((storeField field.name field.type).statements.map fun statement =>
    "        " ++ statement ++ "\n")

def storeEntry (field : BoundField) : String :=
  "                " ++ field.name ++ ": " ++ (storeField field.name field.type).expression ++ ",\n"

def loadEntry (field : BoundField) : String :=
  "            " ++ field.name ++ ": " ++ loadField field.name field.type ++ ",\n"

end BoundField

/-- The values for the dictionary template. -/
def DictionaryBinding.fragment (binding : DictionaryBinding) : Fragment where
  kind := .dictionary
  values :=
    [("object_name", binding.objectName), ("class_name", binding.className),
      ("fields", String.join (binding.fields.map BoundField.valueField)),
      ("raw_fields", String.join (binding.fields.map BoundField.nativeField)),
      ("to_native_body", String.join (binding.fields.map BoundField.storeStatements)),
      ("raw_init", String.join (binding.fields.map BoundField.storeEntry)),
      ("from_raw_fields", String.join (binding.fields.map BoundField.loadEntry))]

end IdlBindings.Binding
