import IdlBindings.Files.Tree
import IdlBindings.Schema.Reading
import IdlBindings.Text.Blank

/-!
Loading units from JSON texts and from files. A file that does not name its
unit gives it the stem of its own name; for that it is read as a value first,
completed, and read again in its written form.
-/

namespace IdlBindings

open Json

inductive LoadError
  | json (fault : Fault)
  | io (fault : Files.IoFault)
  | emptyFileName
  | unusablePath (path : String)
deriving DecidableEq

/-- The words for a unit that is read but cannot be used. -/
def LoadError.structureMessage? : LoadError → Option String
  | .emptyFileName => some "invalid schema structure: schema unit has an empty filename"
  | .unusablePath path => some ("invalid schema structure: unusable file name: " ++ path)
  | .json _ | .io _ => none

namespace SourceUnit

/-- Loads a unit from its JSON text. -/
def parse (text : String) : Except LoadError SourceUnit :=
  match ofText text with
  | .error fault => .error (.json fault)
  | .ok unit => if Text.isBlank unit.fileName then .error .emptyFileName else .ok unit

/-- Gives a unit its file name where it has none. -/
def completeFileName (path : Files.Path) : Value → Except LoadError Value
  | .object fields =>
    match Value.field? "filename" fields with
    | some _ => .ok (.object fields)
    | none =>
      match path.stem? with
      | none => .error (.unusablePath path.text)
      | some stem => .ok (.object (Value.insertField "filename" (.text stem) fields))
  | value => .ok value

/-- Loads a unit from the text of the file at a path. -/
def parseAt (path : Files.Path) (text : String) : Except LoadError SourceUnit :=
  match Value.parse text with
  | .error fault => .error (.json fault)
  | .ok value => do
    let value ← completeFileName path value
    parse value.print

/-- Loads a unit from a file. -/
def load (tree : Files.Tree) (path : Files.Path) : Except LoadError SourceUnit :=
  match tree.readText path with
  | .error fault => .error (.io fault)
  | .ok text => parseAt path text

end SourceUnit

end IdlBindings
