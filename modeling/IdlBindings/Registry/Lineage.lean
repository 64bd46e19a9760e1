import IdlBindings.Naming.ClassName
import IdlBindings.Registry.Basic

/-!
What a registry says about a class: the name under which it is emitted, its
parent, its ancestors and, for a dictionary, the fields it has with those it
inherits.
-/

namespace IdlBindings

/-- The name under which a class is emitted: the first class of a unit is named
for the unit, where that gives a name, and any other keeps its own. -/
def RegisteredClass.emittedName (c : RegisteredClass) : String :=
  let derived := Naming.className (fileStem c.unit)
  if c.isPrimary && derived != "" then derived else c.decl.name

/-- What a class inherits from. -/
inductive Parent
  | root
  | registered (parent : RegisteredClass)
  | missing (name : String)

/-- What a pointer type points to. -/
inductive Target
  | interface (emittedName : String)
  | dictionary (emittedName : String)
  | missing
deriving DecidableEq

/-- The fields of a dictionary. -/
structure FieldSet where
  /-- Fields of the farthest ancestor first; a field declared again keeps its
  place and takes the nearer declaration. -/
  fields : List Attribute
  /-- The ancestor at which the chain of parents breaks off. -/
  missingAncestor : Option String
deriving DecidableEq

/-- Replaces the field of that name, or adds the field at the end. -/
def putField (a : Attribute) : List Attribute → List Attribute
  | [] => [a]
  | first :: rest => if first.name = a.name then a :: rest else first :: putField a rest

def putFields (fields added : List Attribute) : List Attribute :=
  added.foldl (fun fields a => putField a fields) fields

namespace Registry

def emittedName? (registry : Registry) (declared : String) : Option String :=
  (registry.get? declared).map RegisteredClass.emittedName

def parent (registry : Registry) (c : ClassDecl) : Parent :=
  match c.parent with
  | none => .root
  | some name =>
    match registry.get? name with
    | some found => .registered found
    | none => .missing name

def target (registry : Registry) (className : String) : Target :=
  match registry.get? className with
  | none => .missing
  | some found =>
    match found.kind with
    | .interface => .interface found.emittedName
    | .dictionary => .dictionary found.emittedName

/-- Walks up from a parent's name, past no class of a name in `seen`. -/
def ancestorsFrom (registry : Registry) : Nat → List String → Option String → List ClassDecl
  | 0, _, _ => []
  | _, _, none => []
  | fuel + 1, seen, some name =>
    match registry.get? name with
    | none => []
    | some found =>
      if found.decl.name ∈ seen then []
      else found.decl :: registry.ancestorsFrom fuel (found.decl.name :: seen) found.decl.parent

/-- The registered ancestors of a class, nearest first. They have different
names, so there are no more of them than registered classes. -/
def ancestors (registry : Registry) (c : ClassDecl) : List ClassDecl :=
  registry.ancestorsFrom registry.size [c.name] c.parent

def fieldSet (registry : Registry) (c : ClassDecl) : FieldSet :=
  let ancestors := registry.ancestors c
  let farthest := ancestors.getLastD c
  { fields := putFields (ancestors.reverse.foldl (fun fields a => putFields fields a.attributes) [])
      c.attributes
    missingAncestor := farthest.parent.filter fun name => !registry.contains name }

end Registry

end IdlBindings
