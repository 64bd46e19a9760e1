import IdlBindings.Schema.Declaration
import IdlBindings.Schema.Error

/-!
All classes of a run by their declared names. Classes are only ever added, and
a name is added once. A registry is used once no class in it is its own
ancestor; parents that are not registered are allowed.
-/

namespace IdlBindings

/-- A class together with where it is declared. -/
structure RegisteredClass where
  kind : ClassKind
  /-- The file name of the declaring unit. -/
  unit : String
  /-- The first class of its unit, which takes its name from the unit. -/
  isPrimary : Bool
  decl : ClassDecl
deriving DecidableEq

/-- The registered classes in the order in which they were added. -/
structure Registry where
  classes : List RegisteredClass

namespace Registry

def empty : Registry := ⟨[]⟩

def get? (registry : Registry) (name : String) : Option RegisteredClass :=
  registry.classes.find? fun c => c.decl.name = name

def contains (registry : Registry) (name : String) : Bool :=
  (registry.get? name).isSome

def size (registry : Registry) : Nat :=
  registry.classes.length

def parentOf? (registry : Registry) (name : String) : Option String :=
  (registry.get? name).bind fun c => c.decl.parent

/-- Puts a name into its place among sorted names. -/
def insertName (name : String) : List String → List String
  | [] => [name]
  | first :: rest => if name ≤ first then name :: first :: rest else first :: insertName name rest

/-- The registered names in increasing order. -/
def names (registry : Registry) : List String :=
  registry.classes.foldr (fun c sorted => insertName c.decl.name sorted) []

/-- Adds a class under a name that is not taken. -/
def add (registry : Registry) (entry : RegisteredClass) : Except SchemaError Registry :=
  match registry.get? entry.decl.name with
  | some earlier => .error (.duplicateClass entry.decl.name earlier.unit entry.unit)
  | none => .ok ⟨registry.classes ++ [entry]⟩

/-- Adds classes up to the first whose name is taken. -/
def addClasses (unit : String) (isPrimary : Bool) (registry : Registry) :
    List (ClassKind × ClassDecl) → Registry × Option SchemaError
  | [] => (registry, none)
  | (kind, decl) :: rest =>
    match registry.add ⟨kind, unit, isPrimary, decl⟩ with
    | .error error => (registry, some error)
    | .ok registry => addClasses unit false registry rest

/-- Adds the classes of a unit. What was added before an error stays. -/
def register (registry : Registry) (unit : SourceUnit) : Registry × Option SchemaError :=
  addClasses unit.fileName true registry unit.classes

/-- Follows parents from the last name of a path, which is given last name
first, until one repeats. -/
def loopFrom (registry : Registry) : Nat → String → List String → Option (List String)
  | 0, _, _ => none
  | fuel + 1, last, path =>
    match registry.parentOf? last with
    | none => none
    | some parent =>
      if parent ∈ path then some (parent :: path).reverse
      else loopFrom registry fuel parent (parent :: path)

/-- The path from a class by its parents into a loop, if there is one. A path
without repetition has at most one name that is not registered. -/
def loop? (registry : Registry) (name : String) : Option (List String) :=
  registry.loopFrom (registry.size + 1) name [name]

/-- Accepts a registry without loops, and reports the loop reached from the
least name otherwise. -/
def checkLoops (registry : Registry) : Except SchemaError Unit :=
  match registry.names.findSome? registry.loop? with
  | some path => .error (.circularInheritance path)
  | none => .ok ()

/-- Adds the classes of all units, up to the first error. -/
def registerAll (registry : Registry) : List SourceUnit → Except SchemaError Registry
  | [] => .ok registry
  | unit :: units =>
    match registry.register unit with
    | (_, some error) => .error error
    | (registry, none) => registerAll registry units

/-- The registry of the classes of some units. -/
def build (units : List SourceUnit) : Except SchemaError Registry := do
  let registry ← empty.registerAll units
  registry.checkLoops
  return registry

end Registry

end IdlBindings
