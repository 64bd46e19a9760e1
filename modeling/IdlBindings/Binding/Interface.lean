import IdlBindings.Binding.Conversion
import IdlBindings.Binding.Surface
import IdlBindings.Binding.Usage
import IdlBindings.Naming.Identifier
import IdlBindings.Naming.Pool
import IdlBindings.Template.Basic

/-!
The binding of an interface: a method table that the native side fills, and a
wrapper that calls through it. Which members are bound, under which names and
with which types, is settled first; the texts of the table and of the wrapper
are both written from that one list. A derived wrapper holds the wrapper of
its parent and hands over to it, and only a class without parent releases the
native object.
-/

namespace IdlBindings.Binding

open Naming

/-- Names that every table and wrapper has already. -/
def reservedMembers : List String :=
  ["version", "release", "initialize", "boundary"]

/-- Locals of the wrapper methods, which no argument may be called. -/
def reservedLocals : List String :=
  ["methods", "value", "exception_state"]

/-- The executing context that a wrapper passes on. -/
def callContext : String := "self.boundary.context()"

structure BoundArgument where
  name : String
  type : ValueType
deriving DecidableEq

/-- A function pointer of the method table and the wrapper method of the same
name that calls it. -/
inductive BoundMember
  | getter (name : String) (type : ValueType)
  | setter (name : String) (type : ValueType)
  | call (name : String) (arguments : List BoundArgument) (result : ValueType)
deriving DecidableEq

/-- What a wrapper does about its parent. -/
inductive BoundParent
  /-- No parent: the wrapper releases the native object. -/
  | root
  /-- The wrapper of the parent, held in a field. -/
  | held (field parent : String)
  /-- A parent that is not bound, for which the table keeps its place. -/
  | unbound (field : String)
deriving DecidableEq

structure InterfaceBinding where
  /-- The name under which the interface is emitted. -/
  objectName : String
  /-- The name under which it is declared. -/
  className : String
  parent : BoundParent
  members : List BoundMember
deriving DecidableEq

/-- A member of an interface in the order of binding, with the name it asks
for. -/
inductive MemberRequest
  | attribute (a : Attribute)
  | operation (name : String) (o : Operation)

/-- The name asked for by an overload. The first of a group keeps the plain
name, later ones are told apart by the names of their arguments. -/
def overloadName (index : Nat) (operation : Operation) : String :=
  if index = 0 || operation.arguments.isEmpty then identifier operation.name
  else
    snakeCase operation.name ++ "_with_" ++
      String.intercalate "_and_" (operation.arguments.map fun argument => snakeCase argument.name)

def overloadRequests (group : List Operation) : List MemberRequest :=
  group.mapIdx fun index operation => .operation (overloadName index operation) operation

/-- The attributes in order, then the operations group by group. -/
def memberRequests (c : ClassDecl) : List MemberRequest :=
  c.attributes.map .attribute ++ c.overloads.flatMap fun entry => overloadRequests entry.2

/-- The name asked for by an argument. -/
def argumentName (name : String) : String :=
  let plain := identifier name
  if plain ∈ reservedLocals then plain ++ "_" else plain

/-- Binds arguments in order. On failure, tells the argument that cannot be
bound. -/
def bindArguments (registry : Registry) (pool : Pool) :
    List Argument → Except (String × Cause) (List BoundArgument)
  | [] => .ok []
  | argument :: rest =>
    match emittedType registry .value argument.type with
    | .error cause => .error (argument.name, cause)
    | .ok type => do
      let (name, pool) := pool.allocate (argumentName argument.name)
      return ⟨name, type⟩ :: (← bindArguments registry pool rest)

/-- Binds an attribute: a getter and, unless it is read-only, a setter. -/
def bindAttribute (registry : Registry) (pool : Pool) (a : Attribute) :
    Except (String × Cause) (List BoundMember × Pool) :=
  match emittedType registry .value a.type with
  | .error cause => .error (a.name, cause)
  | .ok type =>
    let (getter, pool) := pool.allocate (identifier a.name)
    if a.readonly then .ok ([.getter getter type], pool)
    else
      let (setter, pool) := pool.allocate ("set_" ++ snakeCase a.name)
      .ok ([.getter getter type, .setter setter type], pool)

def bindOperation (registry : Registry) (pool : Pool) (name : String) (o : Operation) :
    Except (String × Cause) (List BoundMember × Pool) :=
  match emittedType registry .result o.result with
  | .error cause => .error (o.name, cause)
  | .ok result =>
    match bindArguments registry (.ofReserved []) o.arguments with
    | .error (argument, cause) => .error (o.name ++ "(" ++ argument ++ ")", cause)
    | .ok arguments =>
      let (name, pool) := pool.allocate name
      .ok ([.call name arguments result], pool)

def MemberRequest.bind (registry : Registry) (pool : Pool) :
    MemberRequest → Except (String × Cause) (List BoundMember × Pool)
  | .attribute a => bindAttribute registry pool a
  | .operation name o => bindOperation registry pool name o

/-- Binds members in order. One that cannot be bound takes no name and leaves
a notice instead. -/
def bindMembers (registry : Registry) (className : String) (pool : Pool) :
    List MemberRequest → List BoundMember × List Notice
  | [] => ([], [])
  | request :: rest =>
    match request.bind registry pool with
    | .error (member, cause) =>
      let (members, notices) := bindMembers registry className pool rest
      (members, ⟨className, some member, cause⟩ :: notices)
    | .ok (bound, pool) =>
      let (members, notices) := bindMembers registry className pool rest
      (bound ++ members, notices)

/-- Binds the parent, if there is one. Tells what is wrong with it, and which
names are left for members. -/
def bindParent (registry : Registry) (pool : Pool) (c : ClassDecl) :
    BoundParent × Option Cause × Pool :=
  match registry.parent c with
  | .root => (.root, none, pool)
  | .missing name =>
    let (field, pool) := pool.allocate (identifier name)
    (.unbound field, some (.unresolvedParent name), pool)
  | .registered parent =>
    match parent.kind with
    | .interface =>
      let (field, pool) := pool.allocate (identifier parent.emittedName)
      (.held field parent.emittedName, none, pool)
    | .dictionary =>
      let (field, pool) := pool.allocate (identifier parent.decl.name)
      (.unbound field,
        some (.unsupportedMember
          ("interface cannot inherit from dictionary '" ++ parent.decl.name ++ "'")),
        pool)

/-- Binds an interface that is emitted as `objectName`, and reports what it
leaves out. -/
def bindInterface (registry : Registry) (c : ClassDecl) (objectName : String) :
    InterfaceBinding × List Notice :=
  let (parent, cause, pool) := bindParent registry (.ofReserved reservedMembers) c
  let (members, notices) := bindMembers registry c.name pool (memberRequests c)
  (⟨objectName, c.name, parent, members⟩,
    (cause.toList.map fun cause => ⟨c.name, none, cause⟩) ++ notices)

namespace BoundMember

def name : BoundMember → String
  | .getter name _ => name
  | .setter name _ => name
  | .call name _ _ => name

/-- The types that a member's function pointer takes between the object and,
unless it is a getter, the exception state. -/
def parameterTypes : BoundMember → List ValueType
  | .getter _ _ => []
  | .setter _ type => [type]
  | .call _ arguments _ => arguments.map BoundArgument.type

/-- The function pointer in the method table. -/
def slotText : BoundMember → String
  | .getter name type =>
    "    pub " ++ name ++ ": extern \"C\" fn(*const OpaquePtr) -> " ++
      typeText type .publicReturn ++ ",\n"
  | .setter name type =>
    "    pub " ++ name ++ ": extern \"C\" fn(*const OpaquePtr, " ++
      typeText type .publicParameter ++ ", *const OpaquePtr),\n"
  | .call name arguments result =>
    let parameters := arguments.map fun argument => typeText argument.type .publicParameter
    let returned := if result.isVoid then "" else " -> " ++ typeText result .publicReturn
    "    pub " ++ name ++ ": extern \"C\" fn(" ++
      String.intercalate ", " (["*const OpaquePtr"] ++ parameters ++ ["*const OpaquePtr"]) ++
      ")" ++ returned ++ ",\n"

/-- A line of a method body. -/
def bodyLine (statement : String) : String :=
  "        " ++ statement ++ "\n"

def enterMethods : String :=
  bodyLine "let methods = self.boundary.methods()?;"

/-- A method from its head and the lines of its body. -/
def methodOf (head : String) (lines : List String) : String :=
  "    pub fn " ++ head ++ " \x7b\n" ++ String.join lines ++ "    \x7d\n\n"

/-- The call through the table, given what is passed between the object and the
exception state. -/
def callText (name : String) (passed : List String) : String :=
  "(methods." ++ name ++ ")(" ++
    String.intercalate ", " (["self.boundary.ptr()"] ++ passed ++ ["exception_state.ptr()"]) ++ ")"

/-- The method of the wrapper. -/
def methodText : BoundMember → String
  | .getter name type =>
    methodOf (name ++ "(&self) -> Result<" ++ typeText type .methodReturn ++ ", BoundaryError>")
      [enterMethods, bodyLine ("let value = (methods." ++ name ++ ")(self.boundary.ptr());"),
        bodyLine (takeResult type "value" callContext)]
  | .setter name type =>
    let passed := passArgument "value" type
    methodOf
      (name ++ "(&self, value: " ++ typeText type .methodParameter ++
        ", exception_state: &ExceptionState) -> Result<(), BoundaryError>")
      ([enterMethods] ++ passed.statements.map bodyLine ++
        [bodyLine (callText name [passed.expression] ++ ";"),
          bodyLine ("exception_state.check(" ++ callContext ++ ")")])
  | .call name arguments result =>
    let parameters := arguments.map fun argument =>
      argument.name ++ ": " ++ typeText argument.type .methodParameter
    let passed := arguments.map fun argument => passArgument argument.name argument.type
    let call := callText name (passed.map Conversion.expression)
    let ending :=
      if result.isVoid then
        [bodyLine (call ++ ";"), bodyLine ("exception_state.check(" ++ callContext ++ ")")]
      else
        [bodyLine ("let value = " ++ call ++ ";"),
          bodyLine ("exception_state.check(" ++ callContext ++ ")?;"),
          bodyLine (takeResult result "value" callContext)]
    methodOf
      (name ++ "(" ++
        String.intercalate ", " (["&self"] ++ parameters ++ ["exception_state: &ExceptionState"]) ++
        ") -> Result<" ++ typeText result .methodReturn ++ ", BoundaryError>")
      ([enterMethods] ++ (passed.flatMap Conversion.statements).map bodyLine ++ ending)

end BoundMember

namespace BoundParent

/-- The slot of the method table that stands for the parent or, without one,
for the release of the object. -/
def tableField : BoundParent → String
  | .root => "    pub release: extern \"C\" fn(*const OpaquePtr),\n"
  | .held field parent => "    pub " ++ field ++ ": *const " ++ methodTable parent ++ ",\n"
  | .unbound field => "    pub " ++ field ++ ": *const c_void,\n"

def wrapperField : BoundParent → String
  | .held field parent => "    pub " ++ field ++ ": " ++ parent ++ ",\n"
  | .root | .unbound _ => ""

def initializeBody : BoundParent → String
  | .held field parent =>
    "        let methods = boundary.methods()?;\n" ++
      ("        let " ++ field ++ " = unsafe \x7b " ++ parent ++
        "::initialize(boundary.with_methods(methods." ++ field ++ ")) \x7d?;\n") ++
      ("        Ok(Self \x7b " ++ field ++ ", boundary \x7d)\n")
  | .root | .unbound _ => "        boundary.methods()?;\n        Ok(Self \x7b boundary \x7d)\n"

/-- Gives access to the parent, or releases the object when there is none. -/
def inheritance (objectName : String) : BoundParent → String
  | .root =>
    "impl Drop for " ++ objectName ++ " \x7b\n" ++
      "    fn drop(&mut self) \x7b\n" ++
      "        if let Ok(methods) = self.boundary.methods() \x7b\n" ++
      "            (methods.release)(self.boundary.ptr());\n" ++
      "        \x7d\n    \x7d\n\x7d\n"
  | .held field parent =>
    "impl std::ops::Deref for " ++ objectName ++ " \x7b\n" ++
      "    type Target = " ++ parent ++ ";\n\n" ++
      "    fn deref(&self) -> &" ++ parent ++ " \x7b\n" ++
      "        &self." ++ field ++ "\n    \x7d\n\x7d\n"
  | .unbound _ => ""

end BoundParent

namespace InterfaceBinding

def tableFields (binding : InterfaceBinding) : String :=
  String.join (binding.members.map BoundMember.slotText)

def methods (binding : InterfaceBinding) : String :=
  String.join (binding.members.map BoundMember.methodText)

/-- The values for the interface template. -/
def fragment (binding : InterfaceBinding) : Fragment where
  kind := .interface
  values :=
    [("object_name", binding.objectName), ("class_name", binding.className),
      ("parent_table_field", binding.parent.tableField), ("table_fields", binding.tableFields),
      ("parent_field", binding.parent.wrapperField),
      ("initialize_body", binding.parent.initializeBody), ("members", binding.methods),
      ("inheritance", binding.parent.inheritance binding.objectName)]

end InterfaceBinding

end IdlBindings.Binding
