import IdlBindings.Binding.Dictionary
import IdlBindings.Proofs.Binding.MethodTable

/-!
The class names in generated code. Every value of a fragment is cut into pieces, so
that the names of other classes stand on their own; put together again, the pieces
give the value. A class name comes from the parent that a wrapper holds or from the
pointer type of a bound member, and a dictionary has none.
-/

namespace IdlBindings.Binding

/-- A part of a text. -/
inductive Piece
  | plain (text : String)
  /-- The name of a class that the text refers to. -/
  | className (name : String)

namespace Piece

def written : Piece → String
  | .plain text => text
  | .className name => name

def className? : Piece → Option String
  | .plain _ => none
  | .className name => some name

end Piece

def written (pieces : List Piece) : String :=
  String.join (pieces.map Piece.written)

def classNames (pieces : List Piece) : List String :=
  pieces.filterMap Piece.className?

@[simp] theorem written_nil : written [] = "" := rfl

@[simp] theorem written_plain_cons (text : String) (pieces : List Piece) :
    written (.plain text :: pieces) = text ++ written pieces := String.join_cons

@[simp] theorem written_className_cons (name : String) (pieces : List Piece) :
    written (.className name :: pieces) = name ++ written pieces := String.join_cons

theorem written_plain (text : String) : written [.plain text] = text := by
  rw [written_plain_cons, written_nil, String.append_empty]

@[simp] theorem written_append (first second : List Piece) :
    written (first ++ second) = written first ++ written second := by
  rw [written, List.map_append, String.join_append]
  rfl

@[simp] theorem classNames_append (first second : List Piece) :
    classNames (first ++ second) = classNames first ++ classNames second :=
  List.filterMap_append

theorem written_flatMap {α : Type} (f : α → List Piece) (items : List α) :
    written (items.flatMap f) = String.join (items.map fun item => written (f item)) := by
  induction items with
  | nil => rfl
  | cons item items ih =>
      rw [List.flatMap_cons, written_append, ih, List.map_cons, String.join_cons]

/-- All class names in a text are allowed. -/
def Within (allowed : String → Prop) (pieces : List Piece) : Prop :=
  ∀ name ∈ classNames pieces, allowed name

section Within

variable {allowed : String → Prop}

@[simp] theorem within_nil : Within allowed [] :=
  fun _ hmem => (List.not_mem_nil hmem).elim

@[simp] theorem within_plain_cons {text : String} {pieces : List Piece} :
    Within allowed (.plain text :: pieces) ↔ Within allowed pieces := Iff.rfl

@[simp] theorem within_className_cons {name : String} {pieces : List Piece} :
    Within allowed (.className name :: pieces) ↔ allowed name ∧ Within allowed pieces :=
  List.forall_mem_cons

@[simp] theorem within_append {first second : List Piece} :
    Within allowed (first ++ second) ↔ Within allowed first ∧ Within allowed second := by
  rw [Within, classNames_append, List.forall_mem_append]
  rfl

@[simp] theorem within_flatMap {α : Type} {f : α → List Piece} {items : List α} :
    Within allowed (items.flatMap f) ↔ ∀ item ∈ items, Within allowed (f item) := by
  induction items with
  | nil => simp
  | cons item items ih => rw [List.flatMap_cons, within_append, ih, List.forall_mem_cons]

end Within

/-- Texts with commas between them. -/
def listed (items : List (List Piece)) : List Piece :=
  [Piece.plain ", "].intercalate items

theorem written_listed (items : List (List Piece)) :
    written (listed items) = String.intercalate ", " (items.map written) := by
  induction items with
  | nil => rfl
  | cons first rest ih =>
      cases rest with
      | nil => simp [listed]
      | cons second rest =>
          rw [List.map_cons, List.map_cons, String.intercalate_cons_cons, ← List.map_cons, ← ih]
          simp [listed, List.intercalate_cons_cons, String.append_assoc]

@[simp] theorem within_listed {allowed : String → Prop} {items : List (List Piece)} :
    Within allowed (listed items) ↔ ∀ item ∈ items, Within allowed item := by
  induction items with
  | nil => simp [listed]
  | cons first rest ih =>
      cases rest with
      | nil => simp [listed]
      | cons second rest =>
          rw [List.forall_mem_cons, ← ih]
          simp [listed, List.intercalate_cons_cons]

/-- The text of a type on a surface. -/
def typePieces (type : ValueType) (surface : Surface) : List Piece :=
  match type with
  | .pointer name =>
    match surface with
    | .publicReturn | .publicParameter =>
      [.plain "RustValue<", .className name, .plain "RustMethods>"]
    | .methodReturn => [.className name]
    | .methodParameter => [.plain "&", .className name]
  | type => [.plain (typeText type surface)]

theorem written_typePieces (type : ValueType) (surface : Surface) :
    written (typePieces type surface) = typeText type surface := by
  have hclose : "RustMethods>" = "RustMethods" ++ ">" := rfl
  cases type with
  | pointer name =>
      cases surface with
      | publicReturn | publicParameter =>
          simp [typePieces, typeText, typeText?, methodTable, hclose, String.append_assoc]
      | methodReturn | methodParameter => simp [typePieces, typeText, typeText?]
  | _ => simp [typePieces]

theorem within_typePieces {allowed : String → Prop} {type : ValueType} {surface : Surface}
    (h : ∀ name, type = .pointer name → allowed name) :
    Within allowed (typePieces type surface) := by
  cases type with
  | pointer name =>
      cases surface with
      | _ => simpa [typePieces] using h name rfl
  | _ => exact within_nil

/-- A native result as the value of a wrapper method. -/
def resultPieces (type : ValueType) (value context : String) : List Piece :=
  match type with
  | .pointer name =>
    [.plain "unsafe \x7b ", .className name,
      .plain ("::initialize(BoundaryHandle::from_rust_value(" ++ value ++ ", " ++ context ++
        ")) \x7d")]
  | type => [.plain (takeResult type value context)]

theorem written_resultPieces (type : ValueType) (value context : String) :
    written (resultPieces type value context) = takeResult type value context := by
  cases type with
  | pointer name =>
      have htake : takeResult (.pointer name) value context = "unsafe \x7b " ++ name ++
          "::initialize(BoundaryHandle::from_rust_value(" ++ value ++ ", " ++ context ++
          ")) \x7d" := rfl
      rw [htake]
      simp only [resultPieces, written_plain_cons, written_className_cons, written_nil,
        String.append_empty, String.append_assoc]
  | _ => simp [resultPieces]

theorem within_resultPieces {allowed : String → Prop} {type : ValueType} {value context : String}
    (h : ∀ name, type = .pointer name → allowed name) :
    Within allowed (resultPieces type value context) := by
  cases type with
  | pointer name => simpa [resultPieces] using h name rfl
  | _ => exact within_nil

namespace BoundMember

def types : BoundMember → List ValueType
  | .getter _ type => [type]
  | .setter _ type => [type]
  | .call _ arguments result => result :: arguments.map BoundArgument.type

def slotParameterPieces : BoundMember → List (List Piece)
  | .getter _ _ => [[.plain "*const OpaquePtr"]]
  | .setter _ type =>
    [[.plain "*const OpaquePtr"], typePieces type .publicParameter, [.plain "*const OpaquePtr"]]
  | .call _ arguments _ =>
    [.plain "*const OpaquePtr"] ::
      (arguments.map fun argument => typePieces argument.type .publicParameter) ++
      [[.plain "*const OpaquePtr"]]

def slotResultPieces : BoundMember → List Piece
  | .getter _ type => .plain " -> " :: typePieces type .publicReturn
  | .setter _ _ => []
  | .call _ _ result =>
    if result.isVoid then [] else .plain " -> " :: typePieces result .publicReturn

def methodParameterPieces : BoundMember → List (List Piece)
  | .getter _ _ => [[.plain "&self"]]
  | .setter _ type =>
    [[.plain "&self"], .plain "value: " :: typePieces type .methodParameter,
      [.plain "exception_state: &ExceptionState"]]
  | .call _ arguments _ =>
    [.plain "&self"] :: (arguments.map fun argument =>
      .plain (argument.name ++ ": ") :: typePieces argument.type .methodParameter) ++
      [[.plain "exception_state: &ExceptionState"]]

def methodResultPieces : BoundMember → List Piece
  | .getter _ type => typePieces type .methodReturn
  | .setter _ _ => [.plain "()"]
  | .call _ _ result => typePieces result .methodReturn

/-- The lines that follow the call of a slot. -/
def endingPieces : BoundMember → List (List Piece)
  | .getter _ type => [resultPieces type "value" callContext]
  | .setter _ _ => [[.plain ("exception_state.check(" ++ callContext ++ ")")]]
  | .call _ _ result =>
    if result.isVoid then [[.plain ("exception_state.check(" ++ callContext ++ ")")]]
    else
      [[.plain ("exception_state.check(" ++ callContext ++ ")?;")],
        resultPieces result "value" callContext]

def slotPieces (m : BoundMember) : List Piece :=
  .plain ("    pub " ++ m.name ++ ": extern \"C\" fn(") :: listed m.slotParameterPieces ++
    [.plain ")"] ++ m.slotResultPieces ++ [.plain ",\n"]

def methodPieces (m : BoundMember) : List Piece :=
  .plain ("    pub fn " ++ m.name ++ "(") :: listed m.methodParameterPieces ++
    [.plain ") -> Result<"] ++ m.methodResultPieces ++
    [.plain (", BoundaryError>" ++ " \x7b\n" ++
      String.join ([enterMethods] ++ (m.conversions.flatMap Conversion.statements).map bodyLine ++
        [bodyLine (m.assignment ++ "(methods." ++ m.name ++ ")(" ++
          String.intercalate ", " m.passedValues ++ ")" ++ ";")]))] ++
    (m.endingPieces.flatMap fun line => .plain "        " :: line ++ [.plain "\n"]) ++
    [.plain "    \x7d\n\n"]

theorem map_written_slotParameterPieces (m : BoundMember) :
    m.slotParameterPieces.map written = m.slotParameters := by
  cases m with
  | getter name type => simp [slotParameterPieces, slotParameters]
  | setter name type => simp [slotParameterPieces, slotParameters, written_typePieces]
  | call name arguments result =>
      simp [slotParameterPieces, slotParameters, written_typePieces]

theorem written_slotResultPieces (m : BoundMember) :
    written m.slotResultPieces = m.slotResult := by
  cases m with
  | getter name type => simp [slotResultPieces, slotResult, written_typePieces]
  | setter name type => rfl
  | call name arguments result =>
      rw [slotResultPieces, slotResult]
      split
      · rfl
      · rw [written_plain_cons, written_typePieces]

theorem map_written_methodParameterPieces (m : BoundMember) :
    m.methodParameterPieces.map written = m.methodParameters := by
  cases m with
  | getter name type => simp [methodParameterPieces, methodParameters]
  | setter name type => simp [methodParameterPieces, methodParameters, written_typePieces]
  | call name arguments result =>
      simp [methodParameterPieces, methodParameters, written_typePieces]

theorem written_methodResultPieces (m : BoundMember) :
    written m.methodResultPieces = m.methodResult := by
  cases m with
  | getter name type => rw [methodResultPieces, methodResult, written_typePieces]
  | setter name type => rfl
  | call name arguments result => rw [methodResultPieces, methodResult, written_typePieces]

theorem map_written_endingPieces (m : BoundMember) :
    m.endingPieces.map written = m.ending := by
  cases m with
  | getter name type => simp [endingPieces, ending, written_resultPieces]
  | setter name type => simp [endingPieces, ending]
  | call name arguments result =>
      rw [endingPieces, ending]
      split
      · simp
      · simp [written_resultPieces]

theorem written_slotPieces (m : BoundMember) : written m.slotPieces = m.slotText := by
  rw [slotText_eq, ← map_written_slotParameterPieces, ← written_slotResultPieces, ← written_listed]
  simp only [slotPieces, List.cons_append, written_plain_cons, written_append, written_nil,
    String.append_empty, String.append_assoc]

theorem written_methodPieces (m : BoundMember) : written m.methodPieces = m.methodText := by
  have hlines : written (m.endingPieces.flatMap fun line =>
      .plain "        " :: line ++ [.plain "\n"]) = String.join (m.ending.map bodyLine) := by
    rw [written_flatMap, ← map_written_endingPieces, List.map_map]
    apply congrArg String.join
    apply List.map_congr_left
    intro line _
    simp [bodyLine, String.append_assoc]
  rw [methodText_eq, ← map_written_methodParameterPieces, ← written_methodResultPieces,
    ← written_listed, String.join_append, ← hlines]
  simp only [methodPieces, List.cons_append, written_plain_cons, written_append, written_nil,
    String.append_empty, String.append_assoc]

/-- The class names in a slot are those of pointer types of the member. -/
theorem within_slotPieces {allowed : String → Prop} {m : BoundMember}
    (h : ∀ name, .pointer name ∈ m.types → allowed name) : Within allowed m.slotPieces := by
  have htype (surface : Surface) : ∀ type ∈ m.types, Within allowed (typePieces type surface) :=
    fun type hmem => within_typePieces fun name hname => h name (hname ▸ hmem)
  have hparts : (∀ item ∈ m.slotParameterPieces, Within allowed item) ∧
      Within allowed m.slotResultPieces := by
    cases m with
    | getter name type => simpa [slotParameterPieces, slotResultPieces, types] using htype _
    | setter name type => simpa [slotParameterPieces, slotResultPieces, types] using htype _
    | call name arguments result =>
        have harguments : ∀ argument ∈ arguments,
            Within allowed (typePieces argument.type .publicParameter) :=
          fun argument hmem => htype _ _ (List.mem_cons_of_mem _ (List.mem_map_of_mem hmem))
        constructor
        · simpa [slotParameterPieces, or_imp, forall_and] using harguments
        · rw [slotResultPieces]
          split
          · exact within_nil
          · exact htype _ result List.mem_cons_self
  simpa [slotPieces] using hparts

/-- The class names in a method are those of pointer types of the member. -/
theorem within_methodPieces {allowed : String → Prop} {m : BoundMember}
    (h : ∀ name, .pointer name ∈ m.types → allowed name) : Within allowed m.methodPieces := by
  have htype (surface : Surface) : ∀ type ∈ m.types, Within allowed (typePieces type surface) :=
    fun type hmem => within_typePieces fun name hname => h name (hname ▸ hmem)
  have hresult : ∀ type ∈ m.types, Within allowed (resultPieces type "value" callContext) :=
    fun type hmem => within_resultPieces fun name hname => h name (hname ▸ hmem)
  have hparts : (∀ item ∈ m.methodParameterPieces, Within allowed item) ∧
      Within allowed m.methodResultPieces ∧ ∀ line ∈ m.endingPieces, Within allowed line := by
    cases m with
    | getter name type =>
        refine ⟨?_, htype .methodReturn type List.mem_cons_self, ?_⟩
        · simp [methodParameterPieces]
        · simpa [endingPieces, types] using hresult
    | setter name type =>
        refine ⟨?_, ?_, ?_⟩
        · simpa [methodParameterPieces, types] using htype _
        · simp [methodResultPieces]
        · simp [endingPieces]
    | call name arguments result =>
        have harguments : ∀ argument ∈ arguments,
            Within allowed (typePieces argument.type .methodParameter) :=
          fun argument hmem => htype _ _ (List.mem_cons_of_mem _ (List.mem_map_of_mem hmem))
        refine ⟨?_, htype .methodReturn result List.mem_cons_self, ?_⟩
        · simpa [methodParameterPieces, or_imp, forall_and] using harguments
        · rw [endingPieces]
          split
          · simp
          · simpa using hresult result List.mem_cons_self
  simpa [methodPieces] using hparts

end BoundMember

namespace BoundParent

def tablePieces : BoundParent → List Piece
  | .held field parent =>
    [.plain ("    pub " ++ field ++ ": *const "), .className parent, .plain "RustMethods,\n"]
  | parent => [.plain parent.tableField]

def wrapperPieces : BoundParent → List Piece
  | .held field parent =>
    [.plain ("    pub " ++ field ++ ": "), .className parent, .plain ",\n"]
  | parent => [.plain parent.wrapperField]

def initializePieces : BoundParent → List Piece
  | .held field parent =>
    [.plain ("        let methods = boundary.methods()?;\n        let " ++ field ++
        " = unsafe \x7b "),
      .className parent,
      .plain ("::initialize(boundary.with_methods(methods." ++ field ++ ")) \x7d?;\n" ++
        "        Ok(Self \x7b " ++ field ++ ", boundary \x7d)\n")]
  | parent => [.plain parent.initializeBody]

def inheritancePieces (objectName : String) : BoundParent → List Piece
  | .root =>
    [.plain "impl Drop for ", .className objectName,
      .plain (" \x7b\n" ++
        "    fn drop(&mut self) \x7b\n" ++
        "        if let Ok(methods) = self.boundary.methods() \x7b\n" ++
        "            (methods.release)(self.boundary.ptr());\n" ++
        "        \x7d\n    \x7d\n\x7d\n")]
  | .held field parent =>
    [.plain "impl std::ops::Deref for ", .className objectName,
      .plain " \x7b\n    type Target = ", .className parent,
      .plain ";\n\n    fn deref(&self) -> &", .className parent,
      .plain (" \x7b\n        &self." ++ field ++ "\n    \x7d\n\x7d\n")]
  | .unbound _ => []

theorem written_tablePieces (parent : BoundParent) :
    written parent.tablePieces = parent.tableField := by
  cases parent with
  | held field name =>
      have hliteral : "RustMethods,\n" = "RustMethods" ++ ",\n" := rfl
      rw [tablePieces, tableField, hliteral]
      simp [methodTable, String.append_assoc]
  | root | unbound field => exact written_plain _

theorem written_wrapperPieces (parent : BoundParent) :
    written parent.wrapperPieces = parent.wrapperField := by
  cases parent with
  | held field name => simp [wrapperPieces, wrapperField, String.append_assoc]
  | root | unbound field => exact written_plain _

theorem written_initializePieces (parent : BoundParent) :
    written parent.initializePieces = parent.initializeBody := by
  cases parent with
  | held field name =>
      have hliteral : "        let methods = boundary.methods()?;\n        let " =
          "        let methods = boundary.methods()?;\n" ++ "        let " := rfl
      change written [_, _, _] = _ ++ _
      rw [hliteral]
      simp only [written_plain_cons, written_className_cons, written_nil, String.append_empty,
        String.append_assoc]
  | root | unbound field => exact written_plain _

theorem written_inheritancePieces (objectName : String) (parent : BoundParent) :
    written (parent.inheritancePieces objectName) = parent.inheritance objectName := by
  cases parent with
  | root =>
      change written [_, _, _] = _ ++ _
      simp only [written_plain_cons, written_className_cons, written_nil, String.append_empty,
        String.append_assoc]
  | held field name =>
      have htarget : " \x7b\n    type Target = " = " \x7b\n" ++ "    type Target = " := rfl
      have hderef : ";\n\n    fn deref(&self) -> &" = ";\n\n" ++ "    fn deref(&self) -> &" := rfl
      have hbody : " \x7b\n        &self." = " \x7b\n" ++ "        &self." := rfl
      change written [_, _, _, _, _, _, _] = _ ++ _
      rw [htarget, hderef, hbody]
      simp only [written_plain_cons, written_className_cons, written_nil, String.append_empty,
        String.append_assoc]
  | unbound field => rfl

/-- The class names in what is written about a parent are its own and that of the
class itself. -/
theorem within_pieces {allowed : String → Prop} {objectName : String} {parent : BoundParent}
    (hself : allowed objectName)
    (hparent : ∀ field name, parent = .held field name → allowed name) :
    Within allowed parent.tablePieces ∧ Within allowed parent.wrapperPieces ∧
      Within allowed parent.initializePieces ∧
      Within allowed (parent.inheritancePieces objectName) := by
  cases parent with
  | root =>
      exact ⟨within_nil, within_nil, within_nil, within_className_cons.mpr ⟨hself, within_nil⟩⟩
  | held field name =>
      have hname : Within allowed [.className name] :=
        within_className_cons.mpr ⟨hparent field name rfl, within_nil⟩
      refine ⟨hname, hname, hname, within_className_cons.mpr ⟨hself, ?_⟩⟩
      exact within_className_cons.mpr ⟨hparent field name rfl, hname⟩
  | unbound field => exact ⟨within_nil, within_nil, within_nil, within_nil⟩

end BoundParent

namespace BoundField

def valuePieces (field : BoundField) : List Piece :=
  .plain ("    pub " ++ field.name ++ ": ") :: typePieces field.type .methodReturn ++ [.plain ",\n"]

def nativePieces (field : BoundField) : List Piece :=
  .plain ("    pub " ++ field.name ++ ": ") :: typePieces field.type .publicReturn ++ [.plain ",\n"]

theorem written_valuePieces (field : BoundField) :
    written field.valuePieces = field.valueField := by
  simp [valuePieces, valueField, written_typePieces, String.append_assoc]

theorem written_nativePieces (field : BoundField) :
    written field.nativePieces = field.nativeField := by
  simp [nativePieces, nativeField, written_typePieces, String.append_assoc]

end BoundField

/-- A fragment with the class names it refers to. -/
structure MarkedFragment where
  kind : TemplateKind
  values : List (String × List Piece)

namespace MarkedFragment

def fragment (marked : MarkedFragment) : Fragment :=
  ⟨marked.kind, marked.values.map fun value => (value.1, written value.2)⟩

def references (marked : MarkedFragment) : List String :=
  marked.values.flatMap fun value => classNames value.2

theorem of_mem_references {marked : MarkedFragment} {allowed : String → Prop}
    (h : ∀ value ∈ marked.values, Within allowed value.2) :
    ∀ name ∈ marked.references, allowed name := by
  intro name hname
  obtain ⟨value, hvalue, hin⟩ := List.mem_flatMap.mp hname
  exact h value hvalue name hin

end MarkedFragment

namespace InterfaceBinding

/-- The values of an interface. Under `object_name` it gets its name, which is no
reference. -/
def marked (binding : InterfaceBinding) : MarkedFragment where
  kind := .interface
  values :=
    [("object_name", [.plain binding.objectName]), ("class_name", [.plain binding.className]),
      ("parent_table_field", binding.parent.tablePieces),
      ("table_fields", binding.members.flatMap BoundMember.slotPieces),
      ("parent_field", binding.parent.wrapperPieces),
      ("initialize_body", binding.parent.initializePieces),
      ("members", binding.members.flatMap BoundMember.methodPieces),
      ("inheritance", binding.parent.inheritancePieces binding.objectName)]

theorem fragment_marked (binding : InterfaceBinding) :
    binding.marked.fragment = binding.fragment := by
  simp only [marked, MarkedFragment.fragment, fragment, tableFields, methods, List.map_cons,
    List.map_nil, written_plain, written_flatMap, BoundMember.written_slotPieces,
    BoundMember.written_methodPieces, BoundParent.written_tablePieces,
    BoundParent.written_wrapperPieces, BoundParent.written_initializePieces,
    BoundParent.written_inheritancePieces]

/-- An interface refers to itself, to the parent it holds and to the classes in the
types of its members. -/
theorem of_mem_references {binding : InterfaceBinding} {allowed : String → Prop}
    (hself : allowed binding.objectName)
    (hparent : ∀ field parent, binding.parent = .held field parent → allowed parent)
    (hmembers : ∀ m ∈ binding.members, ∀ name, .pointer name ∈ m.types → allowed name) :
    ∀ name ∈ binding.marked.references, allowed name := by
  have hslots : Within allowed (binding.members.flatMap BoundMember.slotPieces) :=
    within_flatMap.mpr fun m hmem => BoundMember.within_slotPieces (hmembers m hmem)
  have hmethods : Within allowed (binding.members.flatMap BoundMember.methodPieces) :=
    within_flatMap.mpr fun m hmem => BoundMember.within_methodPieces (hmembers m hmem)
  obtain ⟨htable, hwrapper, hinitialize, hinheritance⟩ := BoundParent.within_pieces hself hparent
  apply MarkedFragment.of_mem_references
  simp [marked, hslots, hmethods, htable, hwrapper, hinitialize, hinheritance]

end InterfaceBinding

namespace DictionaryBinding

def marked (binding : DictionaryBinding) : MarkedFragment where
  kind := .dictionary
  values :=
    [("object_name", [.plain binding.objectName]), ("class_name", [.plain binding.className]),
      ("fields", binding.fields.flatMap BoundField.valuePieces),
      ("raw_fields", binding.fields.flatMap BoundField.nativePieces),
      ("to_native_body", [.plain (String.join (binding.fields.map BoundField.storeStatements))]),
      ("raw_init", [.plain (String.join (binding.fields.map BoundField.storeEntry))]),
      ("from_raw_fields", [.plain (String.join (binding.fields.map BoundField.loadEntry))])]

theorem fragment_marked (binding : DictionaryBinding) :
    binding.marked.fragment = binding.fragment := by
  simp only [marked, MarkedFragment.fragment, fragment, List.map_cons, List.map_nil,
    written_plain, written_flatMap, BoundField.written_valuePieces,
    BoundField.written_nativePieces]

theorem of_mem_references {binding : DictionaryBinding} {allowed : String → Prop}
    (hfields : ∀ field ∈ binding.fields, ∀ name, field.type = .pointer name → allowed name) :
    ∀ name ∈ binding.marked.references, allowed name := by
  have htypes : ∀ field ∈ binding.fields, ∀ surface,
      Within allowed (typePieces field.type surface) :=
    fun field hmem surface => within_typePieces (hfields field hmem)
  apply MarkedFragment.of_mem_references
  simpa [marked, BoundField.valuePieces, BoundField.nativePieces] using
    ⟨fun field hmem => htypes field hmem _, fun field hmem => htypes field hmem _⟩

end DictionaryBinding

end IdlBindings.Binding
