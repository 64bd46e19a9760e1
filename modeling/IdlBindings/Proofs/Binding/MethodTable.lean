import IdlBindings.Proofs.Binding.Names

/-!
The method table and the wrapper agree. Both are written from one list of bound
members, so a slot and the method in the same place have the same name, the method
calls through that slot, and it passes as many values as the slot takes, in the
same order. The names come from one pool, which has handed out none of them before.
-/

namespace IdlBindings.Binding

open Naming

namespace BoundMember

/-- The types of the parameters of a slot: the object first and, unless it is a
getter, the exception state last. -/
def slotParameters : BoundMember → List String
  | .getter _ _ => ["*const OpaquePtr"]
  | .setter _ type => ["*const OpaquePtr", typeText type .publicParameter, "*const OpaquePtr"]
  | .call _ arguments _ =>
    "*const OpaquePtr" :: (arguments.map fun argument => typeText argument.type .publicParameter) ++
      ["*const OpaquePtr"]

def slotResult : BoundMember → String
  | .getter _ type => " -> " ++ typeText type .publicReturn
  | .setter _ _ => ""
  | .call _ _ result => if result.isVoid then "" else " -> " ++ typeText result .publicReturn

def methodParameters : BoundMember → List String
  | .getter _ _ => ["&self"]
  | .setter _ type =>
    ["&self", "value: " ++ typeText type .methodParameter, "exception_state: &ExceptionState"]
  | .call _ arguments _ =>
    "&self" :: (arguments.map fun argument =>
      argument.name ++ ": " ++ typeText argument.type .methodParameter) ++
      ["exception_state: &ExceptionState"]

def methodResult : BoundMember → String
  | .getter _ type => typeText type .methodReturn
  | .setter _ _ => "()"
  | .call _ _ result => typeText result .methodReturn

/-- How the values that a method takes reach the slot. -/
def conversions : BoundMember → List Conversion
  | .getter _ _ => []
  | .setter _ type => [passArgument "value" type]
  | .call _ arguments _ => arguments.map fun argument => passArgument argument.name argument.type

/-- The expressions that a method passes to its slot. -/
def passedValues : BoundMember → List String
  | .getter _ _ => ["self.boundary.ptr()"]
  | .setter _ type =>
    ["self.boundary.ptr()", (passArgument "value" type).expression, "exception_state.ptr()"]
  | .call _ arguments _ =>
    "self.boundary.ptr()" :: (arguments.map fun argument =>
      (passArgument argument.name argument.type).expression) ++ ["exception_state.ptr()"]

/-- What the call is assigned to, if its result is used. -/
def assignment : BoundMember → String
  | .getter _ _ => "let value = "
  | .setter _ _ => ""
  | .call _ _ result => if result.isVoid then "" else "let value = "

/-- What follows the call. -/
def ending : BoundMember → List String
  | .getter _ type => [takeResult type "value" callContext]
  | .setter _ _ => ["exception_state.check(" ++ callContext ++ ")"]
  | .call _ _ result =>
    if result.isVoid then ["exception_state.check(" ++ callContext ++ ")"]
    else
      ["exception_state.check(" ++ callContext ++ ")?;", takeResult result "value" callContext]

/-- The one form that all slots have. -/
theorem slotText_eq (m : BoundMember) :
    m.slotText = "    pub " ++ m.name ++ ": extern \"C\" fn(" ++
      String.intercalate ", " m.slotParameters ++ ")" ++ m.slotResult ++ ",\n" := by
  cases m with
  | getter name type =>
      have hliteral : ": extern \"C\" fn(*const OpaquePtr) -> " =
          ": extern \"C\" fn(" ++ ("*const OpaquePtr" ++ (")" ++ " -> ")) := rfl
      change _ ++ _ = _
      rw [hliteral]
      simp only [BoundMember.name, slotParameters, slotResult, String.intercalate_singleton,
        String.append_assoc]
  | setter name type =>
      have hopen : ": extern \"C\" fn(*const OpaquePtr, " =
          ": extern \"C\" fn(" ++ ("*const OpaquePtr" ++ ", ") := rfl
      have hclose : ", *const OpaquePtr),\n" =
          ", " ++ ("*const OpaquePtr" ++ (")" ++ ("" ++ ",\n"))) := rfl
      change _ ++ _ = _
      rw [hopen, hclose]
      simp only [BoundMember.name, slotParameters, slotResult, String.intercalate_cons_cons,
        String.intercalate_singleton, String.append_assoc]
  | call name arguments result =>
      change _ ++ _ = _
      simp only [BoundMember.name, slotParameters, slotResult, List.singleton_append,
        String.append_assoc]

/-- The one form that all methods have: they enter the table, convert what they
were given, call the slot of their own name once, and end. -/
theorem methodText_eq (m : BoundMember) :
    m.methodText = "    pub fn " ++ m.name ++ "(" ++ String.intercalate ", " m.methodParameters ++
      ") -> Result<" ++ m.methodResult ++ ", BoundaryError>" ++ " \x7b\n" ++
      (String.join ([enterMethods] ++ (m.conversions.flatMap Conversion.statements).map bodyLine ++
        [bodyLine (m.assignment ++ "(methods." ++ m.name ++ ")(" ++
          String.intercalate ", " m.passedValues ++ ")" ++ ";")] ++ m.ending.map bodyLine)) ++
      "    \x7d\n\n" := by
  cases m with
  | getter name type =>
      have hhead : "(&self) -> Result<" = "(" ++ ("&self" ++ ") -> Result<") := rfl
      have hopen : "let value = (methods." = "let value = " ++ "(methods." := rfl
      have hcall : ")(self.boundary.ptr());" =
          ")(" ++ ("self.boundary.ptr()" ++ (")" ++ ";")) := rfl
      change methodOf _ _ = _
      rw [hhead, hopen, hcall]
      simp only [methodOf, BoundMember.name, methodParameters, methodResult, conversions,
        passedValues, assignment, ending, String.intercalate_singleton, List.flatMap_nil,
        List.map_nil, List.map_cons, List.append_nil, List.cons_append, List.nil_append]
      simp only [String.append_assoc]
  | setter name type =>
      have hhead : "(&self, value: " = "(" ++ ("&self" ++ (", " ++ "value: ")) := rfl
      have htail : ", exception_state: &ExceptionState) -> Result<(), BoundaryError>" =
          ", " ++ ("exception_state: &ExceptionState" ++
            (") -> Result<" ++ ("()" ++ ", BoundaryError>"))) := rfl
      change methodOf _ _ = _
      rw [hhead, htail]
      simp only [methodOf, callText, BoundMember.name, methodParameters, methodResult,
        conversions, passedValues, assignment, ending, String.intercalate_cons_cons,
        String.intercalate_singleton, List.flatMap_cons, List.flatMap_nil, List.map_nil,
        List.map_cons, List.append_nil, List.cons_append, List.nil_append, List.append_assoc]
      simp only [String.empty_append, String.append_assoc]
  | call name arguments result =>
      change methodOf _ _ = _
      cases hvoid : result.isVoid with
      | true =>
          simp only [methodOf, callText, BoundMember.name, methodParameters,
            methodResult, conversions, passedValues, assignment, ending, hvoid, if_true,
            List.map_map, List.map_cons, List.map_nil, List.cons_append, List.nil_append,
            List.append_assoc, String.empty_append, String.append_assoc]
          rfl
      | false =>
          simp only [methodOf, callText, BoundMember.name, methodParameters,
            methodResult, conversions, passedValues, assignment, ending, hvoid,
            Bool.false_eq_true, if_false, List.map_map, List.map_cons, List.map_nil,
            List.cons_append, List.nil_append, List.append_assoc, String.append_assoc]
          rfl

/-- A method passes one value for each parameter of its slot. -/
theorem length_slotParameters (m : BoundMember) :
    m.slotParameters.length = m.passedValues.length := by
  cases m with
  | getter name type => rfl
  | setter name type => rfl
  | call name arguments result => simp [slotParameters, passedValues]

end BoundMember

namespace BoundParent

/-- The name of the slot that stands for the parent or, without one, for the
release of the object. -/
def slotName : BoundParent → String
  | .root => "release"
  | .held field _ => field
  | .unbound field => field

def slotType : BoundParent → String
  | .root => "extern \"C\" fn(*const OpaquePtr)"
  | .held _ parent => "*const " ++ methodTable parent
  | .unbound _ => "*const c_void"

theorem tableField_eq (parent : BoundParent) :
    parent.tableField = "    pub " ++ parent.slotName ++ ": " ++ parent.slotType ++ ",\n" := by
  cases parent with
  | root => rfl
  | held field name =>
      have hliteral : ": *const " = ": " ++ "*const " := rfl
      rw [tableField, hliteral]
      simp only [slotName, slotType, String.append_assoc]
  | unbound field =>
      have hliteral : ": *const c_void,\n" = ": " ++ ("*const c_void" ++ ",\n") := rfl
      rw [tableField, hliteral]
      simp only [slotName, slotType, String.append_assoc]

end BoundParent

/-- The names of all bound members are different, and new to the pool. -/
theorem names_of_bindMembers (registry : Registry) (className : String) (pool : Pool)
    (requests : List MemberRequest) :
    ((bindMembers registry className pool requests).1.map BoundMember.name).Nodup ∧
      ∀ m ∈ (bindMembers registry className pool requests).1, m.name ∉ pool.taken := by
  have hnames := (names_of_bindMembers_eq registry className pool requests).1
  obtain ⟨hnodup, hfresh⟩ := pool.handOut_fresh
    ((emittedRequests registry requests).flatMap MemberRequest.asked)
  rw [← hnames] at hnodup hfresh
  exact ⟨hnodup, fun m hmem => hfresh m.name (List.mem_map_of_mem hmem)⟩

/-- The slot of the parent has its name before any member is named. -/
theorem taken_of_bindParent (registry : Registry) (pool : Pool) (c : ClassDecl)
    (hrelease : "release" ∈ pool.taken) :
    (bindParent registry pool c).1.slotName ∈ (bindParent registry pool c).2.2.taken ∧
      pool.taken ⊆ (bindParent registry pool c).2.2.taken := by
  unfold bindParent
  cases hparent : registry.parent c with
  | root => exact ⟨hrelease, List.Subset.refl _⟩
  | missing name => exact ⟨List.mem_cons_self, List.subset_cons_self _ _⟩
  | registered parent =>
      cases hkind : parent.kind with
      | interface =>
          simp only [hkind]
          exact ⟨List.mem_cons_self, List.subset_cons_self _ _⟩
      | dictionary =>
          simp only [hkind]
          exact ⟨List.mem_cons_self, List.subset_cons_self _ _⟩

theorem operation_of_call_mem {registry : Registry} {className : String} {pool : Pool}
    {c : ClassDecl} {name : String} {arguments : List BoundArgument} {result : ValueType}
    (h : .call name arguments result ∈
      (bindMembers registry className pool (memberRequests c)).1) :
    ∃ o ∈ c.operations, emittedType registry .result o.result = .ok result ∧
      List.Forall₂ (BindsArgument registry) o.arguments arguments := by
  obtain ⟨o, ho, hresult, harguments⟩ := operation_of_call h
  exact ⟨o, ho, hresult, bindArguments_eq_ok harguments⟩

/-- An operation whose types can all be emitted is called. -/
theorem exists_call_mem {registry : Registry} {className : String} {pool : Pool}
    {c : ClassDecl} {o : Operation} {result : ValueType} (ho : o ∈ c.operations)
    (hresult : emittedType registry .result o.result = .ok result)
    (htypes : ∀ declared ∈ o.arguments, ∃ type,
      emittedType registry .value declared.type = .ok type) :
    ∃ name arguments, .call name arguments result ∈
        (bindMembers registry className pool (memberRequests c)).1 ∧
      List.Forall₂ (BindsArgument registry) o.arguments arguments := by
  have hemitted : isEmittable registry (.operation o) = true := by
    rw [isEmittable, isOk_of_eq_ok hresult, Bool.true_and, List.all_eq_true]
    intro declared hdeclared
    obtain ⟨type, htype⟩ := htypes declared hdeclared
    exact isOk_of_eq_ok htype
  obtain ⟨name, arguments, found, hmem, hfound, harguments⟩ :=
    call_of_operation className pool ho hemitted
  cases hfound.symm.trans hresult
  exact ⟨name, arguments, hmem, bindArguments_eq_ok harguments⟩

/-- The table and the wrapper of an interface are written from the same members in
the same order. In the place of each member stand a slot and a method of one name;
the method calls that slot, once, with one value for each of its parameters. The
call of an operation passes its arguments in the order in which they are declared,
between the object and the exception state. No two slots have the same name, the
slot for the parent and the reserved names included. -/
theorem table_and_wrapper_agree (registry : Registry) (c : ClassDecl) (objectName : String) :
    let binding := (bindInterface registry c objectName).1
    (binding.fragment.slot? "table_fields" =
        some (String.join (binding.members.map BoundMember.slotText)) ∧
      binding.fragment.slot? "members" =
        some (String.join (binding.members.map BoundMember.methodText))) ∧
    (∀ m ∈ binding.members,
      m.slotText = "    pub " ++ m.name ++ ": extern \"C\" fn(" ++
        String.intercalate ", " m.slotParameters ++ ")" ++ m.slotResult ++ ",\n" ∧
      m.methodText = "    pub fn " ++ m.name ++ "(" ++
        String.intercalate ", " m.methodParameters ++ ") -> Result<" ++ m.methodResult ++
        ", BoundaryError>" ++ " \x7b\n" ++
        (String.join ([BoundMember.enterMethods] ++
          (m.conversions.flatMap Conversion.statements).map BoundMember.bodyLine ++
          [BoundMember.bodyLine (m.assignment ++ "(methods." ++ m.name ++ ")(" ++
            String.intercalate ", " m.passedValues ++ ")" ++ ";")] ++
          m.ending.map BoundMember.bodyLine)) ++ "    \x7d\n\n" ∧
      m.slotParameters.length = m.passedValues.length) ∧
    (∀ name arguments result, BoundMember.call name arguments result ∈ binding.members →
      ∃ o ∈ c.operations, emittedType registry .result o.result = .ok result ∧
        List.Forall₂ (BindsArgument registry) o.arguments arguments ∧
        (BoundMember.call name arguments result).slotParameters.length = o.arguments.length + 2 ∧
        (BoundMember.call name arguments result).slotParameters =
          "*const OpaquePtr" ::
            (arguments.map fun argument => typeText argument.type .publicParameter) ++
            ["*const OpaquePtr"] ∧
        (BoundMember.call name arguments result).passedValues =
          "self.boundary.ptr()" ::
            (arguments.map fun argument => (passArgument argument.name argument.type).expression) ++
            ["exception_state.ptr()"]) ∧
    (∀ o ∈ c.operations, ∀ result, emittedType registry .result o.result = .ok result →
      (∀ declared ∈ o.arguments, ∃ type, emittedType registry .value declared.type = .ok type) →
      ∃ name arguments, .call name arguments result ∈ binding.members ∧
        List.Forall₂ (BindsArgument registry) o.arguments arguments) ∧
    (binding.members.map BoundMember.name).Nodup ∧
    (∀ m ∈ binding.members, m.name ∉ reservedMembers ∧ m.name ≠ binding.parent.slotName) ∧
    binding.fragment.slot? "parent_table_field" =
      some ("    pub " ++ binding.parent.slotName ++ ": " ++ binding.parent.slotType ++ ",\n") := by
  intro binding
  obtain ⟨hparent, hreserved⟩ :=
    taken_of_bindParent registry (.ofReserved reservedMembers) c (by decide)
  obtain ⟨hnodup, hfresh⟩ := names_of_bindMembers registry c.name
    (bindParent registry (.ofReserved reservedMembers) c).2.2 (memberRequests c)
  refine ⟨⟨rfl, rfl⟩, ?_, ?_, ?_, hnodup, ?_, ?_⟩
  · intro m _
    exact ⟨m.slotText_eq, m.methodText_eq, m.length_slotParameters⟩
  · intro name arguments result hmem
    obtain ⟨o, ho, hresult, harguments⟩ := operation_of_call_mem hmem
    refine ⟨o, ho, hresult, harguments, ?_, rfl, rfl⟩
    simp [BoundMember.slotParameters, harguments.length_eq]
  · intro o ho result hresult htypes
    exact exists_call_mem ho hresult htypes
  · intro m hmem
    refine ⟨fun htaken => hfresh m hmem (hreserved htaken), fun hsame => hfresh m hmem ?_⟩
    rw [hsame]
    exact hparent
  · exact congrArg some binding.parent.tableField_eq

end IdlBindings.Binding
