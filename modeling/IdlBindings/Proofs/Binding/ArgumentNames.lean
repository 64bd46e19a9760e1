import IdlBindings.Proofs.Binding.Identifiers

/-!
The arguments of a wrapper method. Every declared argument has a name of its own: the name
it asks for is kept off the object and the locals of the method, numbers keep arguments
apart that ask for the same name, and a numbered name is no local either, since it ends in
a digit. The method refers to an argument by that name wherever it passes the argument on.
-/

namespace IdlBindings.Binding

open Naming

variable {registry : Registry}

/-- The object, the locals of a wrapper method and its last parameter. -/
def methodLocals : List String :=
  ["self", "methods", "value", "exception_state"]

def endsWithDigit (name : String) : Bool :=
  name.toList.getLast?.any Char.isDigit

theorem endsWithDigit_numbered (name : String) (n : Nat) :
    endsWithDigit (Pool.numbered name n) = true := by
  have hdigits : (toString n).toList = Nat.toDigits 10 n := Nat.toList_repr
  have hsome : Nat.toDigits 10 n ≠ [] := Nat.toDigits_ne_nil
  have hlast : (Nat.toDigits 10 n).getLast? = some ((Nat.toDigits 10 n).getLast hsome) :=
    List.getLast?_eq_some_getLast hsome
  rw [endsWithDigit, Pool.numbered, String.toList_append, hdigits,
    List.getLast?_append_of_ne_nil _ hsome, hlast]
  exact Nat.isDigit_of_mem_toDigits (by decide) (by decide) (List.getLast_mem hsome)

theorem numbered_not_mem_methodLocals (name : String) (n : Nat) :
    Pool.numbered name n ∉ methodLocals := by
  have hall : ∀ word ∈ methodLocals, endsWithDigit word = false := by decide
  intro hmem
  have hdigit := hall _ hmem
  rw [endsWithDigit_numbered] at hdigit
  cases hdigit

theorem argumentName_not_mem_methodLocals (name : String) :
    argumentName name ∉ methodLocals := by
  rw [argumentName]
  split
  · rename_i hlocal
    have hall : ∀ word ∈ reservedLocals, word ++ "_" ∉ methodLocals := by decide
    exact hall _ hlocal
  · rename_i hlocal
    have hobject : identifier name ≠ "self" := by
      intro hself
      exact (guarded_identifier name).not_reserved (hself ▸ by decide)
    exact List.not_mem_cons_of_ne_of_not_mem hobject hlocal

/-- The arguments of a method: one for each declared argument, in order, with the type that
is emitted for it and a form of the name that it asks for. No two of them have the same
name, and none has that of a local. -/
structure NamedApart (registry : Registry) (declared : List Argument)
    (arguments : List BoundArgument) : Prop where
  types : List.Forall₂ (BindsArgument registry) declared arguments
  names : List.Forall₂ Pool.IsFormOf (declared.map fun argument => argumentName argument.name)
    (arguments.map BoundArgument.name)
  nodup : (arguments.map BoundArgument.name).Nodup
  not_local : ∀ argument ∈ arguments, argument.name ∉ methodLocals

theorem namedApart_of_bindArguments {declared : List Argument} {arguments : List BoundArgument}
    (h : bindArguments registry (.ofReserved []) declared = .ok arguments) :
    NamedApart registry declared arguments := by
  have hnames := names_of_bindArguments h
  have hasked : ∀ name ∈ askedByArguments declared, name ∉ methodLocals := by
    intro name hmem
    obtain ⟨argument, _, rfl⟩ := List.mem_map.mp hmem
    exact argumentName_not_mem_methodLocals argument.name
  have hgiven := Pool.forall_mem_handOut (p := (· ∉ methodLocals))
    (fun name _ n => numbered_not_mem_methodLocals name n) (.ofReserved []) hasked
  refine ⟨bindArguments_eq_ok h, ?_, ?_, fun argument hmem => ?_⟩
  · rw [hnames]
    exact Pool.forall₂_isFormOf_handOut _ _
  · rw [hnames]
    exact (Pool.handOut_fresh _ _).1
  · apply hgiven
    rw [← hnames]
    exact List.mem_map_of_mem hmem

/-- How an argument is passed on. A text is put into a buffer first, under the same name;
what the call is given is the name, or made from it alone. -/
structure PassedByName (argument : BoundArgument) : Prop where
  statements : (passArgument argument.name argument.type).statements = [] ∨
    (passArgument argument.name argument.type).statements =
      ["let " ++ argument.name ++ " = to_native_string(" ++ argument.name ++ ")?;"]
  expression : (passArgument argument.name argument.type).expression ∈
    [argument.name, argument.name ++ ".as_ptr()", "Boolean::from(" ++ argument.name ++ ")",
      argument.name ++ ".boundary().as_rust_value()"]

theorem passedByName (argument : BoundArgument) : PassedByName argument := by
  obtain ⟨name, type⟩ := argument
  cases type with
  | domString => exact ⟨Or.inr rfl, by simp [passArgument]⟩
  | legacyDomString => exact ⟨Or.inr rfl, by simp [passArgument]⟩
  | _ => exact ⟨Or.inl rfl, by simp [passArgument]⟩

/-- The arguments of wrapper methods never clash. Every operation whose types can be emitted
has a method, and every method that calls an operation has one argument for each that the
operation declares, in order and under a form of its name; their names are different, and
none is that of the object or of a local of the method. The parameters are declared under
these names, and whatever stands before the call or in it for an argument is made from the
name of that argument. -/
theorem arguments_named_apart (registry : Registry) (c : ClassDecl) (objectName : String) :
    let members := (bindInterface registry c objectName).1.members
    (∀ o ∈ c.operations, isEmittable registry (.operation o) = true →
      ∃ name arguments result, .call name arguments result ∈ members ∧
        emittedType registry .result o.result = .ok result ∧
        NamedApart registry o.arguments arguments) ∧
    ∀ name arguments result, .call name arguments result ∈ members →
      let method := BoundMember.call name arguments result
      (∃ o ∈ c.operations, emittedType registry .result o.result = .ok result ∧
        NamedApart registry o.arguments arguments) ∧
      method.methodText = "    pub fn " ++ name ++ "(" ++
        String.intercalate ", " ("&self" :: (arguments.map fun argument =>
          argument.name ++ ": " ++ typeText argument.type .methodParameter) ++
          ["exception_state: &ExceptionState"]) ++
        ") -> Result<" ++ method.methodResult ++ ", BoundaryError>" ++ " \x7b\n" ++
        (String.join ([BoundMember.enterMethods] ++
          ((arguments.map fun argument => passArgument argument.name argument.type).flatMap
            Conversion.statements).map BoundMember.bodyLine ++
          [BoundMember.bodyLine (method.assignment ++ "(methods." ++ name ++ ")(" ++
            String.intercalate ", " ("self.boundary.ptr()" :: (arguments.map fun argument =>
              (passArgument argument.name argument.type).expression) ++
              ["exception_state.ptr()"]) ++ ")" ++ ";")] ++
          method.ending.map BoundMember.bodyLine)) ++ "    \x7d\n\n" ∧
      ∀ argument ∈ arguments, PassedByName argument := by
  intro members
  constructor
  · intro o ho hemitted
    obtain ⟨name, arguments, result, hmem, hresult, harguments⟩ :=
      call_of_operation c.name _ ho hemitted
    exact ⟨name, arguments, result, hmem, hresult, namedApart_of_bindArguments harguments⟩
  · intro name arguments result hmem method
    obtain ⟨o, ho, hresult, harguments⟩ := operation_of_call hmem
    exact ⟨⟨o, ho, hresult, namedApart_of_bindArguments harguments⟩, method.methodText_eq,
      fun argument _ => passedByName argument⟩

end IdlBindings.Binding
