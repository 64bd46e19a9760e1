import IdlBindings.Proofs.Binding.MethodTable
import IdlBindings.Proofs.Naming.Identifier

/-!
Which bindings have identifiers that the generated language accepts. What a pool hands
out is a name that was asked for or a numbered form of it, and every name that was asked
for is taken in the end. The identifiers are therefore accepted exactly when the names
are that were asked for. These are never reserved words; they are not accepted where a
declared name is another keyword, and where an overload that is told apart by its
arguments starts with a digit.
-/

namespace IdlBindings.Binding

open Naming

variable {registry : Registry}

namespace BoundMember

theorem methodParameters_eq (m : BoundMember) :
    m.methodParameters =
      "&self" :: m.parameters.map fun parameter => parameter.1 ++ ": " ++ parameter.2 := by
  cases m with
  | getter name type => rfl
  | setter name type => rfl
  | call name arguments result =>
      simp only [methodParameters, parameters, List.map_append, List.map_map, List.cons_append]
      rfl

end BoundMember

/-- The name that the slot of the parent is called after, if there is a parent. -/
def parentName? (registry : Registry) (c : ClassDecl) : Option String :=
  match registry.parent c with
  | .root => none
  | .missing name => some name
  | .registered parent =>
    match parent.kind with
    | .interface => some parent.emittedName
    | .dictionary => some parent.decl.name

theorem names_of_bindParent (registry : Registry) (pool : Pool) (c : ClassDecl) :
    (bindParent registry pool c).1.slotName =
        ((parentName? registry c).map fun name => pool.choose (identifier name)).getD "release" ∧
      (bindParent registry pool c).2.2 =
        pool.after ((parentName? registry c).toList.map identifier) := by
  unfold bindParent parentName?
  cases registry.parent c with
  | root => exact ⟨rfl, rfl⟩
  | missing name => exact ⟨rfl, rfl⟩
  | registered parent =>
      cases hkind : parent.kind with
      | interface =>
          simp only [hkind]
          exact ⟨rfl, rfl⟩
      | dictionary =>
          simp only [hkind]
          exact ⟨rfl, rfl⟩

/-- The names that the slots of an interface ask for, that of the parent first. -/
def askedSlots (registry : Registry) (c : ClassDecl) : List String :=
  (parentName? registry c).toList.map identifier ++
    (emittedRequests registry (memberRequests c)).flatMap MemberRequest.asked

/-- The names that are asked for in the binding of an interface. -/
def askedIdentifiers (registry : Registry) (c : ClassDecl) : List String :=
  askedSlots registry c ++
    (emittedRequests registry (memberRequests c)).flatMap MemberRequest.askedArguments

/-- The names of the slots, which are those of the methods and of the field for the
parent, and the names of the parameters of the methods. -/
def InterfaceBinding.identifiers (binding : InterfaceBinding) : List String :=
  (binding.parent.slotName :: binding.members.map BoundMember.name) ++
    binding.members.flatMap BoundMember.parameterNames

def DictionaryBinding.identifiers (binding : DictionaryBinding) : List String :=
  binding.fields.map BoundField.name

/-- Without a parent there is a slot for the release; all other slots have the names
that are handed out for those they ask for. -/
theorem slotNames_eq (registry : Registry) (c : ClassDecl) (objectName : String) :
    ∃ fixed, fixed ⊆ ["release"] ∧
      (bindInterface registry c objectName).1.parent.slotName ::
          (bindInterface registry c objectName).1.members.map BoundMember.name =
        fixed ++ (Pool.ofReserved reservedMembers).handOut (askedSlots registry c) := by
  obtain ⟨hslot, hpool⟩ := names_of_bindParent registry (.ofReserved reservedMembers) c
  have hmembers := (names_of_bindMembers_eq registry c.name
    (bindParent registry (.ofReserved reservedMembers) c).2.2 (memberRequests c)).1
  have hparent : (bindInterface registry c objectName).1.parent =
      (bindParent registry (.ofReserved reservedMembers) c).1 := rfl
  rw [askedSlots, Pool.handOut_append, ← hpool, ← hmembers, hparent, hslot]
  cases parentName? registry c with
  | none => exact ⟨["release"], List.Subset.refl _, rfl⟩
  | some name => exact ⟨[], List.nil_subset _, rfl⟩

theorem parameterNames_eq (registry : Registry) (c : ClassDecl) (objectName : String) :
    (bindInterface registry c objectName).1.members.flatMap BoundMember.parameterNames =
      (emittedRequests registry (memberRequests c)).flatMap MemberRequest.parameterNames :=
  (names_of_bindMembers_eq registry c.name _ (memberRequests c)).2

namespace MemberRequest

theorem forall_mem_parameterNames {p : String → Prop} {request : MemberRequest}
    (hfixed : p "value" ∧ p "exception_state")
    (hnumbered : ∀ name, p name → ∀ n, p (Pool.numbered name n))
    (hasked : ∀ name ∈ request.askedArguments, p name) :
    ∀ name ∈ request.parameterNames, p name := by
  cases request with
  | «attribute» a =>
      rw [parameterNames]
      split
      · exact fun _ hmem => (List.not_mem_nil hmem).elim
      · exact List.forall_mem_cons.mpr ⟨hfixed.1, List.forall_mem_singleton.mpr hfixed.2⟩
  | operation name o =>
      refine List.forall_mem_append.mpr ⟨?_, List.forall_mem_singleton.mpr hfixed.2⟩
      exact Pool.forall_mem_handOut hnumbered _ hasked

theorem askedArguments_subset (request : MemberRequest) :
    request.askedArguments ⊆ request.parameterNames := by
  cases request with
  | «attribute» a => exact List.nil_subset _
  | operation name o =>
      intro argument hmem
      rcases Pool.mem_taken_or_handOut hmem with htaken | hhanded
      · exact (List.not_mem_nil htaken).elim
      · exact List.mem_append_left _ hhanded

end MemberRequest

/-- Every identifier of an interface is fixed, was asked for or is a numbered form of a
name that was. -/
theorem forall_mem_identifiers {p : String → Prop} {c : ClassDecl} (objectName : String)
    (hfixed : ∀ name ∈ ["release", "value", "exception_state"], p name)
    (hnumbered : ∀ name, p name → ∀ n, p (Pool.numbered name n))
    (hasked : ∀ name ∈ askedIdentifiers registry c, p name) :
    ∀ name ∈ (bindInterface registry c objectName).1.identifiers, p name := by
  obtain ⟨hslots, harguments⟩ := List.forall_mem_append.mp hasked
  obtain ⟨fixed, hrelease, hslotNames⟩ := slotNames_eq registry c objectName
  rw [InterfaceBinding.identifiers, hslotNames, parameterNames_eq]
  refine List.forall_mem_append.mpr ⟨List.forall_mem_append.mpr ⟨?_, ?_⟩, ?_⟩
  · intro name hmem
    exact hfixed name (List.mem_cons.mpr (Or.inl (List.mem_singleton.mp (hrelease hmem))))
  · exact Pool.forall_mem_handOut hnumbered _ hslots
  · intro name hmem
    obtain ⟨request, hrequest, hname⟩ := List.mem_flatMap.mp hmem
    have hrequested : ∀ argument ∈ request.askedArguments, p argument := fun argument hargument =>
      harguments argument (List.mem_flatMap.mpr ⟨request, hrequest, hargument⟩)
    exact MemberRequest.forall_mem_parameterNames ⟨hfixed _ (by simp), hfixed _ (by simp)⟩
      hnumbered hrequested name hname

/-- Every name that was asked for is an identifier, unless it is reserved. -/
theorem mem_identifiers_of_asked {c : ClassDecl} (objectName : String) {name : String}
    (h : name ∈ askedIdentifiers registry c) :
    name ∈ reservedMembers ∨ name ∈ (bindInterface registry c objectName).1.identifiers := by
  obtain ⟨fixed, _, hslotNames⟩ := slotNames_eq registry c objectName
  rw [InterfaceBinding.identifiers, hslotNames, parameterNames_eq]
  rcases List.mem_append.mp h with hslot | hargument
  · rcases Pool.mem_taken_or_handOut hslot with htaken | hhanded
    · exact Or.inl htaken
    · exact Or.inr (List.mem_append_left _ (List.mem_append_right _ hhanded))
  · obtain ⟨request, hrequest, hname⟩ := List.mem_flatMap.mp hargument
    refine Or.inr (List.mem_append_right _ ?_)
    exact List.mem_flatMap.mpr ⟨request, hrequest, request.askedArguments_subset hname⟩

/-- The names that are asked for in the binding of an interface, one by one. -/
inductive AskedFor (registry : Registry) (c : ClassDecl) : String → Prop
  | parent {name : String} (hparent : parentName? registry c = some name) :
      AskedFor registry c (identifier name)
  | getter {a : Attribute} (ha : a ∈ c.attributes)
      (hemitted : isEmittable registry (.attribute a) = true) :
      AskedFor registry c (identifier a.name)
  | setter {a : Attribute} (ha : a ∈ c.attributes)
      (hemitted : isEmittable registry (.attribute a) = true) (hreadonly : a.readonly = false) :
      AskedFor registry c ("set_" ++ snakeCase a.name)
  | operation {entry : String × List Operation} {index : Nat} {o : Operation}
      (hentry : entry ∈ c.overloads) (ho : entry.2[index]? = some o)
      (hemitted : isEmittable registry (.operation o) = true) :
      AskedFor registry c (overloadName index o)
  | argument {o : Operation} {argument : Argument} (ho : o ∈ c.operations)
      (hemitted : isEmittable registry (.operation o) = true) (hargument : argument ∈ o.arguments) :
      AskedFor registry c (argumentName argument.name)

theorem mem_askedIdentifiers_iff {c : ClassDecl} {name : String} :
    name ∈ askedIdentifiers registry c ↔ AskedFor registry c name := by
  have hrequest (request : MemberRequest) :
      request ∈ emittedRequests registry (memberRequests c) ↔
        request ∈ memberRequests c ∧ isEmittable registry request.member = true :=
    List.mem_filter
  rw [askedIdentifiers, askedSlots, List.mem_append, List.mem_append, List.mem_map,
    List.mem_flatMap, List.mem_flatMap]
  simp only [Option.mem_toList, hrequest, mem_memberRequests_iff]
  constructor
  · rintro ((⟨parent, hparent, rfl⟩ | ⟨request, ⟨hmem, hemitted⟩, hname⟩) |
      ⟨request, ⟨hmem, hemitted⟩, hname⟩)
    · exact .parent hparent
    · rcases hmem with ⟨a, ha, rfl⟩ | ⟨entry, hentry, index, o, ho, rfl⟩
      · rcases List.mem_cons.mp hname with rfl | hsetter
        · exact .getter ha hemitted
        · cases hreadonly : a.readonly with
          | true => simp [hreadonly] at hsetter
          | false =>
              simp only [hreadonly, Bool.false_eq_true, if_false, List.mem_singleton] at hsetter
              subst hsetter
              exact .setter ha hemitted hreadonly
      · cases List.mem_singleton.mp hname
        exact .operation hentry ho hemitted
    · rcases hmem with ⟨a, ha, rfl⟩ | ⟨entry, hentry, index, o, ho, rfl⟩
      · cases hname
      · obtain ⟨argument, hargument, rfl⟩ := List.mem_map.mp hname
        exact .argument (mem_operations_iff.mpr ⟨entry, hentry, index, ho⟩) hemitted hargument
  · intro hasked
    cases hasked with
    | parent hparent => exact Or.inl (Or.inl ⟨_, hparent, rfl⟩)
    | @getter a ha hemitted =>
        exact Or.inl (Or.inr ⟨.attribute a, ⟨Or.inl ⟨a, ha, rfl⟩, hemitted⟩, List.mem_cons_self⟩)
    | @setter a ha hemitted hreadonly =>
        refine Or.inl (Or.inr ⟨.attribute a, ⟨Or.inl ⟨a, ha, rfl⟩, hemitted⟩, ?_⟩)
        simp [MemberRequest.asked, hreadonly]
    | @operation entry index o hentry ho hemitted =>
        exact Or.inl (Or.inr ⟨.operation (overloadName index o) o,
          ⟨Or.inr ⟨entry, hentry, index, o, ho, rfl⟩, hemitted⟩, List.mem_cons_self⟩)
    | @argument o argument ho hemitted hargument =>
        obtain ⟨entry, hentry, index, hindex⟩ := mem_operations_iff.mp ho
        exact Or.inr ⟨.operation (overloadName index o) o,
          ⟨Or.inr ⟨entry, hentry, index, o, hindex, rfl⟩, hemitted⟩,
          List.mem_map.mpr ⟨argument, hargument, rfl⟩⟩

theorem legal_setter (name : String) : Legal ("set_" ++ snakeCase name) := by
  have hliteral : "set_" = "set" ++ "_" := rfl
  rw [hliteral]
  apply (legal_underscored_iff (by decide) (wordChars_snakeCase name) _).mpr (by decide)
  exact Nat.add_pos_left (by decide) _

theorem argumentName_cases (name : String) :
    argumentName name = identifier name ∨
      (Legal (identifier name) ∧ Legal (argumentName name)) := by
  rw [argumentName]
  split
  · rename_i hlocal
    have hall : ∀ word ∈ reservedLocals, Legal word ∧ Legal (word ++ "_") := by decide
    exact Or.inr (hall _ hlocal)
  · exact Or.inl rfl

theorem guarded_argumentName (name : String) : Guarded (argumentName name) := by
  rcases argumentName_cases name with hplain | ⟨_, hlegal⟩
  · rw [hplain]
    exact guarded_identifier name
  · exact hlegal.guarded

theorem legal_argumentName_iff (name : String) :
    Legal (argumentName name) ↔ snakeCase name ∉ unguardedWords := by
  rw [← legal_identifier_iff]
  rcases argumentName_cases name with hplain | ⟨hplain, hlegal⟩
  · rw [hplain]
  · exact iff_of_true hlegal hplain

/-- An overload that keeps the plain name. -/
def IsPlain (index : Nat) (o : Operation) : Prop :=
  index = 0 ∨ o.arguments = []

theorem overloadName_of_isPlain {index : Nat} {o : Operation} (h : IsPlain index o) :
    overloadName index o = identifier o.name := by
  rw [overloadName, if_pos]
  simpa [IsPlain] using h

/-- Other overloads have the names of their arguments after an underscore. -/
theorem overloadName_of_not_isPlain {index : Nat} {o : Operation} (h : ¬ IsPlain index o) :
    ∃ suffix, overloadName index o = snakeCase o.name ++ "_" ++ suffix ∧
      WordChars suffix.toList ∧ 0 < suffix.length := by
  have hliteral : "_with_" = "_" ++ "with_" := rfl
  refine ⟨"with_" ++ String.intercalate "_and_"
    (o.arguments.map fun argument => snakeCase argument.name), ?_, ?_, ?_⟩
  · rw [overloadName, if_neg, hliteral]
    · simp only [String.append_assoc]
    · simpa [IsPlain] using h
  · refine wordChars_append (by decide) ?_
    rw [String.toList_intercalate]
    refine WordChars.intercalate (by decide) fun part hmem => ?_
    obtain ⟨text, htext, rfl⟩ := List.mem_map.mp hmem
    obtain ⟨argument, _, rfl⟩ := List.mem_map.mp htext
    exact wordChars_snakeCase argument.name
  · rw [String.length_append]
    exact Nat.add_pos_left (by decide) _

theorem guarded_overloadName (index : Nat) (o : Operation) : Guarded (overloadName index o) := by
  by_cases h : IsPlain index o
  · rw [overloadName_of_isPlain h]
    exact guarded_identifier o.name
  · obtain ⟨suffix, hname, hchars, hlength⟩ := overloadName_of_not_isPlain h
    rw [hname]
    exact guarded_underscored (wordChars_snakeCase o.name) hchars (Nat.add_pos_right _ hlength)

theorem legal_overloadName_iff (index : Nat) (o : Operation) :
    Legal (overloadName index o) ↔
      (IsPlain index o → snakeCase o.name ∉ unguardedWords) ∧
        (¬ IsPlain index o → startsWithDigit (snakeCase o.name) = false) := by
  by_cases h : IsPlain index o
  · rw [overloadName_of_isPlain h, legal_identifier_iff]
    simp only [h, true_imp_iff, not_true_eq_false, false_imp_iff, and_true]
  · obtain ⟨suffix, hname, hchars, hlength⟩ := overloadName_of_not_isPlain h
    rw [hname, legal_underscored_iff (wordChars_snakeCase o.name) hchars
      (Nat.add_pos_right _ hlength)]
    simp only [h, false_imp_iff, not_false_eq_true, true_imp_iff, true_and]

theorem AskedFor.guarded {c : ClassDecl} {name : String} (h : AskedFor registry c name) :
    Guarded name := by
  cases h with
  | parent => exact guarded_identifier _
  | getter => exact guarded_identifier _
  | setter => exact (legal_setter _).guarded
  | operation => exact guarded_overloadName _ _
  | argument => exact guarded_argumentName _

/-- The names of an interface from which only accepted identifiers are made. Apart from
the keywords that are not reserved, this excludes overloads that have the names of their
arguments added and start with a digit. -/
structure KeywordFree (registry : Registry) (c : ClassDecl) : Prop where
  parent : ∀ name, parentName? registry c = some name → snakeCase name ∉ unguardedWords
  attributes : ∀ a ∈ c.attributes, isEmittable registry (.attribute a) = true →
    snakeCase a.name ∉ unguardedWords
  operations : ∀ entry ∈ c.overloads, ∀ index o, entry.2[index]? = some o →
    isEmittable registry (.operation o) = true →
    (IsPlain index o → snakeCase o.name ∉ unguardedWords) ∧
      (¬ IsPlain index o → startsWithDigit (snakeCase o.name) = false)
  arguments : ∀ o ∈ c.operations, isEmittable registry (.operation o) = true →
    ∀ argument ∈ o.arguments, snakeCase argument.name ∉ unguardedWords

theorem legal_askedFor_iff {c : ClassDecl} :
    (∀ name, AskedFor registry c name → Legal name) ↔ KeywordFree registry c := by
  constructor
  · intro h
    refine ⟨?_, ?_, ?_, ?_⟩
    · intro name hparent
      exact (legal_identifier_iff name).mp (h _ (.parent hparent))
    · intro a ha hemitted
      exact (legal_identifier_iff a.name).mp (h _ (.getter ha hemitted))
    · intro entry hentry index o ho hemitted
      exact (legal_overloadName_iff index o).mp (h _ (.operation hentry ho hemitted))
    · intro o ho hemitted argument hargument
      exact (legal_argumentName_iff argument.name).mp (h _ (.argument ho hemitted hargument))
  · intro h name hasked
    cases hasked with
    | parent hparent => exact (legal_identifier_iff _).mpr (h.parent _ hparent)
    | getter ha hemitted => exact (legal_identifier_iff _).mpr (h.attributes _ ha hemitted)
    | setter => exact legal_setter _
    | operation hentry ho hemitted =>
        exact (legal_overloadName_iff _ _).mpr (h.operations _ hentry _ _ ho hemitted)
    | argument ho hemitted hargument =>
        exact (legal_argumentName_iff _).mpr (h.arguments _ ho hemitted _ hargument)

/-- The identifiers of an interface are accepted exactly when the names are from which
they are made. -/
theorem legal_interface_iff (registry : Registry) (c : ClassDecl) (objectName : String) :
    (∀ name ∈ (bindInterface registry c objectName).1.identifiers, Legal name) ↔
      KeywordFree registry c := by
  rw [← legal_askedFor_iff]
  constructor
  · intro hlegal name hasked
    rcases mem_identifiers_of_asked objectName (mem_askedIdentifiers_iff.mpr hasked) with
      hreserved | hmem
    · have hall : ∀ name ∈ reservedMembers, Legal name := by decide
      exact hall name hreserved
    · exact hlegal name hmem
  · intro hlegal
    apply forall_mem_identifiers objectName (by decide) Pool.legal_numbered
    exact fun name hasked => hlegal name (mem_askedIdentifiers_iff.mp hasked)

theorem guarded_interface (registry : Registry) (c : ClassDecl) (objectName : String) :
    ∀ name ∈ (bindInterface registry c objectName).1.identifiers, Guarded name := by
  apply forall_mem_identifiers objectName _ Pool.guarded_numbered
  · exact fun name hasked => (mem_askedIdentifiers_iff.mp hasked).guarded
  · have hall : ∀ name ∈ ["release", "value", "exception_state"], Legal name := by decide
    exact fun name hmem => (hall name hmem).guarded

theorem identifiers_bindDictionary (registry : Registry) (c : ClassDecl) (objectName : String) :
    (bindDictionary registry c objectName).1.identifiers =
      (Pool.ofReserved []).handOut (askedFields registry (registry.fieldSet c).fields) :=
  names_of_bindFields registry c.name _ _

theorem guarded_dictionary (registry : Registry) (c : ClassDecl) (objectName : String) :
    ∀ name ∈ (bindDictionary registry c objectName).1.identifiers, Guarded name := by
  rw [identifiers_bindDictionary]
  apply Pool.forall_mem_handOut Pool.guarded_numbered
  intro name hasked
  obtain ⟨a, _, _, rfl⟩ := mem_askedFields_iff.mp hasked
  exact guarded_identifier a.name

theorem legal_dictionary_iff (registry : Registry) (c : ClassDecl) (objectName : String) :
    (∀ name ∈ (bindDictionary registry c objectName).1.identifiers, Legal name) ↔
      ∀ a ∈ (registry.fieldSet c).fields, isEmittableField registry a = true →
        snakeCase a.name ∉ unguardedWords := by
  rw [identifiers_bindDictionary]
  constructor
  · intro hlegal a ha hemitted
    rw [← legal_identifier_iff]
    have hasked := mem_askedFields_iff.mpr ⟨a, ha, hemitted, rfl⟩
    rcases Pool.mem_taken_or_handOut hasked with htaken | hhanded
    · exact (List.not_mem_nil htaken).elim
    · exact hlegal _ hhanded
  · intro hnames
    apply Pool.forall_mem_handOut Pool.legal_numbered
    intro name hasked
    obtain ⟨a, ha, hemitted, rfl⟩ := mem_askedFields_iff.mp hasked
    exact (legal_identifier_iff a.name).mpr (hnames a ha hemitted)

/-- The text of a field says its name first. -/
def Declares (text name : String) : Prop :=
  ∃ rest, text = "    pub " ++ name ++ ": " ++ rest

theorem declares_slot (m : BoundMember) : Declares m.slotText m.name := by
  have hliteral : ": extern \"C\" fn(" = ": " ++ "extern \"C\" fn(" := rfl
  refine ⟨"extern \"C\" fn(" ++ String.intercalate ", " m.slotParameters ++ ")" ++ m.slotResult ++
    ",\n", ?_⟩
  rw [m.slotText_eq, hliteral]
  simp only [String.append_assoc]

theorem declares_parent (parent : BoundParent) : Declares parent.tableField parent.slotName := by
  refine ⟨parent.slotType ++ ",\n", ?_⟩
  rw [parent.tableField_eq]
  simp only [String.append_assoc]

/-- A wrapper that holds its parent does so in a field named like the slot. -/
theorem declares_wrapperField (parent : BoundParent) :
    parent.wrapperField = "" ∨ Declares parent.wrapperField parent.slotName := by
  cases parent with
  | root => exact Or.inl rfl
  | held field name => exact Or.inr ⟨_, String.append_assoc⟩
  | unbound field => exact Or.inl rfl

theorem exists_methodText_eq (m : BoundMember) :
    ∃ rest, m.methodText = "    pub fn " ++ m.name ++ "(" ++
      String.intercalate ", "
        ("&self" :: m.parameters.map fun parameter => parameter.1 ++ ": " ++ parameter.2) ++
      ")" ++ rest := by
  have hliteral : ") -> Result<" = ")" ++ " -> Result<" := rfl
  rw [m.methodText_eq, hliteral, m.methodParameters_eq]
  simp only [String.append_assoc]
  exact ⟨_, rfl⟩

theorem declares_field (field : BoundField) :
    Declares field.valueField field.name ∧ Declares field.nativeField field.name :=
  ⟨⟨_, String.append_assoc⟩, ⟨_, String.append_assoc⟩⟩

/-- The identifiers of every binding are words of small letters, digits and underscores
and not reserved. Those of an interface are all accepted by the generated language
exactly when no name it declares is, in snake case, a keyword that is not reserved, and
no overload that has the names of its arguments added starts with a digit; those of a
dictionary, exactly when no field has such a name. The identifiers stand where the slots
of the table, the field for the parent, the methods with their parameters, and the fields
of the dictionary are declared. -/
theorem identifiers_legal_iff (registry : Registry) (c : ClassDecl) (objectName : String) :
    let interface := (bindInterface registry c objectName).1
    let dictionary := (bindDictionary registry c objectName).1
    (∀ name ∈ interface.identifiers ++ dictionary.identifiers, Guarded name) ∧
    ((∀ name ∈ interface.identifiers, Legal name) ↔ KeywordFree registry c) ∧
    ((∀ name ∈ dictionary.identifiers, Legal name) ↔
      ∀ a ∈ (registry.fieldSet c).fields, isEmittableField registry a = true →
        snakeCase a.name ∉ unguardedWords) ∧
    Declares interface.parent.tableField interface.parent.slotName ∧
    (interface.parent.wrapperField = "" ∨
      Declares interface.parent.wrapperField interface.parent.slotName) ∧
    (∀ m ∈ interface.members, Declares m.slotText m.name ∧
      ∃ rest, m.methodText = "    pub fn " ++ m.name ++ "(" ++
        String.intercalate ", "
          ("&self" :: m.parameters.map fun parameter => parameter.1 ++ ": " ++ parameter.2) ++
        ")" ++ rest) ∧
    ∀ field ∈ dictionary.fields,
      Declares field.valueField field.name ∧ Declares field.nativeField field.name := by
  intro interface dictionary
  refine ⟨?_, legal_interface_iff registry c objectName, legal_dictionary_iff registry c objectName,
    declares_parent _, declares_wrapperField _, ?_, fun field _ => declares_field field⟩
  · exact List.forall_mem_append.mpr
      ⟨guarded_interface registry c objectName, guarded_dictionary registry c objectName⟩
  · exact fun m _ => ⟨declares_slot m, exists_methodText_eq m⟩

/-- An attribute that is called `for`. -/
def loopBody : ClassDecl :=
  { name := "LoopBody",
    members := [.attribute { name := "for", type := .int32, readonly := true }] }

/-- An operation that is called `2d`, once without and once with an argument. -/
def canvasContext : ClassDecl :=
  { name := "Canvas",
    members :=
      [.operation { name := "2d", result := .void },
        .operation
          { name := "2d", arguments := [{ name := "scale", type := .int32 }], result := .void }] }

/-- A keyword that is not reserved becomes the name of a slot, and so does a name that
starts with a digit. -/
theorem identifiers_not_legal :
    ("for" ∈ (bindInterface .empty loopBody "LoopBody").1.identifiers ∧ ¬ Legal "for") ∧
      "2d_with_scale" ∈ (bindInterface .empty canvasContext "Canvas").1.identifiers ∧
      ¬ Legal "2d_with_scale" := by
  decide

end IdlBindings.Binding
