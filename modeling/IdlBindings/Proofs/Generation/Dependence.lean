import IdlBindings.Proofs.Generation.ReferenceClosure

/-!
What generating a unit takes from the registry. For each class of the unit it is the
name under which the class is emitted, its parent, the fields it has with those it
inherits, and the targets of the pointers in its members. Registries that agree on
these give the same text and the same diagnostics, whatever else they hold.
-/

namespace IdlBindings

/-- Two registries tell the same about a class. -/
structure Registry.AgreeOn (registry other : Registry) (c : ClassDecl) : Prop where
  emittedName : registry.emittedName? c.name = other.emittedName? c.name
  parent : registry.parent c = other.parent c
  fieldSet : registry.fieldSet c = other.fieldSet c
  target : ∀ declared, c.Uses declared → registry.target declared = other.target declared

namespace Binding

open Naming

variable {registry other : Registry}

theorem emittedType_congr {type : ValueType} (usage : Usage)
    (h : ∀ declared, type = .pointer declared → registry.target declared = other.target declared) :
    emittedType registry usage type = emittedType other usage type := by
  cases type with
  | pointer declared => rw [emittedType, emittedType, h declared rfl]
  | _ => rfl

/-- No field of a dictionary may be a pointer, so nothing is looked up for one. -/
theorem emittedType_field (registry other : Registry) (type : ValueType) :
    emittedType registry .field type = emittedType other .field type := by
  cases type with
  | _ => rfl

theorem bindArguments_congr {pool : Pool} {arguments : List Argument}
    (h : ∀ declared, .pointer declared ∈ arguments.map Argument.type →
      registry.target declared = other.target declared) :
    bindArguments registry pool arguments = bindArguments other pool arguments := by
  induction arguments generalizing pool with
  | nil => rfl
  | cons argument rest ih =>
      have hfirst : emittedType registry .value argument.type =
          emittedType other .value argument.type := by
        apply emittedType_congr
        intro declared htype
        exact h declared (htype ▸ List.mem_cons_self)
      have hrest : ∀ declared, .pointer declared ∈ rest.map Argument.type →
          registry.target declared = other.target declared := by
        intro declared hmem
        exact h declared (List.mem_cons_of_mem _ hmem)
      rw [bindArguments, bindArguments, hfirst]
      cases emittedType other .value argument.type with
      | error cause => rfl
      | ok type => simp only [ih hrest]

theorem MemberRequest.bind_congr {pool : Pool} {request : MemberRequest}
    (h : ∀ declared, .pointer declared ∈ request.member.types →
      registry.target declared = other.target declared) :
    request.bind registry pool = request.bind other pool := by
  cases request with
  | «attribute» a =>
      have htype : emittedType registry .value a.type = emittedType other .value a.type := by
        apply emittedType_congr
        intro declared htype
        exact h declared (List.mem_singleton.mpr htype.symm)
      rw [MemberRequest.bind, MemberRequest.bind, bindAttribute, bindAttribute, htype]
  | operation name o =>
      have hresult : emittedType registry .result o.result =
          emittedType other .result o.result := by
        apply emittedType_congr
        intro declared htype
        exact h declared (htype ▸ List.mem_cons_self)
      have harguments : bindArguments registry (.ofReserved []) o.arguments =
          bindArguments other (.ofReserved []) o.arguments := by
        apply bindArguments_congr
        intro declared hmem
        exact h declared (List.mem_cons_of_mem _ hmem)
      rw [MemberRequest.bind, MemberRequest.bind, bindOperation, bindOperation, hresult, harguments]

theorem bindMembers_congr {className : String} {pool : Pool} {requests : List MemberRequest}
    (h : ∀ request ∈ requests, ∀ declared, .pointer declared ∈ request.member.types →
      registry.target declared = other.target declared) :
    bindMembers registry className pool requests = bindMembers other className pool requests := by
  induction requests generalizing pool with
  | nil => rfl
  | cons request rest ih =>
      obtain ⟨hfirst, hrest⟩ := List.forall_mem_cons.mp h
      rw [bindMembers, bindMembers, MemberRequest.bind_congr hfirst]
      cases request.bind other pool with
      | error e => simp only [ih hrest]
      | ok bound => simp only [ih hrest]

theorem bindInterface_congr {c : ClassDecl} (h : registry.AgreeOn other c) (objectName : String) :
    bindInterface registry c objectName = bindInterface other c objectName := by
  have hparent (pool : Pool) : bindParent registry pool c = bindParent other pool c := by
    rw [bindParent, bindParent, h.parent]
  have hmembers (pool : Pool) : bindMembers registry c.name pool (memberRequests c) =
      bindMembers other c.name pool (memberRequests c) := by
    apply bindMembers_congr
    intro request hrequest declared hpointer
    have hmember : request.member ∈ c.members :=
      (memberRequests_perm c).mem_iff.mp (List.mem_map_of_mem hrequest)
    exact h.target declared (.pointer hmember hpointer)
  simp only [bindInterface, hparent, hmembers]

theorem bindFields_eq (registry other : Registry) (className : String) (pool : Pool)
    (fields : List Attribute) :
    bindFields registry className pool fields = bindFields other className pool fields := by
  induction fields generalizing pool with
  | nil => rfl
  | cons a rest ih =>
      rw [bindFields, bindFields, emittedType_field registry other]
      cases emittedType other .field a.type with
      | error cause => simp only [ih]
      | ok type => simp only [ih]

theorem bindDictionary_congr {c : ClassDecl} (h : registry.AgreeOn other c) (objectName : String) :
    bindDictionary registry c objectName = bindDictionary other c objectName := by
  simp only [bindDictionary, h.fieldSet, bindFields_eq registry other]

end Binding

namespace Generation

open Binding

theorem bindDeclaration_congr {registry other : Registry} {unit : SourceUnit}
    {declaration : Declaration}
    (h : ∀ kind c, declaration = .class kind c → registry.AgreeOn other c.bindable) :
    bindDeclaration registry unit declaration = bindDeclaration other unit declaration := by
  cases declaration with
  | «class» kind c =>
      have hagree := h kind c rfl
      have hname : objectName registry unit c = objectName other unit c := by
        rw [objectName, objectName, ← c.name_bindable, hagree.emittedName]
      cases kind with
      | interface =>
          simp only [bindDeclaration, hname]
          rw [show c.checkMembers.1 = c.bindable from rfl, bindInterface_congr hagree]
      | dictionary =>
          simp only [bindDeclaration, hname]
          rw [show c.checkMembers.1 = c.bindable from rfl, bindDictionary_congr hagree]
  | function f => rfl
  | unknown kind name => rfl

/-- A unit is generated alike over registries that tell the same about its classes. -/
theorem generate_congr {registry other : Registry} {unit : SourceUnit}
    (h : ∀ kind c, Declaration.class kind c ∈ unit.declarations →
      registry.AgreeOn other c.bindable)
    (templates : TemplateSet) (settings : Settings) :
    generate registry templates settings unit = generate other templates settings unit := by
  have hbind : ∀ declaration ∈ unit.declarations,
      bindDeclaration registry unit declaration = bindDeclaration other unit declaration := by
    intro declaration hmem
    apply bindDeclaration_congr
    rintro kind c rfl
    exact h kind c hmem
  have hfragments : fragments registry unit = fragments other unit := by
    rw [fragments, fragments]
    exact List.filterMap_congr fun declaration hmem => by rw [hbind declaration hmem]
  have hdiagnostics : diagnostics registry unit = diagnostics other unit := by
    rw [diagnostics, diagnostics]
    exact List.flatMap_congr fun declaration hmem => by rw [hbind declaration hmem]
  rw [generate, generate, hfragments, hdiagnostics]

end Generation

end IdlBindings
