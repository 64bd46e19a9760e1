import IdlBindings.Binding.Interface
import IdlBindings.Proofs.Naming.Pool
import IdlBindings.Proofs.Schema.Overloads
import IdlBindings.Proofs.Sequence

/-!
What becomes of the members of an interface. Each is bound, or one notice tells
which of its types stands in the way. Members are bound attributes first and then
operations by name; that order takes up every member once.
-/

namespace IdlBindings.Binding

open Naming

/-- A member is bound, or a notice is left in its place. -/
inductive Fate
  | bound (members : List BoundMember)
  | reported (notice : Notice)

namespace Fate

def members : Fate → List BoundMember
  | .bound members => members
  | .reported _ => []

def notice? : Fate → Option Notice
  | .bound _ => none
  | .reported notice => some notice

end Fate

/-- An argument is bound with the type that is emitted for the declared one. -/
def BindsArgument (registry : Registry) (declared : Argument) (argument : BoundArgument) : Prop :=
  emittedType registry .value declared.type = .ok argument.type

/-- The names that arguments ask for. -/
def askedByArguments (declared : List Argument) : List String :=
  declared.map fun argument => argumentName argument.name

/-- The fate of a member of the class `className`, by the types it has. It is bound under
forms of the names it asks for: its own, that of its setter and, for an operation, the
name of its place among the overloads. A notice is about the first type that cannot be
emitted, where the result of an operation comes before its arguments. -/
inductive Settled (registry : Registry) (className : String) : Member → Fate → Prop
  | getter {a : Attribute} {name : String} {type : ValueType}
      (htype : emittedType registry .value a.type = .ok type) (hreadonly : a.readonly = true)
      (hname : Pool.IsFormOf (identifier a.name) name) :
      Settled registry className (.attribute a) (.bound [.getter name type])
  | accessors {a : Attribute} {getter setter : String} {type : ValueType}
      (htype : emittedType registry .value a.type = .ok type) (hreadonly : a.readonly = false)
      (hgetter : Pool.IsFormOf (identifier a.name) getter)
      (hsetter : Pool.IsFormOf ("set_" ++ snakeCase a.name) setter) :
      Settled registry className (.attribute a)
        (.bound [.getter getter type, .setter setter type])
  | attributeType {a : Attribute} {cause : Cause}
      (htype : emittedType registry .value a.type = .error cause) :
      Settled registry className (.attribute a) (.reported ⟨className, some a.name, cause⟩)
  | call {o : Operation} {index : Nat} {name : String} {arguments : List BoundArgument}
      {result : ValueType} (hresult : emittedType registry .result o.result = .ok result)
      (harguments : List.Forall₂ (BindsArgument registry) o.arguments arguments)
      (hname : Pool.IsFormOf (overloadName index o) name)
      (hnames : List.Forall₂ Pool.IsFormOf (askedByArguments o.arguments)
        (arguments.map BoundArgument.name)) :
      Settled registry className (.operation o) (.bound [.call name arguments result])
  | resultType {o : Operation} {cause : Cause}
      (hresult : emittedType registry .result o.result = .error cause) :
      Settled registry className (.operation o) (.reported ⟨className, some o.name, cause⟩)
  | argumentType {o : Operation} {result : ValueType} {before after : List Argument}
      {argument : Argument} {cause : Cause}
      (hresult : emittedType registry .result o.result = .ok result)
      (harguments : o.arguments = before ++ argument :: after)
      (hbefore : ∀ earlier ∈ before, ∃ type, emittedType registry .value earlier.type = .ok type)
      (htype : emittedType registry .value argument.type = .error cause) :
      Settled registry className (.operation o)
        (.reported ⟨className, some (o.name ++ "(" ++ argument.name ++ ")"), cause⟩)

namespace MemberRequest

def member : MemberRequest → Member
  | .attribute a => .attribute a
  | .operation _ o => .operation o

/-- An operation asks for the name of some place among overloads. -/
def IsPlaced : MemberRequest → Prop
  | .attribute _ => True
  | .operation name o => ∃ index, name = overloadName index o

end MemberRequest

variable {registry : Registry} {className : String}

theorem bindArguments_eq_ok {pool : Pool} {declared : List Argument}
    {arguments : List BoundArgument} (h : bindArguments registry pool declared = .ok arguments) :
    List.Forall₂ (BindsArgument registry) declared arguments := by
  induction declared generalizing pool arguments with
  | nil =>
      cases h
      exact .nil
  | cons first rest ih =>
      rw [bindArguments] at h
      cases htype : emittedType registry .value first.type with
      | error cause => simp only [htype, reduceCtorEq] at h
      | ok type =>
          simp only [htype] at h
          cases hrest : bindArguments registry (pool.allocate (argumentName first.name)).2 rest with
          | error e =>
              rw [hrest] at h
              cases h
          | ok later =>
              rw [hrest] at h
              cases h
              exact .cons htype (ih hrest)

theorem bindArguments_eq_error {pool : Pool} {declared : List Argument}
    {name : String} {cause : Cause}
    (h : bindArguments registry pool declared = .error (name, cause)) :
    ∃ before argument after, declared = before ++ argument :: after ∧
      (∀ earlier ∈ before, ∃ type, emittedType registry .value earlier.type = .ok type) ∧
      emittedType registry .value argument.type = .error cause ∧ argument.name = name := by
  induction declared generalizing pool with
  | nil => cases h
  | cons first rest ih =>
      rw [bindArguments] at h
      cases htype : emittedType registry .value first.type with
      | error e =>
          simp only [htype] at h
          cases h
          exact ⟨[], first, rest, rfl, fun _ hmem => (List.not_mem_nil hmem).elim, htype, rfl⟩
      | ok type =>
          simp only [htype] at h
          cases hrest : bindArguments registry (pool.allocate (argumentName first.name)).2 rest with
          | error e =>
              rw [hrest] at h
              cases h
              obtain ⟨before, argument, after, rfl, hbefore, hargument⟩ := ih hrest
              refine ⟨first :: before, argument, after, rfl, ?_, hargument⟩
              exact List.forall_mem_cons.mpr ⟨⟨type, htype⟩, hbefore⟩
          | ok later =>
              rw [hrest] at h
              cases h

/-- How a request is bound, with the names it takes out of the pool. -/
inductive BindStep (registry : Registry) (pool : Pool) :
    MemberRequest → List BoundMember → Pool → Prop
  | getter {a : Attribute} {type : ValueType}
      (htype : emittedType registry .value a.type = .ok type) (hreadonly : a.readonly = true) :
      BindStep registry pool (.attribute a) [.getter (pool.choose (identifier a.name)) type]
        (pool.allocate (identifier a.name)).2
  | accessors {a : Attribute} {type : ValueType} {next : Pool}
      (htype : emittedType registry .value a.type = .ok type) (hreadonly : a.readonly = false)
      (hnext : next = (pool.allocate (identifier a.name)).2) :
      BindStep registry pool (.attribute a)
        [.getter (pool.choose (identifier a.name)) type,
          .setter (next.choose ("set_" ++ snakeCase a.name)) type]
        (next.allocate ("set_" ++ snakeCase a.name)).2
  | call {name : String} {o : Operation} {arguments : List BoundArgument} {result : ValueType}
      (hresult : emittedType registry .result o.result = .ok result)
      (harguments : bindArguments registry (.ofReserved []) o.arguments = .ok arguments) :
      BindStep registry pool (.operation name o) [.call (pool.choose name) arguments result]
        (pool.allocate name).2

theorem bindStep_of_bind {pool next : Pool} {request : MemberRequest} {bound : List BoundMember}
    (h : request.bind registry pool = .ok (bound, next)) :
    BindStep registry pool request bound next := by
  cases request with
  | «attribute» a =>
      simp only [MemberRequest.bind, bindAttribute] at h
      cases htype : emittedType registry .value a.type with
      | error cause => simp only [htype, reduceCtorEq] at h
      | ok type =>
          simp only [htype] at h
          cases hreadonly : a.readonly with
          | true =>
              simp only [hreadonly, if_true] at h
              cases h
              exact .getter htype hreadonly
          | false =>
              simp only [hreadonly, Bool.false_eq_true, if_false] at h
              cases h
              exact .accessors htype hreadonly rfl
  | operation name o =>
      simp only [MemberRequest.bind, bindOperation] at h
      cases hresult : emittedType registry .result o.result with
      | error cause => simp only [hresult, reduceCtorEq] at h
      | ok result =>
          simp only [hresult] at h
          cases harguments : bindArguments registry (.ofReserved []) o.arguments with
          | error e => simp only [harguments, reduceCtorEq] at h
          | ok arguments =>
              simp only [harguments] at h
              cases h
              exact .call hresult harguments

theorem names_of_bindArguments {pool : Pool} {declared : List Argument}
    {arguments : List BoundArgument} (h : bindArguments registry pool declared = .ok arguments) :
    arguments.map BoundArgument.name =
      pool.handOut (askedByArguments declared) := by
  induction declared generalizing pool arguments with
  | nil =>
      cases h
      rfl
  | cons first rest ih =>
      rw [bindArguments] at h
      cases htype : emittedType registry .value first.type with
      | error cause => simp only [htype, reduceCtorEq] at h
      | ok type =>
          simp only [htype] at h
          obtain ⟨later, hlater, hresult⟩ := Sequence.bind_eq_ok_iff.mp h
          cases hresult
          exact congrArg (List.cons _) (ih hlater)

/-- A member that is bound is settled as bound, under forms of the names it asks for. -/
theorem settled_of_bindStep {pool next : Pool} {request : MemberRequest}
    {bound : List BoundMember} (hplaced : request.IsPlaced)
    (h : BindStep registry pool request bound next) :
    Settled registry className request.member (.bound bound) := by
  cases h with
  | getter htype hreadonly => exact .getter htype hreadonly (pool.isFormOf_choose _)
  | @accessors _ _ next htype hreadonly _ =>
      exact .accessors htype hreadonly (pool.isFormOf_choose _) (next.isFormOf_choose _)
  | call hresult harguments =>
      obtain ⟨index, rfl⟩ := hplaced
      refine .call hresult (bindArguments_eq_ok harguments) (pool.isFormOf_choose _) ?_
      rw [names_of_bindArguments harguments]
      exact Pool.forall₂_isFormOf_handOut _ _

/-- A member that is not bound is settled by the notice left for it. -/
theorem settled_of_bind_eq_error {pool : Pool} {request : MemberRequest}
    {member : String} {cause : Cause} (h : request.bind registry pool = .error (member, cause)) :
    Settled registry className request.member (.reported ⟨className, some member, cause⟩) := by
  cases request with
  | «attribute» a =>
      simp only [MemberRequest.bind, bindAttribute] at h
      cases htype : emittedType registry .value a.type with
      | error e =>
          simp only [htype] at h
          cases h
          exact .attributeType htype
      | ok type =>
          simp only [htype] at h
          split at h
          all_goals cases h
  | operation name o =>
      simp only [MemberRequest.bind, bindOperation] at h
      cases hresult : emittedType registry .result o.result with
      | error e =>
          simp only [hresult] at h
          cases h
          exact .resultType hresult
      | ok result =>
          simp only [hresult] at h
          cases harguments : bindArguments registry (.ofReserved []) o.arguments with
          | error e =>
              obtain ⟨failed, why⟩ := e
              simp only [harguments] at h
              cases h
              obtain ⟨before, argument, after, hsplit, hbefore, htype, rfl⟩ :=
                bindArguments_eq_error harguments
              exact .argumentType hresult hsplit hbefore htype
          | ok arguments =>
              simp only [harguments] at h
              cases h

/-- Members are settled one by one, and what is bound and what is reported stand in
the order of the requests. -/
theorem bindMembers_fates (registry : Registry) (className : String) (pool : Pool)
    {requests : List MemberRequest} (hplaced : ∀ request ∈ requests, request.IsPlaced) :
    ∃ fates, List.Forall₂ (fun request fate => Settled registry className request.member fate)
        requests fates ∧
      (bindMembers registry className pool requests).1 = fates.flatMap Fate.members ∧
      (bindMembers registry className pool requests).2 = fates.filterMap Fate.notice? := by
  induction requests generalizing pool with
  | nil => exact ⟨[], .nil, rfl, rfl⟩
  | cons request rest ih =>
      obtain ⟨hfirst, hrest⟩ := List.forall_mem_cons.mp hplaced
      rw [bindMembers]
      cases hbind : request.bind registry pool with
      | error e =>
          obtain ⟨member, cause⟩ := e
          obtain ⟨fates, hfates, hmembers, hnotices⟩ := ih pool hrest
          refine ⟨.reported ⟨className, some member, cause⟩ :: fates,
            .cons (settled_of_bind_eq_error hbind) hfates, ?_, ?_⟩
          · simp only [hmembers, List.flatMap_cons, Fate.members, List.nil_append]
          · simp only [hnotices, List.filterMap_cons, Fate.notice?]
      | ok result =>
          obtain ⟨bound, next⟩ := result
          obtain ⟨fates, hfates, hmembers, hnotices⟩ := ih next hrest
          have hsettled : Settled registry className request.member (.bound bound) :=
            settled_of_bindStep hfirst (bindStep_of_bind hbind)
          refine ⟨.bound bound :: fates, .cons hsettled hfates, ?_, ?_⟩
          · simp only [hmembers, List.flatMap_cons, Fate.members]
          · simp only [hnotices, List.filterMap_cons, Fate.notice?]

theorem map_member_overloadRequests (group : List Operation) :
    (overloadRequests group).map MemberRequest.member = group.map Member.operation := by
  apply List.ext_getElem?
  intro i
  simp only [overloadRequests, List.getElem?_map, List.getElem?_mapIdx, Option.map_map]
  rfl

/-- The order of binding takes up every member once. -/
theorem memberRequests_perm (c : ClassDecl) :
    ((memberRequests c).map MemberRequest.member).Perm c.members := by
  have hoperations : (c.overloads.flatMap fun entry => overloadRequests entry.2).map
      MemberRequest.member = (c.overloads.flatMap Prod.snd).map Member.operation := by
    rw [List.map_flatMap, List.map_flatMap]
    exact List.flatMap_congr fun entry _ => map_member_overloadRequests entry.2
  have hattributes : (c.attributes.map MemberRequest.attribute).map MemberRequest.member =
      c.attributes.map Member.attribute := by
    rw [List.map_map]
    rfl
  rw [memberRequests, List.map_append, hattributes, hoperations]
  exact (((c.overloads_perm).map Member.operation).append_left _).trans c.members_perm

theorem mem_memberRequests_iff {c : ClassDecl} {request : MemberRequest} :
    request ∈ memberRequests c ↔
      (∃ a ∈ c.attributes, request = .attribute a) ∨
        ∃ entry ∈ c.overloads, ∃ index o, entry.2[index]? = some o ∧
          request = .operation (overloadName index o) o := by
  have hgroup (group : List Operation) : request ∈ overloadRequests group ↔
      ∃ index o, group[index]? = some o ∧ request = .operation (overloadName index o) o := by
    rw [List.mem_iff_getElem?]
    simp only [overloadRequests, List.getElem?_mapIdx, Option.map_eq_some_iff,
      @eq_comm _ request]
  rw [memberRequests, List.mem_append, List.mem_map, List.mem_flatMap]
  simp only [hgroup, eq_comm]

theorem isPlaced_of_mem_memberRequests {c : ClassDecl} {request : MemberRequest}
    (h : request ∈ memberRequests c) : request.IsPlaced := by
  rcases mem_memberRequests_iff.mp h with ⟨a, _, rfl⟩ | ⟨_, _, index, o, _, rfl⟩
  · trivial
  · exact ⟨index, rfl⟩

/-- The members of a class are settled, each once; what is bound and what is
reported is all that binding the members gives. -/
theorem exists_fates (registry : Registry) (className : String) (pool : Pool)
    (c : ClassDecl) :
    ∃ fates, List.Forall₂ (Settled registry className) c.members fates ∧
      (fates.flatMap Fate.members).Perm
        (bindMembers registry className pool (memberRequests c)).1 ∧
      (fates.filterMap Fate.notice?).Perm
        (bindMembers registry className pool (memberRequests c)).2 := by
  obtain ⟨settled, hsettled, hmembers, hnotices⟩ :=
    bindMembers_fates registry className pool fun _ => isPlaced_of_mem_memberRequests
  have hordered : List.Forall₂ (Settled registry className)
      ((memberRequests c).map MemberRequest.member) settled :=
    List.forall₂_map_left_iff.mpr hsettled
  -- Members are bound in another order than they are declared in; the fates go back along
  -- the permutation between the two.
  obtain ⟨fates, hfates, hperm⟩ := List.perm_comp_forall₂ (memberRequests_perm c).symm hordered
  rw [hmembers, hnotices]
  exact ⟨fates, hfates, hperm.flatMap_right _, hperm.filterMap _⟩

theorem settled_of_mem {pool : Pool} {c : ClassDecl} {m : BoundMember}
    (h : m ∈ (bindMembers registry className pool (memberRequests c)).1) :
    ∃ member ∈ c.members, ∃ bound,
      Settled registry className member (.bound bound) ∧ m ∈ bound := by
  obtain ⟨fates, hfates, hbound, _⟩ := exists_fates registry className pool c
  obtain ⟨fate, hfate, hm⟩ := List.mem_flatMap.mp (hbound.mem_iff.mpr h)
  obtain ⟨member, hmember, hsettled⟩ := Sequence.exists_left_of_mem hfates hfate
  cases fate with
  | reported notice => cases hm
  | bound bound => exact ⟨member, hmember, bound, hsettled, hm⟩

theorem settled_of_mem_notices {pool : Pool} {c : ClassDecl} {notice : Notice}
    (h : notice ∈ (bindMembers registry className pool (memberRequests c)).2) :
    ∃ member ∈ c.members, Settled registry className member (.reported notice) := by
  obtain ⟨fates, hfates, _, hreported⟩ := exists_fates registry className pool c
  obtain ⟨fate, hfate, hnotice⟩ := List.mem_filterMap.mp (hreported.mem_iff.mpr h)
  obtain ⟨member, hmember, hsettled⟩ := Sequence.exists_left_of_mem hfates hfate
  cases fate with
  | bound bound => cases hnotice
  | reported found =>
      cases hnotice
      exact ⟨member, hmember, hsettled⟩

end IdlBindings.Binding
