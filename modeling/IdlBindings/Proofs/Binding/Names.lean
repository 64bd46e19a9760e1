import IdlBindings.Binding.Dictionary
import IdlBindings.Proofs.Binding.Members
import IdlBindings.Proofs.Naming.Pool

/-!
The names in a binding. All names of one scope come out of one pool, in the order in
which they are asked for: the members of an interface, the arguments of a method, the
fields of a dictionary. Only what can be emitted asks for a name.
-/

namespace IdlBindings.Binding

open Naming

/-- Whether all types of a member can be emitted. -/
def isEmittable (registry : Registry) : Member → Bool
  | .attribute a => (emittedType registry .value a.type).isOk
  | .operation o =>
    (emittedType registry .result o.result).isOk &&
      o.arguments.all fun argument => (emittedType registry .value argument.type).isOk

variable {registry : Registry} {className : String}

theorem isOk_of_eq_ok {α ε : Type} {x : Except ε α} {a : α} (h : x = .ok a) : x.isOk = true := by
  rw [h]
  rfl

theorem isOk_of_eq_error {α ε : Type} {x : Except ε α} {e : ε} (h : x = .error e) :
    x.isOk = false := by
  rw [h]
  rfl

/-- The members that are bound are those whose types can all be emitted. -/
theorem isEmittable_of_bindStep {pool next : Pool} {request : MemberRequest}
    {bound : List BoundMember} (h : BindStep registry pool request bound next) :
    isEmittable registry request.member = true := by
  cases h with
  | getter htype _ => exact isOk_of_eq_ok htype
  | accessors htype _ => exact isOk_of_eq_ok htype
  | call hresult harguments =>
      rw [MemberRequest.member, isEmittable, isOk_of_eq_ok hresult, Bool.true_and,
        List.all_eq_true]
      intro argument hmem
      obtain ⟨bound, _, htype⟩ :=
        Sequence.exists_right_of_mem (bindArguments_eq_ok harguments) hmem
      exact isOk_of_eq_ok htype

theorem not_isEmittable_of_reported {member : Member} {notice : Notice}
    (h : Settled registry className member (.reported notice)) :
    isEmittable registry member = false := by
  cases h with
  | attributeType htype => exact isOk_of_eq_error htype
  | resultType hresult => rw [isEmittable, isOk_of_eq_error hresult, Bool.false_and]
  | @argumentType o _ before after argument _ _ hsplit _ htype =>
      rw [isEmittable, hsplit, List.all_append, List.all_cons, isOk_of_eq_error htype]
      simp

namespace BoundMember

/-- The parameters of a method after the object, with their types. -/
def parameters : BoundMember → List (String × String)
  | .getter _ _ => []
  | .setter _ type =>
    [("value", typeText type .methodParameter), ("exception_state", "&ExceptionState")]
  | .call _ arguments _ =>
    (arguments.map fun argument => (argument.name, typeText argument.type .methodParameter)) ++
      [("exception_state", "&ExceptionState")]

def parameterNames (m : BoundMember) : List String :=
  m.parameters.map Prod.fst

end BoundMember

namespace MemberRequest

/-- The names that a member asks for. -/
def asked : MemberRequest → List String
  | .attribute a => identifier a.name :: if a.readonly then [] else ["set_" ++ snakeCase a.name]
  | .operation name _ => [name]

/-- The names that the arguments of a member ask for. -/
def askedArguments : MemberRequest → List String
  | .attribute _ => []
  | .operation _ o => askedByArguments o.arguments

/-- The names of the parameters of a member's methods. -/
def parameterNames : MemberRequest → List String
  | .attribute a => if a.readonly then [] else ["value", "exception_state"]
  | .operation _ o =>
    (Pool.ofReserved []).handOut (askedByArguments o.arguments) ++ ["exception_state"]

end MemberRequest

/-- The requests that can be met. -/
def emittedRequests (registry : Registry) (requests : List MemberRequest) : List MemberRequest :=
  requests.filter fun request => isEmittable registry request.member

/-- A member takes the names that it asks for out of the pool, in order. -/
theorem names_of_bindStep {pool next : Pool} {request : MemberRequest} {bound : List BoundMember}
    (h : BindStep registry pool request bound next) :
    bound.map BoundMember.name = pool.handOut request.asked ∧ next = pool.after request.asked ∧
      bound.flatMap BoundMember.parameterNames = request.parameterNames := by
  cases h with
  | getter htype hreadonly =>
      rw [MemberRequest.asked, MemberRequest.parameterNames, hreadonly]
      exact ⟨rfl, rfl, rfl⟩
  | accessors htype hreadonly hnext =>
      rw [MemberRequest.asked, MemberRequest.parameterNames, hreadonly, hnext]
      exact ⟨rfl, rfl, rfl⟩
  | call hresult harguments =>
      refine ⟨rfl, rfl, ?_⟩
      rw [MemberRequest.parameterNames, ← names_of_bindArguments harguments]
      simp [BoundMember.parameterNames, BoundMember.parameters]

/-- So do all members of an interface, one after the other. -/
theorem names_of_bindMembers_eq (registry : Registry) (className : String) (pool : Pool)
    (requests : List MemberRequest) :
    (bindMembers registry className pool requests).1.map BoundMember.name =
        pool.handOut ((emittedRequests registry requests).flatMap MemberRequest.asked) ∧
      (bindMembers registry className pool requests).1.flatMap BoundMember.parameterNames =
        (emittedRequests registry requests).flatMap MemberRequest.parameterNames := by
  induction requests generalizing pool with
  | nil => exact ⟨rfl, rfl⟩
  | cons request rest ih =>
      rw [bindMembers]
      cases hbind : request.bind registry pool with
      | error e =>
          obtain ⟨member, cause⟩ := e
          have hsettled : Settled registry className request.member _ :=
            settled_of_bind_eq_error hbind
          have hskipped : emittedRequests registry (request :: rest) =
              emittedRequests registry rest :=
            List.filter_cons_of_neg (by simp [not_isEmittable_of_reported hsettled])
          rw [hskipped]
          exact ih pool
      | ok result =>
          obtain ⟨bound, next⟩ := result
          have hstep := bindStep_of_bind hbind
          obtain ⟨hnames, hnext, hparameters⟩ := names_of_bindStep hstep
          obtain ⟨hlater, hothers⟩ := ih next
          have hmet : emittedRequests registry (request :: rest) =
              request :: emittedRequests registry rest :=
            List.filter_cons_of_pos (isEmittable_of_bindStep hstep)
          rw [hmet, List.flatMap_cons, List.flatMap_cons, Pool.handOut_append, ← hnames, ← hnext,
            ← hlater, ← hparameters, ← hothers, ← List.map_append, ← List.flatMap_append]
          exact ⟨rfl, rfl⟩

theorem mem_operations_iff {c : ClassDecl} {o : Operation} :
    o ∈ c.operations ↔ ∃ entry ∈ c.overloads, ∃ index : Nat, entry.2[index]? = some o := by
  rw [← c.overloads_perm.mem_iff, List.mem_flatMap]
  simp only [List.mem_iff_getElem?]

/-- What is bound is bound for one of the requests, in a step of its own. -/
theorem exists_bindStep_of_mem {pool : Pool} {requests : List MemberRequest} {m : BoundMember}
    (h : m ∈ (bindMembers registry className pool requests).1) :
    ∃ request ∈ requests, ∃ now bound next,
      BindStep registry now request bound next ∧ m ∈ bound := by
  induction requests generalizing pool with
  | nil => cases h
  | cons request rest ih =>
      rw [bindMembers] at h
      cases hbind : request.bind registry pool with
      | error e =>
          simp only [hbind] at h
          obtain ⟨found, hfound, hstep⟩ := ih h
          exact ⟨found, List.mem_cons_of_mem _ hfound, hstep⟩
      | ok result =>
          obtain ⟨bound, next⟩ := result
          simp only [hbind] at h
          rcases List.mem_append.mp h with hown | hlater
          · exact ⟨request, List.mem_cons_self, pool, bound, next, bindStep_of_bind hbind, hown⟩
          · obtain ⟨found, hfound, hstep⟩ := ih hlater
            exact ⟨found, List.mem_cons_of_mem _ hfound, hstep⟩

/-- A request whose types can all be emitted is bound. -/
theorem exists_bindStep_of_isEmittable (className : String) (pool : Pool)
    {requests : List MemberRequest} {request : MemberRequest} (hmem : request ∈ requests)
    (hemitted : isEmittable registry request.member = true) :
    ∃ now bound next, BindStep registry now request bound next ∧
      bound ⊆ (bindMembers registry className pool requests).1 := by
  induction requests generalizing pool with
  | nil => cases hmem
  | cons first rest ih =>
      rw [bindMembers]
      cases hbind : first.bind registry pool with
      | error e =>
          obtain ⟨member, cause⟩ := e
          have hsettled : Settled registry className first.member _ :=
            settled_of_bind_eq_error hbind
          rcases List.mem_cons.mp hmem with rfl | hrest
          · rw [not_isEmittable_of_reported hsettled] at hemitted
            cases hemitted
          · exact ih pool hrest
      | ok result =>
          obtain ⟨bound, next⟩ := result
          rcases List.mem_cons.mp hmem with rfl | hrest
          · exact ⟨pool, bound, next, bindStep_of_bind hbind, List.subset_append_left _ _⟩
          · obtain ⟨now, found, after, hstep, hfound⟩ := ih next hrest
            exact ⟨now, found, after, hstep, List.subset_append_of_subset_right _ hfound⟩

/-- A method that calls the native side is bound for an operation, with its arguments. -/
theorem operation_of_call {c : ClassDecl} {pool : Pool} {name : String}
    {arguments : List BoundArgument} {result : ValueType}
    (h : .call name arguments result ∈ (bindMembers registry className pool (memberRequests c)).1) :
    ∃ o ∈ c.operations, emittedType registry .result o.result = .ok result ∧
      bindArguments registry (.ofReserved []) o.arguments = .ok arguments := by
  obtain ⟨request, hrequest, now, bound, next, hstep, hmem⟩ := exists_bindStep_of_mem h
  cases hstep with
  | getter => simp at hmem
  | accessors => simp at hmem
  | @call _ o _ _ hresult harguments =>
      cases List.mem_singleton.mp hmem
      rcases mem_memberRequests_iff.mp hrequest with ⟨a, _, ha⟩ | ⟨entry, hentry, index, _, ho, heq⟩
      · cases ha
      · cases heq
        exact ⟨o, mem_operations_iff.mpr ⟨entry, hentry, index, ho⟩, hresult, harguments⟩

theorem call_of_operation (className : String) (pool : Pool) {c : ClassDecl} {o : Operation}
    (ho : o ∈ c.operations) (hemitted : isEmittable registry (.operation o) = true) :
    ∃ name arguments result,
      .call name arguments result ∈ (bindMembers registry className pool (memberRequests c)).1 ∧
      emittedType registry .result o.result = .ok result ∧
      bindArguments registry (.ofReserved []) o.arguments = .ok arguments := by
  obtain ⟨entry, hentry, index, hindex⟩ := mem_operations_iff.mp ho
  have hrequest : MemberRequest.operation (overloadName index o) o ∈ memberRequests c :=
    mem_memberRequests_iff.mpr (Or.inr ⟨entry, hentry, index, o, hindex, rfl⟩)
  obtain ⟨now, bound, next, hstep, hbound⟩ :=
    exists_bindStep_of_isEmittable className pool hrequest hemitted
  cases hstep with
  | call hresult harguments =>
      exact ⟨_, _, _, hbound List.mem_cons_self, hresult, harguments⟩

/-- Whether the type of a dictionary field can be emitted. -/
def isEmittableField (registry : Registry) (a : Attribute) : Bool :=
  (emittedType registry .field a.type).isOk

/-- The names that the fields of a dictionary ask for. -/
def askedFields (registry : Registry) (fields : List Attribute) : List String :=
  (fields.filter (isEmittableField registry)).map fun a => identifier a.name

theorem names_of_bindFields (registry : Registry) (className : String) (pool : Pool)
    (fields : List Attribute) :
    (bindFields registry className pool fields).1.map BoundField.name =
      pool.handOut (askedFields registry fields) := by
  induction fields generalizing pool with
  | nil => rfl
  | cons a rest ih =>
      rw [bindFields, askedFields]
      cases htype : emittedType registry .field a.type with
      | error cause =>
          have hskipped : isEmittableField registry a = false := isOk_of_eq_error htype
          rw [List.filter_cons_of_neg (by simp [hskipped])]
          exact ih pool
      | ok type =>
          have hmet : isEmittableField registry a = true := isOk_of_eq_ok htype
          rw [List.filter_cons_of_pos hmet]
          exact congrArg (List.cons _) (ih _)

theorem mem_askedFields_iff {fields : List Attribute} {name : String} :
    name ∈ askedFields registry fields ↔
      ∃ a ∈ fields, isEmittableField registry a = true ∧ identifier a.name = name := by
  simp only [askedFields, List.mem_map, List.mem_filter, and_assoc]

end IdlBindings.Binding
