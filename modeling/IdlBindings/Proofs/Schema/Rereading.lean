import IdlBindings.Proofs.Json.Rereading
import IdlBindings.Schema.Reading

/-!
Reading declarations from values that were written and read again. No reader asks for a
number other than a natural one, and none looks at the order of fields. So what is read from
a value is read again from what comes back of it, step by step through every reader, and a
declaration is the same whether it is read from a text or from the written form of its value.
-/

namespace IdlBindings

open Json

/-- What is read is read again from everything that is related. -/
def Stable {α β : Type} (related : β → β → Prop) (read : β → Except Fault α) : Prop :=
  ∀ ⦃first again : β⦄ ⦃a : α⦄, related first again → read first = .ok a → read again = .ok a

/-- Fields that come back when an object is written and read again. -/
def FieldsReread (fields again : List (String × Value)) : Prop :=
  ∀ key, Option.Rel Value.Rereads (Value.field? key fields) (Value.field? key again)

namespace Stable

variable {α β γ : Type} {related : β → β → Prop}

theorem const (result : Except Fault α) : Stable related fun _ => result :=
  fun _ _ _ _ hread => hread

theorem bind {first : β → Except Fault γ} {next : γ → β → Except Fault α}
    (hfirst : Stable related first) (hnext : ∀ c, Stable related (next c)) :
    Stable related fun b => first b >>= fun c => next c b := by
  intro b again a hrelated hread
  obtain ⟨c, hc, hrest⟩ := Sequence.bind_eq_ok_iff.mp hread
  exact Sequence.bind_eq_ok_iff.mpr ⟨c, hfirst hrelated hc, hnext c hrelated hrest⟩

theorem map {read : β → Except Fault γ} (h : Stable related read) (f : γ → α) :
    Stable related fun b => (read b).map f := by
  intro b again a hrelated hread
  obtain ⟨c, hc, hresult⟩ := Sequence.map_eq_ok_iff.mp hread
  exact Sequence.map_eq_ok_iff.mpr ⟨c, h hrelated hc, hresult⟩

theorem optionalField {read : Value → Except Fault α} (h : Stable Value.Rereads read)
    (key : String) : Stable FieldsReread (optionalField key read) := by
  intro fields again a hrelated hread
  have hkey := hrelated key
  unfold IdlBindings.optionalField at hread ⊢
  generalize Value.field? key fields = value at hkey hread
  generalize Value.field? key again = other at hkey ⊢
  cases hkey with
  | none => exact hread
  | some hvalue => exact h.map some hvalue hread

theorem readItems {read : Value → Except Fault α} (h : Stable Value.Rereads read) :
    Stable Value.Rereads (readItems read) := by
  intro value again results hrelated hread
  cases hrelated with
  | @array items others hitems =>
      change items.mapM read = .ok results at hread
      change others.mapM read = .ok results
      rw [Sequence.mapM_eq_ok_iff] at hread ⊢
      induction hitems generalizing results with
      | nil => exact hread
      | cons hitem _ ih =>
          cases hread with
          | cons hresult hrest => exact .cons (h hitem hresult) (ih hrest)
  | null | boolean | text | natural | number | object => cases hread

/-- A record that tells by one of its fields how the others are read. -/
theorem tagged {key : String} {fault : Fault} {tag : Value → Except Fault γ}
    {ofFields : γ → List (String × Value) → Except Fault α} (htag : Stable Value.Rereads tag)
    (hfields : ∀ form, Stable FieldsReread (ofFields form)) :
    Stable FieldsReread fun fields =>
      match Value.field? key fields with
      | none => .error fault
      | some value => tag value >>= fun form => ofFields form fields := by
  intro fields again a hrelated hread
  have hkey := hrelated key
  simp only at hread ⊢
  generalize Value.field? key fields = value at hkey hread
  generalize Value.field? key again = other at hkey ⊢
  cases hkey with
  | none => exact hread
  | some hvalue =>
      obtain ⟨form, hform, hmore⟩ := Sequence.bind_eq_ok_iff.mp hread
      exact Sequence.bind_eq_ok_iff.mpr ⟨form, htag hvalue hform, hfields form hrelated hmore⟩

/-- A record written as a sequence of its tag and its fields. -/
theorem taggedItems (fault : Fault) {tag : Value → Except Fault γ}
    {ofItems : γ → List Value → Except Fault α} (htag : Stable Value.Rereads tag)
    (hitems : ∀ form, Stable (List.Forall₂ Value.Rereads) (ofItems form)) :
    Stable (List.Forall₂ Value.Rereads) fun items =>
      match items with
      | [] => .error fault
      | first :: rest => tag first >>= fun form => ofItems form rest := by
  intro items again a hrelated hread
  cases hrelated with
  | nil => exact hread
  | cons hfirst hrest =>
      obtain ⟨form, hform, hmore⟩ := Sequence.bind_eq_ok_iff.mp hread
      exact Sequence.bind_eq_ok_iff.mpr ⟨form, htag hfirst hform, hitems form hrest hmore⟩

/-- A sequence that has to end with what was read of it. -/
theorem noFurther (place : Place) (count : Nat) (result : Except Fault α) :
    Stable (List.Forall₂ Value.Rereads) fun items =>
      noFurther place count items >>= fun _ => result := by
  intro items again a hrelated hread
  have hsame : IdlBindings.noFurther place count again =
      IdlBindings.noFurther place count items := by
    unfold IdlBindings.noFurther
    rw [hrelated.length_eq]
  simp only [hsame]
  exact hread

end Stable

theorem stable_readString : Stable Value.Rereads readString := by
  intro value again a hrelated hread
  cases hrelated with
  | text s => exact hread
  | null | boolean | natural | number | array | object => cases hread

theorem stable_readBoolean : Stable Value.Rereads readBoolean := by
  intro value again a hrelated hread
  cases hrelated with
  | boolean b => exact hread
  | null | text | natural | number | array | object => cases hread

theorem stable_readName? : Stable Value.Rereads readName? := by
  intro value again a hrelated hread
  cases hrelated with
  | null => exact hread
  | text s => exact hread
  | boolean | natural | number | array | object => cases hread

theorem TypeForm.stable_read (place : Place) : Stable Value.Rereads (TypeForm.read place) := by
  intro value again a hrelated hread
  cases hrelated with
  | text s => exact hread
  | natural n => exact hread
  | @number number hother again =>
      cases number with
      | natural n => exact absurd rfl (hother n)
      | negative n => cases hread
      | real isNegative magnitude => cases hread
  | null | boolean | array | object => cases hread

theorem TypeForm.stable_ofFields (form : TypeForm) : Stable FieldsReread form.ofFields := by
  cases form with
  | plain type => exact .const _
  | pointer => exact (stable_readString.optionalField "class").bind fun _ => .const _

theorem TypeForm.stable_ofItems (form : TypeForm) :
    Stable (List.Forall₂ Value.Rereads) form.ofItems := by
  cases form with
  | plain type => exact Stable.noFurther .member 0 _
  | pointer =>
      intro items again a hrelated hread
      cases hrelated with
      | nil => cases hread
      | cons hfirst hrest =>
          obtain ⟨className, hname, hmore⟩ := Sequence.bind_eq_ok_iff.mp hread
          refine Sequence.bind_eq_ok_iff.mpr ⟨className, stable_readString hfirst hname, ?_⟩
          exact Stable.noFurther .member 1 _ (.cons hfirst hrest) hmore

theorem ValueType.stable_read (place : Place) : Stable Value.Rereads (ValueType.read place) := by
  intro value again a hrelated hread
  cases hrelated with
  | object hfields =>
      exact Stable.tagged (TypeForm.stable_read place) TypeForm.stable_ofFields hfields hread
  | array hitems =>
      cases hitems with
      | nil => cases hread
      | cons htag hrest =>
          exact Stable.taggedItems (.shape (.missing "kind")) (TypeForm.stable_read place)
            TypeForm.stable_ofItems (.cons htag hrest) hread
  | null | boolean | text | natural | number => cases hread

/-- A record of a name, a type and a flag that may be left out, written as a sequence. -/
theorem stable_flaggedItems {α : Type} (place : Place) (make : String → ValueType → Bool → α)
    (empty single : Fault) :
    Stable (List.Forall₂ Value.Rereads) fun items =>
      match items with
      | [] => .error empty
      | first :: rest => do
        let name ← readString first
        match rest with
        | [] => .error single
        | second :: rest' => do
          let type ← ValueType.read place second
          let flag ← match rest' with
            | [] => .ok false
            | third :: _ => readBoolean third
          noFurther place 3 items
          return make name type flag := by
  intro items again a hrelated hread
  cases hrelated with
  | nil => exact hread
  | cons hfirst hrest =>
      obtain ⟨name, hname, hmore⟩ := Sequence.bind_eq_ok_iff.mp hread
      refine Sequence.bind_eq_ok_iff.mpr ⟨name, stable_readString hfirst hname, ?_⟩
      cases hrest with
      | nil => exact hmore
      | cons hsecond hrest =>
          obtain ⟨type, htype, hmore⟩ := Sequence.bind_eq_ok_iff.mp hmore
          refine Sequence.bind_eq_ok_iff.mpr ⟨type, ValueType.stable_read place hsecond htype, ?_⟩
          cases hrest with
          | nil => exact Stable.noFurther place 3 _ (.cons hfirst (.cons hsecond .nil)) hmore
          | cons hthird hrest =>
              obtain ⟨flag, hflag, hmore⟩ := Sequence.bind_eq_ok_iff.mp hmore
              refine Sequence.bind_eq_ok_iff.mpr ⟨flag, stable_readBoolean hthird hflag, ?_⟩
              exact Stable.noFurther place 3 _ (.cons hfirst (.cons hsecond (.cons hthird hrest)))
                hmore

theorem Argument.stable_read (place : Place) : Stable Value.Rereads (Argument.read place) := by
  intro value again a hrelated hread
  cases hrelated with
  | object hfields =>
      have hstable : Stable FieldsReread fun fields => Argument.read place (.object fields) :=
        (stable_readString.optionalField "name").bind fun _ =>
          (stable_readBoolean.optionalField "optional").bind fun _ =>
            ((ValueType.stable_read place).optionalField "type").bind fun _ => .const _
      exact hstable hfields hread
  | array hitems =>
      cases hitems with
      | nil => cases hread
      | cons hfirst hrest =>
          exact stable_flaggedItems place Argument.mk
            (wrongLength 0 (.fields "FunctionArgument" 3)) _ (.cons hfirst hrest) hread
  | null | boolean | text | natural | number => cases hread

theorem Attribute.stable_ofFields : Stable FieldsReread Attribute.ofFields := by
  unfold Attribute.ofFields
  exact (stable_readString.optionalField "name").bind fun _ =>
    (stable_readBoolean.optionalField "readonly").bind fun _ =>
      ((ValueType.stable_read .member).optionalField "type").bind fun _ => .const _

theorem Attribute.stable_ofItems : Stable (List.Forall₂ Value.Rereads) Attribute.ofItems :=
  stable_flaggedItems .member Attribute.mk _ _

theorem Operation.stable_ofFields : Stable FieldsReread Operation.ofFields := by
  unfold Operation.ofFields
  exact ((Argument.stable_read .member).readItems.optionalField "arguments").bind fun _ =>
    (stable_readString.optionalField "name").bind fun _ =>
      ((ValueType.stable_read .member).optionalField "return_type").bind fun _ => .const _

theorem Operation.stable_ofItems : Stable (List.Forall₂ Value.Rereads) Operation.ofItems := by
  intro items again a hrelated hread
  cases hrelated with
  | nil => cases hread
  | cons hfirst hrest =>
      obtain ⟨name, hname, hmore⟩ := Sequence.bind_eq_ok_iff.mp hread
      refine Sequence.bind_eq_ok_iff.mpr ⟨name, stable_readString hfirst hname, ?_⟩
      cases hrest with
      | nil => cases hmore
      | cons hsecond hrest =>
          obtain ⟨arguments, harguments, hmore⟩ := Sequence.bind_eq_ok_iff.mp hmore
          refine Sequence.bind_eq_ok_iff.mpr
            ⟨arguments, (Argument.stable_read .member).readItems hsecond harguments, ?_⟩
          cases hrest with
          | nil => cases hmore
          | cons hthird hrest =>
              obtain ⟨result, hresult, hmore⟩ := Sequence.bind_eq_ok_iff.mp hmore
              refine Sequence.bind_eq_ok_iff.mpr
                ⟨result, ValueType.stable_read .member hthird hresult, ?_⟩
              exact Stable.noFurther .member 3 _ (.cons hfirst (.cons hsecond (.cons hthird hrest)))
                hmore

theorem MemberForm.stable_read : Stable Value.Rereads MemberForm.read := by
  intro value again a hrelated hread
  cases hrelated with
  | text s => exact hread
  | null | boolean | natural | number | array | object => cases hread

theorem MemberForm.stable_ofFields (form : MemberForm) : Stable FieldsReread form.ofFields := by
  cases form with
  | «attribute» => exact Attribute.stable_ofFields.map Member.attribute
  | operation => exact Operation.stable_ofFields.map Member.operation

theorem MemberForm.stable_ofItems (form : MemberForm) :
    Stable (List.Forall₂ Value.Rereads) form.ofItems := by
  cases form with
  | «attribute» => exact Attribute.stable_ofItems.map Member.attribute
  | operation => exact Operation.stable_ofItems.map Member.operation

theorem Member.stable_read : Stable Value.Rereads Member.read := by
  intro value again a hrelated hread
  cases hrelated with
  | object hfields =>
      exact Stable.tagged MemberForm.stable_read MemberForm.stable_ofFields hfields hread
  | array hitems =>
      cases hitems with
      | nil => cases hread
      | cons htag hrest =>
          exact Stable.taggedItems (.shape (.missing "member")) MemberForm.stable_read
            MemberForm.stable_ofItems (.cons htag hrest) hread
  | null | boolean | text | natural | number => cases hread

theorem ClassDecl.stable_ofFields : Stable FieldsReread ClassDecl.ofFields := by
  unfold ClassDecl.ofFields
  exact (Member.stable_read.readItems.optionalField "members").bind fun _ =>
    (stable_readString.optionalField "name").bind fun _ =>
      (stable_readName?.optionalField "parent").bind fun _ => .const _

theorem FreeFunction.stable_ofFields : Stable FieldsReread FreeFunction.ofFields := by
  unfold FreeFunction.ofFields
  exact ((Argument.stable_read .outside).readItems.optionalField "arguments").bind fun _ =>
    (stable_readString.optionalField "name").bind fun _ =>
      ((ValueType.stable_read .outside).optionalField "return_type").bind fun _ => .const _

theorem Declaration.stable_ofBody (kind : String) :
    Stable FieldsReread (Declaration.ofBody kind) := by
  intro body again declaration hrelated hread
  unfold ofBody at hread ⊢
  split_ifs at hread ⊢
  · exact ClassDecl.stable_ofFields.map _ hrelated hread
  · exact ClassDecl.stable_ofFields.map _ hrelated hread
  · exact FreeFunction.stable_ofFields.map _ hrelated hread
  · have hname := hrelated "name"
    generalize Value.field? "name" body = value at hname hread
    generalize Value.field? "name" again = other at hname ⊢
    cases hname with
    | none => exact hread
    | some hvalue => cases hvalue <;> exact hread

theorem Document.eq_of_readText {document : Document} {s : String}
    (h : document.readText = .ok s) : document = .text (some s) := by
  cases document with
  | text content =>
      cases content with
      | none => cases h
      | some content =>
          cases h
          rfl
  | null | boolean | number | array | object | broken => cases h

namespace Declaration

/-- The entries of a declaration that is read are those of its value: one of them, a string,
is the kind if it was not known before, and the others are its body. -/
theorem exists_fields_of_ofEntries {kind : Option String} {body : List (String × Value)}
    {cut : Option Cut} {entries : List (Option String × Document)} {declaration : Declaration}
    (h : ofEntries kind body cut entries = .ok declaration) :
    cut = none ∧ ∃ fields name,
      Document.fields (greatestDepth - declarationDepth) entries = .ok fields ∧
      (∀ value, ("kind", value) ∈ fields → kind = none ∧ value = .text name) ∧
      (kind = some name ∨ ∃ value, ("kind", value) ∈ fields) ∧
      ofBody name (Value.sortFields (body.reverse ++
        fields.filter fun field => field.1 != "kind")) = .ok declaration := by
  induction entries generalizing kind body with
  | nil =>
      obtain ⟨_, hcut, hmore⟩ := Sequence.bind_eq_ok_iff.mp h
      obtain ⟨name, hname, hbody⟩ := Sequence.bind_eq_ok_iff.mp hmore
      refine ⟨Document.closed_eq_ok_iff.mp hcut, [], name, rfl, ?_, ?_, ?_⟩
      · exact fun _ hmem => (List.not_mem_nil hmem).elim
      · cases kind with
        | none => cases hname
        | some known =>
            cases hname
            exact Or.inl rfl
      · rw [List.filter_nil, List.append_nil]
        exact hbody
  | cons entry entries ih =>
      obtain ⟨key, document⟩ := entry
      cases key with
      | none => cases h
      | some key =>
          change (if key = "kind" then _ else _) = _ at h
          by_cases hkey : key = "kind"
          · rw [if_pos hkey] at h
            cases kind with
            | some known => cases h
            | none =>
                obtain ⟨name, hname, hmore⟩ := Sequence.bind_eq_ok_iff.mp h
                obtain rfl := Document.eq_of_readText hname
                obtain ⟨hcut, fields, found, hfields, honly, hfound, hbody⟩ := ih hmore
                -- The kind is known from here on, so no further entry gives it.
                have hlater : ∀ value, ("kind", value) ∉ fields :=
                  fun value hmem => Option.some_ne_none name (honly value hmem).1
                obtain rfl : name = found := by
                  rcases hfound with hsame | ⟨value, hmem⟩
                  · exact Option.some.inj hsame
                  · exact absurd hmem (hlater value)
                refine ⟨hcut, ("kind", .text name) :: fields, name, ?_, ?_,
                  Or.inr ⟨_, List.mem_cons_self⟩, ?_⟩
                · rw [hkey, Document.fields, hfields]
                  rfl
                · intro value hmem
                  rcases List.mem_cons.mp hmem with hsame | hrest
                  · exact ⟨rfl, congrArg Prod.snd hsame⟩
                  · exact absurd hrest (hlater value)
                · rw [List.filter_cons_of_neg (by simp)]
                  exact hbody
          · rw [if_neg hkey] at h
            obtain ⟨value, hvalue, hmore⟩ := Sequence.bind_eq_ok_iff.mp h
            obtain ⟨hcut, fields, name, hfields, honly, hname, hbody⟩ := ih hmore
            refine ⟨hcut, (key, value) :: fields, name, ?_, ?_, ?_, ?_⟩
            · rw [Document.fields, hvalue, hfields]
              rfl
            · intro other hmem
              rcases List.mem_cons.mp hmem with hsame | hrest
              · exact absurd (congrArg Prod.fst hsame).symm hkey
              · exact honly other hrest
            · rcases hname with hknown | ⟨other, hother⟩
              · exact Or.inl hknown
              · exact Or.inr ⟨other, List.mem_cons_of_mem _ hother⟩
            · rw [List.filter_cons_of_pos (by simpa using hkey), List.append_cons,
                ← List.reverse_cons]
              exact hbody

/-- A declaration that is read is read from an object with its kind and its body. -/
theorem exists_fields_of_read {document : Document} {declaration : Declaration}
    (h : Declaration.read document = .ok declaration) :
    ∃ fields kind,
      document.value (greatestDepth - declarationDepth + 1) =
        .ok (.object (Value.sortFields fields)) ∧
      Value.field? "kind" (Value.sortFields fields) = some (.text kind) ∧
      ofBody kind (Value.sortFields (fields.filter fun field => field.1 != "kind")) =
        .ok declaration := by
  cases document with
  | object entries cut =>
      obtain ⟨rfl, fields, kind, hfields, honly, hkind, hbody⟩ := exists_fields_of_ofEntries h
      refine ⟨fields, kind, ?_, ?_, hbody⟩
      · rw [Document.value, hfields]
        rfl
      · obtain ⟨value, hmem⟩ := hkind.resolve_left (Option.some_ne_none kind).symm
        rw [Value.field?_sortFields]
        obtain ⟨found, hfound⟩ := Value.exists_field?_of_mem (List.mem_reverse.mpr hmem)
        rw [hfound, (honly found (List.mem_reverse.mp (Value.mem_of_field? hfound))).2]
  | null | boolean | number | text | array | broken => cases h

/-- Leaving out the kind leaves out the same on both sides. -/
theorem fieldsReread_filter {fields again : List (String × Value)}
    (h : FieldsReread (Value.sortFields fields) (Value.sortFields again)) :
    FieldsReread (Value.sortFields (fields.filter fun field => field.1 != "kind"))
      (Value.sortFields (again.filter fun field => field.1 != "kind")) := by
  intro key
  have hkey := h key
  rw [Value.field?_sortFields, Value.field?_sortFields] at hkey
  rw [Value.field?_sortFields, Value.field?_sortFields, ← List.filter_reverse,
    ← List.filter_reverse, Value.field?_filter (· != "kind"), Value.field?_filter (· != "kind")]
  split_ifs
  · exact hkey
  · exact .none

/-- A declaration is the same when it is read from a text and when it is read from what its
value is written as. -/
theorem eq_of_read_document {document : Document} {value : Value} {declaration again : Declaration}
    (hread : Declaration.read document = .ok declaration)
    (hvalue : document.value (greatestDepth - declarationDepth + 1) = .ok value)
    (hagain : Declaration.read value.document = .ok again) : again = declaration := by
  obtain ⟨fields, kind, hfields, hkind, hbody⟩ := exists_fields_of_read hread
  obtain ⟨others, other, hothers, hother, hbodyAgain⟩ := exists_fields_of_read hagain
  rw [hfields] at hvalue
  cases hvalue
  cases Value.rereads_of_isRead ⟨_, document, hfields⟩ hothers with
  | object hsame =>
      have hkinds := hsame "kind"
      rw [hkind, hother] at hkinds
      cases hkinds with
      | some htext =>
          cases htext with
          | text =>
              have hstable := stable_ofBody kind (fieldsReread_filter hsame) hbody
              rw [hbodyAgain] at hstable
              exact Except.ok.inj hstable

end Declaration

/-- So are all declarations of a unit. -/
theorem eq_of_readDeclarations_document {document : Document} {value : Value}
    {declarations again : List Declaration} (hread : readDeclarations document = .ok declarations)
    (hvalue : document.value (greatestDepth - declarationDepth + 2) = .ok value)
    (hagain : readDeclarations value.document = .ok again) : again = declarations := by
  cases document with
  | array documents cut =>
      obtain ⟨found, hfound, hclosed⟩ := Sequence.bind_eq_ok_iff.mp hread
      obtain ⟨_, -, hresult⟩ := Sequence.bind_eq_ok_iff.mp hclosed
      cases hresult
      cases Document.evaluated_of_value hvalue with
      | @array _ _ items hitems =>
          obtain ⟨foundAgain, hfoundAgain, hclosedAgain⟩ := Sequence.bind_eq_ok_iff.mp hagain
          cases hclosedAgain
          rw [Value.documents_eq_map] at hfoundAgain
          have hfirst := Sequence.mapM_eq_ok_iff.mp hfound
          have hsecond := List.forall₂_map_left_iff.mp (Sequence.mapM_eq_ok_iff.mp hfoundAgain)
          clear hread hvalue hagain hfound hclosed hfoundAgain
          induction hitems generalizing declarations again with
          | nil =>
              cases hfirst
              cases hsecond
              rfl
          | cons hitem _ ih =>
              cases hfirst with
              | cons hdeclaration hrest =>
                  cases hsecond with
                  | cons hother hrestAgain =>
                      rw [Declaration.eq_of_read_document hdeclaration hitem hother,
                        ih hrest hrestAgain]
  | null | boolean | number | text | object | broken => cases hread

end IdlBindings
