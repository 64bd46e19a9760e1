import IdlBindings.Proofs.Binding.References
import IdlBindings.Proofs.Generation.RunOutcome
import IdlBindings.Proofs.Naming.ClassName
import IdlBindings.Proofs.Schema.MemberCheck
import IdlBindings.Proofs.Text.BlankLines

/-!
References across units are closed. What a fragment calls a class and what the class
is called where it is emitted are found on different ways, which meet in the registry
of the run: a name in generated code is the emitted name of an interface that some
unit of the run declares. The texts of all classes stand in the frames of their files,
and the files hold what stands in their lines.
-/

namespace IdlBindings

def Member.types : Member → List ValueType
  | .attribute a => [a.type]
  | .operation o => o.result :: o.arguments.map Argument.type

/-- A class uses itself, its parent and the classes its members point to, by the
names under which they are declared. -/
inductive ClassDecl.Uses (c : ClassDecl) : String → Prop
  | self : c.Uses c.name
  | parent {declared : String} (h : c.parent = some declared) : c.Uses declared
  | pointer {declared : String} {member : Member} (hmember : member ∈ c.members)
      (h : .pointer declared ∈ member.types) : c.Uses declared

theorem ClassDecl.Uses.of_bindable {c : ClassDecl} {declared : String}
    (h : c.bindable.Uses declared) : c.Uses declared := by
  cases h with
  | self => exact .self
  | parent h => exact .parent h
  | pointer hmember h => exact .pointer (c.members_bindable_subset hmember) h

namespace Binding

variable {registry : Registry}

/-- A pointer type is emitted when it points to a registered interface. -/
theorem emittedType_eq_pointer {usage : Usage} {type : ValueType} {name : String}
    (h : emittedType registry usage type = .ok (.pointer name)) :
    usage ≠ .field ∧ ∃ declared, type = .pointer declared ∧
      registry.target declared = .interface name := by
  cases type with
  | pointer declared =>
      rw [emittedType] at h
      split at h
      · cases h
      · rename_i husage
        refine ⟨husage, declared, rfl, ?_⟩
        split at h
        · rename_i htarget
          cases h
          exact htarget
        · cases h
        · cases h
  | void =>
      rw [emittedType] at h
      split at h
      · cases h
      · cases h
  | _ => cases h

theorem pointer_of_settled {className : String} {member : Member} {bound : List BoundMember}
    (hsettled : Settled registry className member (.bound bound)) {m : BoundMember} (hm : m ∈ bound)
    {name : String} (hname : .pointer name ∈ m.types) :
    ∃ declared, .pointer declared ∈ member.types ∧ registry.target declared = .interface name := by
  cases hsettled with
  | @getter a _ _ htype _ =>
      rw [List.mem_singleton.mp hm] at hname
      rw [← List.mem_singleton.mp hname] at htype
      obtain ⟨_, declared, hdeclared, htarget⟩ := emittedType_eq_pointer htype
      exact ⟨declared, List.mem_singleton.mpr hdeclared.symm, htarget⟩
  | @accessors a _ _ type htype _ =>
      have hsame : .pointer name = type := by
        simp only [List.mem_cons, List.not_mem_nil, or_false] at hm
        rcases hm with rfl | rfl
        · exact List.mem_singleton.mp hname
        · exact List.mem_singleton.mp hname
      rw [← hsame] at htype
      obtain ⟨_, declared, hdeclared, htarget⟩ := emittedType_eq_pointer htype
      exact ⟨declared, List.mem_singleton.mpr hdeclared.symm, htarget⟩
  | call hresult harguments _ _ =>
      rw [List.mem_singleton.mp hm] at hname
      rcases List.mem_cons.mp hname with rfl | hargument
      · obtain ⟨_, declared, hdeclared, htarget⟩ := emittedType_eq_pointer hresult
        exact ⟨declared, hdeclared ▸ List.mem_cons_self, htarget⟩
      · obtain ⟨argument, hmem, htype⟩ := List.mem_map.mp hargument
        obtain ⟨source, hsource, hbinds⟩ := Sequence.exists_left_of_mem harguments hmem
        rw [BindsArgument, htype] at hbinds
        obtain ⟨_, declared, hdeclared, htarget⟩ := emittedType_eq_pointer hbinds
        refine ⟨declared, List.mem_cons_of_mem _ ?_, htarget⟩
        exact hdeclared ▸ List.mem_map_of_mem hsource

theorem target_of_held {pool : Naming.Pool} {c : ClassDecl} {field name : String}
    (h : (bindParent registry pool c).1 = .held field name) :
    ∃ declared, c.parent = some declared ∧ registry.target declared = .interface name := by
  unfold bindParent Registry.parent at h
  cases hparent : c.parent with
  | none =>
      rw [hparent] at h
      cases h
  | some declared =>
      rw [hparent] at h
      refine ⟨declared, rfl, ?_⟩
      rw [Registry.target]
      cases hfound : registry.get? declared with
      | none =>
          simp only [hfound] at h
          cases h
      | some parent =>
          simp only [hfound] at h ⊢
          cases hkind : parent.kind with
          | interface =>
              simp only [hkind] at h ⊢
              cases h
              rfl
          | dictionary =>
              simp only [hkind] at h
              cases h

/-- What an interface refers to by name, other than itself, is an interface that the
registry knows under a name the declaration uses. -/
theorem uses_of_mem_references (registry : Registry) (c : ClassDecl) (objectName : String) :
    ∀ name ∈ (bindInterface registry c objectName).1.marked.references,
      name = objectName ∨
        ∃ declared, c.Uses declared ∧ registry.target declared = .interface name := by
  apply InterfaceBinding.of_mem_references
  · exact Or.inl rfl
  · intro field name hheld
    obtain ⟨declared, hparent, htarget⟩ := target_of_held hheld
    exact Or.inr ⟨declared, .parent hparent, htarget⟩
  · intro m hm name hname
    obtain ⟨member, hmember, bound, hsettled, hbound⟩ := settled_of_mem hm
    obtain ⟨declared, hpointer, htarget⟩ := pointer_of_settled hsettled hbound hname
    exact Or.inr ⟨declared, .pointer hmember hpointer, htarget⟩

/-- No field of a dictionary has a pointer type. -/
theorem type_ne_pointer_of_mem_bindFields {className : String} {pool : Naming.Pool}
    {fields : List Attribute} {field : BoundField}
    (h : field ∈ (bindFields registry className pool fields).1) (name : String) :
    field.type ≠ .pointer name := by
  induction fields generalizing pool with
  | nil => cases h
  | cons a rest ih =>
      rw [bindFields] at h
      cases htype : emittedType registry .field a.type with
      | error cause =>
          simp only [htype] at h
          exact ih h
      | ok type =>
          simp only [htype] at h
          rcases List.mem_cons.mp h with rfl | hrest
          · rintro rfl
            exact (emittedType_eq_pointer htype).1 rfl
          · exact ih hrest

theorem references_of_bindDictionary (registry : Registry) (c : ClassDecl) (objectName : String) :
    (bindDictionary registry c objectName).1.marked.references = [] := by
  rw [List.eq_nil_iff_forall_not_mem]
  apply DictionaryBinding.of_mem_references
  intro field hfield name hname
  exact absurd hname (type_ne_pointer_of_mem_bindFields hfield name)

end Binding

namespace Generation

open Binding

theorem objectName_of_get? {registry : Registry} {c : ClassDecl} {found : RegisteredClass}
    (h : registry.get? c.name = some found) (unit : SourceUnit) :
    objectName registry unit c = found.emittedName := by
  rw [objectName, Registry.emittedName?, h]
  rfl

/-- A class in the registry of a run is declared by a unit of the run. -/
theorem exists_declaration_of_mem {units : List SourceUnit} {found : RegisteredClass}
    (h : found ∈ (runRegistry units).classes) :
    ∃ unit ∈ units, ∃ c, Declaration.class found.kind c ∈ unit.declarations ∧
      found.decl = c.bindable := by
  obtain ⟨_, hbindable, _, hclass⟩ := Registry.mem_classes_ofUnits h
  obtain ⟨unit, hunit, rfl⟩ := List.mem_map.mp hbindable
  rw [SourceUnit.classes_bindable] at hclass
  obtain ⟨⟨kind, c⟩, hentry, hsame⟩ := List.mem_map.mp hclass
  obtain ⟨hkind, hdecl⟩ := Prod.mk.inj hsame
  refine ⟨unit, hunit, c, ?_, hdecl.symm⟩
  rw [← hkind]
  exact SourceUnit.mem_classes_iff.mp hentry

theorem exists_declaration_of_get? {units : List SourceUnit} {declared : String}
    {found : RegisteredClass} (h : (runRegistry units).get? declared = some found) :
    ∃ unit ∈ units, ∃ c, Declaration.class found.kind c ∈ unit.declarations ∧
      c.name = declared := by
  obtain ⟨hmem, hname⟩ := Registry.get?_some h
  obtain ⟨unit, hunit, c, hc, hdecl⟩ := exists_declaration_of_mem hmem
  refine ⟨unit, hunit, c, hc, ?_⟩
  rw [← hname, RegisteredClass.name, hdecl, ClassDecl.name_bindable]

/-- The registry of a run finds every class that is declared, with its kind and the
members that can be bound. -/
theorem get?_bindable_of_declaration {units : List SourceUnit} (hregistrable : Registrable units)
    {unit : SourceUnit} (hunit : unit ∈ units) {kind : ClassKind} {c : ClassDecl}
    (hc : Declaration.class kind c ∈ unit.declarations) :
    ∃ found, (runRegistry units).get? c.name = some found ∧ found.kind = kind ∧
      found.decl = c.bindable := by
  have hclass : (kind, c.bindable) ∈ unit.bindable.classes := by
    rw [SourceUnit.classes_bindable]
    exact List.mem_map.mpr ⟨(kind, c), SourceUnit.mem_classes_iff.mpr hc, rfl⟩
  obtain ⟨found, hmem, hkind, hdecl⟩ :=
    Registry.exists_mem_classes_ofUnits (List.mem_map_of_mem hunit) hclass
  have hnodup : (runRegistry units).classNames.Nodup := by
    rw [runRegistry, Registry.classNames_ofUnits, declaredNames_map_bindable]
    exact hregistrable.distinct
  have hname : found.name = c.name := by
    rw [RegisteredClass.name, hdecl, ClassDecl.name_bindable]
  exact ⟨found, (Registry.get?_eq_some_iff hnodup).mpr ⟨hmem, hname⟩, hkind, hdecl⟩

theorem get?_of_declaration {units : List SourceUnit} (hregistrable : Registrable units)
    {unit : SourceUnit} (hunit : unit ∈ units) {kind : ClassKind} {c : ClassDecl}
    (hc : Declaration.class kind c ∈ unit.declarations) :
    ∃ found, (runRegistry units).get? c.name = some found ∧ found.kind = kind := by
  obtain ⟨found, hfound, hkind, _⟩ := get?_bindable_of_declaration hregistrable hunit hc
  exact ⟨found, hfound, hkind⟩

theorem target_of_declaration {units : List SourceUnit} (hregistrable : Registrable units)
    {unit : SourceUnit} (hunit : unit ∈ units) {c : ClassDecl}
    (hc : Declaration.class .interface c ∈ unit.declarations) :
    (runRegistry units).target c.name = .interface (objectName (runRegistry units) unit c) := by
  obtain ⟨found, hfound, hkind⟩ := get?_of_declaration hregistrable hunit hc
  rw [Registry.target, objectName_of_get? hfound, hfound]
  simp only [hkind]

/-- The fragment of a class with the class names it refers to. -/
def markedFragment (registry : Registry) (unit : SourceUnit) (kind : ClassKind) (c : ClassDecl) :
    MarkedFragment :=
  match kind with
  | .interface => (bindInterface registry c.bindable (objectName registry unit c)).1.marked
  | .dictionary => (bindDictionary registry c.bindable (objectName registry unit c)).1.marked

theorem bindDeclaration_eq_marked (registry : Registry) (unit : SourceUnit) (kind : ClassKind)
    (c : ClassDecl) :
    (bindDeclaration registry unit (.class kind c)).1 =
      some (markedFragment registry unit kind c).fragment := by
  cases kind with
  | interface =>
      rw [markedFragment, InterfaceBinding.fragment_marked]
      rfl
  | dictionary =>
      rw [markedFragment, DictionaryBinding.fragment_marked]
      rfl

theorem not_isBlank_name {unit : SourceUnit} (hvalid : unit.validate = .ok ()) {kind : ClassKind}
    {c : ClassDecl} (hc : Declaration.class kind c ∈ unit.declarations) :
    Text.isBlank c.name = false := by
  rw [SourceUnit.validate] at hvalid
  split at hvalid
  · cases hvalid
  · have hclass := Sequence.forM_eq_ok_iff.mp hvalid _ (SourceUnit.mem_classes_iff.mpr hc)
    rw [ClassDecl.validate] at hclass
    split at hclass
    · cases hclass
    · rename_i hname
      exact Bool.eq_false_iff.mpr hname

/-- A class is never emitted under a blank name. -/
theorem not_isBlank_objectName {units : List SourceUnit} (hregistrable : Registrable units)
    {unit : SourceUnit} (hunit : unit ∈ units) {kind : ClassKind} {c : ClassDecl}
    (hc : Declaration.class kind c ∈ unit.declarations) :
    Text.isBlank (objectName (runRegistry units) unit c) = false := by
  obtain ⟨found, hfound, _⟩ := get?_of_declaration hregistrable hunit hc
  rw [objectName_of_get? hfound, RegisteredClass.emittedName]
  split
  · rename_i hderived
    obtain ⟨_, hnonempty⟩ := Bool.and_eq_true_iff.mp hderived
    exact Naming.not_isBlank_className (bne_iff_ne.mp hnonempty)
  · have hname := (Registry.get?_some hfound).2
    rw [RegisteredClass.name] at hname
    rw [hname]
    exact not_isBlank_name (hregistrable.valid unit hunit) hc

/-- No text of a class is blank, since the name of the class stands in it. -/
theorem not_isBlank_of_mem_texts {units : List SourceUnit} (hregistrable : Registrable units)
    {templates : TemplateSet} (hloaded : templates.Loaded) {unit : SourceUnit}
    (hunit : unit ∈ units) {texts : List String}
    (htexts : renderAll templates (fragments (runRegistry units) unit) = .ok texts) :
    ∀ text ∈ texts, Text.isBlank text = false := by
  intro text htext
  rw [renderAll_eq_mapM] at htexts
  obtain ⟨fragment, hfragment, hrender⟩ :=
    Sequence.exists_left_of_mem (Sequence.mapM_eq_ok_iff.mp htexts) htext
  obtain ⟨kind, c, hc, hbound⟩ := mem_fragments hfragment
  obtain ⟨found, hfound, _, hslot, hobject⟩ := bindDeclaration_class (runRegistry units) unit kind c
  rw [hfound] at hbound
  cases hbound
  obtain ⟨before, after, rfl⟩ := TemplateSet.value_in_render hloaded hrender hslot hobject
  have hname := not_isBlank_objectName hregistrable hunit hc
  rw [Text.isBlank] at hname ⊢
  rw [String.toList_append, String.toList_append, List.all_append, List.all_append, hname,
    Bool.and_false, Bool.false_and]

theorem infix_intercalate {texts : List String} {text : String} (h : text ∈ texts)
    (separator : String) : text.toList <:+: (separator.intercalate texts).toList := by
  induction texts with
  | nil => cases h
  | cons first rest ih =>
      cases rest with
      | nil =>
          obtain rfl := List.mem_singleton.mp h
          exact ⟨[], [], by simp [String.intercalate_singleton]⟩
      | cons second rest =>
          rw [String.intercalate_cons_cons, String.toList_append, String.toList_append]
          rcases List.mem_cons.mp h with rfl | hlater
          · exact ⟨[], separator.toList ++ (separator.intercalate (second :: rest)).toList, by simp⟩
          · exact (ih hlater).trans (List.suffix_append _ _).isInfix

/-- How the file of a unit is put together. The fragments of its classes are rendered, none
of them to a blank text, and the texts stand in the frame of the file in their order. With
the blank lines only blank characters go, and the file holds what stands in the lines of
the texts. -/
structure Assembled (templates : TemplateSet) (registry : Registry) (unit : SourceUnit)
    (texts : List String) (framed : String) (out : GeneratedUnit) : Prop where
  rendered : List.Forall₂ (fun fragment text => templates.render fragment = .ok text)
    (fragments registry unit) texts
  not_blank : ∀ text ∈ texts, Text.isBlank text = false
  frame_rendered : templates.render (frame unit (Naming.className unit.stem) texts) = .ok framed
  in_order : ∃ before after, framed = before ++ String.intercalate "\n" texts ++ after
  within : ∀ text ∈ texts, text.toList <:+: framed.toList
  source_eq : out.source = Text.dropBlankLines framed
  characters : out.source.toList.filter (fun c => !Text.isBlankChar c) =
    framed.toList.filter fun c => !Text.isBlankChar c
  held : ∀ text ∈ texts, Text.Holds out.source text

theorem assembled_of_generate {units : List SourceUnit} (hregistrable : Registrable units)
    {templates : TemplateSet} (hloaded : templates.Loaded) {settings : Settings}
    {unit : SourceUnit} (hunit : unit ∈ units) {out : GeneratedUnit}
    (h : generate (runRegistry units) templates settings unit = .ok out) :
    ∃ texts framed, Assembled templates (runRegistry units) unit texts framed out := by
  obtain ⟨texts, framed, htexts, hframed, hgenerate⟩ :=
    generate_of_loaded hloaded (runRegistry units) unit
  have hkept := not_isBlank_of_mem_texts hregistrable hloaded hunit htexts
  have hall : (texts.filter fun text => !Text.isBlank text) = texts := by
    rw [List.filter_eq_self]
    intro text hmem
    rw [hkept text hmem, Bool.not_false]
  rw [hall] at hframed
  rw [renderAll_eq_mapM] at htexts
  have hsource : out.source = Text.dropBlankLines framed := by
    rw [hgenerate] at h
    split at h
    · cases h
    · cases h
      rfl
  have hslot : "content" ∈ TemplateKind.base.slots := by decide
  obtain ⟨before, after, hcontent⟩ := TemplateSet.value_in_render hloaded hframed hslot rfl
  have hwithin : ∀ text ∈ texts, text.toList <:+: framed.toList := by
    intro text hmem
    refine (infix_intercalate hmem "\n").trans ⟨before.toList, after.toList, ?_⟩
    rw [hcontent, String.toList_append, String.toList_append]
  refine ⟨texts, framed, Sequence.mapM_eq_ok_iff.mp htexts, hkept, hframed,
    ⟨before, after, hcontent⟩, hwithin, hsource, ?_, ?_⟩
  · rw [hsource, Text.filter_dropBlankLines]
  · intro text hmem
    rw [hsource]
    exact Text.holds_dropBlankLines (hwithin text hmem)

/-- The class declared as `declared` is an interface, and no unit declares it as anything
else. The text of the fragment that its unit emits for it under `name` stands in the file
of that unit. -/
def EmittedAs (templates : TemplateSet) (units : List SourceUnit) (generated : List GeneratedUnit)
    (declared name : String) : Prop :=
  (∃ unit out, (unit, out) ∈ units.zip generated ∧ ∃ c fragment text,
    Declaration.class .interface c ∈ unit.declarations ∧ c.name = declared ∧
    (bindDeclaration (runRegistry units) unit (.class .interface c)).1 = some fragment ∧
    fragment.kind = .interface ∧ fragment.slot? "object_name" = some name ∧
    templates.render fragment = .ok text ∧ name.toList <:+: text.toList ∧
    Text.Holds out.source text) ∧
  ∀ unit ∈ units, ∀ kind c, Declaration.class kind c ∈ unit.declarations → c.name = declared →
    kind = .interface

section Run

variable {units : List SourceUnit} (hregistrable : Registrable units) {templates : TemplateSet}
  (hloaded : templates.Loaded) {generated : List GeneratedUnit}
  (hassembled : List.Forall₂ (fun unit out => ∃ texts framed,
    Assembled templates (runRegistry units) unit texts framed out) units generated)

include hregistrable hloaded hassembled

theorem emittedAs_of_declaration {unit : SourceUnit} (hunit : unit ∈ units) {c : ClassDecl}
    (hc : Declaration.class .interface c ∈ unit.declarations) :
    EmittedAs templates units generated c.name (objectName (runRegistry units) unit c) := by
  constructor
  · obtain ⟨out, hpair, texts, framed, hfile⟩ := Sequence.exists_zip_of_mem hassembled hunit
    obtain ⟨fragment, hfragment, _, hslot, hobject⟩ :=
      bindDeclaration_class (runRegistry units) unit .interface c
    have hkind : fragment.kind = .interface := by
      cases hfragment
      rfl
    obtain ⟨text, htext, hrender⟩ := Sequence.exists_right_of_mem hfile.rendered
      (List.mem_filterMap.mpr ⟨_, hc, hfragment⟩)
    obtain ⟨before, after, hname⟩ := TemplateSet.value_in_render hloaded hrender hslot hobject
    refine ⟨unit, out, hpair, c, fragment, text, hc, rfl, hfragment, hkind, hobject, hrender,
      ⟨before.toList, after.toList, ?_⟩, hfile.held text htext⟩
    rw [hname, String.toList_append, String.toList_append]
  · -- Names are distinct, so another declaration of the name would be found instead.
    intro other hother kind d hd hsame
    obtain ⟨found, hfound, hkind⟩ := get?_of_declaration hregistrable hunit hc
    obtain ⟨again, hagain, hagainKind⟩ := get?_of_declaration hregistrable hother hd
    rw [hsame, hfound] at hagain
    cases hagain
    exact hagainKind.symm.trans hkind

theorem emittedAs_of_target {declared name : String}
    (h : (runRegistry units).target declared = .interface name) :
    EmittedAs templates units generated declared name := by
  rw [Registry.target] at h
  cases hfound : (runRegistry units).get? declared with
  | none =>
      simp only [hfound] at h
      cases h
  | some found =>
      simp only [hfound] at h
      cases hkind : found.kind with
      | dictionary =>
          simp only [hkind] at h
          cases h
      | interface =>
          simp only [hkind] at h
          cases h
          obtain ⟨unit, hunit, c, hc, rfl⟩ := exists_declaration_of_get? hfound
          rw [hkind] at hc
          rw [← objectName_of_get? hfound unit]
          exact emittedAs_of_declaration hregistrable hloaded hassembled hunit hc

theorem emittedAs_of_mem_references {unit : SourceUnit} (hunit : unit ∈ units) {kind : ClassKind}
    {c : ClassDecl} (hc : Declaration.class kind c ∈ unit.declarations) {name : String}
    (hname : name ∈ (markedFragment (runRegistry units) unit kind c).references) :
    ∃ declared, c.Uses declared ∧ EmittedAs templates units generated declared name := by
  cases kind with
  | interface =>
      rcases uses_of_mem_references _ _ _ name hname with rfl | ⟨declared, huses, htarget⟩
      · exact ⟨c.name, .self, emittedAs_of_declaration hregistrable hloaded hassembled hunit hc⟩
      · exact ⟨declared, huses.of_bindable,
          emittedAs_of_target hregistrable hloaded hassembled htarget⟩
  | dictionary =>
      rw [markedFragment, references_of_bindDictionary] at hname
      cases hname

end Run

/-- In a run that succeeds, every class name that the fragment of a class refers to
belongs to an interface that a unit of the run declares, by a name that the class
uses, and is the name under which that unit emits it, into its file. Every interface is
found under the name it is declared by. The texts of all classes of a unit stand in its
frame, and the file keeps all of that but blank characters. -/
theorem references_closed {sources : TemplateKind → Option String} {templates : TemplateSet}
    (hread : TemplateSet.ofSources sources = .ok templates) {units : List SourceUnit}
    {settings : Settings} {choice : ErrorChoice GenerationError} {generated : List GeneratedUnit}
    (hok : generateAll units templates settings choice = .ok generated) :
    buildRegistry units = .ok (runRegistry units) ∧
    (∀ unit ∈ units, ∀ kind c, Declaration.class kind c ∈ unit.declarations →
      (bindDeclaration (runRegistry units) unit (.class kind c)).1 =
          some (markedFragment (runRegistry units) unit kind c).fragment ∧
      ∀ name ∈ (markedFragment (runRegistry units) unit kind c).references,
        ∃ declared, c.Uses declared ∧ EmittedAs templates units generated declared name) ∧
    (∀ unit ∈ units, ∀ c, Declaration.class .interface c ∈ unit.declarations →
      (runRegistry units).target c.name = .interface (objectName (runRegistry units) unit c)) ∧
    List.Forall₂ (fun unit out => ∃ texts framed,
      Assembled templates (runRegistry units) unit texts framed out) units generated := by
  have hloaded := TemplateSet.loaded_of_ofSources hread
  obtain ⟨hregistrable, hgenerated⟩ := generateAll_eq_ok_iff.mp hok
  have hassembled : List.Forall₂ (fun unit out => ∃ texts framed,
      Assembled templates (runRegistry units) unit texts framed out) units generated := by
    have hunits := (List.forall₂_and_left units generated).mpr
      ⟨fun unit hunit => hunit, hgenerated⟩
    exact hunits.imp fun unit out hunit =>
      assembled_of_generate hregistrable hloaded hunit.1 hunit.2
  refine ⟨buildRegistry_eq_ok_iff.mpr ⟨hregistrable, rfl⟩, ?_, ?_, hassembled⟩
  · intro unit hunit kind c hc
    exact ⟨bindDeclaration_eq_marked _ unit kind c, fun name hname =>
      emittedAs_of_mem_references hregistrable hloaded hassembled hunit hc hname⟩
  · intro unit hunit c hc
    exact target_of_declaration hregistrable hunit hc

theorem references_closed_shapes :
    ∃ templates generated, TemplateSet.ofSources TemplateSet.slotsOnly = .ok templates ∧
      (∀ choice, generateAll shapes templates { strict := true } choice = .ok generated) ∧
      ∃ declared, circle.Uses declared ∧
        EmittedAs templates shapes generated declared "BaseShape" := by
  obtain ⟨templates, hread⟩ := TemplateSet.exists_ofSources_slotsOnly
  obtain ⟨generated, hgenerated⟩ : ∃ generated, ∀ choice,
      generateAll shapes templates { strict := true } choice = .ok generated :=
    exists_generateAll registrable_shapes (TemplateSet.loaded_of_ofSources hread)
      fun _ => by decide
  obtain ⟨_, hclosed, _⟩ := references_closed hread (hgenerated .first)
  have hcircle := hclosed ⟨"circle.idl", [.class .interface circle]⟩ (by decide) .interface circle
    (by decide)
  exact ⟨templates, generated, hread, hgenerated, hcircle.2 "BaseShape" (by decide)⟩

end Generation

end IdlBindings
