import IdlBindings.Proofs.Generation.MemberAccount
import IdlBindings.Proofs.Generation.RunOutcome
import IdlBindings.Proofs.Registry.Bindable

/-!
A rejected member is as if it had not been declared. The registry of a run is made from
copies of the units without rejected members, while the units themselves are generated,
and their members checked again. Both checks agree, so a lenient run of the copies gives
the same files, and the same diagnostics but for those that name the rejected members.
-/

namespace IdlBindings

def Cause.isRejection : Cause → Bool
  | .invalidMember _ => true
  | .unsupportedMember _ | .unsupportedObject _ | .unresolvedParent _ | .unresolvedClass _ => false

/-- A generated unit without the diagnostics about rejected members. -/
def GeneratedUnit.withoutRejections (out : GeneratedUnit) : GeneratedUnit :=
  { out with diagnostics := out.diagnostics.filter fun diagnostic => !diagnostic.cause.isRejection }

namespace SourceUnit

theorem validate_bindable (unit : SourceUnit) : unit.bindable.validate = unit.validate := by
  have hclasses : (unit.bindable.classes.forM fun entry => entry.2.validate unit.fileName) =
      unit.classes.forM fun entry => entry.2.validate unit.fileName := by
    rw [classes_bindable]
    exact List.forM_map
  exact congrArg (fun checked => if unit.stem = "" then _ else checked) hclasses

end SourceUnit

namespace Binding

variable {registry : Registry}

theorem not_isRejection_of_emittedType {usage : Usage} {type : ValueType} {cause : Cause}
    (h : emittedType registry usage type = .error cause) : cause.isRejection = false := by
  cases type with
  | void =>
      rw [emittedType] at h
      split at h
      · cases h
      · cases h
        rfl
  | pointer declared =>
      rw [emittedType] at h
      split at h
      · cases h
        rfl
      · split at h
        · cases h
        · cases h
          rfl
        · cases h
          rfl
  | unsupported =>
      cases h
      rfl
  | _ => cases h

theorem not_isRejection_of_settled {className : String} {member : Member} {notice : Notice}
    (h : Settled registry className member (.reported notice)) :
    notice.cause.isRejection = false := by
  cases h with
  | attributeType htype => exact not_isRejection_of_emittedType htype
  | resultType htype => exact not_isRejection_of_emittedType htype
  | argumentType _ _ _ htype => exact not_isRejection_of_emittedType htype

/-- Binding an interface reports members and a parent that it leaves out, but rejects
none. -/
theorem not_isRejection_of_bindInterface (registry : Registry) (c : ClassDecl)
    (objectName : String) :
    ∀ notice ∈ (bindInterface registry c objectName).2, notice.cause.isRejection = false := by
  intro notice hnotice
  rw [notices_of_bindInterface] at hnotice
  rcases List.mem_append.mp hnotice with hparent | hmember
  · rw [parentNotice?, Option.mem_toList] at hparent
    obtain ⟨name, _, hreported⟩ := Option.bind_eq_some_iff.mp hparent
    cases hfound : registry.get? name with
    | none =>
        simp only [hfound] at hreported
        cases hreported
        rfl
    | some parent =>
        simp only [hfound] at hreported
        split at hreported
        · cases hreported
          rfl
        · cases hreported
  · obtain ⟨_, _, hsettled⟩ := settled_of_mem_notices hmember
    exact not_isRejection_of_settled hsettled

theorem not_isRejection_of_bindFields (registry : Registry) (className : String)
    (pool : Naming.Pool) (fields : List Attribute) :
    ∀ notice ∈ (bindFields registry className pool fields).2,
      notice.cause.isRejection = false := by
  induction fields generalizing pool with
  | nil => exact fun _ hmem => (List.not_mem_nil hmem).elim
  | cons a rest ih =>
      rw [bindFields]
      cases htype : emittedType registry .field a.type with
      | error cause =>
          exact List.forall_mem_cons.mpr ⟨not_isRejection_of_emittedType htype, ih pool⟩
      | ok type => exact ih _

theorem not_isRejection_of_bindDictionary (registry : Registry) (c : ClassDecl)
    (objectName : String) :
    ∀ notice ∈ (bindDictionary registry c objectName).2, notice.cause.isRejection = false := by
  refine List.forall_mem_append.mpr ⟨?_, not_isRejection_of_bindFields _ _ _ _⟩
  intro notice hnotice
  obtain ⟨parent, _, rfl⟩ := List.mem_map.mp hnotice
  rfl

end Binding

namespace Generation

open Binding

theorem objectName_bindable (registry : Registry) (unit : SourceUnit) (c : ClassDecl) :
    objectName registry unit.bindable c.bindable = objectName registry unit c := by
  have hprimary : (unit.bindable.classes.head?.any fun first => first.2.name = c.bindable.name) =
      unit.classes.head?.any fun first => first.2.name = c.name := by
    rw [SourceUnit.classes_bindable, List.head?_map, Option.any_map]
    rfl
  rw [objectName, objectName, hprimary]
  rfl

theorem filter_rejections {rejected found : List Notice}
    (hrejected : ∀ notice ∈ rejected, notice.cause.isRejection = true)
    (hfound : ∀ notice ∈ found, notice.cause.isRejection = false) :
    ((rejected ++ found).filter fun notice => !notice.cause.isRejection) = found := by
  have hnone : (rejected.filter fun notice => !notice.cause.isRejection) = [] := by
    rw [List.filter_eq_nil_iff]
    intro notice hnotice
    simp [hrejected notice hnotice]
  have hall : (found.filter fun notice => !notice.cause.isRejection) = found := by
    rw [List.filter_eq_self]
    intro notice hnotice
    simp [hfound notice hnotice]
  rw [List.filter_append, hnone, hall, List.nil_append]

theorem isRejection_of_rejectionNotice (className : String) (rejections : List Rejection) :
    ∀ notice ∈ rejections.map (rejectionNotice className), notice.cause.isRejection = true := by
  intro notice hnotice
  obtain ⟨rejection, _, rfl⟩ := List.mem_map.mp hnotice
  rfl

/-- The copy of a declaration gives the same fragment, and what it reports is what the
declaration reports without the rejected members. -/
theorem bindDeclaration_bindable (registry : Registry) (unit : SourceUnit)
    (declaration : Declaration) :
    bindDeclaration registry unit.bindable declaration.bindable =
      ((bindDeclaration registry unit declaration).1,
        (bindDeclaration registry unit declaration).2.filter fun notice =>
          !notice.cause.isRejection) := by
  cases declaration with
  | «class» kind c =>
      have hrejected := isRejection_of_rejectionNotice c.name c.checkMembers.2
      cases kind with
      | interface =>
          have hfound := not_isRejection_of_bindInterface registry c.bindable
            (objectName registry unit c)
          simp only [Declaration.bindable, bindDeclaration, objectName_bindable,
            c.checkMembers_bindable, List.map_nil, List.nil_append]
          exact congrArg (Prod.mk _) (filter_rejections hrejected hfound).symm
      | dictionary =>
          have hfound := not_isRejection_of_bindDictionary registry c.bindable
            (objectName registry unit c)
          simp only [Declaration.bindable, bindDeclaration, objectName_bindable,
            c.checkMembers_bindable, List.map_nil, List.nil_append]
          exact congrArg (Prod.mk _) (filter_rejections hrejected hfound).symm
  | function f => rfl
  | unknown kind name => rfl

theorem fragments_bindable (registry : Registry) (unit : SourceUnit) :
    fragments registry unit.bindable = fragments registry unit := by
  have hdeclarations : unit.bindable.declarations =
      unit.declarations.map Declaration.bindable := rfl
  rw [fragments, fragments, hdeclarations, List.filterMap_map]
  refine List.filterMap_congr fun declaration _ => ?_
  rw [Function.comp_apply, bindDeclaration_bindable]

theorem diagnostics_bindable (registry : Registry) (unit : SourceUnit) :
    diagnostics registry unit.bindable = (diagnostics registry unit).filter fun diagnostic =>
      !diagnostic.cause.isRejection := by
  have hdeclarations : unit.bindable.declarations =
      unit.declarations.map Declaration.bindable := rfl
  rw [diagnostics, diagnostics, hdeclarations, List.flatMap_map, List.filter_flatMap]
  refine List.flatMap_congr fun declaration _ => ?_
  rw [bindDeclaration_bindable, List.filter_map]
  rfl

theorem generate_bindable {settings : Settings} (hlenient : settings.strict = false)
    (registry : Registry) (templates : TemplateSet) (unit : SourceUnit) :
    generate registry templates settings unit.bindable =
      (generate registry templates settings unit).map GeneratedUnit.withoutRejections := by
  have hname : unit.bindable.fileName = unit.fileName := rfl
  exact generate_of_same_fragments hlenient hname (fragments_bindable registry unit)
    (List.filter fun diagnostic => !diagnostic.cause.isRejection)
    (diagnostics_bindable registry unit) templates

theorem buildRegistry_bindable (units : List SourceUnit) :
    buildRegistry (units.map SourceUnit.bindable) = buildRegistry units := by
  have hvalidate : (units.map SourceUnit.bindable).forM SourceUnit.validate =
      units.forM SourceUnit.validate := by
    have hmap : (units.map SourceUnit.bindable).forM SourceUnit.validate =
        units.forM fun unit => unit.bindable.validate := List.forM_map
    simp only [hmap, SourceUnit.validate_bindable]
  have htwice : (units.map SourceUnit.bindable).map SourceUnit.bindable =
      units.map SourceUnit.bindable := by
    rw [List.map_map]
    exact List.map_congr_left fun unit _ => unit.bindable_bindable
  rw [buildRegistry, buildRegistry, hvalidate, htwice]

/-- A lenient run of the copies ends as the run of the units does. -/
theorem generateAll_bindable {settings : Settings} (hlenient : settings.strict = false)
    (units : List SourceUnit) (templates : TemplateSet) (choice : ErrorChoice GenerationError) :
    generateAll (units.map SourceUnit.bindable) templates settings choice =
      (generateAll units templates settings choice).map
        (List.map GeneratedUnit.withoutRejections) := by
  rw [generateAll, generateAll, buildRegistry_bindable]
  cases buildRegistry units with
  | error error => rfl
  | ok registry =>
      change choice.traverse _ _ (units.map SourceUnit.bindable) = _
      rw [ErrorChoice.traverse_comp]
      exact ErrorChoice.traverse_map (generate_bindable hlenient registry templates) units

/-- A lenient run of the units succeeds exactly when one of their bindable copies does.
Unit for unit both give the same text and class name, and the run of the copies has the
diagnostics of the other, in order, without those about rejected members; when they
fail, they fail alike. The units and the copies also make the same registry, as far as
names, kinds, places of declaration and emitted names go. -/
theorem rejected_as_undeclared {settings : Settings} (hlenient : settings.strict = false)
    (units : List SourceUnit) (templates : TemplateSet)
    (choice other : ErrorChoice GenerationError) :
    ((∃ generated, generateAll units templates settings choice = .ok generated) ↔
      ∃ reduced, generateAll (units.map SourceUnit.bindable) templates settings other =
        .ok reduced) ∧
    (∀ generated reduced, generateAll units templates settings choice = .ok generated →
      generateAll (units.map SourceUnit.bindable) templates settings other = .ok reduced →
      List.Forall₂ (fun out less => less.source = out.source ∧ less.className = out.className ∧
        less.diagnostics = out.diagnostics.filter fun diagnostic => !diagnostic.cause.isRejection)
        generated reduced) ∧
    (∀ error, generateAll units templates settings choice = .error error ↔
      generateAll (units.map SourceUnit.bindable) templates settings choice = .error error) ∧
    ((∃ registry, Registry.build units = .ok registry) ↔
      ∃ reduced, Registry.build (units.map SourceUnit.bindable) = .ok reduced) ∧
    ∀ registry reduced, Registry.build units = .ok registry →
      Registry.build (units.map SourceUnit.bindable) = .ok reduced →
      reduced.names = registry.names ∧
      ∀ name, (reduced.get? name).map (fun c => (c.kind, c.unit, c.isPrimary, c.emittedName)) =
        (registry.get? name).map fun c => (c.kind, c.unit, c.isPrimary, c.emittedName) := by
  simp only [generateAll_eq_ok_congr other choice]
  rw [generateAll_bindable hlenient, Registry.build_map_bindable]
  refine ⟨?_, ?_, ?_, ?_, ?_⟩
  · rw [Sequence.exists_map_eq_ok_iff]
  · intro generated reduced hgenerated hreduced
    rw [hgenerated] at hreduced
    cases hreduced
    exact List.forall₂_map_right_iff.mpr (List.forall₂_same.mpr fun out _ => ⟨rfl, rfl, rfl⟩)
  · intro error
    rw [Sequence.map_eq_error_iff]
  · rw [Sequence.exists_map_eq_ok_iff]
  · intro registry reduced hregistry hreduced
    rw [hregistry] at hreduced
    cases hreduced
    refine ⟨registry.names_bindable, fun name => ?_⟩
    rw [registry.get?_bindable, Option.map_map]
    rfl

/-- A class that declares a name three times, of which one can stay. -/
def areas : List SourceUnit :=
  [⟨"shape.idl", [.class .interface ⟨"Shape", none,
    [.attribute ⟨"area", .double, true⟩, .attribute ⟨"area", .int32, false⟩,
      .operation ⟨"area", [], .void⟩]⟩]⟩]

theorem registrable_areas : Registrable areas :=
  registrable_of_checks (by decide) (by decide) rfl

theorem rejected_as_undeclared_areas :
    ∃ templates out less, TemplateSet.ofSources TemplateSet.slotsOnly = .ok templates ∧
      (∀ choice, generateAll areas templates .standard choice = .ok [out]) ∧
      (∀ choice, generateAll (areas.map SourceUnit.bindable) templates .standard choice =
        .ok [less]) ∧
      less.source = out.source ∧ out.diagnostics.length = 2 ∧ less.diagnostics = [] := by
  obtain ⟨templates, hread⟩ := TemplateSet.exists_ofSources_slotsOnly
  obtain ⟨generated, hgenerated⟩ : ∃ generated, ∀ choice,
      generateAll areas templates .standard choice = .ok generated :=
    exists_generateAll registrable_areas (TemplateSet.loaded_of_ofSources hread)
      fun hstrict => absurd hstrict (by decide)
  obtain ⟨hsucceeds, hsame, _⟩ :=
    rejected_as_undeclared (rfl : Settings.standard.strict = false) areas templates .first .first
  obtain ⟨reduced, hreduced⟩ := hsucceeds.mp ⟨generated, hgenerated .first⟩
  have hunits := hsame generated reduced (hgenerated .first) hreduced
  obtain ⟨-, hgiven⟩ := generateAll_eq_ok_iff.mp (hgenerated .first)
  obtain ⟨out, _, hout, hnil, rfl⟩ := List.forall₂_cons_left_iff.mp hgiven
  cases hnil
  obtain ⟨less, _, ⟨hsource, _, hdiagnostics⟩, hnil, rfl⟩ := List.forall₂_cons_left_iff.mp hunits
  cases hnil
  have hfound := (diagnostics_of_generate hout).1
  refine ⟨templates, out, less, hread, hgenerated,
    fun choice => (generateAll_eq_ok_congr choice .first).mpr hreduced, hsource, ?_, ?_⟩
  · rw [hfound]
    decide
  · rw [hdiagnostics, hfound]
    decide

end Generation

end IdlBindings
