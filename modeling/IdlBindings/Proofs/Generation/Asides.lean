import IdlBindings.Proofs.Generation.RunOutcome
import IdlBindings.Proofs.Registry.Bindable

/-!
Declarations without a template. They have no fragment and are never registered, so they
may be put anywhere among the other declarations of a unit; put before its first class,
they leave that class the one that is named for the unit. A lenient run gives the same
texts with and without them. It only reports those of an unknown kind, each where it
stands.
-/

namespace IdlBindings

/-- A declaration without a template. -/
inductive Aside
  | function (f : FreeFunction)
  | unknown (kind : String) (name : Option String)

namespace Aside

def declaration : Aside → Declaration
  | .function f => .function f
  | .unknown kind name => .unknown kind name

/-- What is reported about it in the unit of that file name. -/
def reports (fileName : String) : Aside → List Diagnostic
  | .function _ => []
  | .unknown kind name =>
    [{ object := name.getD "<anonymous>", member := none, cause := .unsupportedObject kind,
       unit := fileName }]

end Aside

/-- A unit with asides put in between its declarations. -/
structure InterspersedUnit where
  fileName : String
  parts : List (Declaration ⊕ Aside)

namespace InterspersedUnit

/-- The unit before anything was put into it. -/
def original (unit : InterspersedUnit) : SourceUnit :=
  ⟨unit.fileName, unit.parts.filterMap Sum.getLeft?⟩

/-- The unit with all that was put into it. -/
def extended (unit : InterspersedUnit) : SourceUnit :=
  ⟨unit.fileName, unit.parts.map (Sum.elim id Aside.declaration)⟩

variable (unit : InterspersedUnit)

/-- A list made from the declarations, to which asides add nothing, is made from those that
were there before. -/
theorem filterMap_extended {β : Type} (f : Declaration → Option β)
    (haside : ∀ aside : Aside, f aside.declaration = none) :
    unit.extended.declarations.filterMap f = unit.original.declarations.filterMap f := by
  rw [extended, original, List.filterMap_map, List.filterMap_filterMap]
  refine List.filterMap_congr fun part _ => ?_
  cases part with
  | inl declaration => rfl
  | inr aside => exact haside aside

theorem classes_extended : unit.extended.classes = unit.original.classes := by
  apply unit.filterMap_extended
  intro aside
  cases aside with
  | function f => rfl
  | unknown kind name => rfl

theorem validate_extended : unit.extended.validate = unit.original.validate := by
  rw [SourceUnit.validate, SourceUnit.validate, classes_extended]
  rfl

theorem entries_bindable_extended :
    unit.extended.bindable.entries = unit.original.bindable.entries := by
  rw [SourceUnit.entries, SourceUnit.entries, SourceUnit.classes_bindable,
    SourceUnit.classes_bindable, classes_extended]
  rfl

end InterspersedUnit

namespace Generation

open InterspersedUnit

/-- Registration meets the same classes in the same order. -/
theorem buildRegistry_extended (units : List InterspersedUnit) :
    buildRegistry (units.map extended) = buildRegistry (units.map original) := by
  have hvalidate : (units.map extended).forM SourceUnit.validate =
      (units.map original).forM SourceUnit.validate := by
    have hextended : (units.map extended).forM SourceUnit.validate =
        units.forM fun unit => unit.extended.validate := List.forM_map
    have horiginal : (units.map original).forM SourceUnit.validate =
        units.forM fun unit => unit.original.validate := List.forM_map
    simp only [hextended, horiginal, validate_extended]
  have hentries : ((units.map extended).map SourceUnit.bindable).flatMap SourceUnit.entries =
      ((units.map original).map SourceUnit.bindable).flatMap SourceUnit.entries := by
    simp only [List.flatMap_map, entries_bindable_extended]
  rw [buildRegistry, buildRegistry, hvalidate, Registry.build, Registry.build,
    Registry.registerAll_eq_foldlM, Registry.registerAll_eq_foldlM, hentries]

/-- What is reported about a declaration of a unit. -/
def declarationReports (registry : Registry) (unit : SourceUnit) (declaration : Declaration) :
    List Diagnostic :=
  (bindDeclaration registry unit declaration).2.map fun notice => notice.inUnit unit.fileName

variable (registry : Registry) (unit : InterspersedUnit)

theorem bindDeclaration_extended (declaration : Declaration) :
    bindDeclaration registry unit.extended declaration =
      bindDeclaration registry unit.original declaration := by
  have hname (c : ClassDecl) : objectName registry unit.extended c =
      objectName registry unit.original c := by
    rw [objectName, objectName, unit.classes_extended]
    rfl
  cases declaration with
  | «class» kind c =>
      cases kind with
      | interface => simp only [bindDeclaration, hname]
      | dictionary => simp only [bindDeclaration, hname]
  | function f => rfl
  | unknown kind name => rfl

theorem fragments_extended :
    fragments registry unit.extended = fragments registry unit.original := by
  simp only [fragments, bindDeclaration_extended]
  apply unit.filterMap_extended
  intro aside
  cases aside with
  | function f => rfl
  | unknown kind name => rfl

theorem diagnostics_original :
    diagnostics registry unit.original =
      unit.parts.flatMap (Sum.elim (declarationReports registry unit.original) fun _ => []) := by
  have hreports : diagnostics registry unit.original = (unit.parts.filterMap Sum.getLeft?).flatMap
      (declarationReports registry unit.original) := rfl
  rw [hreports]
  generalize declarationReports registry unit.original = reports
  induction unit.parts with
  | nil => rfl
  | cons part parts ih =>
      cases part with
      | inl declaration => exact congrArg (reports declaration ++ ·) ih
      | inr aside => exact ih

theorem diagnostics_extended :
    diagnostics registry unit.extended = unit.parts.flatMap
      (Sum.elim (declarationReports registry unit.original) (Aside.reports unit.fileName)) := by
  rw [diagnostics]
  simp only [bindDeclaration_extended]
  rw [extended, List.flatMap_map]
  refine List.flatMap_congr fun part _ => ?_
  cases part with
  | inl declaration => rfl
  | inr aside =>
      cases aside with
      | function f => rfl
      | unknown kind name => rfl

/-- What a unit gives with its asides, in a run of units that gives `out` without them. -/
def withAsides (registry : Registry) (unit : InterspersedUnit) (out : GeneratedUnit) :
    GeneratedUnit :=
  { out with diagnostics := diagnostics registry unit.extended }

theorem generate_extended {settings : Settings} (hlenient : settings.strict = false)
    (templates : TemplateSet) :
    generate registry templates settings unit.extended =
      (generate registry templates settings unit.original).map (withAsides registry unit) := by
  have hname : unit.extended.fileName = unit.original.fileName := rfl
  exact generate_of_same_fragments hlenient hname (fragments_extended registry unit)
    (fun _ => diagnostics registry unit.extended) rfl templates

/-- A lenient run ends with the asides as it does without them. -/
theorem generateAll_extended {settings : Settings} (hlenient : settings.strict = false)
    (templates : TemplateSet) (units : List InterspersedUnit)
    (choice : ErrorChoice GenerationError) :
    generateAll (units.map extended) templates settings choice =
      (generateAll (units.map original) templates settings choice).map
        (List.zipWith (withAsides (runRegistry (units.map original))) units) := by
  rw [generateAll, generateAll, buildRegistry_extended]
  cases hregistry : buildRegistry (units.map original) with
  | error error => rfl
  | ok registry =>
      obtain ⟨_, rfl⟩ := buildRegistry_eq_ok_iff.mp hregistry
      change choice.traverse _ _ (units.map extended) =
        (choice.traverse _ _ (units.map original)).map _
      rw [ErrorChoice.traverse_comp, ErrorChoice.traverse_comp]
      exact ErrorChoice.traverse_zipWith
        (fun unit => generate_extended _ unit hlenient templates) units

/-- A lenient run ends alike with and without the asides: both succeed, or both fail with the
same error. Unit for unit they then give the same text and class name. The diagnostics are
those about the unit's own declarations, in order; with the asides there is one more for
each of an unknown kind, at its place among them. -/
theorem asides_only_reported {settings : Settings} (hlenient : settings.strict = false)
    (units : List InterspersedUnit) (templates : TemplateSet)
    (choice other : ErrorChoice GenerationError) :
    ((∃ plain, generateAll (units.map original) templates settings choice = .ok plain) ↔
      ∃ more, generateAll (units.map extended) templates settings other = .ok more) ∧
    (∀ error, generateAll (units.map original) templates settings choice = .error error ↔
      generateAll (units.map extended) templates settings choice = .error error) ∧
    ∀ plain more, generateAll (units.map original) templates settings choice = .ok plain →
      generateAll (units.map extended) templates settings other = .ok more →
      more.length = plain.length ∧
      List.Forall₂ (fun unit (outs : GeneratedUnit × GeneratedUnit) =>
        let own := declarationReports (runRegistry (units.map original)) unit.original
        outs.2.source = outs.1.source ∧ outs.2.className = outs.1.className ∧
          outs.2.fileName = outs.1.fileName ∧
          outs.1.diagnostics = unit.parts.flatMap (Sum.elim own fun _ => []) ∧
          outs.2.diagnostics = unit.parts.flatMap (Sum.elim own (Aside.reports unit.fileName)))
        units (plain.zip more) := by
  simp only [generateAll_eq_ok_congr other choice]
  rw [generateAll_extended hlenient]
  refine ⟨Sequence.exists_map_eq_ok_iff.symm, fun error => Sequence.map_eq_error_iff.symm, ?_⟩
  intro plain more hplain hmore
  rw [hplain] at hmore
  cases hmore
  obtain ⟨-, hgenerated⟩ := generateAll_eq_ok_iff.mp hplain
  rw [List.forall₂_map_left_iff] at hgenerated
  clear hplain
  generalize runRegistry (units.map original) = registry at hgenerated ⊢
  constructor
  · rw [List.length_zipWith, hgenerated.length_eq, Nat.min_self]
  · induction hgenerated with
    | nil => exact .nil
    | @cons unit out _ _ hout _ ih =>
        refine .cons ⟨rfl, rfl, rfl, ?_, diagnostics_extended registry unit⟩ ih
        rw [(diagnostics_of_generate hout).1, diagnostics_original]

/-- A class of which a member cannot be bound, with asides before and after it. -/
def annotated : List InterspersedUnit :=
  [⟨"base_shape.idl",
    [.inr (.unknown "enum" none),
      .inl (.class .interface ⟨"Shape", none, [.attribute ⟨"area", .unsupported, true⟩]⟩),
      .inr (.function ⟨"draw", [], .void⟩), .inr (.unknown "typedef" (some "Callback"))]⟩]

theorem registrable_annotated : Registrable (annotated.map original) :=
  registrable_of_checks (by decide) (by decide) rfl

theorem asides_only_reported_annotated :
    ∃ templates without out, TemplateSet.ofSources TemplateSet.slotsOnly = .ok templates ∧
      (∀ choice, generateAll (annotated.map original) templates .standard choice =
        .ok [without]) ∧
      (∀ choice, generateAll (annotated.map extended) templates .standard choice = .ok [out]) ∧
      out.source = without.source ∧ without.diagnostics.map (·.object) = ["Shape"] ∧
      out.diagnostics.map (·.object) = ["<anonymous>", "Shape", "Callback"] := by
  obtain ⟨templates, hread⟩ := TemplateSet.exists_ofSources_slotsOnly
  obtain ⟨plain, hplain⟩ : ∃ plain, ∀ choice,
      generateAll (annotated.map original) templates .standard choice = .ok plain :=
    exists_generateAll registrable_annotated (TemplateSet.loaded_of_ofSources hread)
      fun hstrict => absurd hstrict (by decide)
  obtain ⟨hsucceeds, _, hsame⟩ :=
    asides_only_reported (rfl : Settings.standard.strict = false) annotated templates .first .first
  obtain ⟨more, hmore⟩ := hsucceeds.mp ⟨plain, hplain .first⟩
  obtain ⟨hlength, hunits⟩ := hsame plain more (hplain .first) hmore
  obtain ⟨outs, _, ⟨hsource, _, _, hwithout, hout⟩, hnil, hzip⟩ :=
    List.forall₂_cons_left_iff.mp hunits
  cases hnil
  obtain ⟨without, out, rfl, rfl, rfl⟩ : ∃ without out, outs = (without, out) ∧
      plain = [without] ∧ more = [out] := by
    have hone : (plain.zip more).length = 1 := congrArg List.length hzip
    rw [List.length_zip, hlength, Nat.min_self] at hone
    obtain ⟨without, rfl⟩ := List.length_eq_one_iff.mp hone
    obtain ⟨out, rfl⟩ := List.length_eq_one_iff.mp hlength
    exact ⟨without, out, by cases hzip; rfl, rfl, rfl⟩
  refine ⟨templates, without, out, hread, hplain,
    fun choice => (generateAll_eq_ok_congr choice .first).mpr hmore, hsource, ?_, ?_⟩
  · rw [hwithout]
    decide
  · rw [hout]
    decide

end Generation

end IdlBindings
