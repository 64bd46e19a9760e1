import IdlBindings.Proofs.Generation.SideBySide
import IdlBindings.Proofs.Generation.UnitText
import IdlBindings.Proofs.Schema.Bindable
import IdlBindings.Proofs.Template.Spelling

/-!
How a run ends. Units are checked, registered and generated in that order, so a
run succeeds exactly when the units are valid, no class name is declared twice, no
class is its own proper ancestor and, in a strict run, nothing is left out. When it
fails, the error is that of the first of these conditions that does not hold. Units
are checked in order. Where they are generated side by side, the error of a strict run
may be that of any unit with diagnostics, and otherwise it is that of the first.
-/

namespace IdlBindings.Generation

open Relation

/-- The registry that units are generated against. -/
def runRegistry (units : List SourceUnit) : Registry :=
  .ofUnits (units.map SourceUnit.bindable)

/-- Units that can be registered together. -/
structure Registrable (units : List SourceUnit) : Prop where
  valid : ∀ unit ∈ units, unit.validate = .ok ()
  distinct : (declaredNames units).Nodup
  acyclic : ∀ name, ¬ TransGen (DeclaresParent units) name name

/-- The errors that a run of some units may end with, each with what it tells
about the units. The last case compares a strict run with the lenient one, in which the
units before have no diagnostics unless they are generated side by side. -/
inductive Failure (units : List SourceUnit) (templates : TemplateSet) (settings : Settings)
    (choice : ErrorChoice GenerationError) : GenerationError → Prop
  | invalid {before after : List SourceUnit} {unit : SourceUnit} {error : SchemaError}
      (hunits : units = before ++ unit :: after)
      (hbefore : ∀ earlier ∈ before, earlier.validate = .ok ())
      (hinvalid : unit.validate = .error error) :
      Failure units templates settings choice (.schema error)
  | duplicate {name first second : String}
      (hvalid : ∀ unit ∈ units, unit.validate = .ok ())
      (hrepeated : ¬ (declaredNames units).Nodup) :
      Failure units templates settings choice (.schema (.duplicateClass name first second))
  | circular {path : List String} {name : String}
      (hvalid : ∀ unit ∈ units, unit.validate = .ok ())
      (hdistinct : (declaredNames units).Nodup)
      (hloop : TransGen (DeclaresParent units) name name) :
      Failure units templates settings choice (.schema (.circularInheritance path))
  | strict {before after : List SourceUnit} {unit : SourceUnit}
      {passed rest : List GeneratedUnit} {lenient : GeneratedUnit}
      (hregistrable : Registrable units) (hstrict : settings.strict = true)
      (hunits : units = before ++ unit :: after)
      (hlenient : generateAll units templates { settings with strict := false } choice =
        .ok (passed ++ lenient :: rest))
      (hposition : passed.length = before.length)
      (hpassed : settings.parallel = false ∨ choice = .first →
        ∀ earlier ∈ passed, earlier.diagnostics = [])
      (hfound : lenient.diagnostics ≠ []) :
      Failure units templates settings choice (.strict unit.fileName lenient.diagnostics.length)

theorem acyclic_runRegistry_iff {units : List SourceUnit} (hnodup : (declaredNames units).Nodup) :
    (runRegistry units).Acyclic ↔ ∀ name, ¬ TransGen (DeclaresParent units) name name := by
  have hsame : DeclaresParent (units.map SourceUnit.bindable) = DeclaresParent units := by
    funext child parent
    exact propext declaresParent_map_bindable_iff
  rw [runRegistry, Registry.acyclic_ofUnits_iff ((declaredNames_map_bindable units).symm ▸ hnodup),
    hsame]

theorem build_bindable_eq_ok_iff {units : List SourceUnit} {registry : Registry} :
    Registry.build (units.map SourceUnit.bindable) = .ok registry ↔
      (declaredNames units).Nodup ∧ (∀ name, ¬ TransGen (DeclaresParent units) name name) ∧
        registry = runRegistry units := by
  rw [Registry.build_eq_ok_iff, declaredNames_map_bindable]
  refine and_congr_right fun hnodup => ?_
  exact and_congr (acyclic_runRegistry_iff hnodup) Iff.rfl

theorem buildRegistry_eq_ok_iff {units : List SourceUnit} {registry : Registry} :
    buildRegistry units = .ok registry ↔ Registrable units ∧ registry = runRegistry units := by
  rw [buildRegistry, Sequence.bind_eq_ok_iff]
  constructor
  · rintro ⟨_, hvalid, hbuild⟩
    obtain ⟨hdistinct, hacyclic, hregistry⟩ :=
      build_bindable_eq_ok_iff.mp (Sequence.mapError_eq_ok_iff.mp hbuild)
    have hchecked := Sequence.forM_eq_ok_iff.mp (Sequence.mapError_eq_ok_iff.mp hvalid)
    exact ⟨⟨hchecked, hdistinct, hacyclic⟩, hregistry⟩
  · rintro ⟨⟨hvalid, hdistinct, hacyclic⟩, hregistry⟩
    refine ⟨(), Sequence.mapError_eq_ok_iff.mpr (Sequence.forM_eq_ok_iff.mpr hvalid), ?_⟩
    exact Sequence.mapError_eq_ok_iff.mpr
      (build_bindable_eq_ok_iff.mpr ⟨hdistinct, hacyclic, hregistry⟩)

/-- Before anything is generated a run can fail in three ways, tried in order. -/
theorem failure_of_buildRegistry {units : List SourceUnit} {error : GenerationError}
    (templates : TemplateSet) (settings : Settings) (choice : ErrorChoice GenerationError)
    (h : buildRegistry units = .error error) :
    Failure units templates settings choice error := by
  rw [buildRegistry] at h
  cases hvalidate : units.forM SourceUnit.validate with
  | error e =>
      rw [hvalidate] at h
      cases h
      obtain ⟨before, unit, after, hunits, hbefore, hinvalid⟩ := Sequence.forM_eq_error hvalidate
      exact .invalid hunits hbefore hinvalid
  | ok u =>
      have hvalid := Sequence.forM_eq_ok_iff.mp hvalidate
      rw [hvalidate] at h
      obtain ⟨e, hbuild, rfl⟩ := Sequence.mapError_eq_error_iff.mp h
      rcases Registry.build_eq_error hbuild with
        ⟨hrepeated, name, first, second, rfl⟩ | ⟨hdistinct, hcyclic, path, rfl⟩
      · rw [declaredNames_map_bindable] at hrepeated
        exact .duplicate hvalid hrepeated
      · rw [declaredNames_map_bindable] at hdistinct
        have hloop : ∃ name, TransGen (DeclaresParent units) name name := by
          by_contra hnone
          exact hcyclic ((acyclic_runRegistry_iff hdistinct).mpr (not_exists.mp hnone))
        obtain ⟨name, hname⟩ := hloop
        exact .circular hvalid hdistinct hname

/-- Units can be registered if they pass the checks that a run makes. -/
theorem registrable_of_checks {units : List SourceUnit}
    (hvalid : ∀ unit ∈ units, unit.validate = .ok ()) (hdistinct : (declaredNames units).Nodup)
    (hloops : (runRegistry units).checkLoops = .ok ()) : Registrable units := by
  refine ⟨hvalid, hdistinct, ?_⟩
  rw [← acyclic_runRegistry_iff hdistinct]
  exact Registry.acyclic_of_checkLoops_eq_ok hloops

theorem generateAll_of_registrable {units : List SourceUnit} (h : Registrable units)
    (templates : TemplateSet) (settings : Settings) (choice : ErrorChoice GenerationError) :
    generateAll units templates settings choice =
      choice.traverse settings.parallel (generate (runRegistry units) templates settings)
        units := by
  rw [generateAll, buildRegistry_eq_ok_iff.mpr ⟨h, rfl⟩]
  rfl

theorem generateAll_eq_ok_iff {units : List SourceUnit} {templates : TemplateSet}
    {settings : Settings} {choice : ErrorChoice GenerationError}
    {generated : List GeneratedUnit} :
    generateAll units templates settings choice = .ok generated ↔ Registrable units ∧
      List.Forall₂ (fun unit out => generate (runRegistry units) templates settings unit = .ok out)
        units generated := by
  constructor
  · intro hok
    obtain ⟨registry, hregistry, hgenerated⟩ := Sequence.bind_eq_ok_iff.mp hok
    obtain ⟨hregistrable, rfl⟩ := buildRegistry_eq_ok_iff.mp hregistry
    exact ⟨hregistrable, ErrorChoice.traverse_eq_ok_iff.mp hgenerated⟩
  · rintro ⟨hregistrable, hgenerated⟩
    rw [generateAll_of_registrable hregistrable]
    exact ErrorChoice.traverse_eq_ok_iff.mpr hgenerated

/-- The choice of an error has no part in a run that succeeds. -/
theorem generateAll_eq_ok_congr {units : List SourceUnit} {templates : TemplateSet}
    {settings : Settings} (choice other : ErrorChoice GenerationError)
    {generated : List GeneratedUnit} :
    generateAll units templates settings choice = .ok generated ↔
      generateAll units templates settings other = .ok generated := by
  rw [generateAll_eq_ok_iff, generateAll_eq_ok_iff]

/-- What a unit gives: its output in a lenient run, which a strict run refuses
when it has diagnostics. -/
structure Gives (registry : Registry) (templates : TemplateSet) (unit : SourceUnit)
    (out : GeneratedUnit) : Prop where
  diagnostics_eq : out.diagnostics = diagnostics registry unit
  generate_eq : ∀ settings : Settings, generate registry templates settings unit =
    if settings.strict && !out.diagnostics.isEmpty then
      .error (.strict unit.fileName out.diagnostics.length)
    else .ok out

theorem exists_gives {templates : TemplateSet} (hloaded : templates.Loaded) (registry : Registry)
    (unit : SourceUnit) : ∃ out, Gives registry templates unit out := by
  obtain ⟨_, framed, _, _, hgenerate⟩ := generate_of_loaded hloaded registry unit
  exact ⟨⟨unit.fileName, Naming.className unit.stem, Text.dropBlankLines framed,
    diagnostics registry unit⟩, rfl, hgenerate⟩

theorem exists_forall₂_gives {templates : TemplateSet} (hloaded : templates.Loaded)
    (registry : Registry) (units : List SourceUnit) :
    ∃ outs, List.Forall₂ (Gives registry templates) units outs := by
  induction units with
  | nil => exact ⟨[], .nil⟩
  | cons unit units ih =>
      obtain ⟨out, hout⟩ := exists_gives hloaded registry unit
      obtain ⟨outs, houts⟩ := ih
      exact ⟨out :: outs, .cons hout houts⟩

namespace Gives

variable {registry : Registry} {templates : TemplateSet} {settings : Settings}

theorem generate_ok {unit : SourceUnit} {out : GeneratedUnit}
    (h : Gives registry templates unit out)
    (hkept : settings.strict = true → out.diagnostics = []) :
    generate registry templates settings unit = .ok out := by
  rw [h.generate_eq, if_neg]
  intro hrefused
  obtain ⟨hstrict, hfound⟩ := Bool.and_eq_true_iff.mp hrefused
  simp [hkept hstrict] at hfound

theorem of_error {unit : SourceUnit} {out : GeneratedUnit} {error : GenerationError}
    (h : Gives registry templates unit out)
    (herror : generate registry templates settings unit = .error error) :
    settings.strict = true ∧ out.diagnostics ≠ [] ∧
      error = .strict unit.fileName out.diagnostics.length := by
  rw [h.generate_eq] at herror
  split at herror
  · rename_i hrefused
    obtain ⟨hstrict, hfound⟩ := Bool.and_eq_true_iff.mp hrefused
    refine ⟨hstrict, ?_, (Except.error.inj herror).symm⟩
    simpa using hfound
  · cases herror

end Gives

theorem generate_of_gives {registry : Registry} {templates : TemplateSet}
    {settings : Settings} {units : List SourceUnit} {outs : List GeneratedUnit}
    (h : List.Forall₂ (Gives registry templates) units outs)
    (hkept : settings.strict = true → ∀ out ∈ outs, out.diagnostics = []) :
    List.Forall₂ (fun unit out => generate registry templates settings unit = .ok out)
      units outs := by
  induction h with
  | nil => exact .nil
  | cons hout _ ih =>
      refine .cons (hout.generate_ok fun hstrict => hkept hstrict _ List.mem_cons_self) (ih ?_)
      exact fun hstrict out hmem => hkept hstrict out (List.mem_cons_of_mem _ hmem)

section Run

variable {units : List SourceUnit} {templates : TemplateSet} {settings : Settings}
  {choice : ErrorChoice GenerationError}

/-- A run of units that can be registered fails only by being strict, at a unit for which
the lenient run has diagnostics. -/
theorem failure_of_traverse {error : GenerationError} (hloaded : templates.Loaded)
    (hregistrable : Registrable units)
    (h : choice.traverse settings.parallel (generate (runRegistry units) templates settings)
      units = .error error) :
    Failure units templates settings choice error := by
  obtain ⟨outs, houts⟩ := exists_forall₂_gives hloaded (runRegistry units) units
  -- What the units give is what the lenient run returns; the strict run stops in it.
  have hlenient : generateAll units templates { settings with strict := false } choice =
      .ok outs := by
    refine generateAll_eq_ok_iff.mpr ⟨hregistrable, generate_of_gives houts fun hstrict => ?_⟩
    exact absurd hstrict Bool.false_ne_true
  obtain ⟨before, unit, after, hunits, herror, hbefore⟩ := ErrorChoice.traverse_eq_error h
  obtain ⟨passed, out, rest, rfl, hpassed, hout, _⟩ := Sequence.forall₂_split hunits houts
  obtain ⟨hstrict, hfound, rfl⟩ := hout.of_error herror
  refine .strict hregistrable hstrict hunits hlenient hpassed.length_eq.symm ?_ hfound
  intro hordered earlier hmem
  obtain ⟨checked, hchecked, hgives⟩ := Sequence.exists_left_of_mem hpassed hmem
  obtain ⟨result, hresult⟩ := hbefore hordered checked hchecked
  rw [hgives.diagnostics_eq]
  exact (diagnostics_of_generate hresult).2 hstrict

theorem failure_of_generateAll {error : GenerationError} (hloaded : templates.Loaded)
    (h : generateAll units templates settings choice = .error error) :
    Failure units templates settings choice error := by
  cases hregistry : buildRegistry units with
  | error e =>
      rw [generateAll, hregistry] at h
      cases h
      exact failure_of_buildRegistry templates settings choice hregistry
  | ok registry =>
      obtain ⟨hregistrable, _⟩ := buildRegistry_eq_ok_iff.mp hregistry
      rw [generateAll_of_registrable hregistrable] at h
      exact failure_of_traverse hloaded hregistrable h

theorem diagnostics_eq_nil_of_generateAll {generated : List GeneratedUnit}
    (hstrict : settings.strict = true)
    (h : generateAll units templates settings choice = .ok generated) :
    ∀ unit ∈ units, diagnostics (runRegistry units) unit = [] := by
  intro unit hunit
  obtain ⟨out, _, hout⟩ := Sequence.exists_right_of_mem (generateAll_eq_ok_iff.mp h).2 hunit
  exact (diagnostics_of_generate hout).2 hstrict

theorem exists_generateAll (hregistrable : Registrable units) (hloaded : templates.Loaded)
    (hkept : settings.strict = true →
      ∀ unit ∈ units, diagnostics (runRegistry units) unit = []) :
    ∃ generated, ∀ choice, generateAll units templates settings choice = .ok generated := by
  obtain ⟨outs, houts⟩ := exists_forall₂_gives hloaded (runRegistry units) units
  refine ⟨outs, fun choice => generateAll_eq_ok_iff.mpr ⟨hregistrable, ?_⟩⟩
  refine generate_of_gives houts fun hstrict out hmem => ?_
  obtain ⟨unit, hunit, hgives⟩ := Sequence.exists_left_of_mem houts hmem
  rw [hgives.diagnostics_eq]
  exact hkept hstrict unit hunit

theorem generate_of_strict {registry : Registry} (hloaded : templates.Loaded)
    (hstrict : settings.strict = true) {unit : SourceUnit}
    (hfound : diagnostics registry unit ≠ []) :
    generate registry templates settings unit =
      .error (.strict unit.fileName (diagnostics registry unit).length) := by
  obtain ⟨out, hout⟩ := exists_gives hloaded registry unit
  rw [hout.generate_eq, hout.diagnostics_eq, if_pos]
  simpa [hstrict] using hfound

/-- Side by side, a strict run may report any unit that has diagnostics. -/
theorem exists_choice_of_diagnostics (hloaded : templates.Loaded)
    (hregistrable : Registrable units) (hparallel : settings.parallel = true)
    (hstrict : settings.strict = true) {unit : SourceUnit} (hunit : unit ∈ units)
    (hfound : diagnostics (runRegistry units) unit ≠ []) :
    ∃ choice, generateAll units templates settings choice =
      .error (.strict unit.fileName (diagnostics (runRegistry units) unit).length) := by
  refine ⟨.preferring (.strict unit.fileName (diagnostics (runRegistry units) unit).length), ?_⟩
  rw [generateAll_of_registrable hregistrable, hparallel]
  exact ErrorChoice.traverse_preferring hunit (generate_of_strict hloaded hstrict hfound)

end Run

/-- How a run ends, for all units, all settings and all templates that were read:
when it succeeds, what it then returns, and which error it ends with otherwise. No
error is about a template. The units of a strict run that have diagnostics can all be the
one that is reported, if they are generated side by side. -/
theorem generateAll_outcome {sources : TemplateKind → Option String} {templates : TemplateSet}
    (hread : TemplateSet.ofSources sources = .ok templates) (units : List SourceUnit)
    (settings : Settings) (choice : ErrorChoice GenerationError) :
    ((∃ generated, generateAll units templates settings choice = .ok generated) ↔
      Registrable units ∧ (settings.strict = true →
        ∀ unit ∈ units, diagnostics (runRegistry units) unit = [])) ∧
    (∀ generated, generateAll units templates settings choice = .ok generated →
      Registry.build (units.map SourceUnit.bindable) = .ok (runRegistry units) ∧
      List.Forall₂ (fun unit out => generate (runRegistry units) templates settings unit = .ok out)
        units generated) ∧
    (∀ error, generateAll units templates settings choice = .error error →
      Failure units templates settings choice error) ∧
    (∀ fault, generateAll units templates settings choice ≠ .error (.template fault)) ∧
    (Registrable units → settings.parallel = true → settings.strict = true →
      ∀ unit ∈ units, diagnostics (runRegistry units) unit ≠ [] →
        ∃ other, generateAll units templates settings other =
          .error (.strict unit.fileName (diagnostics (runRegistry units) unit).length)) := by
  have hloaded := TemplateSet.loaded_of_ofSources hread
  refine ⟨⟨?_, ?_⟩, ?_, fun error => failure_of_generateAll hloaded, ?_, ?_⟩
  · rintro ⟨generated, hok⟩
    exact ⟨(generateAll_eq_ok_iff.mp hok).1,
      fun hstrict => diagnostics_eq_nil_of_generateAll hstrict hok⟩
  · rintro ⟨hregistrable, hkept⟩
    obtain ⟨generated, hgenerated⟩ := exists_generateAll hregistrable hloaded hkept
    exact ⟨generated, hgenerated choice⟩
  · intro generated hok
    obtain ⟨hregistrable, hgenerated⟩ := generateAll_eq_ok_iff.mp hok
    exact ⟨build_bindable_eq_ok_iff.mpr ⟨hregistrable.distinct, hregistrable.acyclic, rfl⟩,
      hgenerated⟩
  · intro fault herror
    cases failure_of_generateAll hloaded herror
  · intro hregistrable hparallel hstrict unit hunit hfound
    exact exists_choice_of_diagnostics hloaded hregistrable hparallel hstrict hunit hfound

/-- A class that is derived from another and points to itself. -/
def circle : ClassDecl :=
  ⟨"Circle", some "Shape", [.operation ⟨"scale", [⟨"factor", .double, false⟩], .pointer "Circle"⟩]⟩

/-- Two units, of which the first gives its class another name. -/
def shapes : List SourceUnit :=
  [⟨"base_shape.idl", [.class .interface ⟨"Shape", none, [.attribute ⟨"area", .double, true⟩]⟩]⟩,
    ⟨"circle.idl", [.class .interface circle]⟩]

theorem registrable_shapes : Registrable shapes :=
  registrable_of_checks (by decide) (by decide) rfl

theorem generateAll_outcome_shapes :
    ∃ templates, TemplateSet.ofSources TemplateSet.slotsOnly = .ok templates ∧
      ∀ choice, ∃ generated, generateAll shapes templates { strict := true } choice =
        .ok generated ∧ generated.length = 2 := by
  obtain ⟨templates, hread⟩ := TemplateSet.exists_ofSources_slotsOnly
  refine ⟨templates, hread, fun choice => ?_⟩
  obtain ⟨hsuccess, hresult, _⟩ := generateAll_outcome hread shapes { strict := true } choice
  obtain ⟨generated, hgenerated⟩ := hsuccess.mpr ⟨registrable_shapes, fun _ => by decide⟩
  exact ⟨generated, hgenerated, (hresult generated hgenerated).2.length_eq.symm⟩

/-- Two units that each declare a kind of object that is not supported. -/
def enumerations : List SourceUnit :=
  [⟨"color", [.unknown "enum" (some "Color")]⟩, ⟨"shape", [.unknown "enum" (some "Shape")]⟩]

/-- Both units have a diagnostic. In order a strict run reports the first; side by side it
may report the second. -/
theorem second_reported_enumerations :
    ∃ templates, TemplateSet.ofSources TemplateSet.slotsOnly = .ok templates ∧
      (∀ choice, generateAll enumerations templates { strict := true, parallel := false } choice =
        .error (.strict "color" 1)) ∧
      ∃ choice, generateAll enumerations templates { strict := true, parallel := true } choice =
        .error (.strict "shape" 1) := by
  obtain ⟨templates, hread⟩ := TemplateSet.exists_ofSources_slotsOnly
  have hloaded := TemplateSet.loaded_of_ofSources hread
  have hregistrable : Registrable enumerations :=
    registrable_of_checks (by decide) (by decide) rfl
  refine ⟨templates, hread, fun choice => ?_, ?_⟩
  · have hcolor : generate (runRegistry enumerations) templates
        { strict := true, parallel := false } ⟨"color", [.unknown "enum" (some "Color")]⟩ =
          .error (.strict "color" 1) := generate_of_strict hloaded rfl (by decide)
    rw [generateAll_of_registrable hregistrable]
    change List.mapM _ ((⟨"color", _⟩ : SourceUnit) :: _) = _
    rw [List.mapM_cons, hcolor]
    rfl
  · have hshape : ⟨"shape", [.unknown "enum" (some "Shape")]⟩ ∈ enumerations := by decide
    exact exists_choice_of_diagnostics hloaded hregistrable rfl rfl hshape (by decide)

end IdlBindings.Generation
