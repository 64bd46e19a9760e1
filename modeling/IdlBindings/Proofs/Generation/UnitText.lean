import IdlBindings.Generation.Run
import IdlBindings.Proofs.Template.Rendering

/-!
The text of one unit. Every fragment of a declaration gives a value to each slot
of its kind, so with templates that were read the text of a unit always exists. It
does not depend on the settings: a strict run differs from a lenient one only in
what it does about diagnostics.
-/

namespace IdlBindings

open Binding

theorem Binding.InterfaceBinding.fragment_complete (binding : InterfaceBinding) :
    binding.fragment.Complete := by
  intro slot hslot
  simp only [InterfaceBinding.fragment, TemplateKind.slots, List.mem_cons, List.not_mem_nil,
    or_false] at hslot
  rcases hslot with rfl | rfl | rfl | rfl | rfl | rfl | rfl | rfl
  all_goals exact ⟨_, rfl⟩

theorem Binding.DictionaryBinding.fragment_complete (binding : DictionaryBinding) :
    binding.fragment.Complete := by
  intro slot hslot
  simp only [DictionaryBinding.fragment, TemplateKind.slots, List.mem_cons, List.not_mem_nil,
    or_false] at hslot
  rcases hslot with rfl | rfl | rfl | rfl | rfl | rfl | rfl
  all_goals exact ⟨_, rfl⟩

namespace Generation

theorem frame_complete (unit : SourceUnit) (className : String) (contents : List String) :
    (frame unit className contents).Complete := by
  intro slot hslot
  simp only [frame, TemplateKind.slots, List.mem_cons, List.not_mem_nil, or_false] at hslot
  rcases hslot with rfl | rfl | rfl
  all_goals exact ⟨_, rfl⟩

/-- The fragment of a class has all its values, among them the name under which
the class is emitted. -/
theorem bindDeclaration_class (registry : Registry) (unit : SourceUnit) (kind : ClassKind)
    (decl : ClassDecl) :
    ∃ fragment, (bindDeclaration registry unit (.class kind decl)).1 = some fragment ∧
      fragment.Complete ∧ "object_name" ∈ fragment.kind.slots ∧
      fragment.slot? "object_name" = some (objectName registry unit decl) := by
  cases kind with
  | interface =>
      exact ⟨_, rfl, InterfaceBinding.fragment_complete _, List.mem_cons_self, rfl⟩
  | dictionary =>
      exact ⟨_, rfl, DictionaryBinding.fragment_complete _, List.mem_cons_self, rfl⟩

/-- The binding of an interface that a unit declares. -/
def interfaceBinding (registry : Registry) (unit : SourceUnit) (c : ClassDecl) : InterfaceBinding :=
  (bindInterface registry c.bindable (objectName registry unit c)).1

theorem bindDeclaration_interface (registry : Registry) (unit : SourceUnit) (c : ClassDecl) :
    (bindDeclaration registry unit (.class .interface c)).1 =
      some (interfaceBinding registry unit c).fragment := rfl

/-- The fragments of a unit are those of its classes. -/
theorem mem_fragments {registry : Registry} {unit : SourceUnit} {fragment : Fragment}
    (h : fragment ∈ fragments registry unit) :
    ∃ kind decl, Declaration.class kind decl ∈ unit.declarations ∧
      (bindDeclaration registry unit (.class kind decl)).1 = some fragment := by
  obtain ⟨declaration, hmem, hfragment⟩ := List.mem_filterMap.mp h
  cases declaration with
  | «class» kind decl => exact ⟨kind, decl, hmem, hfragment⟩
  | function f => cases hfragment
  | unknown kind name => cases hfragment

theorem renderAll_eq_mapM (templates : TemplateSet) (fragments : List Fragment) :
    renderAll templates fragments = fragments.mapM templates.render := by
  induction fragments with
  | nil => rfl
  | cons fragment rest ih => rw [renderAll, List.mapM_cons, ih]

theorem exists_renderAll {templates : TemplateSet} (hloaded : templates.Loaded)
    {fragments : List Fragment} (hcomplete : ∀ fragment ∈ fragments, fragment.Complete) :
    ∃ texts, renderAll templates fragments = .ok texts := by
  induction fragments with
  | nil => exact ⟨[], rfl⟩
  | cons fragment rest ih =>
      obtain ⟨hfirst, hrest⟩ := List.forall_mem_cons.mp hcomplete
      obtain ⟨text, htext⟩ := TemplateSet.exists_render hloaded hfirst
      obtain ⟨texts, htexts⟩ := ih hrest
      refine ⟨text :: texts, ?_⟩
      rw [renderAll, htext, htexts]
      rfl

/-- Generating a unit renders its fragments, puts those that are not blank into
the frame, and can then only fail by being strict. -/
theorem generate_of_loaded {templates : TemplateSet} (hloaded : templates.Loaded)
    (registry : Registry) (unit : SourceUnit) :
    ∃ texts framed, renderAll templates (fragments registry unit) = .ok texts ∧
      templates.render (frame unit (Naming.className unit.stem)
        (texts.filter fun text => !Text.isBlank text)) = .ok framed ∧
      ∀ settings : Settings, generate registry templates settings unit =
        if settings.strict && !(diagnostics registry unit).isEmpty then
          .error (.strict unit.fileName (diagnostics registry unit).length)
        else
          .ok ⟨unit.fileName, Naming.className unit.stem, Text.dropBlankLines framed,
            diagnostics registry unit⟩ := by
  have hcomplete : ∀ fragment ∈ fragments registry unit, fragment.Complete := by
    intro fragment hmem
    obtain ⟨kind, decl, _, hfragment⟩ := mem_fragments hmem
    obtain ⟨found, hfound, hfoundComplete, _⟩ := bindDeclaration_class registry unit kind decl
    rw [hfound] at hfragment
    cases hfragment
    exact hfoundComplete
  obtain ⟨texts, htexts⟩ := exists_renderAll hloaded hcomplete
  obtain ⟨framed, hframed⟩ := TemplateSet.exists_render hloaded
    (frame_complete unit (Naming.className unit.stem)
      (texts.filter fun text => !Text.isBlank text))
  refine ⟨texts, framed, htexts, hframed, fun settings => ?_⟩
  rw [generate, htexts]
  change (if _ then _ else _) = _
  rw [hframed]
  rfl

theorem exists_source_of_generate {registry : Registry} {templates : TemplateSet}
    {settings : Settings} {unit : SourceUnit} {out : GeneratedUnit}
    (h : generate registry templates settings unit = .ok out) :
    (settings.strict && !(diagnostics registry unit).isEmpty) = false ∧ ∃ source,
      out = ⟨unit.fileName, Naming.className unit.stem, source, diagnostics registry unit⟩ := by
  obtain ⟨_, _, hthen⟩ := Sequence.bind_eq_ok_iff.mp h
  simp only at hthen
  split at hthen
  · cases hthen
  · rename_i hkept
    obtain ⟨_, _, hout⟩ := Sequence.bind_eq_ok_iff.mp hthen
    cases hout
    exact ⟨Bool.eq_false_iff.mpr hkept, _, rfl⟩

/-- What is generated tells all that was left out, and a strict run leaves nothing
out. -/
theorem diagnostics_of_generate {registry : Registry} {templates : TemplateSet}
    {settings : Settings} {unit : SourceUnit} {out : GeneratedUnit}
    (h : generate registry templates settings unit = .ok out) :
    out.diagnostics = diagnostics registry unit ∧
      (settings.strict = true → diagnostics registry unit = []) := by
  obtain ⟨hkept, _, rfl⟩ := exists_source_of_generate h
  refine ⟨rfl, fun hstrict => ?_⟩
  simpa [hstrict] using hkept

theorem fileName_of_generate {registry : Registry} {templates : TemplateSet}
    {settings : Settings} {unit : SourceUnit} {out : GeneratedUnit}
    (h : generate registry templates settings unit = .ok out) : out.fileName = unit.fileName := by
  obtain ⟨_, _, rfl⟩ := exists_source_of_generate h
  rfl

/-- A lenient run generates a unit whatever its diagnostics are. -/
theorem generate_of_lenient {settings : Settings} (hlenient : settings.strict = false)
    (registry : Registry) (templates : TemplateSet) (unit : SourceUnit) :
    generate registry templates settings unit = (do
      let texts ← (renderAll templates (fragments registry unit)).mapError .template
      let framed ← (templates.render (frame unit (Naming.className unit.stem)
        (texts.filter fun text => !Text.isBlank text))).mapError .template
      return ⟨unit.fileName, Naming.className unit.stem, Text.dropBlankLines framed,
        diagnostics registry unit⟩) := by
  simp only [generate, hlenient, Bool.false_and, Bool.false_eq_true, if_false]

/-- Two units of one file name with the same fragments give the same in a lenient run, up to
their diagnostics. -/
theorem generate_of_same_fragments {settings : Settings} (hlenient : settings.strict = false)
    {registry : Registry} {unit other : SourceUnit} (hname : other.fileName = unit.fileName)
    (hfragments : fragments registry other = fragments registry unit)
    (change : List Diagnostic → List Diagnostic)
    (hdiagnostics : diagnostics registry other = change (diagnostics registry unit))
    (templates : TemplateSet) :
    generate registry templates settings other =
      (generate registry templates settings unit).map fun out =>
        { out with diagnostics := change out.diagnostics } := by
  have hstem : other.stem = unit.stem := congrArg fileStem hname
  have hframe : frame other = frame unit := by
    funext className contents
    rw [frame, frame, hname]
  rw [generate_of_lenient hlenient, generate_of_lenient hlenient, hfragments, hdiagnostics,
    hframe, hstem, hname]
  cases renderAll templates (fragments registry unit) with
  | error error => rfl
  | ok texts =>
      change ((templates.render (frame unit _ _)).mapError GenerationError.template >>= _) =
        ((templates.render (frame unit _ _)).mapError GenerationError.template >>= _).map _
      cases templates.render (frame unit (Naming.className unit.stem)
          (texts.filter fun text => !Text.isBlank text)) with
      | error error => rfl
      | ok framed => rfl

end Generation

end IdlBindings
