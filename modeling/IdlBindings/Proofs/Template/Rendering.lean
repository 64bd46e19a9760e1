import IdlBindings.Proofs.Sequence
import IdlBindings.Template.Set

/-!
Rendering cannot fail once the templates are read. Reading lets only slots of the
kind through and misses none of them, so a fragment with a value for each slot of
its kind has a value wherever one is asked for, and each of its values stands in
the text.
-/

namespace IdlBindings

namespace Template

theorem not_slot_mem_literalSegments (text : List Char) (name : String) :
    Segment.slot name ∉ literalSegments text := by
  cases text with
  | nil => exact List.not_mem_nil
  | cons c text => simp [literalSegments]

/-- Every slot that is read is one of its kind. -/
theorem mem_slots_of_segmentsFrom {kind : TemplateKind} {reading : Reading} {text : List Char}
    {segments : List Segment} (h : segmentsFrom kind reading text = .ok segments)
    {name : String} (hmem : Segment.slot name ∈ segments) : name ∈ kind.slots := by
  fun_induction segmentsFrom kind reading text generalizing segments with
  | case1 chars =>
      cases h
      exact absurd hmem (not_slot_mem_literalSegments _ _)
  | case2 chars rest ih =>
      obtain ⟨later, hlater, hsegments⟩ := Sequence.bind_eq_ok_iff.mp h
      cases hsegments
      rcases List.mem_append.mp hmem with hliteral | hrest
      · exact absurd hliteral (not_slot_mem_literalSegments _ _)
      · exact ih hlater hrest
  | case3 chars c rest _ ih => exact ih h hmem
  | case4 chars => cases h
  | case5 chars rest read hread =>
      rename_i ih
      obtain ⟨later, hlater, hsegments⟩ := Sequence.bind_eq_ok_iff.mp h
      cases hsegments
      rcases List.mem_cons.mp hmem with hslot | hrest
      · rw [Segment.slot.inj hslot]
        exact hread
      · exact ih hlater hrest
  | case6 chars rest hread => cases h
  | case7 chars c rest _ ih => exact ih h hmem

/-- A template is read when its segments are and no slot of its kind is missing. -/
theorem parse_eq_ok_iff_segmentsOf {kind : TemplateKind} {source : String} {template : Template} :
    parse kind source = .ok template ↔
      template.kind = kind ∧ segmentsOf kind source.toList = .ok template.segments ∧
        ∀ slot ∈ kind.slots, Segment.slot slot ∈ template.segments := by
  obtain ⟨itsKind, itsSegments⟩ := template
  unfold parse
  cases hread : segmentsOf kind source.toList with
  | error fault => simp
  | ok segments =>
      cases hmissing : kind.slots.find? fun slot => !segments.contains (.slot slot) with
      | some slot =>
          have habsent := List.find?_some hmissing
          have hslot := List.mem_of_find?_eq_some hmissing
          simp only [hmissing, reduceCtorEq, false_iff, not_and]
          rintro _ hsame hall
          cases hsame
          simp [hall slot hslot] at habsent
      | none =>
          have hall : ∀ slot ∈ kind.slots, Segment.slot slot ∈ segments := by
            simpa using List.find?_eq_none.mp hmissing
          simp only [hmissing, Except.ok.injEq, Template.mk.injEq]
          constructor
          · rintro ⟨rfl, rfl⟩
            exact ⟨rfl, rfl, hall⟩
          · rintro ⟨rfl, rfl, _⟩
            exact ⟨rfl, rfl⟩

/-- A template that was read has the slots of its kind and no others. -/
theorem slots_of_parse {kind : TemplateKind} {source : String} {template : Template}
    (h : parse kind source = .ok template) :
    template.kind = kind ∧
      ∀ name, Segment.slot name ∈ template.segments ↔ name ∈ kind.slots := by
  obtain ⟨hkind, hread, hpresent⟩ := parse_eq_ok_iff_segmentsOf.mp h
  exact ⟨hkind, fun name => ⟨mem_slots_of_segmentsFrom hread, hpresent name⟩⟩

theorem exists_renderSegments (fragment : Fragment) (segments : List Segment)
    (hvalues : ∀ name, Segment.slot name ∈ segments → ∃ value, fragment.slot? name = some value) :
    ∃ text, renderSegments fragment segments = .ok text := by
  induction segments with
  | nil => exact ⟨"", rfl⟩
  | cons segment rest ih =>
      obtain ⟨later, hlater⟩ := ih fun name hmem => hvalues name (List.mem_cons_of_mem _ hmem)
      have hfirst : ∃ text, renderSegment fragment segment = .ok text := by
        cases segment with
        | literal text => exact ⟨_, rfl⟩
        | slot name =>
            obtain ⟨value, hvalue⟩ := hvalues name List.mem_cons_self
            exact ⟨value, by simp only [renderSegment, hvalue]⟩
      obtain ⟨text, htext⟩ := hfirst
      refine ⟨text ++ later, ?_⟩
      rw [renderSegments, htext, hlater]
      rfl

/-- The value of a slot stands where the slot does. -/
theorem value_in_renderSegments {fragment : Fragment} {segments : List Segment} {text : String}
    (h : renderSegments fragment segments = .ok text) {name value : String}
    (hmem : Segment.slot name ∈ segments) (hvalue : fragment.slot? name = some value) :
    ∃ before after, text = before ++ value ++ after := by
  induction segments generalizing text with
  | nil => cases hmem
  | cons segment rest ih =>
      rw [renderSegments] at h
      obtain ⟨first, hfirst, hthen⟩ := Sequence.bind_eq_ok_iff.mp h
      obtain ⟨later, hlater, htext⟩ := Sequence.bind_eq_ok_iff.mp hthen
      cases htext
      rcases List.mem_cons.mp hmem with rfl | hrest
      · simp only [renderSegment, hvalue, Except.ok.injEq] at hfirst
        subst hfirst
        exact ⟨"", later, by rw [String.empty_append]⟩
      · obtain ⟨before, after, rfl⟩ := ih hlater hrest
        exact ⟨first ++ before, after, by simp only [String.append_assoc]⟩

end Template

/-- A value is given for every slot of the fragment's kind. -/
def Fragment.Complete (fragment : Fragment) : Prop :=
  ∀ slot ∈ fragment.kind.slots, ∃ value, fragment.slot? slot = some value

namespace TemplateSet

/-- Each template is of its own kind, and has the slots of that kind. -/
def Loaded (templates : TemplateSet) : Prop :=
  ∀ kind, (templates.get kind).kind = kind ∧
    ∀ name, Segment.slot name ∈ (templates.get kind).segments ↔ name ∈ kind.slots

theorem loaded_of_ofSources {sources : TemplateKind → Option String} {templates : TemplateSet}
    (h : ofSources sources = .ok templates) : templates.Loaded := by
  obtain ⟨base, hbase, h⟩ := Sequence.bind_eq_ok_iff.mp h
  obtain ⟨interface, hinterface, h⟩ := Sequence.bind_eq_ok_iff.mp h
  obtain ⟨dictionary, hdictionary, h⟩ := Sequence.bind_eq_ok_iff.mp h
  obtain ⟨globalFunction, hglobalFunction, h⟩ := Sequence.bind_eq_ok_iff.mp h
  cases h
  intro kind
  cases kind with
  | base => exact Template.slots_of_parse hbase
  | interface => exact Template.slots_of_parse hinterface
  | dictionary => exact Template.slots_of_parse hdictionary
  | globalFunction => exact Template.slots_of_parse hglobalFunction

theorem exists_render {templates : TemplateSet} (hloaded : templates.Loaded)
    {fragment : Fragment} (hcomplete : fragment.Complete) :
    ∃ text, templates.render fragment = .ok text := by
  obtain ⟨hkind, hslots⟩ := hloaded fragment.kind
  obtain ⟨text, htext⟩ := Template.exists_renderSegments fragment
    (templates.get fragment.kind).segments fun name hmem => hcomplete name ((hslots name).mp hmem)
  refine ⟨text, ?_⟩
  rw [render, Template.render, if_pos hkind.symm, htext]
  rfl

theorem value_in_render {templates : TemplateSet} (hloaded : templates.Loaded)
    {fragment : Fragment} {text : String} (h : templates.render fragment = .ok text)
    {slot value : String} (hslot : slot ∈ fragment.kind.slots)
    (hvalue : fragment.slot? slot = some value) :
    ∃ before after, text = before ++ value ++ after := by
  obtain ⟨hkind, hslots⟩ := hloaded fragment.kind
  rw [render, Template.render, if_pos hkind.symm, Sequence.mapError_eq_ok_iff] at h
  exact Template.value_in_renderSegments h ((hslots slot).mpr hslot) hvalue

end TemplateSet

end IdlBindings
