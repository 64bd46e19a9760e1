import IdlBindings.Proofs.Template.Rendering
import Mathlib.Data.List.Chain
import Mathlib.Data.List.Infix
import Mathlib.Data.List.TakeWhile

/-!
Reading a template is the inverse of writing it. A text spells a list of segments when
it is their texts in order, with the name of each slot in double braces and blanks
around it if one likes. Reading a text gives the one list that it spells and that could
not be divided in another way: no literal is empty, has double braces in it or stands
beside another, and none ends in a brace that the braces of a slot would take over.
-/

namespace IdlBindings

namespace Text

def Blanks (chars : List Char) : Prop :=
  ∀ c ∈ chars, isBlankChar c = true

theorem exists_trim (chars : List Char) :
    ∃ before after, Blanks before ∧ Blanks after ∧ chars = before ++ trim chars ++ after := by
  refine ⟨chars.takeWhile isBlankChar,
    ((chars.dropWhile isBlankChar).reverse.takeWhile isBlankChar).reverse,
    fun c hc => List.mem_takeWhile_imp hc,
    fun c hc => List.mem_takeWhile_imp (List.mem_reverse.mp hc), ?_⟩
  rw [trim, List.append_assoc, ← List.reverse_append, List.takeWhile_append_dropWhile,
    List.reverse_reverse, List.takeWhile_append_dropWhile]

theorem dropWhile_isBlankChar_append {name : List Char} (hne : name ≠ [])
    (hname : ∀ c ∈ name, isBlankChar c = false) (rest : List Char) :
    (name ++ rest).dropWhile isBlankChar = name ++ rest := by
  cases name with
  | nil => exact absurd rfl hne
  | cons c name =>
      exact List.dropWhile_cons_of_neg (Bool.eq_false_iff.mp (hname c List.mem_cons_self))

theorem trim_padded {before name after : List Char} (hbefore : Blanks before) (hne : name ≠ [])
    (hname : ∀ c ∈ name, isBlankChar c = false) (hafter : Blanks after) :
    trim (before ++ name ++ after) = name := by
  have hback : name.reverse.dropWhile isBlankChar = name.reverse := by
    have hdrop := dropWhile_isBlankChar_append (List.reverse_ne_nil_iff.mpr hne)
      (fun c hc => hname c (List.mem_reverse.mp hc)) []
    rw [List.append_nil] at hdrop
    exact hdrop
  rw [trim, List.append_assoc, List.dropWhile_append_of_pos hbefore,
    dropWhile_isBlankChar_append hne hname, List.reverse_append,
    List.dropWhile_append_of_pos fun c hc => hafter c (List.mem_reverse.mp hc), hback,
    List.reverse_reverse]

end Text

namespace Template

/-- The character does not stand twice in a row anywhere. -/
def Unpaired (brace : Char) (text : List Char) : Prop :=
  ¬ [brace, brace] <:+: text

theorem unpaired_nil (brace : Char) : Unpaired brace [] := by
  intro h
  simpa using h.length_le

theorem unpaired_cons_iff {brace c : Char} {text : List Char} :
    Unpaired brace (c :: text) ↔ ¬ (c = brace ∧ text.head? = some brace) ∧ Unpaired brace text := by
  have hpair : [brace, brace] <+: c :: text ↔ c = brace ∧ text.head? = some brace := by
    rw [List.cons_prefix_cons, eq_comm]
    cases text with
    | nil => simp
    | cons d text => simp [List.cons_prefix_cons, eq_comm]
  rw [Unpaired, List.infix_cons_iff, not_or, hpair]
  rfl

theorem unpaired_of_not_mem {brace : Char} {text : List Char} (h : brace ∉ text) :
    Unpaired brace text :=
  fun hpair => h (hpair.subset List.mem_cons_self)

theorem unpaired_append_singleton_iff {brace : Char} {text : List Char} :
    Unpaired brace (text ++ [brace]) ↔ Unpaired brace text ∧ text.getLast? ≠ some brace := by
  induction text with
  | nil => simp [unpaired_cons_iff, unpaired_nil]
  | cons c text ih =>
      cases text with
      | nil => simp [unpaired_cons_iff, unpaired_nil]
      | cons d text =>
          rw [List.cons_append, unpaired_cons_iff (c := c), ih, unpaired_cons_iff (c := c),
            List.getLast?_cons_cons, and_assoc]
          rfl

/-- A text divides at the first place where the character stands twice. -/
theorem exists_first_pair (brace : Char) (text : List Char) :
    Unpaired brace text ∨ ∃ front rest, text = front ++ brace :: brace :: rest ∧
      Unpaired brace (front ++ [brace]) := by
  induction text with
  | nil => exact Or.inl (unpaired_nil brace)
  | cons c text ih =>
      by_cases hpair : c = brace ∧ text.head? = some brace
      · obtain ⟨rfl, hhead⟩ := hpair
        obtain ⟨rest, rfl⟩ := List.head?_eq_some_iff.mp hhead
        refine Or.inr ⟨[], rest, rfl, unpaired_cons_iff.mpr ⟨?_, unpaired_nil c⟩⟩
        simp
      · rcases ih with hnone | ⟨front, rest, rfl, hfront⟩
        · exact Or.inl (unpaired_cons_iff.mpr ⟨hpair, hnone⟩)
        · refine Or.inr ⟨c :: front, rest, rfl, unpaired_cons_iff.mpr ⟨?_, hfront⟩⟩
          cases front with
          | nil => exact hpair
          | cons d front => exact hpair

/-- The brace that ends what is being read, when it comes twice. -/
def Reading.brace : Reading → Char
  | .text _ => '\x7b'
  | .slot _ => '\x7d'

/-- What is being read, some characters later. -/
def Reading.later (chars : List Char) : Reading → Reading
  | .text before => .text (chars.reverse ++ before)
  | .slot before => .slot (chars.reverse ++ before)

section Scanning

variable {kind : TemplateKind}

theorem segmentsFrom_cons {reading : Reading} {c : Char} {rest : List Char}
    (h : ¬ (c = reading.brace ∧ rest.head? = some reading.brace)) :
    segmentsFrom kind reading (c :: rest) = segmentsFrom kind (reading.later [c]) rest := by
  cases reading with
  | text before =>
      rw [segmentsFrom]
      · rfl
      · rintro tail rfl rfl
        exact h ⟨rfl, rfl⟩
  | slot before =>
      rw [segmentsFrom]
      · rfl
      · rintro tail rfl rfl
        exact h ⟨rfl, rfl⟩

theorem Reading.later_cons (reading : Reading) (c : Char) (chars : List Char) :
    (reading.later [c]).later chars = reading.later (c :: chars) := by
  cases reading with
  | text before => simp [later]
  | slot before => simp [later]

/-- Characters are read on as long as the brace does not come twice. -/
theorem segmentsFrom_append (reading : Reading) (front rest : List Char)
    (h : Unpaired reading.brace (front ++ rest.take 1)) :
    segmentsFrom kind reading (front ++ rest) = segmentsFrom kind (reading.later front) rest := by
  induction front generalizing reading with
  | nil =>
      cases reading with
      | text before => rfl
      | slot before => rfl
  | cons c front ih =>
      obtain ⟨hpair, hfront⟩ := unpaired_cons_iff.mp h
      have hbrace : (reading.later [c]).brace = reading.brace := by
        cases reading with
        | text before => rfl
        | slot before => rfl
      have hhead : (front ++ rest).head? = (front ++ rest.take 1).head? := by
        cases front with
        | nil =>
            cases rest with
            | nil => rfl
            | cons d rest => rfl
        | cons d front => rfl
      rw [List.cons_append, segmentsFrom_cons (by rw [hhead]; exact hpair),
        ih (reading.later [c]) (by rw [hbrace]; exact hfront), Reading.later_cons]

/-- A text in which the brace never comes twice is read to its end. -/
theorem segmentsFrom_of_unpaired (reading : Reading) (text : List Char)
    (h : Unpaired reading.brace text) :
    segmentsFrom kind reading text = segmentsFrom kind (reading.later text) [] := by
  rw [← segmentsFrom_append reading text [] (by rw [List.take_nil, List.append_nil]; exact h),
    List.append_nil]

/-- A text without double braces is one literal. -/
theorem segmentsOf_of_unpaired {text : List Char} (h : Unpaired '\x7b' text) :
    segmentsOf kind text = .ok (literalSegments text) := by
  rw [segmentsOf, segmentsFrom_of_unpaired (.text []) text h, Reading.later, segmentsFrom,
    List.append_nil, List.reverse_reverse]

/-- Double braces end a literal, and a slot begins. -/
theorem segmentsOf_opening (front rest : List Char) (h : Unpaired '\x7b' (front ++ ['\x7b'])) :
    segmentsOf kind (front ++ '\x7b' :: '\x7b' :: rest) =
      (segmentsFrom kind (.slot []) rest).map (literalSegments front ++ ·) := by
  rw [segmentsOf, segmentsFrom_append (.text []) front ('\x7b' :: '\x7b' :: rest) h,
    Reading.later, segmentsFrom, List.append_nil, List.reverse_reverse]
  cases segmentsFrom kind (.slot []) rest with
  | error fault => rfl
  | ok segments => rfl

theorem segmentsOf_opening_nil (rest : List Char) :
    segmentsOf kind ('\x7b' :: '\x7b' :: rest) = segmentsFrom kind (.slot []) rest := by
  rw [segmentsOf, segmentsFrom]
  cases segmentsFrom kind (.slot []) rest with
  | error fault => rfl
  | ok segments => rfl

theorem segmentsFrom_slot_of_unpaired {inner : List Char} (h : Unpaired '\x7d' inner) :
    segmentsFrom kind (.slot []) inner = .error .unterminated := by
  rw [segmentsFrom_of_unpaired (.slot []) inner h, Reading.later, segmentsFrom]

/-- Double braces end a slot, and the name in it counts without the blanks around it. -/
theorem segmentsFrom_slot_closing {inner rest : List Char}
    (h : Unpaired '\x7d' (inner ++ ['\x7d'])) :
    segmentsFrom kind (.slot []) (inner ++ '\x7d' :: '\x7d' :: rest) =
      if String.ofList (Text.trim inner) ∈ kind.slots then
        (segmentsOf kind rest).map (.slot (String.ofList (Text.trim inner)) :: ·)
      else .error (.unknownSlot (String.ofList (Text.trim inner))) := by
  rw [segmentsFrom_append (.slot []) inner ('\x7d' :: '\x7d' :: rest) h, Reading.later,
    segmentsFrom, List.append_nil, List.reverse_reverse, segmentsOf]
  cases segmentsFrom kind (.text []) rest with
  | error fault => rfl
  | ok segments => rfl

end Scanning

/-- A text that stands for segments: literals as they are, and slots by their name in
double braces, with blanks around it or without. -/
inductive Spells : List Segment → List Char → Prop
  | nil : Spells [] []
  | literal (text : List Char) {segments : List Segment} {rest : List Char} :
      Spells segments rest → Spells (.literal text :: segments) (text ++ rest)
  | slot (name : String) {before after : List Char} {segments : List Segment} {rest : List Char} :
      Text.Blanks before → Text.Blanks after → Spells segments rest →
        Spells (.slot name :: segments)
          ('\x7b' :: '\x7b' :: (before ++ name.toList ++ after ++ '\x7d' :: '\x7d' :: rest))

/-- Which segment may come right before another: no literal before a literal, and none
that ends in a brace before a slot. -/
def MayPrecede : Segment → Segment → Prop
  | .literal _, .literal _ => False
  | .literal text, .slot _ => text.getLast? ≠ some '\x7b'
  | .slot _, _ => True

/-- A literal that is not empty and has no double braces in it. -/
def IsPlain : Segment → Prop
  | .literal text => text ≠ [] ∧ Unpaired '\x7b' text
  | .slot _ => True

/-- Segments that their text can only be divided into in one way. -/
structure Divided (segments : List Segment) : Prop where
  plain : ∀ segment ∈ segments, IsPlain segment
  adjacent : segments.IsChain MayPrecede

/-- Divided segments with the slots of a kind and no others, each as often as one likes. -/
structure WellFormed (kind : TemplateKind) (segments : List Segment) : Prop
    extends Divided segments where
  slots : ∀ name, Segment.slot name ∈ segments ↔ name ∈ kind.slots

theorem divided_nil : Divided [] :=
  ⟨List.forall_mem_nil IsPlain, List.isChain_nil⟩

theorem divided_cons_iff {segment : Segment} {segments : List Segment} :
    Divided (segment :: segments) ↔
      IsPlain segment ∧ (∀ next ∈ segments.head?, MayPrecede segment next) ∧ Divided segments := by
  constructor
  · rintro ⟨hplain, hadjacent⟩
    obtain ⟨hfirst, hrest⟩ := List.forall_mem_cons.mp hplain
    obtain ⟨hnext, hlater⟩ := List.isChain_cons.mp hadjacent
    exact ⟨hfirst, hnext, hrest, hlater⟩
  · rintro ⟨hfirst, hnext, hrest, hlater⟩
    exact ⟨List.forall_mem_cons.mpr ⟨hfirst, hrest⟩, List.isChain_cons.mpr ⟨hnext, hlater⟩⟩

/-- Names of slots have no blanks and no braces in them. -/
theorem plain_of_mem_slots {kind : TemplateKind} {name : String} (h : name ∈ kind.slots) :
    name.toList ≠ [] ∧ (∀ c ∈ name.toList, Text.isBlankChar c = false) ∧
      '\x7d' ∉ name.toList := by
  -- Checked by running through the names: the propositions could be taken to be about
  -- all characters there are.
  have hall : (kind.slots.all fun name => !name.toList.isEmpty &&
      name.toList.all fun c => !Text.isBlankChar c && c != '\x7d') = true := by
    cases kind with
    | base => decide
    | interface => decide
    | dictionary => decide
    | globalFunction => decide
  have hname := List.all_eq_true.mp hall name h
  simp only [Bool.and_eq_true, List.all_eq_true, Bool.not_eq_true', bne_iff_ne] at hname
  obtain ⟨hne, hchars⟩ := hname
  refine ⟨fun hnil => ?_, fun c hc => (hchars c hc).1, fun hbrace => (hchars _ hbrace).2 rfl⟩
  rw [hnil] at hne
  cases hne

theorem Spells.literalSegments_append {rest : List Char} {segments : List Segment}
    (h : Spells segments rest) (front : List Char) :
    Spells (literalSegments front ++ segments) (front ++ rest) := by
  cases front with
  | nil => exact h
  | cons c front => exact .literal (c :: front) h

theorem Divided.literalSegments_append {front : List Char} {segments : List Segment}
    (h : Divided segments) (hfront : Unpaired '\x7b' front)
    (hnext : ∀ next ∈ segments.head?, MayPrecede (.literal front) next) :
    Divided (literalSegments front ++ segments) := by
  cases front with
  | nil => exact h
  | cons c front =>
      exact divided_cons_iff.mpr ⟨⟨List.cons_ne_nil c front, hfront⟩, hnext, h⟩

section Reading

variable {kind : TemplateKind}

/-- Segments that are read are divided and spelled by the text. -/
theorem spells_of_segmentsOf {text : List Char} {segments : List Segment}
    (h : segmentsOf kind text = .ok segments) : Spells segments text ∧ Divided segments := by
  -- One slot is read at a time, with the literal before it; what is left is shorter.
  induction hlength : text.length using Nat.strong_induction_on generalizing text segments with
  | _ n ih =>
      rcases exists_first_pair '\x7b' text with hplain | ⟨front, rest, rfl, hfront⟩
      · rw [segmentsOf_of_unpaired hplain] at h
        cases h
        have hspells := Spells.nil.literalSegments_append text
        have hdivided := divided_nil.literalSegments_append hplain
          (fun _ hnext => (Option.not_mem_none _ hnext).elim)
        simp only [List.append_nil] at hspells hdivided
        exact ⟨hspells, hdivided⟩
      · rw [segmentsOf_opening front rest hfront] at h
        obtain ⟨fromSlot, hslot, rfl⟩ := Sequence.map_eq_ok_iff.mp h
        rcases exists_first_pair '\x7d' rest with hopen | ⟨inner, later, rfl, hinner⟩
        · rw [segmentsFrom_slot_of_unpaired hopen] at hslot
          cases hslot
        · rw [segmentsFrom_slot_closing hinner] at hslot
          split at hslot
          · obtain ⟨segments, hlater, rfl⟩ := Sequence.map_eq_ok_iff.mp hslot
            have hshorter : later.length < n := by
              simp only [List.length_append, List.length_cons] at hlength
              omega
            obtain ⟨hspells, hdivided⟩ := ih later.length hshorter hlater rfl
            obtain ⟨hunpaired, hlast⟩ := unpaired_append_singleton_iff.mp hfront
            obtain ⟨before, after, hbefore, hafter, hpadded⟩ := Text.exists_trim inner
            constructor
            · have hspelled := Spells.slot (String.ofList (Text.trim inner)) hbefore hafter hspells
              rw [String.toList_ofList, ← hpadded] at hspelled
              exact hspelled.literalSegments_append front
            · refine Divided.literalSegments_append
                (divided_cons_iff.mpr ⟨trivial, fun _ _ => trivial, hdivided⟩) hunpaired ?_
              rintro next hnext
              cases hnext
              exact hlast
          · cases hslot

/-- A slot is read back from its name in double braces, whatever blanks are around it. -/
theorem segmentsOf_slot {name : String} {before after rest : List Char} {segments : List Segment}
    (hname : name ∈ kind.slots) (hbefore : Text.Blanks before) (hafter : Text.Blanks after)
    (h : segmentsOf kind rest = .ok segments) :
    segmentsOf kind
      ('\x7b' :: '\x7b' :: (before ++ name.toList ++ after ++ '\x7d' :: '\x7d' :: rest)) =
        .ok (.slot name :: segments) := by
  obtain ⟨hne, hplain, hbrace⟩ := plain_of_mem_slots hname
  have hblank : ∀ chars, Text.Blanks chars → '\x7d' ∉ chars := by
    intro chars hchars hmem
    have hnot : Text.isBlankChar '\x7d' = false := by decide
    rw [hchars _ hmem] at hnot
    cases hnot
  have hnone : '\x7d' ∉ before ++ name.toList ++ after := by
    simp only [List.mem_append, not_or]
    exact ⟨⟨hblank before hbefore, hbrace⟩, hblank after hafter⟩
  have hinner : Unpaired '\x7d' (before ++ name.toList ++ after ++ ['\x7d']) :=
    unpaired_append_singleton_iff.mpr
      ⟨unpaired_of_not_mem hnone, fun hlast => hnone (List.mem_of_getLast? hlast)⟩
  rw [segmentsOf_opening_nil, segmentsFrom_slot_closing hinner,
    Text.trim_padded hbefore hne hplain hafter, String.ofList_toList, if_pos hname, h]
  rfl

/-- A divided list of segments is what its text is read as. -/
theorem segmentsOf_of_spells {segments : List Segment} {text : List Char}
    (h : Spells segments text) (hdivided : Divided segments)
    (hslots : ∀ name, Segment.slot name ∈ segments → name ∈ kind.slots) :
    segmentsOf kind text = .ok segments := by
  induction h with
  | nil => rfl
  | slot name hbefore hafter hrest ih =>
      obtain ⟨_, _, hlater⟩ := divided_cons_iff.mp hdivided
      refine segmentsOf_slot (hslots name List.mem_cons_self) hbefore hafter ?_
      exact ih hlater fun other hmem => hslots other (List.mem_cons_of_mem _ hmem)
  | literal text hrest ih =>
      obtain ⟨⟨hne, hunpaired⟩, hnext, hlater⟩ := divided_cons_iff.mp hdivided
      have hone : literalSegments text = [.literal text] := by
        cases text with
        | nil => exact absurd rfl hne
        | cons c text => rfl
      have hread := ih hlater fun name hmem => hslots name (List.mem_cons_of_mem _ hmem)
      -- Behind a literal there is nothing or a slot; a literal would run on into another.
      cases hrest with
      | nil => rw [List.append_nil, segmentsOf_of_unpaired hunpaired, hone]
      | literal other _ => exact (hnext _ rfl).elim
      | slot name _ _ _ =>
          have hlast : text.getLast? ≠ some '\x7b' := hnext _ rfl
          rw [segmentsOf_opening_nil] at hread
          rw [segmentsOf_opening text _ (unpaired_append_singleton_iff.mpr ⟨hunpaired, hlast⟩),
            hread, hone]
          rfl

/-- Reading a source gives the well-formed segments that it spells. -/
theorem parse_eq_ok_iff {source : String} {template : Template} :
    parse kind source = .ok template ↔
      template.kind = kind ∧ WellFormed kind template.segments ∧
        Spells template.segments source.toList := by
  constructor
  · intro h
    obtain ⟨hkind, hslots⟩ := slots_of_parse h
    obtain ⟨_, hread, _⟩ := parse_eq_ok_iff_segmentsOf.mp h
    obtain ⟨hspells, hdivided⟩ := spells_of_segmentsOf hread
    exact ⟨hkind, ⟨hdivided, hslots⟩, hspells⟩
  · rintro ⟨hkind, hwellFormed, hspells⟩
    refine parse_eq_ok_iff_segmentsOf.mpr ⟨hkind, ?_, fun slot => (hwellFormed.slots slot).mpr⟩
    exact segmentsOf_of_spells hspells hwellFormed.toDivided fun name => (hwellFormed.slots name).mp

end Reading

/-- The name of a slot in double braces. -/
def placeholder (slot : String) : String :=
  "\x7b\x7b" ++ slot ++ "\x7d\x7d"

/-- The text of segments without blanks in the braces. -/
def printed : List Segment → String
  | [] => ""
  | .literal text :: rest => String.ofList text ++ printed rest
  | .slot name :: rest => placeholder name ++ printed rest

theorem spells_printed (segments : List Segment) : Spells segments (printed segments).toList := by
  induction segments with
  | nil => exact .nil
  | cons segment rest ih =>
      cases segment with
      | literal text =>
          rw [printed, String.toList_append, String.toList_ofList]
          exact .literal text ih
      | slot name =>
          have hslot := Spells.slot name (List.forall_mem_nil _) (List.forall_mem_nil _) ih
          rw [List.nil_append, List.append_nil] at hslot
          simp only [printed, placeholder, String.toList_append, List.append_assoc]
          exact hslot

/-- With their names in braces for values, the slots of a template are printed. -/
theorem renderSegments_placeholders {fragment : Fragment} {segments : List Segment}
    (h : ∀ name, Segment.slot name ∈ segments → fragment.slot? name = some (placeholder name)) :
    renderSegments fragment segments = .ok (printed segments) := by
  induction segments with
  | nil => rfl
  | cons segment rest ih =>
      have hrest := ih fun name hmem => h name (List.mem_cons_of_mem _ hmem)
      cases segment with
      | literal text =>
          rw [renderSegments, renderSegment, hrest, printed]
          rfl
      | slot name =>
          rw [renderSegments, renderSegment, h name List.mem_cons_self, hrest, printed]
          rfl

/-- Nothing is lost when a template is read: its source spells its segments, the slots are
those of the kind, and what the template is printed as is read as the template again.
Every well-formed list of segments is read from its text. -/
theorem parse_inverts_printing (kind : TemplateKind) :
    (∀ source template, parse kind source = .ok template →
      template.kind = kind ∧ Spells template.segments source.toList ∧
        WellFormed kind template.segments ∧
        ∀ fragment : Fragment, fragment.kind = kind →
          (∀ slot ∈ kind.slots, fragment.slot? slot = some (placeholder slot)) →
          ∃ text, template.render fragment = .ok text ∧ parse kind text = .ok template) ∧
      ∀ segments, WellFormed kind segments →
        parse kind (printed segments) = .ok ⟨kind, segments⟩ := by
  constructor
  · intro source template h
    obtain ⟨hkind, hwellFormed, hspells⟩ := parse_eq_ok_iff.mp h
    refine ⟨hkind, hspells, hwellFormed, fun fragment hfragment hvalues => ?_⟩
    have hrendered := renderSegments_placeholders fun name hmem =>
      hvalues name ((hwellFormed.slots name).mp hmem)
    refine ⟨printed template.segments, ?_, ?_⟩
    · rw [render, if_pos (hfragment.trans hkind.symm), hrendered]
      rfl
    · exact parse_eq_ok_iff.mpr ⟨hkind, hwellFormed, spells_printed _⟩
  · intro segments hwellFormed
    exact parse_eq_ok_iff.mpr ⟨rfl, hwellFormed, spells_printed segments⟩

/-- A source with single braces beside its slots and blanks in one of them. -/
def bracedSource : String :=
  "\x7b \x7b\x7b source \x7d\x7d\x7d\x7b\x7bclass_name\x7d\x7d\x7b\x7bcontent\x7d\x7d"

def bracedSegments : List Segment :=
  [.literal ['\x7b', ' '], .slot "source", .literal ['\x7d'], .slot "class_name", .slot "content"]

theorem parse_bracedSource : parse .base bracedSource = .ok ⟨.base, bracedSegments⟩ := by
  decide

/-- The fragment that gives each slot its name in braces. -/
def placeholders (kind : TemplateKind) : Fragment :=
  ⟨kind, kind.slots.map fun slot => (slot, placeholder slot)⟩

theorem parse_inverts_printing_braced :
    Spells bracedSegments bracedSource.toList ∧
      (∃ text, render ⟨.base, bracedSegments⟩ (placeholders .base) = .ok text ∧
        parse .base text = .ok ⟨.base, bracedSegments⟩) ∧
      parse .base (printed bracedSegments) = .ok ⟨.base, bracedSegments⟩ := by
  obtain ⟨hread, hprinted⟩ := parse_inverts_printing .base
  obtain ⟨_, hspells, hwellFormed, hrender⟩ := hread bracedSource _ parse_bracedSource
  exact ⟨hspells, hrender (placeholders .base) rfl (by decide), hprinted _ hwellFormed⟩

theorem printed_slots (names : List String) :
    printed (names.map Segment.slot) = String.join (names.map placeholder) := by
  induction names with
  | nil => rfl
  | cons name names ih =>
      rw [List.map_cons, List.map_cons, printed, ih, String.join_cons]

theorem wellFormed_slots (kind : TemplateKind) : WellFormed kind (kind.slots.map Segment.slot) := by
  have hdivided (names : List String) : Divided (names.map Segment.slot) := by
    induction names with
    | nil => exact divided_nil
    | cons name names ih => exact divided_cons_iff.mpr ⟨trivial, fun _ _ => trivial, ih⟩
  refine ⟨hdivided kind.slots, fun name => ?_⟩
  simp

end Template

namespace TemplateSet

/-- Sources that are nothing but their slots. -/
def slotsOnly (kind : TemplateKind) : Option String :=
  some (String.join (kind.slots.map fun slot => "\x7b\x7b" ++ slot ++ "\x7d\x7d"))

theorem load_slotsOnly (kind : TemplateKind) :
    load slotsOnly kind = .ok ⟨kind, kind.slots.map Segment.slot⟩ := by
  refine Template.parse_eq_ok_iff.mpr ⟨rfl, Template.wellFormed_slots kind, ?_⟩
  have hspells := Template.spells_printed (kind.slots.map Segment.slot)
  rw [Template.printed_slots] at hspells
  exact hspells

theorem exists_ofSources_slotsOnly : ∃ templates, ofSources slotsOnly = .ok templates := by
  simp only [ofSources, load_slotsOnly]
  exact ⟨_, rfl⟩

end TemplateSet

end IdlBindings
