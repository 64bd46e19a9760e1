import IdlBindings.Proofs.Files.Tree
import IdlBindings.Proofs.Schema.Rereading
import IdlBindings.Proofs.Schema.RoundTrip

/-!
The two ways to load a unit. A text is read in its own order; a file is read as a value
first, given a file name if it has none, and read again in its written form. Of a unit only
its file name and its declarations are read, each from the one entry there is for it. A text
that both ways accept therefore gives the same unit, and so does a text without file name
once the stem of the path is put into it, wherever that is.
-/

namespace IdlBindings

open Json

/-- The documents that stand under a key. -/
def documentsAt (key : String) (entries : List (Option String × Document)) : List Document :=
  entries.filterMap fun entry => if entry.1 = some key then some entry.2 else none

theorem mem_documentsAt_iff {key : String} {entries : List (Option String × Document)}
    {document : Document} :
    document ∈ documentsAt key entries ↔ (some key, document) ∈ entries := by
  rw [documentsAt, List.mem_filterMap]
  constructor
  · rintro ⟨⟨found, other⟩, hmem, hsome⟩
    split_ifs at hsome with hkey
    cases hsome
    exact hkey ▸ hmem
  · exact fun hmem => ⟨_, hmem, if_pos rfl⟩

theorem documentsAt_cons_self (key : String) (document : Document)
    (entries : List (Option String × Document)) :
    documentsAt key ((some key, document) :: entries) = document :: documentsAt key entries :=
  List.filterMap_cons_some (if_pos rfl)

theorem documentsAt_cons_of_ne {key : String} {found : Option String} (h : found ≠ some key)
    (document : Document) (entries : List (Option String × Document)) :
    documentsAt key ((found, document) :: entries) = documentsAt key entries :=
  List.filterMap_cons_none (if_neg h)

namespace SourceUnit

/-- What a unit is read from: one entry for its file name and at most one for its
declarations, counting what was read before. -/
structure ReadFrom (unit : SourceUnit) (fileNames : List (Except Fault String))
    (declarations : List (Except Fault (List Declaration))) : Prop where
  fileName : fileNames = [.ok unit.fileName]
  declarations : declarations = [.ok unit.declarations] ∨
    declarations = [] ∧ unit.declarations = []

theorem readFrom_of_ofEntries {fileName : Option String}
    {declarations : Option (List Declaration)} {cut : Option Cut}
    {entries : List (Option String × Document)} {unit : SourceUnit}
    (h : ofEntries fileName declarations cut entries = .ok unit) :
    unit.ReadFrom
      (fileName.toList.map .ok ++ (documentsAt "filename" entries).map Document.readText)
      (declarations.toList.map .ok ++ (documentsAt "objects" entries).map readDeclarations) := by
  induction entries generalizing fileName declarations with
  | nil =>
      obtain ⟨_, -, hmore⟩ := Sequence.bind_eq_ok_iff.mp h
      obtain ⟨name, hname, hunit⟩ := Sequence.bind_eq_ok_iff.mp hmore
      cases hunit
      cases fileName with
      | none => cases hname
      | some fileName =>
          cases hname
          cases declarations with
          | none => exact ⟨rfl, Or.inr ⟨rfl, rfl⟩⟩
          | some declarations => exact ⟨rfl, Or.inl rfl⟩
  | cons entry entries ih =>
      obtain ⟨key, document⟩ := entry
      rcases ofEntries_cons_cases h with ⟨rfl, rfl, name, hname, hrest⟩ |
        ⟨rfl, rfl, found, hfound, hrest⟩ | ⟨hfile, hobjects, hrest⟩
      · rw [documentsAt_cons_self, documentsAt_cons_of_ne (by decide), List.map_cons, hname]
        exact ih hrest
      · rw [documentsAt_cons_self, documentsAt_cons_of_ne (by decide), List.map_cons, hfound]
        exact ih hrest
      · rw [documentsAt_cons_of_ne hfile, documentsAt_cons_of_ne hobjects]
        exact ih hrest

/-- The fields are the values of the entries: each is that of an entry of its key, and no key
is left out. -/
structure Holds (fields : List (String × Value)) (entries : List (Option String × Document)) :
    Prop where
  value : ∀ key value, (key, value) ∈ fields → ∃ document ∈ documentsAt key entries,
    document.value (greatestDepth - 1) = .ok value
  key : ∀ key, ∀ document ∈ documentsAt key entries, ∃ value, (key, value) ∈ fields

theorem mem_documentsAt_entries_iff {key : String} {fields : List (String × Value)}
    {document : Document} : document ∈ documentsAt key (Value.entries fields) ↔
      ∃ value, (key, value) ∈ fields ∧ value.document = document := by
  rw [mem_documentsAt_iff, Value.entries_eq_map, List.mem_map]
  constructor
  · rintro ⟨⟨found, value⟩, hmem, hsame⟩
    cases hsame
    exact ⟨value, hmem, rfl⟩
  · rintro ⟨value, hmem, rfl⟩
    exact ⟨(key, value), hmem, rfl⟩

theorem eq_of_mem_of_map_eq {α β : Type} {f : α → β} {items : List α} {result : β}
    (h : items.map f = [result]) {item : α} (hmem : item ∈ items) : f item = result :=
  List.eq_of_mem_singleton (h ▸ List.mem_map_of_mem hmem)

theorem fileName_eq_of_ofEntries {fields : List (String × Value)}
    {entries : List (Option String × Document)} {cut : Option Cut} {unit again : SourceUnit}
    (hholds : Holds fields entries) (hread : ofEntries none none cut entries = .ok unit)
    (hagain : ofEntries none none none (Value.entries fields) = .ok again) :
    again.fileName = unit.fileName := by
  have hfirst := (readFrom_of_ofEntries hread).fileName
  have hsecond := (readFrom_of_ofEntries hagain).fileName
  obtain ⟨document, hone, -⟩ := List.map_eq_singleton_iff.mp hfirst
  obtain ⟨value, hvalue⟩ := hholds.key "filename" document (hone ▸ List.mem_singleton_self document)
  obtain ⟨found, hfound, hevaluated⟩ := hholds.value "filename" value hvalue
  -- The entry is a string, so its value is written as that string again.
  obtain rfl := Document.eq_of_readText (eq_of_mem_of_map_eq hfirst hfound)
  cases hevaluated
  have hsame := eq_of_mem_of_map_eq hsecond (mem_documentsAt_entries_iff.mpr ⟨_, hvalue, rfl⟩)
  exact (Except.ok.inj hsame).symm

theorem declarations_eq_of_ofEntries {fields : List (String × Value)}
    {entries : List (Option String × Document)} {cut : Option Cut} {unit again : SourceUnit}
    (hholds : Holds fields entries) (hread : ofEntries none none cut entries = .ok unit)
    (hagain : ofEntries none none none (Value.entries fields) = .ok again) :
    again.declarations = unit.declarations := by
  have hsecond := (readFrom_of_ofEntries hagain).declarations
  rcases (readFrom_of_ofEntries hread).declarations with hfirst | ⟨hnone, hempty⟩
  · obtain ⟨document, hone, -⟩ := List.map_eq_singleton_iff.mp hfirst
    obtain ⟨value, hvalue⟩ :=
      hholds.key "objects" document (hone ▸ List.mem_singleton_self document)
    obtain ⟨found, hfound, hevaluated⟩ := hholds.value "objects" value hvalue
    have hwritten := mem_documentsAt_entries_iff.mpr ⟨value, hvalue, rfl⟩
    rcases hsecond with hsecond | ⟨hnone, -⟩
    · exact eq_of_readDeclarations_document (eq_of_mem_of_map_eq hfirst hfound) hevaluated
        (eq_of_mem_of_map_eq hsecond hwritten)
    · rw [List.map_eq_nil_iff.mp hnone] at hwritten
      cases hwritten
  · rw [hempty]
    rcases hsecond with hsecond | ⟨-, hempty⟩
    · obtain ⟨document, hone, -⟩ := List.map_eq_singleton_iff.mp hsecond
      obtain ⟨value, hvalue, -⟩ :=
        mem_documentsAt_entries_iff.mp (hone ▸ List.mem_singleton_self document)
      obtain ⟨found, hfound, -⟩ := hholds.value "objects" value hvalue
      rw [List.map_eq_nil_iff.mp hnone] at hfound
      cases hfound
    · exact hempty

theorem eq_of_ofEntries {fields : List (String × Value)}
    {entries : List (Option String × Document)} {cut : Option Cut} {unit again : SourceUnit}
    (hholds : Holds fields entries) (hread : ofEntries none none cut entries = .ok unit)
    (hagain : ofEntries none none none (Value.entries fields) = .ok again) : again = unit := by
  have hname := fileName_eq_of_ofEntries hholds hread hagain
  have hdeclarations := declarations_eq_of_ofEntries hholds hread hagain
  cases again
  cases unit
  cases hname
  cases hdeclarations
  rfl

/-- The fields of an object that is read hold its entries. -/
theorem holds_sortFields {entries : List (Option String × Document)}
    {fields : List (String × Value)}
    (h : Document.fields (greatestDepth - 1) entries = .ok fields) :
    Holds (Value.sortFields fields) entries where
  value key value hmem := by
    obtain ⟨⟨found, document⟩, hentry, hkey, hvalue⟩ := Sequence.exists_left_of_mem
      (Document.fields_eq_ok h) ((Value.sortFields_spec fields).2 _ hmem)
    cases hkey
    exact ⟨document, mem_documentsAt_iff.mpr hentry, hvalue⟩
  key key document hmem := by
    obtain ⟨⟨found, value⟩, hfield, hkey, -⟩ := Sequence.exists_right_of_mem
      (Document.fields_eq_ok h) (mem_documentsAt_iff.mp hmem)
    cases hkey
    obtain ⟨last, hlast⟩ := Value.exists_field?_of_mem (List.mem_reverse.mpr hfield)
    rw [← Value.field?_sortFields] at hlast
    exact ⟨last, Value.mem_of_field? hlast⟩

theorem exists_holds_of_value {entries : List (Option String × Document)} {cut : Option Cut}
    {value : Value}
    (h : Document.value (greatestDepth - 1 + 1) (.object entries cut) = .ok value) :
    ∃ fields, value = .object fields ∧ Holds fields entries := by
  cases Document.evaluated_of_value h with
  | object hfields => exact ⟨_, rfl, holds_sortFields hfields⟩

theorem Holds.field?_eq_none {fields : List (String × Value)}
    {entries : List (Option String × Document)} (h : Holds fields entries) {key : String}
    (hmissing : ∀ document, (some key, document) ∉ entries) : Value.field? key fields = none := by
  cases hfound : Value.field? key fields with
  | none => rfl
  | some value =>
      obtain ⟨document, hmem, -⟩ := h.value key value (Value.mem_of_field? hfound)
      exact (hmissing document (mem_documentsAt_iff.mp hmem)).elim

/-- Fields still hold the entries when a string is put under a key on both sides. -/
theorem Holds.insertField {fields : List (String × Value)}
    {before after : List (Option String × Document)} (h : Holds fields (before ++ after))
    (name content : String) :
    Holds (Value.insertField name (.text content) fields)
      (before ++ (some name, .text (some content)) :: after) where
  value key value hmem := by
    rcases Value.mem_insertField hmem with hsame | hbefore
    · cases hsame
      exact ⟨_, mem_documentsAt_iff.mpr (List.mem_append_right _ List.mem_cons_self), rfl⟩
    · obtain ⟨document, hdocument, hvalue⟩ := h.value key value hbefore
      refine ⟨document, mem_documentsAt_iff.mpr (List.perm_middle.mem_iff.mpr ?_), hvalue⟩
      exact List.mem_cons_of_mem _ (mem_documentsAt_iff.mp hdocument)
  key key document hmem := by
    have hfound : ∃ found, Value.field? key (Value.insertField name (.text content) fields) =
        some found := by
      rw [Value.field?_insertField]
      rcases List.mem_cons.mp (List.perm_middle.mem_iff.mp (mem_documentsAt_iff.mp hmem)) with
        hsame | hother
      · cases hsame
        exact ⟨_, if_pos rfl⟩
      · obtain ⟨value, hvalue⟩ := h.key key document (mem_documentsAt_iff.mpr hother)
        split_ifs
        · exact ⟨_, rfl⟩
        · exact Value.exists_field?_of_mem hvalue
    obtain ⟨found, hfound⟩ := hfound
    exact ⟨found, Value.mem_of_field? hfound⟩

theorem eq_of_ofItems {documents : List Document} {items : List Value} {unit again : SourceUnit}
    (hitems : List.Forall₂ (fun document item =>
      Document.value (greatestDepth - 1) document = .ok item) documents items)
    (hread : ofItems none documents = .ok unit)
    (hagain : ofItems none (Value.documents items) = .ok again) : again = unit := by
  cases hitems with
  | nil => cases hread
  | cons hfirst hrest =>
      obtain ⟨fileName, hname, hmore⟩ := Sequence.bind_eq_ok_iff.mp hread
      obtain ⟨other, hother, hmoreAgain⟩ := Sequence.bind_eq_ok_iff.mp hagain
      obtain rfl := Document.eq_of_readText hname
      cases hfirst
      cases hother
      cases hrest with
      | nil =>
          cases hmore
          cases hmoreAgain
          rfl
      | cons hsecond hrest =>
          obtain ⟨declarations, hdeclarations, hend⟩ := Sequence.bind_eq_ok_iff.mp hmore
          obtain ⟨others, hothers, hendAgain⟩ := Sequence.bind_eq_ok_iff.mp hmoreAgain
          cases hrest with
          | nil =>
              cases hend
              cases hendAgain
              rw [eq_of_readDeclarations_document hdeclarations hsecond hothers]
          | cons _ _ => cases hend

/-- A unit is the same when it is read from a document and from what its value is written as. -/
theorem eq_of_ofDocument {document : Document} {value : Value} {unit again : SourceUnit}
    (hread : ofDocument document = .ok unit)
    (hvalue : document.value (greatestDepth - 1 + 1) = .ok value)
    (hagain : ofDocument value.document = .ok again) : again = unit := by
  cases Document.evaluated_of_value hvalue with
  | array hitems => exact eq_of_ofItems hitems hread hagain
  | object hfields => exact eq_of_ofEntries (holds_sortFields hfields) hread hagain
  | null | boolean | number | text => cases hread

/-- A file is read as a value, which is completed and then read like a text. -/
theorem parseAt_eq_ok_iff {path : Files.Path} {text : String} {unit : SourceUnit} :
    parseAt path text = .ok unit ↔ ∃ document value completed,
      Document.ofText text = (document, false) ∧ document.value greatestDepth = .ok value ∧
      completeFileName path value = .ok completed ∧ ofDocument completed.document = .ok unit ∧
      Text.isBlank unit.fileName = false := by
  have hwritten (value : Value) : parse value.print = .ok unit ↔
      ofDocument value.document = .ok unit ∧ Text.isBlank unit.fileName = false := by
    rw [parse_eq_ok_iff, ofText_eq_ok_iff, Document.ofText_print]
    simp only [Prod.mk.injEq, and_true, exists_eq_left']
  rw [parseAt]
  constructor
  · intro h
    cases hvalue : Value.parse text with
    | error fault =>
        rw [hvalue] at h
        cases h
    | ok value =>
        rw [hvalue] at h
        obtain ⟨completed, hcompleted, hparse⟩ := Sequence.bind_eq_ok_iff.mp h
        obtain ⟨document, hdocument, hread⟩ := Document.readWhole_eq_ok_iff.mp hvalue
        exact ⟨document, value, completed, hdocument, hread, hcompleted,
          (hwritten completed).mp hparse⟩
  · rintro ⟨document, value, completed, hdocument, hread, hcompleted, hunit⟩
    have hvalue : Value.parse text = .ok value :=
      Document.readWhole_eq_ok_iff.mpr ⟨document, hdocument, hread⟩
    rw [hvalue]
    exact Sequence.bind_eq_ok_iff.mpr ⟨completed, hcompleted, (hwritten completed).mpr hunit⟩

theorem load_of_file {tree : Files.Tree} {path : Files.Path} {text : String}
    (h : tree.node? path = some (.file (Text.encode text))) :
    load tree path = parseAt path text := by
  rw [load, Files.Tree.readText_of_node? h]

/-- A unit that is read from a text has a file name already. -/
theorem completeFileName_of_ofDocument {document : Document} {value : Value} {unit : SourceUnit}
    (hread : ofDocument document = .ok unit)
    (hvalue : document.value (greatestDepth - 1 + 1) = .ok value) (path : Files.Path) :
    completeFileName path value = .ok value := by
  cases Document.evaluated_of_value hvalue with
  | array hitems => rfl
  | object hfields =>
      obtain ⟨document, hone, -⟩ :=
        List.map_eq_singleton_iff.mp (readFrom_of_ofEntries hread).fileName
      obtain ⟨value, hmem⟩ := (holds_sortFields hfields).key "filename" document
        (hone ▸ List.mem_singleton_self document)
      obtain ⟨found, hfound⟩ := Value.exists_field?_of_mem hmem
      simp only [completeFileName, hfound]
  | null | boolean | number | text => cases hread

/-- An object without file name is given the stem of the path. -/
theorem exists_stem_of_completeFileName {path : Files.Path} {fields : List (String × Value)}
    {completed : Value} (hmissing : Value.field? "filename" fields = none)
    (h : completeFileName path (.object fields) = .ok completed) :
    ∃ stem, path.stem? = some stem ∧
      completed = .object (Value.insertField "filename" (.text stem) fields) := by
  rw [completeFileName, hmissing] at h
  cases hstem : path.stem? with
  | none =>
      rw [hstem] at h
      cases h
  | some stem =>
      rw [hstem] at h
      cases h
      exact ⟨stem, rfl, rfl⟩

/-- What is loaded from a file is what its text gives, wherever the text gives a unit. An
object without file name is loaded as if the stem of the path stood in it, at any place among
its entries and however the text spells that, wherever such a text gives a unit. -/
theorem load_agrees_with_parse {tree : Files.Tree} {path : Files.Path} {text : String}
    {loaded : SourceUnit} (hfile : tree.node? path = some (.file (Text.encode text)))
    (hload : load tree path = .ok loaded) :
    (∀ unit, parse text = .ok unit → loaded = unit) ∧
      ∀ entries, Document.ofText text = (.object entries none, false) →
        (∀ document, (some "filename", document) ∉ entries) →
        ∃ stem, path.stem? = some stem ∧
          ∀ before after completed unit, entries = before ++ after →
            Document.ofText completed =
              (.object (before ++ (some "filename", .text (some stem)) :: after) none, false) →
            parse completed = .ok unit → loaded = unit := by
  rw [load_of_file hfile] at hload
  obtain ⟨document, value, _, htext, hvalue, hcomplete, hagain, -⟩ := parseAt_eq_ok_iff.mp hload
  constructor
  · intro unit hparse
    obtain ⟨found, hfound, hread⟩ := ofText_eq_ok_iff.mp (parse_eq_ok_iff.mp hparse).1
    cases htext.symm.trans hfound
    rw [completeFileName_of_ofDocument hread hvalue] at hcomplete
    cases hcomplete
    exact eq_of_ofDocument hread hvalue hagain
  · intro entries hentries hmissing
    cases htext.symm.trans hentries
    obtain ⟨fields, rfl, hholds⟩ := exists_holds_of_value hvalue
    have hnone := hholds.field?_eq_none hmissing
    obtain ⟨stem, hstem, rfl⟩ := exists_stem_of_completeFileName hnone hcomplete
    refine ⟨stem, hstem, ?_⟩
    rintro before after completed unit rfl hcompleted hparse
    obtain ⟨found, hfound, hread⟩ := ofText_eq_ok_iff.mp (parse_eq_ok_iff.mp hparse).1
    cases hcompleted.symm.trans hfound
    exact eq_of_ofEntries (hholds.insertField "filename" stem) hread hagain

/-- The declarations of a unit, in which a class is named twice and has its member as a
sequence. -/
def shapeDeclarations : Value :=
  .array [.object [("name", .text "Old"), ("kind", .text "interface"),
    ("members", .array [.array [.text "attribute", .text "size", .array [.number (.natural 1)]]]),
    ("name", .text "Shape")]]

def unnamedShape : String :=
  (Value.object [("objects", shapeDeclarations)]).print

def namedShape : String :=
  (Value.object [("objects", shapeDeclarations), ("filename", .text "shape")]).print

def shapeFiles : Files.Tree :=
  ⟨[(["shape.json"], .file (Text.encode unnamedShape)),
    (["other.json"], .file (Text.encode namedShape))]⟩

/-- The unit that all of them give. -/
def shape : SourceUnit :=
  ⟨"shape", [.class .interface ⟨"Shape", none, [.attribute ⟨"size", .int64, false⟩]⟩]⟩

theorem load_agrees_with_parse_shapeFiles :
    ∃ unit, parse namedShape = .ok unit ∧ load shapeFiles ["other.json"] = .ok unit ∧
      load shapeFiles ["shape.json"] = .ok unit := by
  have hother : shapeFiles.node? ["other.json"] = some (.file (Text.encode namedShape)) := rfl
  have hshape : shapeFiles.node? ["shape.json"] = some (.file (Text.encode unnamedShape)) := rfl
  have hentries := Document.ofText_print (.object [("objects", shapeDeclarations)])
  have hcompleted := Document.ofText_print
    (.object [("objects", shapeDeclarations), ("filename", .text "shape")])
  have hparse : parse namedShape = .ok shape :=
    parse_eq_ok_iff.mpr ⟨ofText_eq_ok_iff.mpr ⟨_, hcompleted, by rfl⟩, by decide⟩
  obtain ⟨named, hnamed⟩ : ∃ loaded, load shapeFiles ["other.json"] = .ok loaded := by
    rw [load_of_file hother]
    exact ⟨shape, parseAt_eq_ok_iff.mpr ⟨_, _, _, hcompleted, by rfl, by rfl, by rfl, by decide⟩⟩
  obtain ⟨unnamed, hunnamed⟩ : ∃ loaded, load shapeFiles ["shape.json"] = .ok loaded := by
    rw [load_of_file hshape]
    exact ⟨shape, parseAt_eq_ok_iff.mpr ⟨_, _, _, hentries, by rfl, by rfl, by rfl, by decide⟩⟩
  cases (load_agrees_with_parse hother hnamed).1 shape hparse
  obtain ⟨stem, hstem, hagrees⟩ := (load_agrees_with_parse hshape hunnamed).2 _ hentries
    (by simp [Value.entries])
  cases hstem
  cases hagrees _ [] namedShape shape (List.append_nil _).symm hcompleted hparse
  exact ⟨shape, hparse, hnamed, hunnamed⟩

end SourceUnit

end IdlBindings
