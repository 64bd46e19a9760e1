import IdlBindings.Proofs.Json.Printing
import IdlBindings.Proofs.Sequence
import IdlBindings.Schema.Loading
import IdlBindings.Schema.Writing

/-!
A unit that is written and loaded again. Every part of a declaration is read back from
the value it is written as, and every value survives being written as text. The kinds of
unknown declarations are the one thing that may be misread: a kind
that is known is read as what it names. Loading never yields such a declaration.
-/

namespace IdlBindings

open Json

theorem optionalField_of_field? {α : Type} {key : String} {read : Value → Except Fault α}
    {fields : List (String × Value)} {value : Value} {a : α}
    (hfield : Value.field? key fields = some value) (hread : read value = .ok a) :
    optionalField key read fields = .ok (some a) := by
  rw [optionalField, hfield]
  simp only [hread]
  rfl

theorem readItems_map {α : Type} {read : Value → Except Fault α} {write : α → Value}
    (h : ∀ a, read (write a) = .ok a) (items : List α) :
    readItems read (.array (items.map write)) = .ok items := by
  rw [readItems, Sequence.mapM_eq_ok_iff, List.forall₂_map_left_iff, List.forall₂_same]
  exact fun a _ => h a

theorem ValueType.read_toValue (place : Place) (type : ValueType) :
    ValueType.read place type.toValue = .ok type := by
  cases type <;> rfl

theorem Argument.read_toValue (place : Place) (argument : Argument) :
    Argument.read place argument.toValue = .ok argument := by
  rw [Argument.toValue, Argument.read,
    optionalField_of_field? rfl (ValueType.read_toValue place argument.type)]
  rfl

theorem readArguments_toValue (place : Place) (arguments : List Argument) :
    readItems (Argument.read place) (argumentsToValue arguments) = .ok arguments :=
  readItems_map (Argument.read_toValue place) arguments

theorem Member.read_toValue (member : Member) : Member.read member.toValue = .ok member := by
  cases member with
  | «attribute» a =>
      change (Attribute.ofFields _).map _ = _
      rw [Attribute.ofFields, optionalField_of_field? rfl (ValueType.read_toValue .member a.type)]
      rfl
  | operation o =>
      change (Operation.ofFields _).map _ = _
      rw [Operation.ofFields,
        optionalField_of_field? rfl (readArguments_toValue .member o.arguments),
        optionalField_of_field? rfl (ValueType.read_toValue .member o.result)]
      rfl

theorem ClassDecl.ofFields_toFields (c : ClassDecl) : ClassDecl.ofFields c.toFields = .ok c := by
  have hmembers := readItems_map Member.read_toValue c.members
  rw [ClassDecl.ofFields, optionalField_of_field? rfl hmembers]
  obtain ⟨name, parent, members⟩ := c
  cases parent with
  | none => rfl
  | some parent => rfl

theorem FreeFunction.ofFields_toFields (f : FreeFunction) :
    FreeFunction.ofFields (Declaration.function f).toFields = .ok f := by
  rw [FreeFunction.ofFields, Declaration.toFields,
    optionalField_of_field? rfl (readArguments_toValue .outside f.arguments),
    optionalField_of_field? rfl (ValueType.read_toValue .outside f.result)]
  rfl

theorem ValueType.plain_toValue (room : Nat) (type : ValueType) :
    type.toValue.Plain (room + 1) := by
  have hkind : ∀ name, Value.Plain (room + 1) (.object [("kind", .text name)]) := by
    intro name
    exact .object (List.pairwise_singleton _ _) (List.forall_mem_singleton.mpr (.text room name))
  cases type with
  | pointer className =>
      refine .object (show ["class", "kind"].Pairwise (· < ·) by decide) ?_
      simp only [List.forall_mem_cons]
      exact ⟨.text room className, .text room "pointer", List.forall_mem_nil _⟩
  | _ => exact hkind _

theorem Argument.plain_toValue (room : Nat) (argument : Argument) :
    argument.toValue.Plain (room + 2) := by
  refine .object (show ["name", "optional", "type"].Pairwise (· < ·) by decide) ?_
  simp only [List.forall_mem_cons]
  exact ⟨.text _ _, .boolean _ _, argument.type.plain_toValue room, List.forall_mem_nil _⟩

theorem plain_argumentsToValue (room : Nat) (arguments : List Argument) :
    (argumentsToValue arguments).Plain (room + 3) := by
  refine .array (List.forall_mem_map.mpr fun argument _ => ?_)
  exact argument.plain_toValue room

theorem Member.plain_toValue (room : Nat) (member : Member) :
    member.toValue.Plain (room + 4) := by
  cases member with
  | «attribute» a =>
      refine .object (show ["member", "name", "readonly", "type"].Pairwise (· < ·) by decide) ?_
      simp only [List.forall_mem_cons]
      exact ⟨.text _ _, .text _ _, .boolean _ _, a.type.plain_toValue (room + 2),
        List.forall_mem_nil _⟩
  | operation o =>
      refine .object
        (show ["arguments", "member", "name", "return_type"].Pairwise (· < ·) by decide) ?_
      simp only [List.forall_mem_cons]
      exact ⟨plain_argumentsToValue room o.arguments, .text _ _, .text _ _,
        o.result.plain_toValue (room + 2), List.forall_mem_nil _⟩

namespace Declaration

/-- The kinds that are read as something other than an unknown declaration. -/
def knownKinds : List String := ["interface", "dictionary", "global_function"]

/-- The declaration does not pass for one of another kind. -/
def Readable : Declaration → Prop
  | .unknown kind _ => kind ∉ knownKinds
  | .class _ _ | .function _ => True

/-- The body of a declaration is read back under its own kind. -/
theorem ofBody_toFields {declaration : Declaration} (h : declaration.Readable) :
    ofBody declaration.kindName declaration.toFields = .ok declaration := by
  cases declaration with
  | «class» kind c =>
      cases kind with
      | interface =>
          change (ClassDecl.ofFields c.toFields).map (Declaration.class .interface) = _
          rw [c.ofFields_toFields]
          rfl
      | dictionary =>
          change (ClassDecl.ofFields c.toFields).map (Declaration.class .dictionary) = _
          rw [c.ofFields_toFields]
          rfl
  | function f =>
      change (FreeFunction.ofFields (Declaration.function f).toFields).map Declaration.function = _
      rw [f.ofFields_toFields]
      rfl
  | unknown kind name =>
      have hkind : kind ≠ "interface" ∧ kind ≠ "dictionary" ∧ kind ≠ "global_function" := by
        simpa [Readable, knownKinds] using h
      obtain ⟨hinterface, hdictionary, hfunction⟩ := hkind
      rw [kindName, ofBody, if_neg hinterface, if_neg hdictionary, if_neg hfunction]
      cases name with
      | none => rfl
      | some name => rfl

theorem readable_of_ofBody {kind : String} {body : List (String × Value)}
    {declaration : Declaration} (h : ofBody kind body = .ok declaration) :
    declaration.Readable := by
  unfold ofBody at h
  split_ifs at h with hinterface hdictionary hfunction
  · obtain ⟨c, _, rfl⟩ := Sequence.map_eq_ok_iff.mp h
    trivial
  · obtain ⟨c, _, rfl⟩ := Sequence.map_eq_ok_iff.mp h
    trivial
  · obtain ⟨f, _, rfl⟩ := Sequence.map_eq_ok_iff.mp h
    trivial
  · cases h
    simp [Readable, knownKinds, hinterface, hdictionary, hfunction]

/-- Fields that come back when a declaration is read: sorted, none of them its kind,
and with values that may stand in it. -/
structure Body (room : Nat) (fields : List (String × Value)) : Prop where
  sorted : Value.Sorted fields
  kind_not_mem : "kind" ∉ fields.map Prod.fst
  plain : ∀ field ∈ fields, field.2.Plain room

theorem body_toFields (room : Nat) (declaration : Declaration) :
    Body (room + 5) declaration.toFields := by
  cases declaration with
  | «class» kind c =>
      have hmembers : Value.Plain (room + 5) (.array (c.members.map Member.toValue)) :=
        .array (List.forall_mem_map.mpr fun member _ => member.plain_toValue room)
      obtain ⟨name, parent, members⟩ := c
      cases parent with
      | none =>
          refine ⟨show ["members", "name"].Pairwise (· < ·) by decide,
            show "kind" ∉ ["members", "name"] by decide, ?_⟩
          exact List.forall_mem_cons.mpr ⟨hmembers, List.forall_mem_singleton.mpr (.text _ name)⟩
      | some parent =>
          refine ⟨show ["members", "name", "parent"].Pairwise (· < ·) by decide,
            show "kind" ∉ ["members", "name", "parent"] by decide, ?_⟩
          refine List.forall_mem_cons.mpr ⟨hmembers, List.forall_mem_cons.mpr ⟨.text _ name, ?_⟩⟩
          exact List.forall_mem_singleton.mpr (.text _ parent)
  | function f =>
      refine ⟨show ["arguments", "name", "return_type"].Pairwise (· < ·) by decide,
        show "kind" ∉ ["arguments", "name", "return_type"] by decide, ?_⟩
      refine List.forall_mem_cons.mpr ⟨plain_argumentsToValue (room + 2) f.arguments, ?_⟩
      refine List.forall_mem_cons.mpr ⟨.text _ f.name, ?_⟩
      exact List.forall_mem_singleton.mpr (f.result.plain_toValue (room + 4))
  | unknown kind name =>
      cases name with
      | none =>
          exact ⟨List.Pairwise.nil, List.not_mem_nil, List.forall_mem_nil _⟩
      | some name =>
          exact ⟨List.pairwise_singleton _ _, show "kind" ∉ ["name"] by decide,
            List.forall_mem_singleton.mpr (.text _ name)⟩

/-- Once the kind is known, the other entries are collected up to the end. -/
theorem ofEntries_entries {fields : List (String × Value)}
    (hkeys : "kind" ∉ fields.map Prod.fst)
    (hplain : ∀ field ∈ fields, field.2.Plain (greatestDepth - declarationDepth))
    (kind : String) (before : List (String × Value)) :
    ofEntries (some kind) before none (Value.entries fields) =
      ofBody kind (Value.sortFields (before.reverse ++ fields)) := by
  induction fields generalizing before with
  | nil =>
      rw [List.append_nil]
      rfl
  | cons field fields ih =>
      obtain ⟨key, value⟩ := field
      rw [List.map_cons, List.mem_cons, not_or] at hkeys
      obtain ⟨hvalue, hrest⟩ := List.forall_mem_cons.mp hplain
      rw [Value.entries_cons, ofEntries]
      simp only [if_neg (Ne.symm hkeys.1), hvalue.value_document]
      -- The entry is neither the kind nor misread, so it joins those collected before.
      change ofEntries (some kind) ((key, value) :: before) none (Value.entries fields) = _
      rw [ih hkeys.2 hrest, List.reverse_cons, List.append_assoc, List.singleton_append]

theorem read_document {declaration : Declaration} (h : declaration.Readable) :
    Declaration.read declaration.toValue.document = .ok declaration := by
  have hbody : Body (greatestDepth - declarationDepth) declaration.toFields :=
    declaration.body_toFields (greatestDepth - declarationDepth - 5)
  change ofEntries (some declaration.kindName) [] none (Value.entries declaration.toFields) = _
  rw [ofEntries_entries hbody.kind_not_mem hbody.plain, List.reverse_nil, List.nil_append,
    Value.sortFields_of_sorted hbody.sorted, ofBody_toFields h]

theorem readable_of_ofEntries {kind : Option String} {body : List (String × Value)}
    {cut : Option Cut} {entries : List (Option String × Document)} {declaration : Declaration}
    (h : ofEntries kind body cut entries = .ok declaration) : declaration.Readable := by
  induction entries generalizing kind body with
  | nil =>
      obtain ⟨_, _, hpresent⟩ := Sequence.bind_eq_ok_iff.mp h
      obtain ⟨_, _, hbody⟩ := Sequence.bind_eq_ok_iff.mp hpresent
      exact readable_of_ofBody hbody
  | cons entry entries ih =>
      obtain ⟨key, document⟩ := entry
      cases key with
      | none => cases h
      | some key =>
          change (if key = "kind" then _ else _) = _ at h
          by_cases hkey : key = "kind"
          · rw [if_pos hkey] at h
            cases kind with
            | some kind => cases h
            | none =>
                obtain ⟨_, _, hrest⟩ := Sequence.bind_eq_ok_iff.mp h
                exact ih hrest
          · rw [if_neg hkey] at h
            obtain ⟨_, _, hrest⟩ := Sequence.bind_eq_ok_iff.mp h
            exact ih hrest

theorem readable_of_read {document : Document} {declaration : Declaration}
    (h : Declaration.read document = .ok declaration) : declaration.Readable := by
  cases document with
  | object entries cut => exact readable_of_ofEntries h
  | _ => cases h

end Declaration

theorem readDeclarations_document {declarations : List Declaration}
    (h : ∀ declaration ∈ declarations, declaration.Readable) :
    readDeclarations (Value.array (declarations.map Declaration.toValue)).document =
      .ok declarations := by
  have hread : (Value.documents (declarations.map Declaration.toValue)).mapM Declaration.read =
      .ok declarations := by
    rw [Sequence.mapM_eq_ok_iff, Value.documents_eq_map, List.forall₂_map_left_iff,
      List.forall₂_map_left_iff, List.forall₂_same]
    exact fun declaration hmem => Declaration.read_document (h declaration hmem)
  rw [Value.document, readDeclarations, hread]
  rfl

theorem readable_of_readDeclarations {document : Document} {declarations : List Declaration}
    (h : readDeclarations document = .ok declarations) :
    ∀ declaration ∈ declarations, declaration.Readable := by
  cases document with
  | array items cut =>
      obtain ⟨found, hread, hclosed⟩ := Sequence.bind_eq_ok_iff.mp h
      obtain ⟨_, _, hfound⟩ := Sequence.bind_eq_ok_iff.mp hclosed
      cases hfound
      intro declaration hmem
      obtain ⟨item, _, hitem⟩ :=
        Sequence.exists_left_of_mem (Sequence.mapM_eq_ok_iff.mp hread) hmem
      exact Declaration.readable_of_read hitem
  | _ => cases h

namespace SourceUnit

/-- The unit has a file name, and none of its declarations passes for another. -/
structure Loadable (unit : SourceUnit) : Prop where
  named : Text.isBlank unit.fileName = false
  readable : ∀ declaration ∈ unit.declarations, declaration.Readable

theorem ofText_eq_ok_iff {text : String} {unit : SourceUnit} : ofText text = .ok unit ↔
    ∃ document, Document.ofText text = (document, false) ∧ ofDocument document = .ok unit :=
  Document.readWhole_eq_ok_iff

theorem parse_eq_ok_iff {text : String} {unit : SourceUnit} : parse text = .ok unit ↔
    ofText text = .ok unit ∧ Text.isBlank unit.fileName = false := by
  rw [parse]
  cases ofText text with
  | error fault => simp only [reduceCtorEq, false_and]
  | ok found =>
      simp only [Except.ok.injEq]
      split_ifs with hblank
      · constructor
        · intro herror
          cases herror
        · rintro ⟨rfl, hnamed⟩
          rw [hblank] at hnamed
          cases hnamed
      · constructor
        · intro hsame
          cases hsame
          exact ⟨rfl, Bool.eq_false_iff.mpr hblank⟩
        · rintro ⟨rfl, -⟩
          rfl

theorem ofText_toText {unit : SourceUnit}
    (h : ∀ declaration ∈ unit.declarations, declaration.Readable) :
    ofText unit.toText = .ok unit := by
  refine ofText_eq_ok_iff.mpr ⟨_, Document.ofText_print unit.toValue, ?_⟩
  change (do
    let declarations ← readDeclarations
      (Value.array (unit.declarations.map Declaration.toValue)).document
    ofEntries (some unit.fileName) (some declarations) none []) = _
  rw [readDeclarations_document h]
  rfl

/-- What reading the first of some entries does. -/
theorem ofEntries_cons_cases {fileName : Option String} {declarations : Option (List Declaration)}
    {cut : Option Cut} {key : Option String} {document : Document}
    {entries : List (Option String × Document)} {unit : SourceUnit}
    (h : ofEntries fileName declarations cut ((key, document) :: entries) = .ok unit) :
    (key = some "filename" ∧ fileName = none ∧ ∃ name, document.readText = .ok name ∧
      ofEntries (some name) declarations cut entries = .ok unit) ∨
    (key = some "objects" ∧ declarations = none ∧ ∃ found, readDeclarations document = .ok found ∧
      ofEntries fileName (some found) cut entries = .ok unit) ∨
    (key ≠ some "filename" ∧ key ≠ some "objects" ∧
      ofEntries fileName declarations cut entries = .ok unit) := by
  cases key with
  | none => cases h
  | some key =>
      change (if key = "filename" then _ else if key = "objects" then _ else _) = _ at h
      split_ifs at h with hfile hobjects
      · cases fileName with
        | some fileName => cases h
        | none => exact Or.inl ⟨congrArg some hfile, rfl, Sequence.bind_eq_ok_iff.mp h⟩
      · cases declarations with
        | some declarations => cases h
        | none =>
            exact Or.inr (Or.inl ⟨congrArg some hobjects, rfl, Sequence.bind_eq_ok_iff.mp h⟩)
      · cases hflaw : document.flaw with
        | some verdict => simp only [hflaw, reduceCtorEq] at h
        | none =>
            simp only [hflaw] at h
            exact Or.inr (Or.inr ⟨mt Option.some.inj hfile, mt Option.some.inj hobjects, h⟩)

theorem readable_of_ofEntries {fileName : Option String} {declarations : Option (List Declaration)}
    {cut : Option Cut} {entries : List (Option String × Document)} {unit : SourceUnit}
    (hread : ∀ declaration ∈ declarations.getD [], declaration.Readable)
    (h : ofEntries fileName declarations cut entries = .ok unit) :
    ∀ declaration ∈ unit.declarations, declaration.Readable := by
  -- What was read before stays readable; only the entry `objects` puts something in its place.
  induction entries generalizing fileName declarations with
  | nil =>
      obtain ⟨_, _, hpresent⟩ := Sequence.bind_eq_ok_iff.mp h
      obtain ⟨_, _, hunit⟩ := Sequence.bind_eq_ok_iff.mp hpresent
      cases hunit
      exact hread
  | cons entry entries ih =>
      rcases ofEntries_cons_cases h with ⟨-, rfl, name, hname, hrest⟩ |
        ⟨-, rfl, found, hfound, hrest⟩ | ⟨-, -, hrest⟩
      · exact ih hread hrest
      · exact ih (readable_of_readDeclarations hfound) hrest
      · exact ih hread hrest

theorem readable_of_ofItems {cut : Option Cut} {items : List Document} {unit : SourceUnit}
    (h : ofItems cut items = .ok unit) :
    ∀ declaration ∈ unit.declarations, declaration.Readable := by
  cases items with
  | nil =>
      obtain ⟨_, _, herror⟩ := Sequence.bind_eq_ok_iff.mp h
      cases herror
  | cons first rest =>
      obtain ⟨fileName, _, hrest⟩ := Sequence.bind_eq_ok_iff.mp h
      cases rest with
      | nil =>
          obtain ⟨_, _, hunit⟩ := Sequence.bind_eq_ok_iff.mp hrest
          cases hunit
          exact List.forall_mem_nil _
      | cons second rest =>
          obtain ⟨declarations, hread, hlast⟩ := Sequence.bind_eq_ok_iff.mp hrest
          cases rest with
          | nil =>
              obtain ⟨_, _, hunit⟩ := Sequence.bind_eq_ok_iff.mp hlast
              cases hunit
              exact readable_of_readDeclarations hread
          | cons third rest => cases hlast

theorem readable_of_ofDocument {document : Document} {unit : SourceUnit}
    (h : ofDocument document = .ok unit) :
    ∀ declaration ∈ unit.declarations, declaration.Readable := by
  cases document with
  | object entries cut => exact readable_of_ofEntries (List.forall_mem_nil _) h
  | array items cut => exact readable_of_ofItems h
  | _ => cases h

theorem loadable_of_parse {text : String} {unit : SourceUnit} (h : parse text = .ok unit) :
    unit.Loadable := by
  obtain ⟨htext, hnamed⟩ := parse_eq_ok_iff.mp h
  obtain ⟨document, -, hread⟩ := ofText_eq_ok_iff.mp htext
  exact ⟨hnamed, readable_of_ofDocument hread⟩

theorem parse_toText {unit : SourceUnit} (h : unit.Loadable) : parse unit.toText = .ok unit :=
  parse_eq_ok_iff.mpr ⟨ofText_toText h.readable, h.named⟩

/-- Writing a unit and loading the text gives the unit back exactly when it has a file name
and no unknown declaration is of a known kind. Every unit that was loaded, from whatever
text, is like that, and so can be written and loaded again. -/
theorem parse_toText_iff_loadable :
    (∀ unit : SourceUnit, parse unit.toText = .ok unit ↔ unit.Loadable) ∧
      ∀ text unit, parse text = .ok unit → unit.Loadable ∧ parse unit.toText = .ok unit := by
  refine ⟨fun unit => ⟨loadable_of_parse, parse_toText⟩, fun text unit h => ?_⟩
  have hloadable := loadable_of_parse h
  exact ⟨hloadable, parse_toText hloadable⟩

end SourceUnit

end IdlBindings
