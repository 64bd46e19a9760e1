import IdlBindings.Proofs.Json.Evaluation
import IdlBindings.Proofs.Schema.LoaderAgreement

/-!
Declarations of a kind that is not known. Nothing is asked of such an object but that it can
be evaluated, so it is read to its kind and its name whatever else it holds. The declarations
of a unit are read one by one, and what stands around them does not look at them. An object
of unknown kind that is put among the declarations of a unit therefore comes out at its place
and changes nothing else; only one with half of a surrogate pair in it makes the unit
malformed.
-/

namespace IdlBindings

open Json

namespace Declaration

/-- One entry tells the kind if it was not known before; all are evaluated in their order, and
all others are the body. -/
theorem ofEntries_eq_bind {known : Option String} {kind : String}
    {entries : List (Option String × Document)}
    (h : known.toList.map (fun name => Document.text (some name)) ++ documentsAt "kind" entries =
      [.text (some kind)]) (body : List (String × Value)) :
    ofEntries known body none entries =
      (Document.fields (greatestDepth - declarationDepth) entries >>= fun fields =>
        ofBody kind (Value.sortFields (body.reverse ++
          fields.filter fun field => field.1 != "kind"))) := by
  induction entries generalizing known body with
  | nil =>
      cases known with
      | none => cases h
      | some name =>
          cases h
          change ofBody kind (Value.sortFields body.reverse) =
            ofBody kind (Value.sortFields (body.reverse ++ []))
          rw [List.append_nil]
  | cons entry entries ih =>
      obtain ⟨key, document⟩ := entry
      cases key with
      | none => rfl
      | some key =>
          by_cases hkey : key = "kind"
          · subst hkey
            rw [documentsAt_cons_self] at h
            cases known with
            | some name => cases congrArg List.length h
            | none =>
                -- The kind is told here, so no later entry tells it.
                obtain ⟨rfl, hrest⟩ := List.cons.inj h
                have hknown : (some kind).toList.map (fun name => Document.text (some name)) ++
                    documentsAt "kind" entries = [.text (some kind)] := by
                  rw [hrest]
                  rfl
                change ofEntries (some kind) body none entries = _
                rw [ih hknown, Document.fields]
                cases Document.fields (greatestDepth - declarationDepth) entries with
                | error fault => rfl
                | ok fields => rfl
          · rw [documentsAt_cons_of_ne (mt Option.some.inj hkey)] at h
            change (if key = "kind" then _ else _) = _
            rw [if_neg hkey, Document.fields]
            cases document.value (greatestDepth - declarationDepth) with
            | error fault => rfl
            | ok value =>
                change ofEntries known ((key, value) :: body) none entries = _
                rw [ih h]
                cases Document.fields (greatestDepth - declarationDepth) entries with
                | error fault => rfl
                | ok fields =>
                    change ofBody kind _ = ofBody kind _
                    rw [List.filter_cons_of_pos (by simpa using hkey), List.append_cons,
                      List.reverse_cons]

/-- The name of an object whose contents are not looked into: of its entries `name` the last
counts, if it is a string. -/
def nameIn (entries : List (Option String × Document)) : Option String :=
  match (documentsAt "name" entries).getLast? with
  | some (.text name) => name
  | _ => none

/-- The last entry of a key and the last field of that key go together. -/
theorem rel_getLast?_documentsAt {room : Nat} {entries : List (Option String × Document)}
    {fields : List (String × Value)} (h : Document.fields room entries = .ok fields)
    (key : String) :
    Option.Rel (fun document value => Document.value room document = .ok value)
      (documentsAt key entries).getLast? (Value.field? key fields.reverse) := by
  have hentries := Document.fields_eq_ok h
  clear h
  induction hentries with
  | nil => exact .none
  | @cons entry field entries fields hentry hrest ih =>
      obtain ⟨found, document⟩ := entry
      obtain ⟨other, value⟩ := field
      obtain ⟨rfl, hvalue⟩ := hentry
      rw [List.reverse_cons, Value.field?_append, Value.field?_cons]
      by_cases hkey : key = other
      · subst hkey
        rw [documentsAt_cons_self, List.getLast?_cons, if_pos rfl]
        generalize (documentsAt key entries).getLast? = last at ih
        generalize Value.field? key fields.reverse = found at ih
        cases ih with
        | none => exact .some hvalue
        | some hlast => exact .some hlast
      · rw [documentsAt_cons_of_ne (fun hsame => hkey (Option.some.inj hsame).symm),
          if_neg hkey]
        generalize (documentsAt key entries).getLast? = last at ih
        generalize Value.field? key fields.reverse = found at ih
        cases ih with
        | none => exact .none
        | some hlast => exact .some hlast

/-- The string that a field holds, if it holds one. -/
def heldText : Option Value → Option String
  | some (.text name) => some name
  | _ => none

theorem ofBody_unknown {kind : String} (h : kind ∉ knownKinds) (body : List (String × Value)) :
    ofBody kind body = .ok (.unknown kind (heldText (Value.field? "name" body))) := by
  have hkind : kind ≠ "interface" ∧ kind ≠ "dictionary" ∧ kind ≠ "global_function" := by
    simpa [knownKinds] using h
  obtain ⟨hinterface, hdictionary, hfunction⟩ := hkind
  rw [ofBody, if_neg hinterface, if_neg hdictionary, if_neg hfunction]
  rfl

/-- An object of unknown kind is read to its kind and its name if it can be evaluated. -/
theorem read_of_unknown {kind : String} {entries : List (Option String × Document)}
    (hkind : documentsAt "kind" entries = [.text (some kind)]) (hunknown : kind ∉ knownKinds) :
    Declaration.read (.object entries none) =
      (Document.fields (greatestDepth - declarationDepth) entries).map fun _ =>
        .unknown kind (nameIn entries) := by
  have hone : (none : Option String).toList.map (fun name => Document.text (some name)) ++
      documentsAt "kind" entries = [.text (some kind)] := hkind
  change ofEntries none [] none entries = _
  rw [ofEntries_eq_bind hone]
  cases hfields : Document.fields (greatestDepth - declarationDepth) entries with
  | error fault => rfl
  | ok fields =>
      have hname := rel_getLast?_documentsAt hfields "name"
      change ofBody kind (Value.sortFields (fields.filter fun field => field.1 != "kind")) =
        .ok (.unknown kind (nameIn entries))
      rw [ofBody_unknown hunknown, Value.field?_sortFields, ← List.filter_reverse,
        Value.field?_filter (· != "kind"), if_pos (by decide), nameIn]
      generalize (documentsAt "name" entries).getLast? = last at hname
      generalize Value.field? "name" fields.reverse = field at hname
      cases hname with
      | none => rfl
      | some hvalue => cases Document.evaluated_of_value hvalue <;> rfl

/-- The entries of an object of the given unknown kind, as it may be put among the
declarations of a unit: the text does not break off in it, its numbers are in range, and with
the unit and its list of declarations around it it is not nested too deep. -/
structure OfUnknownKind (kind : String) (entries : List (Option String × Document)) : Prop where
  told : documentsAt "kind" entries = [.text (some kind)]
  unknown : kind ∉ knownKinds
  closed : ∀ part ∈ (Document.object entries none).parts, part.isClosed
  inRange : ∀ part ∈ (Document.object entries none).parts, part.inRange
  depth : (Document.object entries none).depth + 2 ≤ greatestDepth

namespace OfUnknownKind

variable {kind : String} {entries : List (Option String × Document)}

theorem exists_fields_iff (h : OfUnknownKind kind entries) :
    (∃ fields, Document.fields (greatestDepth - declarationDepth) entries = .ok fields) ↔
      ∀ part ∈ (Document.object entries none).parts, part.isUnicode := by
  have hdepth : (Document.object entries none).depth ≤ greatestDepth - declarationDepth + 1 :=
    Nat.le_of_add_le_add_right h.depth
  have hvalue : (∃ value, (Document.object entries none).value
      (greatestDepth - declarationDepth + 1) = .ok value) ↔
      ∃ fields, Document.fields (greatestDepth - declarationDepth) entries = .ok fields := by
    rw [Document.exists_value_object_iff, and_iff_right rfl]
  rw [← hvalue, Document.exists_value_iff, and_iff_right hdepth]
  refine forall₂_congr fun part hmem => ?_
  rw [Document.isReadable, h.closed part hmem, h.inRange part hmem, Bool.true_and, Bool.true_and]

theorem read_of_unicode (h : OfUnknownKind kind entries)
    (hunicode : ∀ part ∈ (Document.object entries none).parts, part.isUnicode) :
    Declaration.read (.object entries none) = .ok (.unknown kind (nameIn entries)) := by
  obtain ⟨fields, hfields⟩ := h.exists_fields_iff.mpr hunicode
  rw [read_of_unknown h.told h.unknown, hfields]
  rfl

theorem read_of_not_unicode (h : OfUnknownKind kind entries)
    (hunicode : ¬ ∀ part ∈ (Document.object entries none).parts, part.isUnicode) :
    Declaration.read (.object entries none) = .error (.text .malformed) := by
  rw [read_of_unknown h.told h.unknown]
  cases hfields : Document.fields (greatestDepth - declarationDepth) entries with
  | ok fields => exact absurd (h.exists_fields_iff.mp ⟨fields, hfields⟩) hunicode
  | error fault =>
      have hentries := (Document.forall_parts_object_iff.mp h.closed).2
      rw [Document.fields_eq_error
        (fun entry hmem other => Document.value_eq_error (hentries entry hmem)) hfields]
      rfl

end OfUnknownKind

end Declaration

/-- Declarations are read one by one, so one that is put in between is read for itself. -/
theorem readDeclarations_insert {front back : List Document} {declarations : List Declaration}
    (h : readDeclarations (.array (front ++ back) none) = .ok declarations) :
    ∃ before after, declarations = before ++ after ∧ before.length = front.length ∧
      ∀ document, readDeclarations (.array (front ++ document :: back) none) =
        (Declaration.read document).map fun declaration => before ++ declaration :: after := by
  obtain ⟨found, hread, hresult⟩ := Sequence.bind_eq_ok_iff.mp h
  cases hresult
  rw [List.mapM_append] at hread
  obtain ⟨before, hbefore, hmore⟩ := Sequence.bind_eq_ok_iff.mp hread
  obtain ⟨after, hafter, hfound⟩ := Sequence.bind_eq_ok_iff.mp hmore
  cases hfound
  refine ⟨before, after, rfl, (Sequence.mapM_eq_ok_iff.mp hbefore).length_eq.symm, ?_⟩
  intro document
  rw [readDeclarations, List.mapM_append, List.mapM_cons, hbefore, hafter]
  cases Declaration.read document with
  | error fault => rfl
  | ok declaration => rfl

namespace SourceUnit

/-- Declarations that were read before are in the unit as they are. -/
theorem ofEntries_some (fileName : Option String) (declarations others : List Declaration)
    (cut : Option Cut) (entries : List (Option String × Document)) :
    ofEntries fileName (some others) cut entries =
      (ofEntries fileName (some declarations) cut entries).map fun unit =>
        { unit with declarations := others } := by
  induction entries generalizing fileName with
  | nil =>
      cases cut with
      | some cut => rfl
      | none =>
          cases fileName with
          | none => rfl
          | some fileName => rfl
  | cons entry entries ih =>
      obtain ⟨key, document⟩ := entry
      cases key with
      | none => rfl
      | some key =>
          simp only [ofEntries]
          split_ifs with hfile hobjects
          · cases fileName with
            | some fileName => rfl
            | none =>
                cases document.readText with
                | error fault => rfl
                | ok name => exact ih (some name)
          · rfl
          · cases document.flaw with
            | some verdict => rfl
            | none => exact ih fileName

/-- An entry is read in the same way whatever comes after it. -/
theorem exists_ofEntries_cons {fileName : Option String}
    {declarations : Option (List Declaration)} {cut : Option Cut}
    {entry : Option String × Document} {entries : List (Option String × Document)}
    {unit : SourceUnit} (h : ofEntries fileName declarations cut (entry :: entries) = .ok unit) :
    ∃ nextName nextDeclarations, ∀ rest, ofEntries fileName declarations cut (entry :: rest) =
      ofEntries nextName nextDeclarations cut rest := by
  obtain ⟨key, document⟩ := entry
  cases key with
  | none => cases h
  | some key =>
      simp only [ofEntries] at h ⊢
      split_ifs at h ⊢ with hfile hobjects
      · cases fileName with
        | some fileName => cases h
        | none =>
            obtain ⟨name, hname, -⟩ := Sequence.bind_eq_ok_iff.mp h
            exact ⟨some name, declarations, fun rest => by rw [hname]; rfl⟩
      · cases declarations with
        | some declarations => cases h
        | none =>
            obtain ⟨found, hfound, -⟩ := Sequence.bind_eq_ok_iff.mp h
            exact ⟨fileName, some found, fun rest => by rw [hfound]; rfl⟩
      · cases hflaw : document.flaw with
        | some verdict => simp only [hflaw, reduceCtorEq] at h
        | none => exact ⟨fileName, declarations, fun rest => rfl⟩

theorem exists_ofEntries_append {fileName : Option String}
    {declarations : Option (List Declaration)} {cut : Option Cut}
    {before after : List (Option String × Document)} {unit : SourceUnit}
    (h : ofEntries fileName declarations cut (before ++ after) = .ok unit) :
    ∃ nextName nextDeclarations, ∀ rest, ofEntries fileName declarations cut (before ++ rest) =
      ofEntries nextName nextDeclarations cut rest := by
  induction before generalizing fileName declarations with
  | nil => exact ⟨fileName, declarations, fun rest => rfl⟩
  | cons entry before ih =>
      obtain ⟨name, found, hstep⟩ := exists_ofEntries_cons h
      rw [List.cons_append, hstep] at h
      obtain ⟨nextName, nextFound, hrest⟩ := ih h
      refine ⟨nextName, nextFound, fun rest => ?_⟩
      rw [List.cons_append, hstep, hrest]

/-- What stands around the declarations in the document of a unit. -/
inductive Surroundings
  /-- The other entries of the unit, before and after those of its declarations. -/
  | entries (before after : List (Option String × Document))
  /-- The file name alone, where the unit is written as a sequence. -/
  | fileName (document : Document)

/-- The document of a unit with the given declarations. -/
def Surroundings.document : Surroundings → List Document → Document
  | .entries before after, declarations =>
    .object (before ++ (some "objects", .array declarations none) :: after) none
  | .fileName document, declarations => .array [document, .array declarations none] none

/-- Other declarations in the same surroundings give the same unit but for them. -/
theorem ofDocument_document {around : Surroundings} {items : List Document} {unit : SourceUnit}
    (h : ofDocument (around.document items) = .ok unit) :
    readDeclarations (.array items none) = .ok unit.declarations ∧
      ∀ others, ofDocument (around.document others) =
        (readDeclarations (.array others none)).map fun declarations =>
          { unit with declarations } := by
  cases around with
  | entries before after =>
      obtain ⟨fileName, declarations, hbefore⟩ := exists_ofEntries_append h
      have hrest := (hbefore _).symm.trans h
      rcases ofEntries_cons_cases hrest with ⟨hkey, -⟩ | ⟨-, rfl, found, hfound, hafter⟩ |
        ⟨-, hkey, -⟩
      · exact absurd hkey (by decide)
      · -- What was read stays as it is to the end, and so would anything in its place.
        have hunit := ofEntries_some fileName found found none after
        rw [hafter] at hunit
        have hsame : unit.declarations = found :=
          congrArg SourceUnit.declarations (Except.ok.inj hunit)
        refine ⟨hsame ▸ hfound, fun others => ?_⟩
        change ofEntries none none none (before ++ _) = _
        rw [hbefore]
        change (readDeclarations (.array others none) >>= fun declarations =>
          ofEntries fileName (some declarations) none after) = _
        cases readDeclarations (.array others none) with
        | error fault => rfl
        | ok declarations =>
            change ofEntries fileName (some declarations) none after = _
            rw [ofEntries_some fileName found, hafter]
            rfl
      · exact absurd rfl hkey
  | fileName document =>
      obtain ⟨name, hname, hmore⟩ := Sequence.bind_eq_ok_iff.mp h
      obtain ⟨found, hfound, hresult⟩ := Sequence.bind_eq_ok_iff.mp hmore
      cases hresult
      refine ⟨hfound, fun others => ?_⟩
      change (document.readText >>= fun fileName =>
        readDeclarations (.array others none) >>= fun declarations =>
          .ok (SourceUnit.mk fileName declarations)) = _
      rw [hname]
      cases readDeclarations (.array others none) with
      | error fault => rfl
      | ok declarations => rfl

theorem ofText_of_document {text : String} {document : Document}
    (h : Document.ofText text = (document, false)) : ofText text = ofDocument document := by
  rw [ofText, h]
  exact bind_pure (ofDocument document)

/-- An object of unknown kind may be put at any place among the declarations of a unit,
however the two texts are spelled. If its strings and keys are Unicode texts, the unit is
loaded as before, with the kind and the name of the object at that place; otherwise the text
is malformed. -/
theorem parse_with_unknown_kind {around : Surroundings} {front back : List Document}
    {kind : String} {entries : List (Option String × Document)} {text longer : String}
    {unit : SourceUnit}
    (htext : Document.ofText text = (around.document (front ++ back), false))
    (hlonger : Document.ofText longer =
      (around.document (front ++ .object entries none :: back), false))
    (hunknown : Declaration.OfUnknownKind kind entries) (hparse : parse text = .ok unit) :
    ∃ before after, unit.declarations = before ++ after ∧ before.length = front.length ∧
      ((∀ part ∈ (Document.object entries none).parts, part.isUnicode) →
        parse longer = .ok ⟨unit.fileName,
          before ++ .unknown kind (Declaration.nameIn entries) :: after⟩) ∧
      ((¬ ∀ part ∈ (Document.object entries none).parts, part.isUnicode) →
        parse longer = .error (.json (.text .malformed))) := by
  obtain ⟨hread, hnamed⟩ := parse_eq_ok_iff.mp hparse
  rw [ofText_of_document htext] at hread
  obtain ⟨hdeclarations, hothers⟩ := ofDocument_document hread
  obtain ⟨before, after, hsplit, hlength, hinsert⟩ := readDeclarations_insert hdeclarations
  have hlongerRead := ofText_of_document hlonger
  rw [hothers, hinsert] at hlongerRead
  refine ⟨before, after, hsplit, hlength, fun hunicode => ?_, fun hunicode => ?_⟩
  · rw [hunknown.read_of_unicode hunicode] at hlongerRead
    exact parse_eq_ok_iff.mpr ⟨hlongerRead, hnamed⟩
  · rw [hunknown.read_of_not_unicode hunicode] at hlongerRead
    rw [parse, hlongerRead]
    rfl

def canvas (declarations : List Value) : Value :=
  .object [("filename", .text "canvas"), ("objects", .array declarations)]

def interface (name : String) : Value :=
  .object [("kind", .text "interface"), ("name", .text name)]

/-- An object of unknown kind with members that no class has, and with two names. -/
def mode : List (String × Value) :=
  [("name", .ofNat 1), ("members", .array [.null, .object [("kind", .ofNat 2)]]),
    ("kind", .text "enum"), ("name", .text "Mode")]

theorem ofUnknownKind_mode : Declaration.OfUnknownKind "enum" (Value.entries mode) where
  told := by rfl
  unknown := by decide
  closed := by decide
  inRange := by decide
  depth := by decide

theorem parse_with_unknown_kind_canvas :
    ∃ shape point, parse (canvas [interface "Shape", interface "Point"]).print =
        .ok ⟨"canvas", [shape, point]⟩ ∧
      parse (canvas [interface "Shape", .object mode, interface "Point"]).print =
        .ok ⟨"canvas", [shape, .unknown "enum" (some "Mode"), point]⟩ := by
  have htext : Document.ofText (canvas [interface "Shape", interface "Point"]).print =
      ((Surroundings.entries [(some "filename", .text (some "canvas"))] []).document
        ([(interface "Shape").document] ++ [(interface "Point").document]), false) :=
    Document.ofText_print _
  have hlonger : Document.ofText
      (canvas [interface "Shape", .object mode, interface "Point"]).print =
      ((Surroundings.entries [(some "filename", .text (some "canvas"))] []).document
        ([(interface "Shape").document] ++ .object (Value.entries mode) none ::
          [(interface "Point").document]), false) :=
    Document.ofText_print _
  have hparse : parse (canvas [interface "Shape", interface "Point"]).print =
      .ok ⟨"canvas", [.class .interface ⟨"Shape", none, []⟩,
        .class .interface ⟨"Point", none, []⟩]⟩ :=
    parse_eq_ok_iff.mpr ⟨ofText_eq_ok_iff.mpr ⟨_, htext, by rfl⟩, by decide⟩
  obtain ⟨before, after, hsplit, hlength, hunicode, -⟩ :=
    parse_with_unknown_kind htext hlonger ofUnknownKind_mode hparse
  obtain ⟨shape, rfl⟩ := List.length_eq_one_iff.mp hlength
  cases hsplit
  exact ⟨_, _, hparse, hunicode (by decide)⟩

/-- A unit whose only object has half of a surrogate pair in a string. -/
def halfPair : String :=
  "\x7b\"filename\":\"canvas\",\"objects\":[\x7b\"kind\":\"enum\",\"note\":\"\\ud800\"\x7d]\x7d"

theorem unknown_kind_refused_halfPair :
    parse (canvas []).print = .ok ⟨"canvas", []⟩ ∧
      (∃ entries, Declaration.OfUnknownKind "enum" entries ∧ Document.ofText halfPair =
        ((Surroundings.entries [(some "filename", .text (some "canvas"))] []).document
          [.object entries none], false)) ∧
      parse halfPair = .error (.json (.text .malformed)) := by
  have htokens : Token.scan halfPair.toList =
      [.openObject, .text (some "filename"), .colon, .text (some "canvas"), .comma,
        .text (some "objects"), .colon, .openArray, .openObject, .text (some "kind"), .colon,
        .text (some "enum"), .comma, .text (some "note"), .colon, .text none, .closeObject,
        .closeArray, .closeObject] := by
    decide
  have hdocument : Document.ofText halfPair =
      ((Surroundings.entries [(some "filename", .text (some "canvas"))] []).document
        [.object [(some "kind", .text (some "enum")), (some "note", .text none)] none], false) := by
    rw [Document.ofText, htokens]
    rfl
  refine ⟨?_, ⟨_, ⟨by rfl, by decide, by decide, by decide, by decide⟩, hdocument⟩, ?_⟩
  · exact parse_eq_ok_iff.mpr
      ⟨ofText_eq_ok_iff.mpr ⟨_, Document.ofText_print _, by rfl⟩, by decide⟩
  · rw [parse, ofText_of_document hdocument]
    rfl

end SourceUnit

end IdlBindings
