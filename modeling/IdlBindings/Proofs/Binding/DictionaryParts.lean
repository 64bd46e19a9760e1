import IdlBindings.Proofs.Binding.DictionaryLayout
import IdlBindings.Proofs.Binding.Identifiers
import IdlBindings.Proofs.Text.Lines

/-!
The parts of a dictionary. Its value, its native form and the two conversions between them
are written side by side, each with one line for a field, and the statements that put texts
into buffers come before all of them. All parts speak of the same fields in the same order.
The locals of the statements are made from the names of the fields, so they are told apart by
these names and by what is added to them.
-/

namespace IdlBindings

namespace Binding

open Naming Text

variable {registry : Registry} {c : ClassDecl} {field : BoundField}

/-- A part of a dictionary that has a line for each field: the slot that it fills, how its
lines start, and what they say after the name of the field. -/
structure FieldPart where
  slot : String
  front : String
  written : BoundField → String

namespace FieldPart

def value : FieldPart :=
  ⟨"fields", "    pub ", fun field => typeText field.type .methodReturn⟩

def native : FieldPart :=
  ⟨"raw_fields", "    pub ", fun field => typeText field.type .publicReturn⟩

def stored : FieldPart :=
  ⟨"raw_init", "                ", fun field => (storeField field.name field.type).expression⟩

def loaded : FieldPart :=
  ⟨"from_raw_fields", "            ", fun field => loadField field.name field.type⟩

def all : List FieldPart :=
  [value, native, stored, loaded]

def line (part : FieldPart) (field : BoundField) : String :=
  part.front ++ field.name ++ ": " ++ part.written field ++ ","

end FieldPart

namespace BoundField

/-- Whether the field holds a text, which needs a buffer of its own. -/
def isText (field : BoundField) : Bool :=
  field.type = .domString || field.type = .legacyDomString

def bufferLocal (field : BoundField) : String :=
  field.name ++ "_buffer"

/-- The local that points into the buffer. -/
def pointerLocal (field : BoundField) : String :=
  field.name ++ "_ptr"

/-- The locals of a text field, each with what it is bound to. -/
def locals (field : BoundField) : List (String × String) :=
  [(field.bufferLocal, "to_native_string(&self." ++ field.name ++ ")?"),
    (field.pointerLocal, field.bufferLocal ++ ".as_ptr()")]

/-- The lines that put a text into a buffer and hand the buffer to its owner. -/
def bufferLines (field : BoundField) : List String :=
  (field.locals.map fun entry => "        let " ++ entry.1 ++ " = " ++ entry.2 ++ ";") ++
    ["        strings.push(" ++ field.bufferLocal ++ ");"]

/-- A field that an attribute is bound as: it has the type of the attribute, and its name is
the identifier of the attribute, with a number where that was taken. -/
def StandsFor (field : BoundField) (a : Attribute) : Prop :=
  field.type = a.type ∧ Pool.IsFormOf (identifier a.name) field.name

/-- A field is stored from its own value. A text goes through the two locals of the field,
which are bound once each, and all else is read from the field directly. -/
structure StoredFromSelf (bindings : List (String × String)) (field : BoundField) : Prop where
  pointer : field.isText = true →
    (storeField field.name field.type).expression = field.pointerLocal
  bound_once : field.isText = true →
    ∀ entry ∈ field.locals, ∀ value, (entry.1, value) ∈ bindings ↔ value = entry.2
  direct : field.isText = false →
    ∃ before after,
      (storeField field.name field.type).expression = before ++ "self." ++ field.name ++ after ∧
        after.toList.head?.any isWordChar = false

/-- A field as it can be bound: its name is a word, and its type can be emitted. -/
structure WellFormed (registry : Registry) (field : BoundField) : Prop where
  word : WordChars field.name.toList
  emitted : (emittedType registry .field field.type).isOk = true

end BoundField

/-- The local that a line introduces, and what it is bound to. -/
def letBinding? (line : String) : Option (String × String) :=
  match line.toList.dropWhile (· == ' ') with
  | 'l' :: 'e' :: 't' :: ' ' :: rest =>
    some (String.ofList (rest.takeWhile (· != ' ')),
      String.ofList ((rest.dropWhile (· != ' ')).drop 3).dropLast)
  | _ => none

/-- What is reported about a field, if it cannot be emitted. -/
def fieldNotice? (registry : Registry) (className : String) (a : Attribute) : Option Notice :=
  match emittedType registry .field a.type with
  | .ok _ => none
  | .error cause => some ⟨className, some a.name, cause⟩

/-- The attributes that can be emitted are bound in their order. -/
theorem standFor_bindFields (registry : Registry) (className : String) (pool : Pool)
    (fields : List Attribute) :
    List.Forall₂ (fun a field => BoundField.StandsFor field a)
      (fields.filter (isEmittableField registry))
      (bindFields registry className pool fields).1 := by
  induction fields generalizing pool with
  | nil => exact .nil
  | cons a rest ih =>
      rw [bindFields]
      cases htype : emittedType registry .field a.type with
      | error cause =>
          have hskipped : isEmittableField registry a = false := isOk_of_eq_error htype
          rw [List.filter_cons_of_neg (by simp [hskipped])]
          exact ih pool
      | ok type =>
          have hmet : isEmittableField registry a = true := isOk_of_eq_ok htype
          rw [List.filter_cons_of_pos hmet]
          exact .cons ⟨eq_of_emittedType_field htype, pool.isFormOf_choose _⟩ (ih _)

theorem notices_of_bindFields (registry : Registry) (className : String) (pool : Pool)
    (fields : List Attribute) :
    (bindFields registry className pool fields).2 =
      fields.filterMap (fieldNotice? registry className) := by
  induction fields generalizing pool with
  | nil => rfl
  | cons a rest ih =>
      rw [bindFields, List.filterMap_cons, fieldNotice?]
      cases emittedType registry .field a.type with
      | error cause => exact congrArg (List.cons _) (ih pool)
      | ok type => exact ih _

theorem member_of_fieldNotice? {className : String} {a : Attribute} {notice : Notice}
    (h : fieldNotice? registry className a = some notice) : notice.member = some a.name := by
  rw [fieldNotice?] at h
  split at h
  · cases h
  · cases h
    rfl

/-- Where no two fields have the same name, what is reported with the name of a field is
what is reported about it. -/
theorem filter_fieldNotices {className : String} {fields : List Attribute}
    (hnodup : (fields.map Attribute.name).Nodup) {a : Attribute} (ha : a ∈ fields) :
    (fields.filterMap (fieldNotice? registry className)).filter
        (fun notice => notice.member = some a.name) =
      (fieldNotice? registry className a).toList := by
  have hothers {others : List Attribute} (hnone : a.name ∉ others.map Attribute.name) :
      (others.filterMap (fieldNotice? registry className)).filter
        (fun notice => notice.member = some a.name) = [] := by
    rw [List.filter_eq_nil_iff]
    intro notice hnotice hmember
    obtain ⟨other, hother, hreported⟩ := List.mem_filterMap.mp hnotice
    rw [decide_eq_true_eq, member_of_fieldNotice? hreported] at hmember
    exact hnone (Option.some.inj hmember ▸ List.mem_map_of_mem hother)
  have hown : ((fieldNotice? registry className a).toList.filter
      fun notice => notice.member = some a.name) = (fieldNotice? registry className a).toList := by
    rw [List.filter_eq_self]
    intro notice hnotice
    exact decide_eq_true (member_of_fieldNotice? (Option.mem_toList.mp hnotice))
  obtain ⟨before, after, rfl⟩ := List.append_of_mem ha
  rw [List.map_append, List.map_cons, List.nodup_middle, List.nodup_cons, List.mem_append,
    not_or] at hnodup
  have hsplit : (before ++ a :: after).filterMap (fieldNotice? registry className) =
      before.filterMap (fieldNotice? registry className) ++
        ((fieldNotice? registry className a).toList ++
          after.filterMap (fieldNotice? registry className)) := by
    rw [List.filterMap_append, List.filterMap_cons]
    cases fieldNotice? registry className a with
    | none => rfl
    | some notice => rfl
  rw [hsplit, List.filter_append, List.filter_append, hothers hnodup.1.1, hothers hnodup.1.2, hown,
    List.nil_append, List.append_nil]

section Dictionary

variable (registry : Registry) (c : ClassDecl) (objectName : String)

theorem standFor_fields :
    List.Forall₂ (fun a field => BoundField.StandsFor field a) (emittedFields registry c)
      (bindDictionary registry c objectName).1.fields :=
  standFor_bindFields registry c.name (.ofReserved []) (registry.fieldSet c).fields

theorem nodup_names :
    ((bindDictionary registry c objectName).1.fields.map BoundField.name).Nodup := by
  rw [fields_of_bindDictionary, map_name_namedFields (length_fieldNames registry c)]
  exact (Pool.handOut_fresh _ _).1

/-- What a dictionary reports with the name of a field is what is reported about the field.
A missing ancestor is reported without a name. -/
theorem filter_notices {a : Attribute} (ha : a ∈ (registry.fieldSet c).fields) :
    (bindDictionary registry c objectName).2.filter (fun notice => notice.member = some a.name) =
      (fieldNotice? registry c.name a).toList := by
  have hnotices : (bindDictionary registry c objectName).2 =
      ((registry.fieldSet c).missingAncestor.toList.map fun parent =>
        ⟨c.name, none, .unresolvedParent parent⟩) ++
      (registry.fieldSet c).fields.filterMap (fieldNotice? registry c.name) := by
    rw [← notices_of_bindFields registry c.name (.ofReserved [])]
    rfl
  have hparent : (((registry.fieldSet c).missingAncestor.toList.map fun parent =>
      (⟨c.name, none, .unresolvedParent parent⟩ : Notice)).filter
        fun notice => notice.member = some a.name) = [] := by
    rw [List.filter_eq_nil_iff]
    intro notice hnotice
    obtain ⟨parent, -, rfl⟩ := List.mem_map.mp hnotice
    simp
  rw [hnotices, List.filter_append, hparent, List.nil_append,
    filter_fieldNotices (registry.nodup_fieldSet c) ha]

end Dictionary

/-- Every field of a dictionary is well formed. -/
theorem wellFormed_of_mem {objectName : String}
    (h : field ∈ (bindDictionary registry c objectName).1.fields) :
    field.WellFormed registry := by
  have hword : Guarded field.name :=
    guarded_dictionary registry c objectName field.name (List.mem_map_of_mem h)
  obtain ⟨a, ha, htype, -⟩ :=
    Sequence.exists_left_of_mem (standFor_fields registry c objectName) h
  have hemitted : isEmittableField registry a = true := (List.mem_filter.mp ha).2
  rw [isEmittableField, ← htype] at hemitted
  exact ⟨hword.chars, hemitted⟩

theorem not_mem_of_wordChars {chars : List Char} (h : WordChars chars) {d : Char}
    (hd : isWordChar d = false) : d ∉ chars := by
  intro hmem
  rw [h d hmem] at hd
  cases hd

/-- The texts of the types of fields have no line feed. -/
theorem unbroken_typeText {type : ValueType}
    (h : (emittedType registry .field type).isOk = true) :
    Unbroken (typeText type .methodReturn) ∧ Unbroken (typeText type .publicReturn) := by
  cases type with
  | void => cases h
  | pointer className => cases h
  | unsupported => cases h
  | _ => exact ⟨unbroken_ofList (by decide), unbroken_ofList (by decide)⟩

theorem unbroken_stored {name : String} (hname : Unbroken name) (type : ValueType) :
    Unbroken (storeField name type).expression := by
  cases type with
  | domString | legacyDomString => exact hname.append (unbroken_ofList (by decide))
  | boolean | any => exact hname.enclosed (by decide) (by decide)
  | _ => exact (unbroken_ofList (by decide)).append hname

theorem unbroken_loaded {name : String} (hname : Unbroken name) (type : ValueType) :
    Unbroken (loadField name type) := by
  cases type with
  | domString | legacyDomString | boolean | any => exact hname.enclosed (by decide) (by decide)
  | _ => exact (unbroken_ofList (by decide)).append hname

/-- Every part writes one line for a field. -/
theorem isLine_line (h : field.WellFormed registry) {part : FieldPart}
    (hpart : part ∈ FieldPart.all) : IsLine (part.line field) := by
  have hname : Unbroken field.name := not_mem_of_wordChars h.word (by decide)
  have htypes := unbroken_typeText h.emitted
  have hparts : Unbroken part.front ∧ Unbroken (part.written field) := by
    simp only [FieldPart.all, List.mem_cons, List.not_mem_nil, or_false] at hpart
    rcases hpart with rfl | rfl | rfl | rfl
    · exact ⟨unbroken_ofList (by decide), htypes.1⟩
    · exact ⟨unbroken_ofList (by decide), htypes.2⟩
    · exact ⟨unbroken_ofList (by decide), unbroken_stored hname field.type⟩
    · exact ⟨unbroken_ofList (by decide), unbroken_loaded hname field.type⟩
  have hstart : Unbroken (part.front ++ field.name ++ ": ") :=
    (hparts.1.append hname).append (unbroken_ofList (by decide))
  exact isLine_append (hstart.append hparts.2) (by decide) (by decide) (by decide)

/-- The slot of a part holds its lines, each ended by a line feed. -/
theorem slot?_of_part (binding : DictionaryBinding) {part : FieldPart}
    (hpart : part ∈ FieldPart.all) :
    binding.fragment.slot? part.slot = some (ended (binding.fields.map part.line)) := by
  have hended (text : String) : text ++ "," ++ "\n" = text ++ ",\n" := String.append_assoc
  simp only [FieldPart.all, List.mem_cons, List.not_mem_nil, or_false] at hpart
  rw [ended, List.map_map]
  rcases hpart with rfl | rfl | rfl | rfl
  all_goals
    simp only [Function.comp_def, FieldPart.line, hended]
    rfl

theorem map_statements (name : String) (type : ValueType) :
    ((storeField name .domString).statements.map fun statement => "        " ++ statement) =
      BoundField.bufferLines ⟨name, type⟩ := by
  -- The two sides cut the same texts at different places.
  have hlet (rest : String) : "        " ++ ("let " ++ rest) = "        let " ++ rest :=
    String.append_assoc.symm
  have hvalue (rest : String) : "_buffer" ++ (" = " ++ ("to_native_string(&self." ++ rest)) =
      "_buffer = to_native_string(&self." ++ rest := by
    rw [← String.append_assoc, ← String.append_assoc]
    rfl
  have hpointer (rest : String) : "_ptr" ++ (" = " ++ rest) = "_ptr = " ++ rest :=
    String.append_assoc.symm
  have hpush (rest : String) :
      "        " ++ ("strings.push(" ++ rest) = "        strings.push(" ++ rest :=
    String.append_assoc.symm
  have hvalueEnd : ")?" ++ ";" = ")?;" := rfl
  have hpointerEnd : "_buffer" ++ (".as_ptr()" ++ ";") = "_buffer.as_ptr();" := rfl
  have hpushEnd : "_buffer" ++ ");" = "_buffer);" := rfl
  simp only [storeField, BoundField.bufferLines, BoundField.locals, BoundField.bufferLocal,
    BoundField.pointerLocal, List.map_cons, List.map_nil, List.cons_append, List.nil_append,
    String.append_assoc, hlet, hvalue, hpointer, hpush, hvalueEnd, hpointerEnd, hpushEnd]

/-- Only a text field has statements, and they are its buffer lines. -/
theorem storeStatements_eq (field : BoundField) :
    field.storeStatements = if field.isText then ended field.bufferLines else "" := by
  obtain ⟨name, type⟩ := field
  cases type with
  | domString | legacyDomString => exact congrArg ended (map_statements name _)
  | _ => rfl

theorem slot?_body (binding : DictionaryBinding) :
    binding.fragment.slot? "to_native_body" =
      some (ended ((binding.fields.filter BoundField.isText).flatMap BoundField.bufferLines)) := by
  have hjoined (fields : List BoundField) :
      String.join (fields.map BoundField.storeStatements) =
        ended ((fields.filter BoundField.isText).flatMap BoundField.bufferLines) := by
    induction fields with
    | nil => rfl
    | cons field rest ih =>
        rw [List.map_cons, String.join_cons, storeStatements_eq, ih]
        cases htext : field.isText with
        | false =>
            rw [List.filter_cons_of_neg (by simp [htext]), if_neg (by simp), String.empty_append]
        | true =>
            rw [List.filter_cons_of_pos htext, if_pos rfl, List.flatMap_cons, ended_append]
  exact congrArg some (hjoined binding.fields)

theorem letBinding?_let {name : String} (h : ' ' ∉ name.toList) (value : String) :
    letBinding? ("        let " ++ name ++ " = " ++ value ++ ";") = some (name, value) := by
  have hchars : ("        let " ++ name ++ " = " ++ value ++ ";").toList.dropWhile (· == ' ') =
      'l' :: 'e' :: 't' :: ' ' ::
        (name.toList ++ ' ' :: '=' :: ' ' :: (value.toList ++ [';'])) := by
    simp only [String.toList_append, List.append_assoc]
    rfl
  have hname : ∀ d ∈ name.toList, (d != ' ') = true := by
    intro d hd
    exact bne_iff_ne.mpr fun heq => h (heq ▸ hd)
  rw [letBinding?, hchars]
  simp only [List.takeWhile_append_of_pos hname, List.dropWhile_append_of_pos hname]
  simp

theorem letBinding?_push (name : String) :
    letBinding? ("        strings.push(" ++ name ++ ");") = none := by
  rw [letBinding?, String.toList_append, String.toList_append, List.append_assoc]
  rfl

/-- The locals that the buffer lines of a field introduce. -/
theorem letBindings_bufferLines (h : field.WellFormed registry) :
    field.bufferLines.filterMap letBinding? = field.locals := by
  have hbuffer : ' ' ∉ field.bufferLocal.toList :=
    not_mem_of_wordChars (wordChars_append h.word (by decide)) (by decide)
  have hpointer : ' ' ∉ field.pointerLocal.toList :=
    not_mem_of_wordChars (wordChars_append h.word (by decide)) (by decide)
  simp only [BoundField.bufferLines, BoundField.locals, List.map_cons, List.map_nil,
    List.cons_append, List.nil_append, List.filterMap_cons, List.filterMap_nil,
    letBinding?_let hbuffer, letBinding?_let hpointer, letBinding?_push]

theorem isLine_of_mem_bufferLines (h : field.WellFormed registry) {line : String}
    (hline : line ∈ field.bufferLines) : IsLine line := by
  have hname : Unbroken field.name := not_mem_of_wordChars h.word (by decide)
  have hbuffer : Unbroken field.bufferLocal := hname.append (unbroken_ofList (by decide))
  have hpointer : Unbroken field.pointerLocal := hname.append (unbroken_ofList (by decide))
  have hlet {name value : String} (hname : Unbroken name) (hvalue : Unbroken value) :
      IsLine ("        let " ++ name ++ " = " ++ value ++ ";") := by
    have hstart : Unbroken ("        let " ++ name ++ " = ") :=
      hname.enclosed (by decide) (by decide)
    exact isLine_append (hstart.append hvalue) (by decide) (by decide) (by decide)
  simp only [BoundField.bufferLines, BoundField.locals, List.map_cons, List.map_nil,
    List.cons_append, List.nil_append, List.mem_cons, List.not_mem_nil, or_false] at hline
  rcases hline with rfl | rfl | rfl
  · exact hlet hbuffer (hname.enclosed (by decide) (by decide))
  · exact hlet hpointer (hbuffer.append (unbroken_ofList (by decide)))
  · exact isLine_append ((unbroken_ofList (by decide)).append hbuffer)
      (by decide) (by decide) (by decide)

theorem consistsOf_bufferLines {fields : List BoundField}
    (h : ∀ field ∈ fields, field.WellFormed registry) :
    ConsistsOf (ended (fields.flatMap BoundField.bufferLines))
      (fields.flatMap BoundField.bufferLines) := by
  apply consistsOf_ended
  intro line hline
  obtain ⟨field, hfield, hown⟩ := List.mem_flatMap.mp hline
  exact isLine_of_mem_bufferLines (h field hfield) hown

theorem letBindings_flatMap {fields : List BoundField}
    (h : ∀ field ∈ fields, field.WellFormed registry) :
    (fields.flatMap BoundField.bufferLines).filterMap letBinding? =
      fields.flatMap BoundField.locals := by
  rw [List.filterMap_flatMap]
  exact List.flatMap_congr fun field hfield => letBindings_bufferLines (h field hfield)

theorem bufferLocal_ne_pointerLocal (field other : BoundField) :
    field.bufferLocal ≠ other.pointerLocal := by
  intro h
  -- Both end in the same letter, so the one before it tells them apart.
  have hend := congrArg (fun name => (String.toList name).reverse.take 2) h
  simp [BoundField.bufferLocal, BoundField.pointerLocal] at hend

/-- Fields with different names have different locals. -/
theorem nodup_locals {fields : List BoundField} (h : (fields.map BoundField.name).Nodup) :
    (((fields.filter BoundField.isText).flatMap BoundField.locals).map Prod.fst).Nodup := by
  rw [List.map_flatMap, List.nodup_flatMap]
  refine ⟨?_, ((List.pairwise_map.mp h).filter _).imp ?_⟩
  · intro field _
    exact List.nodup_cons.mpr
      ⟨mt List.mem_singleton.mp (bufferLocal_ne_pointerLocal field field), List.nodup_singleton _⟩
  · intro field other hne
    have hbuffer : field.bufferLocal ≠ other.bufferLocal := mt (String.append_left_inj _).mp hne
    have hpointer : field.pointerLocal ≠ other.pointerLocal := mt (String.append_left_inj _).mp hne
    simp only [Function.onFun, List.Disjoint, BoundField.locals, List.map_cons, List.map_nil,
      List.mem_cons, List.not_mem_nil, or_false]
    rintro name (rfl | rfl) (heq | heq)
    · exact hbuffer heq
    · exact bufferLocal_ne_pointerLocal field other heq
    · exact bufferLocal_ne_pointerLocal other field heq.symm
    · exact hpointer heq

theorem strings_not_mem_locals (fields : List BoundField) :
    "strings" ∉ (fields.flatMap BoundField.locals).map Prod.fst := by
  intro hmem
  rw [List.map_flatMap] at hmem
  obtain ⟨field, -, hlocal⟩ := List.mem_flatMap.mp hmem
  simp only [BoundField.locals, List.map_cons, List.map_nil, List.mem_cons, List.not_mem_nil,
    or_false] at hlocal
  rcases hlocal with heq | heq
  all_goals
    have hend := congrArg (fun name => (String.toList name).getLast?) heq
    simp [BoundField.bufferLocal, BoundField.pointerLocal] at hend

theorem expression_of_isText (h : field.isText = true) :
    (storeField field.name field.type).expression = field.pointerLocal := by
  obtain ⟨name, type⟩ := field
  cases type with
  | domString | legacyDomString => rfl
  | _ => cases h

theorem expression_of_not_isText (h : field.isText = false) :
    ∃ before after,
      (storeField field.name field.type).expression = before ++ "self." ++ field.name ++ after ∧
        after.toList.head?.any isWordChar = false := by
  obtain ⟨name, type⟩ := field
  cases type with
  | domString | legacyDomString => cases h
  | boolean => exact ⟨"Boolean::from(", ")", rfl, rfl⟩
  | any => exact ⟨"", ".to_rust_value()", rfl, rfl⟩
  | _ => exact ⟨"", "", String.append_empty.symm, rfl⟩

theorem storedFromSelf_of_mem {fields : List BoundField}
    (hnodup : (fields.map BoundField.name).Nodup) (h : field ∈ fields) :
    field.StoredFromSelf ((fields.filter BoundField.isText).flatMap BoundField.locals) where
  pointer := expression_of_isText
  bound_once := by
    intro htext entry hentry value
    have hbound : entry ∈ (fields.filter BoundField.isText).flatMap BoundField.locals :=
      List.mem_flatMap.mpr ⟨field, List.mem_filter.mpr ⟨h, htext⟩, hentry⟩
    constructor
    · -- Another binding of the local would be one more entry with its name.
      intro hvalue
      exact congrArg Prod.snd
        (List.inj_on_of_nodup_map (nodup_locals hnodup) hvalue hbound rfl)
    · rintro rfl
      exact hbound
  direct := expression_of_not_isText

/-- The parts of a dictionary describe the same fields. The names of the fields are distinct,
and there is one field for each attribute whose type can be emitted, in order; of each other
attribute exactly one notice speaks. Each part is one line for each field, and the statements
before them are the buffer lines of the text fields. The locals that these introduce are
distinct and none is the owner of the buffers, so each field is stored from its own value. -/
theorem dictionaryParts_agree (registry : Registry) (c : ClassDecl) (objectName : String) :
    let (binding, notices) := bindDictionary registry c objectName
    (binding.fields.map BoundField.name).Nodup ∧
    List.Forall₂ (fun a field => BoundField.StandsFor field a)
      ((registry.fieldSet c).fields.filter (isEmittableField registry)) binding.fields ∧
    (∀ a ∈ (registry.fieldSet c).fields,
      notices.filter (fun notice => notice.member = some a.name) =
        (fieldNotice? registry c.name a).toList) ∧
    (∀ part ∈ FieldPart.all, ∃ text, binding.fragment.slot? part.slot = some text ∧
      ConsistsOf text (binding.fields.map part.line)) ∧
    ∃ body, binding.fragment.slot? "to_native_body" = some body ∧
      ConsistsOf body
        ((binding.fields.filter BoundField.isText).flatMap BoundField.bufferLines) ∧
      let bindings := (linesOf body).filterMap letBinding?
      (bindings.map Prod.fst).Nodup ∧ "strings" ∉ bindings.map Prod.fst ∧
      ∀ field ∈ binding.fields, field.StoredFromSelf bindings := by
  have hnodup := nodup_names registry c objectName
  have hstand := standFor_fields registry c objectName
  have hnotices := fun a => filter_notices registry c objectName (a := a)
  have hwell : ∀ field ∈ (bindDictionary registry c objectName).1.fields,
      field.WellFormed registry := fun _ => wellFormed_of_mem
  generalize bindDictionary registry c objectName = bound at hnodup hstand hnotices hwell ⊢
  obtain ⟨binding, notices⟩ := bound
  refine ⟨hnodup, hstand, hnotices, ?_, ?_⟩
  · intro part hpart
    refine ⟨_, slot?_of_part binding hpart, consistsOf_ended ?_⟩
    exact List.forall_mem_map.mpr fun field hfield => isLine_line (hwell field hfield) hpart
  · have htexts : ∀ field ∈ binding.fields.filter BoundField.isText, field.WellFormed registry :=
      fun field hfield => hwell field (List.mem_filter.mp hfield).1
    have hbody := consistsOf_bufferLines htexts
    refine ⟨_, slot?_body binding, hbody, ?_⟩
    rw [hbody.2, letBindings_flatMap htexts]
    exact ⟨nodup_locals hnodup, strings_not_mem_locals _,
      fun field hfield => storedFromSelf_of_mem hnodup hfield⟩

end Binding

end IdlBindings
