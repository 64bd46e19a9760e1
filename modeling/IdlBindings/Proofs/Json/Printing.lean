import IdlBindings.Json.Value
import IdlBindings.Proofs.Json.Numerals
import IdlBindings.Proofs.Sequence
import Mathlib.Data.String.Basic

/-!
Reading what values are written as. The tokens of a value put together one document,
which mirrors the value: while it is assembled, the containers around it wait unchanged.
A value comes back from its document when it has no numbers, keeps its fields sorted
and is not nested too deep.
-/

namespace IdlBindings.Json

namespace Value

/-- What holds of a container whenever it holds of everything in it holds of all values. -/
@[elab_as_elim]
theorem induction {motive : Value → Prop} (null : motive .null)
    (boolean : ∀ b, motive (.boolean b)) (number : ∀ n, motive (.number n))
    (text : ∀ s, motive (.text s))
    (array : ∀ items, (∀ item ∈ items, motive item) → motive (.array items))
    (object : ∀ fields, (∀ field ∈ fields, motive field.2) → motive (.object fields))
    (value : Value) : motive value :=
  @Value.rec motive (fun items => ∀ item ∈ items, motive item)
    (fun fields => ∀ field ∈ fields, motive field.2) (fun field => motive field.2)
    null boolean number text array object
    (fun _ hmem => (List.not_mem_nil hmem).elim)
    (fun _ _ hfirst hrest => List.forall_mem_cons.mpr ⟨hfirst, hrest⟩)
    (fun _ hmem => (List.not_mem_nil hmem).elim)
    (fun _ _ hfirst hrest => List.forall_mem_cons.mpr ⟨hfirst, hrest⟩)
    (fun _ _ hvalue => hvalue) value

mutual

/-- The document that a value is written as. -/
def document : Value → Document
  | .null => .null
  | .boolean b => .boolean b
  | .number n => .number n.numeral
  | .text s => .text (some s)
  | .array items => .array (documents items) none
  | .object fields => .object (entries fields) none
termination_by structural value => value

def documents : List Value → List Document
  | [] => []
  | item :: items => item.document :: documents items
termination_by structural items => items

def entries : List (String × Value) → List (Option String × Document)
  | [] => []
  | (key, value) :: fields => (some key, value.document) :: entries fields
termination_by structural fields => fields

end

theorem documents_cons (item : Value) (items : List Value) :
    documents (item :: items) = item.document :: documents items := rfl

theorem documents_eq_map (items : List Value) : documents items = items.map document := by
  induction items with
  | nil => rfl
  | cons item items ih => rw [documents_cons, ih, List.map_cons]

theorem entries_cons (key : String) (value : Value) (fields : List (String × Value)) :
    entries ((key, value) :: fields) = (some key, value.document) :: entries fields := rfl

/-- No value starts with the end of an array. -/
theorem tokens_eq_cons (value : Value) :
    ∃ first rest, value.tokens = first :: rest ∧ first ≠ .closeArray := by
  cases value with
  | null => exact ⟨_, _, rfl, Token.noConfusion⟩
  | boolean b => exact ⟨_, _, rfl, Token.noConfusion⟩
  | number n => exact ⟨_, _, rfl, Token.noConfusion⟩
  | text s => exact ⟨_, _, rfl, Token.noConfusion⟩
  | array items => exact ⟨_, _, rfl, Token.noConfusion⟩
  | object fields => exact ⟨_, _, rfl, Token.noConfusion⟩

theorem tokensOfItems_cons_cons (item next : Value) (items : List Value) :
    tokensOfItems (item :: next :: items) =
      item.tokens ++ .comma :: tokensOfItems (next :: items) := rfl

theorem tokensOfFields_cons_cons (key : String) (value : Value) (next : String × Value)
    (fields : List (String × Value)) :
    tokensOfFields ((key, value) :: next :: fields) =
      .text (some key) :: .colon :: (value.tokens ++ .comma :: tokensOfFields (next :: fields)) :=
  rfl

end Value

namespace Assembly

/-- The tokens of the value are taken in as its document, wherever a value may stand. -/
def TakesIn (value : Value) : Prop :=
  ∀ frames, value.tokens.foldl step (.underway .value frames) = settle value.document frames

theorem foldl_step_items {items : List Value} (hitems : ∀ item ∈ items, TakesIn item)
    (hsome : items ≠ []) (before : List Document) (frames : List Frame) :
    (Value.tokensOfItems items).foldl step (.underway .value (.array before :: frames)) =
      .underway .commaOrEnd (.array ((Value.documents items).reverse ++ before) :: frames) := by
  induction items generalizing before with
  | nil => exact absurd rfl hsome
  | cons item items ih =>
      obtain ⟨hitem, hrest⟩ := List.forall_mem_cons.mp hitems
      have hfirst := hitem (.array before :: frames)
      cases items with
      | nil => exact hfirst
      | cons next items =>
          rw [Value.tokensOfItems_cons_cons, List.foldl_append, hfirst, List.foldl_cons]
          have hcomma : step (settle item.document (.array before :: frames)) .comma =
              .underway .value (.array (item.document :: before) :: frames) := rfl
          rw [hcomma, ih hrest (List.cons_ne_nil _ _), Value.documents_cons item, List.reverse_cons,
            List.append_assoc, List.singleton_append]

/-- After the start of an array its first item is taken in like any other. -/
theorem foldl_step_itemOrEnd {items : List Value} (hsome : items ≠ []) (frames : List Frame) :
    (Value.tokensOfItems items).foldl step (.underway .itemOrEnd frames) =
      (Value.tokensOfItems items).foldl step (.underway .value frames) := by
  have hstart : ∃ first rest, Value.tokensOfItems items = first :: rest ∧ first ≠ .closeArray := by
    cases items with
    | nil => exact absurd rfl hsome
    | cons item items =>
        obtain ⟨first, rest, htokens, hfirst⟩ := item.tokens_eq_cons
        cases items with
        | nil => exact ⟨first, rest, htokens, hfirst⟩
        | cons next items =>
            rw [Value.tokensOfItems_cons_cons, htokens]
            exact ⟨first, _, rfl, hfirst⟩
  obtain ⟨first, rest, htokens, hfirst⟩ := hstart
  have hstep : step (.underway .itemOrEnd frames) first = step (.underway .value frames) first := by
    cases first with
    | closeArray => exact absurd rfl hfirst
    | _ => rfl
  rw [htokens, List.foldl_cons, List.foldl_cons, hstep]

theorem takesIn_array {items : List Value} (hitems : ∀ item ∈ items, TakesIn item) :
    TakesIn (.array items) := by
  intro frames
  cases items with
  | nil => rfl
  | cons item items =>
      have hopen : step (.underway .value frames) .openArray =
          .underway .itemOrEnd (.array [] :: frames) := rfl
      rw [Value.tokens, List.foldl_cons, hopen, List.foldl_append,
        foldl_step_itemOrEnd (List.cons_ne_nil _ _),
        foldl_step_items hitems (List.cons_ne_nil _ _), List.append_nil, Value.document]
      change settle (.array (Value.documents (item :: items)).reverse.reverse none) frames = _
      rw [List.reverse_reverse]

/-- A key and its value are taken in as an entry. -/
theorem foldl_step_field {value : Value} (hvalue : TakesIn value) (key : String)
    (before : List (Option String × Document)) (frames : List Frame) :
    (Token.text (some key) :: .colon :: value.tokens).foldl step
        (.underway .key (.object before :: frames)) =
      .underway .commaOrEnd (.object ((some key, value.document) :: before) :: frames) :=
  hvalue (.entry before (some key) :: frames)

theorem foldl_step_fields {fields : List (String × Value)}
    (hfields : ∀ field ∈ fields, TakesIn field.2) (hsome : fields ≠ [])
    (before : List (Option String × Document)) (frames : List Frame) :
    (Value.tokensOfFields fields).foldl step (.underway .key (.object before :: frames)) =
      .underway .commaOrEnd (.object ((Value.entries fields).reverse ++ before) :: frames) := by
  induction fields generalizing before with
  | nil => exact absurd rfl hsome
  | cons field fields ih =>
      obtain ⟨key, value⟩ := field
      obtain ⟨hvalue, hrest⟩ := List.forall_mem_cons.mp hfields
      have hfirst := foldl_step_field hvalue key before frames
      cases fields with
      | nil => exact hfirst
      | cons next fields =>
          rw [Value.tokensOfFields_cons_cons, ← List.cons_append, ← List.cons_append,
            List.foldl_append, hfirst, List.foldl_cons]
          have hcomma : step (.underway .commaOrEnd
                (.object ((some key, value.document) :: before) :: frames)) .comma =
              .underway .key (.object ((some key, value.document) :: before) :: frames) := rfl
          rw [hcomma, ih hrest (List.cons_ne_nil _ _), Value.entries_cons key, List.reverse_cons,
            List.append_assoc, List.singleton_append]

theorem takesIn_object {fields : List (String × Value)}
    (hfields : ∀ field ∈ fields, TakesIn field.2) : TakesIn (.object fields) := by
  intro frames
  cases fields with
  | nil => rfl
  | cons field fields =>
      have hkey : (Value.tokensOfFields (field :: fields)).foldl step
            (.underway .keyOrEnd (.object [] :: frames)) =
          (Value.tokensOfFields (field :: fields)).foldl step
            (.underway .key (.object [] :: frames)) := by
        cases fields <;> rfl
      have hopen : step (.underway .value frames) .openObject =
          .underway .keyOrEnd (.object [] :: frames) := rfl
      rw [Value.tokens, List.foldl_cons, hopen, List.foldl_append, hkey,
        foldl_step_fields hfields (List.cons_ne_nil _ _), List.append_nil, Value.document]
      change settle (.object (Value.entries (field :: fields)).reverse.reverse none) frames = _
      rw [List.reverse_reverse]

theorem takesIn (value : Value) : TakesIn value := by
  induction value using Value.induction with
  | null => exact fun _ => rfl
  | boolean b => exact fun _ => rfl
  | number n => exact fun _ => rfl
  | text s => exact fun _ => rfl
  | array items ih => exact takesIn_array ih
  | object fields ih => exact takesIn_object ih

end Assembly

/-- The tokens of a value are its document and nothing else. -/
theorem Document.ofTokens_tokens (value : Value) :
    Document.ofTokens value.tokens = (value.document, false) := by
  rw [Document.ofTokens, Assembly.initial, Assembly.takesIn value]
  rfl

namespace Value

theorem scanned_items {items : List Value} (h : ∀ item ∈ items, Token.Scanned item.tokens) :
    Token.Scanned (tokensOfItems items) := by
  induction items with
  | nil => exact .nil
  | cons item items ih =>
      obtain ⟨hitem, hrest⟩ := List.forall_mem_cons.mp h
      cases items with
      | nil => exact hitem
      | cons next items => exact hitem.append_cons trivial (ih hrest)

theorem scanned_fields {fields : List (String × Value)}
    (h : ∀ field ∈ fields, Token.Scanned field.2.tokens) :
    Token.Scanned (tokensOfFields fields) := by
  induction fields with
  | nil => exact .nil
  | cons field fields ih =>
      obtain ⟨key, value⟩ := field
      obtain ⟨hvalue, hrest⟩ := List.forall_mem_cons.mp h
      cases fields with
      | nil => exact .cons trivial (.cons trivial hvalue)
      | cons next fields =>
          exact .cons trivial (.cons trivial (hvalue.append_cons trivial (ih hrest)))

theorem scanned_tokens (value : Value) : Token.Scanned value.tokens := by
  induction value using Value.induction with
  | null => exact .cons trivial .nil
  | boolean b => exact .cons trivial .nil
  | number n => exact .number n.spelled_numeral
  | text s => exact .cons trivial .nil
  | array items ih => exact .cons trivial ((scanned_items ih).append_cons trivial .nil)
  | object fields ih => exact .cons trivial ((scanned_fields ih).append_cons trivial .nil)

end Value

/-- What is read from a text is read from its document, with nothing left behind it. -/
theorem Document.readWhole_eq_ok_iff {α : Type} {read : Document → Except Fault α}
    {parts : Document × Bool} {a : α} :
    (do
      let found ← read parts.1
      if parts.2 then .error (.text .malformed) else .ok found) = .ok a ↔
      ∃ document, parts = (document, false) ∧ read document = .ok a := by
  obtain ⟨document, trailing⟩ := parts
  rw [Sequence.bind_eq_ok_iff]
  cases trailing with
  | true =>
      constructor
      · rintro ⟨_, _, herror⟩
        cases herror
      · rintro ⟨_, hsame, _⟩
        cases hsame
  | false =>
      constructor
      · rintro ⟨_, hread, hfound⟩
        cases hfound
        exact ⟨document, rfl, hread⟩
      · rintro ⟨_, hsame, hread⟩
        cases hsame
        exact ⟨a, hread, rfl⟩

/-- The text of a value holds the document of the value. -/
theorem Document.ofText_print (value : Value) :
    Document.ofText value.print = (value.document, false) := by
  rw [Document.ofText, Value.print, String.toList_ofList, value.scanned_tokens.scan_eq,
    Document.ofTokens_tokens]

namespace Value

/-- The keys of the fields increase. -/
def Sorted (fields : List (String × Value)) : Prop :=
  (fields.map Prod.fst).Pairwise (· < ·)

theorem insertField_of_greatest {key : String} {fields : List (String × Value)}
    (h : ∀ field ∈ fields, field.1 < key) (value : Value) :
    insertField key value fields = fields ++ [(key, value)] := by
  induction fields with
  | nil => rfl
  | cons field fields ih =>
      obtain ⟨k, v⟩ := field
      obtain ⟨hk, hrest⟩ := List.forall_mem_cons.mp h
      have hlater : ¬ key < k := lt_asymm hk
      have hother : key ≠ k := hk.ne'
      rw [insertField, if_neg hlater, if_neg hother, ih hrest]
      rfl

theorem foldl_insertField_of_sorted {before fields : List (String × Value)}
    (h : Sorted (before ++ fields)) :
    fields.foldl (fun fields entry => insertField entry.1 entry.2 fields) before =
      before ++ fields := by
  induction fields generalizing before with
  | nil => exact (List.append_nil before).symm
  | cons field fields ih =>
      have hgreatest : ∀ earlier ∈ before, earlier.1 < field.1 := by
        intro earlier hmem
        rw [Sorted, List.map_append] at h
        exact (List.pairwise_append.mp h).2.2 earlier.1 (List.mem_map_of_mem hmem) field.1
          List.mem_cons_self
      have hsplit : before ++ field :: fields = (before ++ [field]) ++ fields := by
        rw [List.append_assoc, List.singleton_append]
      rw [List.foldl_cons, insertField_of_greatest hgreatest, ih (hsplit ▸ h), hsplit]

theorem sortFields_of_sorted {fields : List (String × Value)} (h : Sorted fields) :
    sortFields fields = fields := by
  have hfields : Sorted ([] ++ fields) := h
  exact foldl_insertField_of_sorted hfields

/-- A value without numbers, with sorted fields, in which at most `room` containers are
nested. -/
inductive Plain : Nat → Value → Prop
  | boolean (room : Nat) (b : Bool) : Plain room (.boolean b)
  | text (room : Nat) (s : String) : Plain room (.text s)
  | array {room : Nat} {items : List Value} (hitems : ∀ item ∈ items, Plain room item) :
      Plain (room + 1) (.array items)
  | object {room : Nat} {fields : List (String × Value)} (hsorted : Sorted fields)
      (hfields : ∀ field ∈ fields, Plain room field.2) : Plain (room + 1) (.object fields)

theorem values_documents {room : Nat} {items : List Value}
    (h : ∀ item ∈ items, item.document.value room = .ok item) :
    Document.values room (documents items) = .ok items := by
  induction items with
  | nil => rfl
  | cons item items ih =>
      obtain ⟨hitem, hrest⟩ := List.forall_mem_cons.mp h
      rw [documents_cons, Document.values, hitem, ih hrest]
      rfl

theorem fields_entries {room : Nat} {fields : List (String × Value)}
    (h : ∀ field ∈ fields, field.2.document.value room = .ok field.2) :
    Document.fields room (entries fields) = .ok fields := by
  induction fields with
  | nil => rfl
  | cons field fields ih =>
      obtain ⟨key, value⟩ := field
      obtain ⟨hvalue, hrest⟩ := List.forall_mem_cons.mp h
      rw [entries_cons, Document.fields, hvalue, ih hrest]
      rfl

/-- A plain value is read back from its document. -/
theorem Plain.value_document {room : Nat} {value : Value} (h : Plain room value) :
    value.document.value room = .ok value := by
  induction h with
  | boolean room b => rfl
  | text room s => rfl
  | array _ ih =>
      rw [document, Document.value, values_documents ih]
      rfl
  | object hsorted _ ih =>
      rw [document, Document.value, fields_entries ih]
      change Except.ok (Value.object (sortFields _)) = _
      rw [sortFields_of_sorted hsorted]

end Value

end IdlBindings.Json
