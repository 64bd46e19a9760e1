import IdlBindings.Proofs.Json.Rereading

/-!
Which documents have a value. A document is evaluated when it is not nested too deep and
every part of it, taken by itself, is in order: it is closed, a number is in range, and
strings and keys are Unicode texts. A document without open ends that has no value is
malformed, whatever the reason.
-/

namespace IdlBindings.Json.Document

/-- What holds of a container whenever it holds of everything in it holds of all documents. -/
@[elab_as_elim]
theorem induction {motive : Document → Prop} (null : motive .null)
    (boolean : ∀ b, motive (.boolean b)) (number : ∀ numeral, motive (.number numeral))
    (text : ∀ content, motive (.text content))
    (array : ∀ items cut, (∀ item ∈ items, motive item) → motive (.array items cut))
    (object : ∀ entries cut, (∀ entry ∈ entries, motive entry.2) → motive (.object entries cut))
    (broken : ∀ cut, motive (.broken cut)) (document : Document) : motive document :=
  @Document.rec motive (fun items => ∀ item ∈ items, motive item)
    (fun entries => ∀ entry ∈ entries, motive entry.2) (fun entry => motive entry.2)
    null boolean number text array object broken
    (fun _ hmem => (List.not_mem_nil hmem).elim)
    (fun _ _ hfirst hrest => List.forall_mem_cons.mpr ⟨hfirst, hrest⟩)
    (fun _ hmem => (List.not_mem_nil hmem).elim)
    (fun _ _ hfirst hrest => List.forall_mem_cons.mpr ⟨hfirst, hrest⟩)
    (fun _ _ hvalue => hvalue) document

mutual

/-- How many containers stand in one another. -/
def depth : Document → Nat
  | .array items _ => depthOfItems items + 1
  | .object entries _ => depthOfEntries entries + 1
  | .null | .boolean _ | .number _ | .text _ | .broken _ => 0
termination_by structural document => document

def depthOfItems : List Document → Nat
  | [] => 0
  | item :: items => max item.depth (depthOfItems items)
termination_by structural items => items

def depthOfEntries : List (Option String × Document) → Nat
  | [] => 0
  | (_, document) :: entries => max document.depth (depthOfEntries entries)
termination_by structural entries => entries

end

mutual

/-- The document itself and all documents that stand in it. -/
def parts : Document → List Document
  | .null => [.null]
  | .boolean b => [.boolean b]
  | .number numeral => [.number numeral]
  | .text content => [.text content]
  | .array items cut => .array items cut :: partsOfItems items
  | .object entries cut => .object entries cut :: partsOfEntries entries
  | .broken cut => [.broken cut]
termination_by structural document => document

def partsOfItems : List Document → List Document
  | [] => []
  | item :: items => item.parts ++ partsOfItems items
termination_by structural items => items

def partsOfEntries : List (Option String × Document) → List Document
  | [] => []
  | (_, document) :: entries => document.parts ++ partsOfEntries entries
termination_by structural entries => entries

end

/-- The text does not break off here. -/
def isClosed : Document → Bool
  | .array _ cut | .object _ cut => cut.isNone
  | .broken _ => false
  | .null | .boolean _ | .number _ | .text _ => true

/-- A number here is one that can be held. -/
def inRange : Document → Bool
  | .number numeral => numeral.number?.isSome
  | .null | .boolean _ | .text _ | .array _ _ | .object _ _ | .broken _ => true

/-- No surrogate is without partner in a string or a key here. -/
def isUnicode : Document → Bool
  | .text content => content.isSome
  | .object entries _ => entries.all fun entry => entry.1.isSome
  | .null | .boolean _ | .number _ | .array _ _ | .broken _ => true

def isReadable (document : Document) : Bool :=
  document.isClosed && document.inRange && document.isUnicode

theorem depthOfItems_le_iff {items : List Document} {n : Nat} :
    depthOfItems items ≤ n ↔ ∀ item ∈ items, item.depth ≤ n := by
  induction items with
  | nil => simp [depthOfItems]
  | cons item items ih => rw [depthOfItems, max_le_iff, ih, List.forall_mem_cons]

theorem depthOfEntries_le_iff {entries : List (Option String × Document)} {n : Nat} :
    depthOfEntries entries ≤ n ↔ ∀ entry ∈ entries, entry.2.depth ≤ n := by
  induction entries with
  | nil => simp [depthOfEntries]
  | cons entry entries ih => rw [depthOfEntries, max_le_iff, ih, List.forall_mem_cons]

theorem partsOfItems_eq_flatMap (items : List Document) :
    partsOfItems items = items.flatMap parts := by
  induction items with
  | nil => rfl
  | cons item items ih => rw [partsOfItems, ih, List.flatMap_cons]

theorem partsOfEntries_eq_flatMap (entries : List (Option String × Document)) :
    partsOfEntries entries = entries.flatMap fun entry => entry.2.parts := by
  induction entries with
  | nil => rfl
  | cons entry entries ih => rw [partsOfEntries, ih, List.flatMap_cons]

theorem forall_parts_array_iff {p : Document → Prop} {items : List Document} {cut : Option Cut} :
    (∀ part ∈ (array items cut).parts, p part) ↔
      p (.array items cut) ∧ ∀ item ∈ items, ∀ part ∈ item.parts, p part := by
  rw [parts, List.forall_mem_cons, partsOfItems_eq_flatMap, List.forall_mem_flatMap]

theorem forall_parts_object_iff {p : Document → Prop}
    {entries : List (Option String × Document)} {cut : Option Cut} :
    (∀ part ∈ (object entries cut).parts, p part) ↔
      p (.object entries cut) ∧ ∀ entry ∈ entries, ∀ part ∈ entry.2.parts, p part := by
  rw [parts, List.forall_mem_cons, partsOfEntries_eq_flatMap, List.forall_mem_flatMap]

theorem exists_values_iff {room : Nat} {items : List Document} :
    (∃ values, Document.values room items = .ok values) ↔
      ∀ item ∈ items, ∃ value, item.value room = .ok value := by
  induction items with
  | nil => simp [Document.values]
  | cons item items ih =>
      rw [List.forall_mem_cons, ← ih]
      constructor
      · rintro ⟨values, h⟩
        obtain ⟨value, hvalue, hmore⟩ := Sequence.bind_eq_ok_iff.mp h
        obtain ⟨rest, hrest, -⟩ := Sequence.bind_eq_ok_iff.mp hmore
        exact ⟨⟨value, hvalue⟩, rest, hrest⟩
      · rintro ⟨⟨value, hvalue⟩, rest, hrest⟩
        exact ⟨value :: rest, by rw [Document.values, hvalue, hrest]; rfl⟩

theorem exists_fields_iff {room : Nat} {entries : List (Option String × Document)} :
    (∃ fields, Document.fields room entries = .ok fields) ↔
      ∀ entry ∈ entries, entry.1.isSome ∧ ∃ value, entry.2.value room = .ok value := by
  induction entries with
  | nil => simp [Document.fields]
  | cons entry entries ih =>
      obtain ⟨key, document⟩ := entry
      rw [List.forall_mem_cons, ← ih]
      cases key with
      | none => simp [Document.fields]
      | some key =>
          constructor
          · rintro ⟨fields, h⟩
            obtain ⟨value, hvalue, hmore⟩ := Sequence.bind_eq_ok_iff.mp h
            obtain ⟨rest, hrest, -⟩ := Sequence.bind_eq_ok_iff.mp hmore
            exact ⟨⟨rfl, value, hvalue⟩, rest, hrest⟩
          · rintro ⟨⟨-, value, hvalue⟩, rest, hrest⟩
            exact ⟨(key, value) :: rest, by rw [Document.fields, hvalue, hrest]; rfl⟩

theorem exists_value_array_iff {room : Nat} {items : List Document} {cut : Option Cut} :
    (∃ value, (array items cut).value (room + 1) = .ok value) ↔
      cut = none ∧ ∀ item ∈ items, ∃ value, item.value room = .ok value := by
  rw [← exists_values_iff]
  constructor
  · rintro ⟨value, h⟩
    cases evaluated_of_value h with
    | array hitems => exact ⟨rfl, _, values_eq_ok_iff.mpr hitems⟩
  · rintro ⟨rfl, values, hvalues⟩
    exact ⟨.array values, by rw [Document.value, hvalues]; rfl⟩

theorem exists_value_object_iff {room : Nat} {entries : List (Option String × Document)}
    {cut : Option Cut} :
    (∃ value, (object entries cut).value (room + 1) = .ok value) ↔
      cut = none ∧ ∃ fields, Document.fields room entries = .ok fields := by
  constructor
  · rintro ⟨value, h⟩
    cases evaluated_of_value h with
    | object hfields => exact ⟨rfl, _, hfields⟩
  · rintro ⟨rfl, fields, hfields⟩
    exact ⟨.object (Value.sortFields fields), by rw [Document.value, hfields]; rfl⟩

/-- A document has a value when it is not nested too deep and all its parts are in order. -/
theorem exists_value_iff {room : Nat} {document : Document} :
    (∃ value, document.value room = .ok value) ↔
      document.depth ≤ room ∧ ∀ part ∈ document.parts, part.isReadable := by
  induction document using Document.induction generalizing room with
  | null => simp [Document.value, depth, parts, isReadable, isClosed, inRange, isUnicode]
  | boolean b => simp [Document.value, depth, parts, isReadable, isClosed, inRange, isUnicode]
  | number numeral =>
      cases hnumber : numeral.number? <;>
        simp [Document.value, depth, parts, isReadable, isClosed, inRange, isUnicode, hnumber]
  | text content =>
      cases content <;>
        simp [Document.value, depth, parts, isReadable, isClosed, inRange, isUnicode]
  | array items cut ih =>
      cases room with
      | zero => simp [Document.value, depth]
      | succ room =>
          have hhere : (array items cut).isReadable ↔ cut = none := by
            simp [isReadable, isClosed, inRange, isUnicode]
          rw [exists_value_array_iff, depth, Nat.add_le_add_iff_right, depthOfItems_le_iff,
            forall_parts_array_iff, hhere, and_left_comm, ← forall₂_and]
          exact and_congr_right fun _ => forall₂_congr fun item hmem => ih item hmem
  | object entries cut ih =>
      cases room with
      | zero => simp [Document.value, depth]
      | succ room =>
          have hhere : (object entries cut).isReadable ↔
              cut = none ∧ ∀ entry ∈ entries, entry.1.isSome := by
            simp [isReadable, isClosed, inRange, isUnicode]
          rw [exists_value_object_iff, exists_fields_iff, depth, Nat.add_le_add_iff_right,
            depthOfEntries_le_iff, forall_parts_object_iff, hhere, and_assoc, ← forall₂_and,
            and_left_comm, ← forall₂_and]
          refine and_congr_right fun _ => forall₂_congr fun entry hmem => ?_
          rw [ih entry hmem]
          tauto
  | broken cut => simp [Document.value, parts, isReadable, isClosed]

theorem values_eq_error {room : Nat} {items : List Document} {fault : Fault}
    (hvalue : ∀ item ∈ items, ∀ other, item.value room = .error other →
      other = .text .malformed)
    (h : Document.values room items = .error fault) : fault = .text .malformed := by
  induction items with
  | nil => cases h
  | cons item items ih =>
      obtain ⟨hfirst, hrest⟩ := List.forall_mem_cons.mp hvalue
      rcases Sequence.bind_eq_error_iff.mp h with hitem | ⟨value, -, hmore⟩
      · exact hfirst fault hitem
      · rcases Sequence.bind_eq_error_iff.mp hmore with hitems | ⟨values, -, hresult⟩
        · exact ih hrest hitems
        · cases hresult

theorem fields_eq_error {room : Nat} {entries : List (Option String × Document)} {fault : Fault}
    (hvalue : ∀ entry ∈ entries, ∀ other, entry.2.value room = .error other →
      other = .text .malformed)
    (h : Document.fields room entries = .error fault) : fault = .text .malformed := by
  induction entries with
  | nil => cases h
  | cons entry entries ih =>
      obtain ⟨key, document⟩ := entry
      obtain ⟨hfirst, hrest⟩ := List.forall_mem_cons.mp hvalue
      cases key with
      | none =>
          cases h
          rfl
      | some key =>
          rcases Sequence.bind_eq_error_iff.mp h with hdocument | ⟨value, -, hmore⟩
          · exact hfirst fault hdocument
          · rcases Sequence.bind_eq_error_iff.mp hmore with hentries | ⟨fields, -, hresult⟩
            · exact ih hrest hentries
            · cases hresult

/-- A document without open ends that has no value is malformed. -/
theorem value_eq_error {room : Nat} {document : Document} {fault : Fault}
    (hclosed : ∀ part ∈ document.parts, part.isClosed) (h : document.value room = .error fault) :
    fault = .text .malformed := by
  induction document using Document.induction generalizing room fault with
  | null => cases h
  | boolean b => cases h
  | number numeral =>
      rw [Document.value] at h
      cases hnumber : numeral.number? with
      | none =>
          simp only [hnumber] at h
          cases h
          rfl
      | some number => simp only [hnumber, reduceCtorEq] at h
  | text content =>
      cases content with
      | none =>
          cases h
          rfl
      | some s => cases h
  | array items cut ih =>
      obtain ⟨hhere, hitems⟩ := forall_parts_array_iff.mp hclosed
      obtain rfl := Option.isNone_iff_eq_none.mp hhere
      cases room with
      | zero =>
          cases h
          rfl
      | succ room =>
          rcases Sequence.bind_eq_error_iff.mp h with hvalues | ⟨values, -, hresult⟩
          · exact values_eq_error
              (fun item hmem other hother => ih item hmem (hitems item hmem) hother) hvalues
          · cases hresult
  | object entries cut ih =>
      obtain ⟨hhere, hentries⟩ := forall_parts_object_iff.mp hclosed
      obtain rfl := Option.isNone_iff_eq_none.mp hhere
      cases room with
      | zero =>
          cases h
          rfl
      | succ room =>
          rcases Sequence.bind_eq_error_iff.mp h with hfields | ⟨fields, -, hresult⟩
          · exact fields_eq_error
              (fun entry hmem other hother => ih entry hmem (hentries entry hmem) hother) hfields
          · cases hresult
  | broken cut => exact absurd (hclosed _ List.mem_cons_self) (by simp [isClosed])

end IdlBindings.Json.Document
