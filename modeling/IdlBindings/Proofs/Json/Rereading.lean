import IdlBindings.Proofs.Json.Printing
import IdlBindings.Proofs.Sequence
import Mathlib.Data.Option.Defs

/-!
Values that are read, written and read again. What comes back is the same value up to its
numbers: fields are sorted already, strings and natural numbers are exact, and any other
number is a number again.
-/

namespace IdlBindings.Json

/-- Digits are taken in as long as all of them together have 64 bits. -/
theorem absorbDigits_of_lt {value : Nat} {digits : List Nat}
    (h : digits.foldl (fun value digit => value * 10 + digit) value < Nat.pow 2 64) :
    absorbDigits value digits =
      (digits.foldl (fun value digit => value * 10 + digit) value, 0) := by
  have hgrows (value : Nat) (digits : List Nat) :
      value ≤ digits.foldl (fun value digit => value * 10 + digit) value := by
    induction digits generalizing value with
    | nil => exact Nat.le_refl value
    | cons digit digits ih =>
        have hstep : value ≤ value * 10 + digit := by omega
        exact hstep.trans (ih _)
  induction digits generalizing value with
  | nil => rfl
  | cons digit digits ih =>
      rw [List.foldl_cons] at h
      have hstep : value * 10 + digit < Nat.pow 2 64 := lt_of_le_of_lt (hgrows _ digits) h
      rw [absorbDigits, if_pos hstep, ih h, List.foldl_cons]

theorem absorbDigits_lt {value : Nat} (h : value < Nat.pow 2 64) (digits : List Nat) :
    (absorbDigits value digits).1 < Nat.pow 2 64 := by
  induction digits generalizing value with
  | nil => exact h
  | cons digit digits ih =>
      rw [absorbDigits]
      split
      · exact ih ‹_›
      · exact h

/-- A natural number of 64 bits is read back from its digits. -/
theorem number?_natural {n : Nat} (h : n < Nat.pow 2 64) :
    (Number.natural n).numeral.number? = some (.natural n) := by
  have habsorb : absorbDigits 0 (digitsOf n) = (n, 0) := by
    rw [absorbDigits_of_lt (by rwa [foldl_digitsOf]), foldl_digitsOf]
  rw [Number.numeral, Numeral.number?, habsorb]
  rfl

theorem lt_of_number?_natural {numeral : Numeral} {n : Nat}
    (h : numeral.number? = some (.natural n)) : n < Nat.pow 2 64 := by
  have hlt := absorbDigits_lt (Nat.pow_pos (by decide)) numeral.whole
  simp only [Numeral.number?] at h
  split_ifs at h
  · cases h
    exact hlt
  · cases h
  · cases h
  · obtain ⟨magnitude, -, hreal⟩ := Option.map_eq_some_iff.mp h
    cases hreal

namespace Value

theorem field?_cons (key other : String) (value : Value) (fields : List (String × Value)) :
    field? key ((other, value) :: fields) =
      if key = other then some value else field? key fields := by
  rw [field?, List.lookup_cons]
  by_cases hkey : key = other
  · rw [if_pos hkey, beq_iff_eq.mpr hkey]
  · rw [if_neg hkey, beq_eq_false_iff_ne.mpr hkey]
    rfl

theorem field?_insertField (key other : String) (value : Value) (fields : List (String × Value)) :
    field? key (insertField other value fields) =
      if key = other then some value else field? key fields := by
  induction fields with
  | nil => exact field?_cons key other value []
  | cons field fields ih =>
      obtain ⟨first, held⟩ := field
      rw [insertField]
      by_cases hlt : other < first
      · rw [if_pos hlt, field?_cons]
      · rw [if_neg hlt]
        by_cases heq : other = first
        · rw [if_pos heq, field?_cons, field?_cons, heq]
          split_ifs <;> rfl
        · rw [if_neg heq, field?_cons, field?_cons, ih]
          split_ifs with hfirst hother
          · exact absurd (hother.symm.trans hfirst) heq
          · rfl
          · rfl
          · rfl

theorem field?_append (key : String) (fields others : List (String × Value)) :
    field? key (fields ++ others) = (field? key fields).or (field? key others) :=
  List.lookup_append

/-- Of several fields of one key the last counts. -/
theorem field?_sortFields (key : String) (entries : List (String × Value)) :
    field? key (sortFields entries) = field? key entries.reverse := by
  have hall (before : List (String × Value)) :
      field? key (entries.foldl (fun fields entry => insertField entry.1 entry.2 fields) before) =
        field? key (entries.reverse ++ before) := by
    induction entries generalizing before with
    | nil => rfl
    | cons entry entries ih =>
        rw [List.foldl_cons, ih, List.reverse_cons, List.append_assoc, List.singleton_append,
          field?_append, field?_append, field?_insertField, field?_cons]
  rw [sortFields, hall, List.append_nil]

theorem field?_filter (p : String → Bool) (key : String) (fields : List (String × Value)) :
    field? key (fields.filter fun field => p field.1) =
      if p key then field? key fields else none := by
  induction fields with
  | nil => exact (ite_self none).symm
  | cons field fields ih =>
      obtain ⟨first, value⟩ := field
      rw [List.filter_cons, field?_cons]
      by_cases hfirst : p first = true
      · rw [if_pos hfirst, field?_cons, ih]
        split_ifs with hkey hp
        · rfl
        · exact absurd (hkey ▸ hfirst) hp
        · rfl
        · rfl
      · rw [if_neg hfirst, ih]
        split_ifs with hp hkey
        · exact absurd (hkey ▸ hp) hfirst
        · rfl
        · rfl

theorem mem_of_field? {key : String} {value : Value} {fields : List (String × Value)}
    (h : field? key fields = some value) : (key, value) ∈ fields := by
  obtain ⟨before, after, rfl, -⟩ := List.lookup_eq_some_iff.mp h
  exact List.mem_append_right _ List.mem_cons_self

theorem exists_field?_of_mem {key : String} {value : Value} {fields : List (String × Value)}
    (h : (key, value) ∈ fields) : ∃ found, field? key fields = some found := by
  apply Option.isSome_iff_exists.mp
  exact List.lookup_isSome_iff.mpr ⟨(key, value), h, beq_iff_eq.mpr rfl⟩

theorem mem_insertField {key : String} {value : Value} {fields : List (String × Value)}
    {field : String × Value} (h : field ∈ insertField key value fields) :
    field = (key, value) ∨ field ∈ fields := by
  induction fields with
  | nil => exact Or.inl (List.mem_singleton.mp h)
  | cons first fields ih =>
      rw [insertField] at h
      split_ifs at h
      · exact List.mem_cons.mp h
      · exact (List.mem_cons.mp h).imp_right (List.mem_cons_of_mem _)
      · rcases List.mem_cons.mp h with rfl | hrest
        · exact Or.inr List.mem_cons_self
        · exact (ih hrest).imp_right (List.mem_cons_of_mem _)

theorem sorted_insertField {fields : List (String × Value)} (h : Sorted fields) (key : String)
    (value : Value) : Sorted (insertField key value fields) := by
  induction fields with
  | nil => exact List.pairwise_singleton _ _
  | cons field fields ih =>
      obtain ⟨first, held⟩ := field
      obtain ⟨hfirst, hrest⟩ := List.pairwise_cons.mp h
      rw [insertField]
      split_ifs with hlt heq
      · refine List.pairwise_cons.mpr ⟨?_, h⟩
        exact List.forall_mem_cons.mpr ⟨hlt, fun other hother => hlt.trans (hfirst other hother)⟩
      · rw [heq]
        exact h
      · refine List.pairwise_cons.mpr ⟨fun other hother => ?_, ih hrest⟩
        obtain ⟨field, hfield, rfl⟩ := List.mem_map.mp hother
        rcases mem_insertField hfield with rfl | hmem
        · exact lt_of_le_of_ne (not_lt.mp hlt) (Ne.symm heq)
        · exact hfirst field.1 (List.mem_map_of_mem hmem)

/-- Sorting fields takes none from elsewhere, and leaves their keys in order. -/
theorem sortFields_spec (entries : List (String × Value)) :
    Sorted (sortFields entries) ∧ ∀ field ∈ sortFields entries, field ∈ entries := by
  have hall (before : List (String × Value)) (hbefore : Sorted before) :
      Sorted (entries.foldl (fun fields entry => insertField entry.1 entry.2 fields) before) ∧
        ∀ field ∈ entries.foldl (fun fields entry => insertField entry.1 entry.2 fields) before,
          field ∈ entries ∨ field ∈ before := by
    induction entries generalizing before with
    | nil => exact ⟨hbefore, fun field hfield => Or.inr hfield⟩
    | cons entry entries ih =>
        obtain ⟨hsorted, hmem⟩ := ih _ (sorted_insertField hbefore entry.1 entry.2)
        refine ⟨hsorted, fun field hfield => ?_⟩
        rcases hmem field hfield with hlater | hinserted
        · exact Or.inl (List.mem_cons_of_mem _ hlater)
        · rcases mem_insertField hinserted with rfl | hearlier
          · exact Or.inl List.mem_cons_self
          · exact Or.inr hearlier
  obtain ⟨hsorted, hmem⟩ := hall [] List.Pairwise.nil
  exact ⟨hsorted, fun field hfield => (hmem field hfield).resolve_right List.not_mem_nil⟩

end Value

namespace Document

theorem closed_eq_ok_iff {cut : Option Cut} {u : Unit} : closed cut = .ok u ↔ cut = none := by
  cases cut with
  | none => exact iff_of_true rfl rfl
  | some cut => exact iff_of_false nofun (Option.some_ne_none cut)

theorem values_eq_ok_iff {room : Nat} {items : List Document} {values : List Value} :
    Document.values room items = .ok values ↔
      List.Forall₂ (fun item value => Document.value room item = .ok value) items values := by
  have hmapM : Document.values room items = items.mapM (Document.value room) := by
    induction items with
    | nil => rfl
    | cons item items ih => rw [Document.values, ih, List.mapM_cons]
  rw [hmapM, Sequence.mapM_eq_ok_iff]

theorem fields_eq_ok {room : Nat} {entries : List (Option String × Document)}
    {fields : List (String × Value)} (h : Document.fields room entries = .ok fields) :
    List.Forall₂ (fun entry field => entry.1 = some field.1 ∧
      Document.value room entry.2 = .ok field.2) entries fields := by
  induction entries generalizing fields with
  | nil =>
      cases h
      exact .nil
  | cons entry entries ih =>
      obtain ⟨key, document⟩ := entry
      cases key with
      | none => cases h
      | some key =>
          obtain ⟨value, hvalue, hmore⟩ := Sequence.bind_eq_ok_iff.mp h
          obtain ⟨rest, hrest, hresult⟩ := Sequence.bind_eq_ok_iff.mp hmore
          cases hresult
          exact .cons ⟨rfl, hvalue⟩ (ih hrest)

/-- How a document is read that is nested at most `room` deep. -/
inductive Evaluated : Nat → Document → Value → Prop
  | null (room : Nat) : Evaluated room .null .null
  | boolean (room : Nat) (b : Bool) : Evaluated room (.boolean b) (.boolean b)
  | number (room : Nat) {numeral : Numeral} {number : Number}
      (hnumber : numeral.number? = some number) : Evaluated room (.number numeral) (.number number)
  | text (room : Nat) (s : String) : Evaluated room (.text (some s)) (.text s)
  | array {room : Nat} {documents : List Document} {items : List Value}
      (hitems : List.Forall₂ (fun document item => Document.value room document = .ok item)
        documents items) : Evaluated (room + 1) (.array documents none) (.array items)
  | object {room : Nat} {entries : List (Option String × Document)}
      {fields : List (String × Value)} (hfields : Document.fields room entries = .ok fields) :
      Evaluated (room + 1) (.object entries none) (.object (Value.sortFields fields))

theorem evaluated_of_value {room : Nat} {document : Document} {value : Value}
    (h : document.value room = .ok value) : Evaluated room document value := by
  cases document with
  | null =>
      cases h
      exact .null room
  | boolean b =>
      cases h
      exact .boolean room b
  | number numeral =>
      rw [Document.value] at h
      cases hnumber : numeral.number? with
      | none => simp only [hnumber, reduceCtorEq] at h
      | some number =>
          simp only [hnumber] at h
          cases h
          exact .number room hnumber
  | text content =>
      cases content with
      | none => cases h
      | some s =>
          cases h
          exact .text room s
  | array documents cut =>
      cases room with
      | zero => cases h
      | succ room =>
          obtain ⟨items, hitems, hclosed⟩ := Sequence.bind_eq_ok_iff.mp h
          obtain ⟨_, hcut, hresult⟩ := Sequence.bind_eq_ok_iff.mp hclosed
          cases hresult
          obtain rfl := closed_eq_ok_iff.mp hcut
          exact .array (values_eq_ok_iff.mp hitems)
  | object entries cut =>
      cases room with
      | zero => cases h
      | succ room =>
          obtain ⟨fields, hfields, hclosed⟩ := Sequence.bind_eq_ok_iff.mp h
          obtain ⟨_, hcut, hresult⟩ := Sequence.bind_eq_ok_iff.mp hclosed
          cases hresult
          obtain rfl := closed_eq_ok_iff.mp hcut
          exact .object hfields
  | broken cut => cases h

end Document

namespace Value

/-- The second value is what the first may be when it is written and read again. A number
that is no natural number may have become another. -/
inductive Rereads : Value → Value → Prop
  | null : Rereads .null .null
  | boolean (b : Bool) : Rereads (.boolean b) (.boolean b)
  | text (s : String) : Rereads (.text s) (.text s)
  | natural (n : Nat) : Rereads (.number (.natural n)) (.number (.natural n))
  | number {number : Number} (hother : ∀ n, number ≠ .natural n) (again : Number) :
      Rereads (.number number) (.number again)
  | array {items again : List Value} (hitems : List.Forall₂ Rereads items again) :
      Rereads (.array items) (.array again)
  | object {fields again : List (String × Value)}
      (hfields : ∀ key, Option.Rel Rereads (field? key fields) (field? key again)) :
      Rereads (.object fields) (.object again)

/-- A value that was read from a document. -/
def IsRead (value : Value) : Prop :=
  ∃ room document, Document.value room document = .ok value

theorem IsRead.natural_lt {n : Nat} (h : IsRead (.number (.natural n))) : n < Nat.pow 2 64 := by
  obtain ⟨room, document, hvalue⟩ := h
  cases Document.evaluated_of_value hvalue with
  | number _ hnumber => exact lt_of_number?_natural hnumber

theorem IsRead.items {items : List Value} (h : IsRead (.array items)) :
    ∀ item ∈ items, item.IsRead := by
  obtain ⟨room, document, hvalue⟩ := h
  cases Document.evaluated_of_value hvalue with
  | array hitems =>
      intro item hitem
      obtain ⟨document, -, hread⟩ := Sequence.exists_left_of_mem hitems hitem
      exact ⟨_, document, hread⟩

theorem IsRead.fields {fields : List (String × Value)} (h : IsRead (.object fields)) :
    Sorted fields ∧ ∀ field ∈ fields, field.2.IsRead := by
  obtain ⟨room, document, hvalue⟩ := h
  cases Document.evaluated_of_value hvalue with
  | object hfields =>
      obtain ⟨hsorted, hmem⟩ := sortFields_spec _
      refine ⟨hsorted, fun field hfield => ?_⟩
      obtain ⟨entry, -, -, hread⟩ :=
        Sequence.exists_left_of_mem (Document.fields_eq_ok hfields) (hmem field hfield)
      exact ⟨_, entry.2, hread⟩

theorem entries_eq_map (fields : List (String × Value)) :
    entries fields = fields.map fun field => (some field.1, field.2.document) := by
  induction fields with
  | nil => rfl
  | cons field fields ih => rw [entries_cons, ih, List.map_cons]

/-- Fields that were read again are looked up alike. -/
theorem rel_field? {fields again : List (String × Value)} {related : Value → Value → Prop}
    (h : List.Forall₂ (fun field other => field.1 = other.1 ∧ related field.2 other.2) fields again)
    (key : String) : Option.Rel related (field? key fields) (field? key again) := by
  induction h with
  | nil => exact .none
  | @cons field other fields again hfirst _ ih =>
      obtain ⟨first, value⟩ := field
      obtain ⟨second, found⟩ := other
      obtain ⟨rfl, hrelated⟩ := hfirst
      rw [field?_cons, field?_cons]
      split_ifs
      · exact .some hrelated
      · exact ih

/-- What was read comes back from its document, up to numbers. -/
theorem rereads_of_isRead {value : Value} (h : value.IsRead) {room : Nat} {again : Value}
    (hagain : value.document.value room = .ok again) : Rereads value again := by
  induction value using Value.induction generalizing room again with
  | null =>
      cases hagain
      exact .null
  | boolean b =>
      cases hagain
      exact .boolean b
  | text s =>
      cases hagain
      exact .text s
  | number number =>
      cases Document.evaluated_of_value hagain with
      | @number _ _ again hnumber =>
          cases number with
          | natural n =>
              rw [number?_natural h.natural_lt] at hnumber
              cases hnumber
              exact .natural n
          | negative n => exact .number (fun _ => Number.noConfusion) again
          | real isNegative magnitude => exact .number (fun _ => Number.noConfusion) again
  | array items ih =>
      rw [document, documents_eq_map] at hagain
      cases Document.evaluated_of_value hagain with
      | array hitems =>
          have hread := (List.forall₂_and_left _ _).mpr
            ⟨fun item hitem => hitem, List.forall₂_map_left_iff.mp hitems⟩
          refine .array (hread.imp ?_)
          rintro item other ⟨hitem, hother⟩
          exact ih item hitem (h.items item hitem) hother
  | object fields ih =>
      rw [document, entries_eq_map] at hagain
      cases Document.evaluated_of_value hagain with
      | @object _ _ found hfields =>
          obtain ⟨hsorted, hheld⟩ := h.fields
          have hread := (List.forall₂_and_left _ _).mpr ⟨fun field hfield => hfield,
            List.forall₂_map_left_iff.mp (Document.fields_eq_ok hfields)⟩
          -- The keys are those that were written, so they are still in order.
          have hkeys : fields.map Prod.fst = found.map Prod.fst := by
            rw [← List.forall₂_eq_eq_eq, List.forall₂_map_left_iff, List.forall₂_map_right_iff]
            exact hread.imp fun field other hpair => Option.some.inj hpair.2.1
          have hsame : sortFields found = found := by
            apply sortFields_of_sorted
            rw [Sorted, ← hkeys]
            exact hsorted
          rw [hsame]
          refine .object (rel_field? (hread.imp ?_))
          rintro field other ⟨hfield, hkey, hother⟩
          exact ⟨Option.some.inj hkey, ih field hfield (hheld field hfield) hother⟩

end Value

end IdlBindings.Json
