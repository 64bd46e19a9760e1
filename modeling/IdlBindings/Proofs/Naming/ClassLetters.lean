import IdlBindings.Proofs.Naming.Words
import Mathlib.Data.String.Basic

/-!
A class name has the letters and digits of the file name, in order, and nothing else.
Only their case is chosen anew. The tables cannot lose or double a letter: a spelling
in capitals has the letters that it stands for, so what is cut off behind an acronym
is what the acronym does not spell.
-/

namespace IdlBindings.Naming

theorem lowerWord_append (word other : List Char) :
    lowerWord (word ++ other) = lowerWord word ++ lowerWord other :=
  List.map_append

@[simp] theorem length_lowerWord (word : List Char) : (lowerWord word).length = word.length :=
  List.length_map _

theorem lowerWord_drop (n : Nat) (word : List Char) :
    lowerWord (word.drop n) = (lowerWord word).drop n :=
  List.map_drop

@[simp] theorem lowerWord_capitalize (word : List Char) :
    lowerWord (capitalize word) = lowerWord word := by
  cases word with
  | nil => rfl
  | cons c word => simp [lowerWord, capitalize]

theorem lowerWord_flatMap_capitalize (parts : List (List Char)) :
    lowerWord (parts.flatMap capitalize) = lowerWord parts.flatten := by
  induction parts with
  | nil => rfl
  | cons part parts ih =>
      rw [List.flatMap_cons, List.flatten_cons, lowerWord_append, lowerWord_append,
        lowerWord_capitalize, ih]

/-- The letters and digits of a name, in lower case. -/
def lettersOf (name : String) : List Char :=
  lowerWord (name.toList.filter Char.isAlphanum)

/-- Camel case keeps all letters and digits. -/
theorem lowerWord_camelChars (chars : List Char) :
    lowerWord (camelChars chars) = lowerWord (chars.filter Char.isAlphanum) := by
  have hparts : lowerWord ((words chars).map lowerWord).flatten =
      lowerWord (chars.filter Char.isAlphanum) := by
    rw [← flatten_words]
    simp only [lowerWord, List.map_flatten, List.map_map, Function.comp_def, toLower_toLower]
  rw [← hparts, camelChars]
  cases (words chars).map lowerWord with
  | nil => rfl
  | cons first rest =>
      rw [lowerWord_append, lowerWord_flatMap_capitalize, List.flatten_cons, lowerWord_append]

/-- The traditional spelling of a name in lower case, if there is one. -/
def traditionalOf? (lower : List Char) : Option (List Char) :=
  (traditionalNames.find? fun entry => entry.1.toList = lower).map fun entry => entry.2.toList

/-- The acronym that a name in lower case starts with, in capitals, or nothing. -/
def acronymOf (lower : List Char) : List Char :=
  match acronyms.find? fun entry => entry.1.toList.isPrefixOf lower with
  | some entry => entry.2.toList
  | none => []

theorem lowerWord_of_mem_tables {entry : String × String}
    (h : entry ∈ traditionalNames ++ acronyms) : lowerWord entry.2.toList = entry.1.toList := by
  have hall : ∀ entry ∈ traditionalNames ++ acronyms,
      lowerWord entry.2.toList = entry.1.toList := by decide
  exact hall entry h

theorem not_small_of_mem_tables {entry : String × String}
    (h : entry ∈ traditionalNames ++ acronyms) : entry.2.toList.head?.any Char.isLower = false := by
  have hall : ∀ entry ∈ traditionalNames ++ acronyms,
      entry.2.toList.head?.any Char.isLower = false := by decide
  exact hall entry h

theorem lowerWord_traditionalOf {lower name : List Char} (h : traditionalOf? lower = some name) :
    lowerWord name = lower := by
  obtain ⟨entry, hfound, rfl⟩ := Option.map_eq_some_iff.mp h
  have hkey : entry.1.toList = lower := by simpa using List.find?_some hfound
  rw [lowerWord_of_mem_tables (List.mem_append_left _ (List.mem_of_find?_eq_some hfound)), hkey]

theorem lowerWord_acronymOf (lower : List Char) : lowerWord (acronymOf lower) <+: lower := by
  unfold acronymOf
  split
  · rename_i entry hfound
    have hfits := List.find?_some hfound
    rw [lowerWord_of_mem_tables (List.mem_append_right _ (List.mem_of_find?_eq_some hfound))]
    exact List.isPrefixOf_iff_prefix.mp hfits
  · exact List.nil_prefix

/-- A class name is the traditional one, or the acronym with the rest of the name behind
it. Which of them is chosen only depends on the letters. -/
theorem classNameOfCamel_eq (camel : List Char) :
    classNameOfCamel camel = (traditionalOf? (lowerWord camel)).getD
      (acronymOf (lowerWord camel) ++
        capitalize (camel.drop (acronymOf (lowerWord camel)).length)) := by
  unfold classNameOfCamel traditionalOf? acronymOf
  simp only
  cases traditionalNames.find? fun entry => entry.1.toList = lowerWord camel with
  | some entry => rfl
  | none =>
      cases hfound : acronyms.find? fun entry => entry.1.toList.isPrefixOf (lowerWord camel) with
      | none => rfl
      | some entry =>
          have hletters := lowerWord_of_mem_tables
            (List.mem_append_right _ (List.mem_of_find?_eq_some hfound))
          have hlength : entry.2.toList.length = entry.1.length := by
            rw [← length_lowerWord, hletters, String.length_toList]
          simp only [hlength]
          rfl

/-- Choosing a class name keeps all letters and digits. -/
theorem lowerWord_classNameOfCamel (camel : List Char) :
    lowerWord (classNameOfCamel camel) = lowerWord camel := by
  rw [classNameOfCamel_eq]
  cases htraditional : traditionalOf? (lowerWord camel) with
  | some name => exact lowerWord_traditionalOf htraditional
  | none =>
      obtain ⟨rest, hrest⟩ := lowerWord_acronymOf (lowerWord camel)
      have hdrop := congrArg (List.drop (acronymOf (lowerWord camel)).length) hrest
      rw [List.drop_left' (length_lowerWord _)] at hdrop
      rw [Option.getD_none, lowerWord_append, lowerWord_capitalize, lowerWord_drop, ← hdrop, hrest]

theorem lowerWord_className (fileName : String) :
    lowerWord (className fileName).toList = lettersOf fileName := by
  rw [className, String.toList_ofList, lowerWord_classNameOfCamel, lowerWord_camelChars, lettersOf]

theorem not_small_capitalize (word : List Char) :
    (capitalize word).head?.any Char.isLower = false := by
  cases word with
  | nil => rfl
  | cons c word => simp [capitalize]

theorem not_small_acronymOf (lower : List Char) :
    (acronymOf lower).head?.any Char.isLower = false := by
  unfold acronymOf
  split
  · rename_i entry hfound
    exact not_small_of_mem_tables (List.mem_append_right _ (List.mem_of_find?_eq_some hfound))
  · rfl

theorem not_small_classNameOfCamel (camel : List Char) :
    (classNameOfCamel camel).head?.any Char.isLower = false := by
  rw [classNameOfCamel_eq]
  cases htraditional : traditionalOf? (lowerWord camel) with
  | some name =>
      obtain ⟨entry, hfound, rfl⟩ := Option.map_eq_some_iff.mp htraditional
      exact not_small_of_mem_tables (List.mem_append_left _ (List.mem_of_find?_eq_some hfound))
  | none =>
      have hacronym := not_small_acronymOf (lowerWord camel)
      rw [Option.getD_none, List.head?_append]
      cases hfirst : (acronymOf (lowerWord camel)).head? with
      | none => exact not_small_capitalize _
      | some c =>
          rw [hfirst] at hacronym
          exact hacronym

theorem utf8ByteSize_of_alphanumeric {chars : List Char} (h : Alphanumeric chars) :
    (String.ofList chars).utf8ByteSize = chars.length := by
  induction chars with
  | nil => rfl
  | cons c chars ih =>
      obtain ⟨hc, hchars⟩ := List.forall_mem_cons.mp h
      have hwidth : c.utf8Size = 1 := of_isAlphanum (p := fun c => c.utf8Size = 1) hc (by decide)
      have hrest := ih hchars
      rw [String.utf8ByteSize_ofList] at hrest ⊢
      rw [String.utf8Len_cons, hrest, hwidth, List.length_cons]

/-- An acronym that fits ends between two characters of the name in camel case, counted
in bytes, and what is behind it is what the class name takes over. -/
theorem exists_cut_of_fits {fileName : String} {entry : String × String} (hentry : entry ∈ acronyms)
    (hfits : entry.1.toList <+: lowerWord (camelCase fileName).toList) :
    ∃ front back, camelCase fileName = front ++ back ∧
      front.utf8ByteSize = entry.1.utf8ByteSize ∧
      back.toList = (camelCase fileName).toList.drop entry.1.length := by
  have hbytes : ∀ entry ∈ acronyms, entry.1.utf8ByteSize = entry.1.length := by decide
  have hcamel : Alphanumeric (camelCase fileName).toList := by
    rw [camelCase, String.toList_ofList]
    exact alphanumeric_camelChars fileName.toList
  have hlength : entry.1.length ≤ (camelCase fileName).toList.length := by
    rw [← String.length_toList, ← length_lowerWord (camelCase fileName).toList]
    exact hfits.length_le
  generalize camelCase fileName = camel at hcamel hlength
  refine ⟨String.ofList (camel.toList.take entry.1.length),
    String.ofList (camel.toList.drop entry.1.length), ?_, ?_, String.toList_ofList⟩
  · rw [← String.ofList_append, List.take_append_drop, String.ofList_toList]
  · rw [utf8ByteSize_of_alphanumeric fun c hc => hcamel c (List.mem_of_mem_take hc),
      List.length_take_of_le hlength, hbytes entry hentry]

theorem className_eq_empty_iff (fileName : String) :
    className fileName = "" ↔ ∀ c ∈ fileName.toList, c.isAlphanum = false := by
  have hletters := lowerWord_className fileName
  have hempty : className fileName = "" ↔ lettersOf fileName = [] := by
    rw [← hletters, lowerWord, List.map_eq_nil_iff, String.toList_eq_nil_iff]
  rw [hempty, lettersOf, lowerWord, List.map_eq_nil_iff, List.filter_eq_nil_iff]
  simp only [Bool.not_eq_true]

/-- Only the case of the letters is chosen anew: a class name has the letters and digits
of the file name and no other characters, and does not start with a small letter. The
acronym is cut off between two characters. -/
theorem className_letters (fileName : String) :
    (∀ entry ∈ acronyms, entry.1.toList <+: lowerWord (camelCase fileName).toList →
      ∃ front back, camelCase fileName = front ++ back ∧
        front.utf8ByteSize = entry.1.utf8ByteSize ∧
        back.toList = (camelCase fileName).toList.drop entry.1.length) ∧
      Alphanumeric (className fileName).toList ∧
      (className fileName).toList.head?.any Char.isLower = false ∧
      lowerWord (className fileName).toList = lettersOf fileName ∧
      (className fileName = "" ↔ ∀ c ∈ fileName.toList, c.isAlphanum = false) ∧
      ∀ other, className fileName = className other → lettersOf fileName = lettersOf other := by
  refine ⟨fun _ => exists_cut_of_fits, ?_, ?_, lowerWord_className fileName,
    className_eq_empty_iff fileName, ?_⟩
  · rw [className, String.toList_ofList]
    exact alphanumeric_classNameOfCamel (alphanumeric_camelChars fileName.toList)
  · rw [className, String.toList_ofList]
    exact not_small_classNameOfCamel _
  · intro other hsame
    rw [← lowerWord_className, ← lowerWord_className, hsame]

theorem className_letters_domPoint :
    (∃ front back, camelCase "dom_point" = front ++ back ∧
      front.utf8ByteSize = "dom".utf8ByteSize ∧
      back.toList = (camelCase "dom_point").toList.drop "dom".length) ∧
    className "dom_point" = className "DOM.Point" ∧
    lettersOf "dom_point" = lettersOf "DOM.Point" :=
  ⟨(className_letters "dom_point").1 ("dom", "DOM") (by decide) (by decide), by decide,
    (className_letters "dom_point").2.2.2.2.2 "DOM.Point" (by decide)⟩

end IdlBindings.Naming
