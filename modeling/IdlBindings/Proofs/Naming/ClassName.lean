import IdlBindings.Naming.ClassName
import IdlBindings.Text.Blank
import Mathlib.Data.List.Basic

/-!
The class name that a file name stands for. Words are made of ASCII letters and
digits, and a change of case or an acronym in front keeps it that way. A class name
that is not empty is therefore not blank either.
-/

namespace IdlBindings.Naming

def Alphanumeric (chars : List Char) : Prop :=
  ∀ c ∈ chars, c.isAlphanum = true

theorem toNat_lt_of_isAlphanum {c : Char} (h : c.isAlphanum = true) : c.toNat < 128 := by
  delta Char.isAlphanum Char.isAlpha Char.isUpper Char.isLower Char.isDigit at h
  simp only [Bool.or_eq_true, Bool.and_eq_true, decide_eq_true_eq, UInt32.le_iff_toNat_le,
    ge_iff_le] at h
  change ((65 ≤ c.toNat ∧ c.toNat ≤ 90) ∨ (97 ≤ c.toNat ∧ c.toNat ≤ 122)) ∨
    (48 ≤ c.toNat ∧ c.toNat ≤ 57) at h
  omega

/-- What holds of the letters and digits by their numbers holds of them. -/
theorem of_isAlphanum {p : Char → Prop} {c : Char} (h : c.isAlphanum = true)
    (hall : ∀ n < 128, (Char.ofNat n).isAlphanum = true → p (Char.ofNat n)) : p c := by
  have hc := hall c.toNat (toNat_lt_of_isAlphanum h)
  rw [Char.ofNat_toNat] at hc
  exact hc h

theorem isAlphanum_toLower {c : Char} (h : c.isAlphanum = true) : c.toLower.isAlphanum = true :=
  of_isAlphanum (p := fun c => c.toLower.isAlphanum = true) h (by decide)

theorem isAlphanum_toUpper {c : Char} (h : c.isAlphanum = true) : c.toUpper.isAlphanum = true :=
  of_isAlphanum (p := fun c => c.toUpper.isAlphanum = true) h (by decide)

theorem not_isBlankChar {c : Char} (h : c.isAlphanum = true) : Text.isBlankChar c = false :=
  of_isAlphanum (p := fun c => Text.isBlankChar c = false) h (by decide)

theorem Alphanumeric.lowerWord {word : List Char} (h : Alphanumeric word) :
    Alphanumeric (lowerWord word) := by
  intro c hmem
  obtain ⟨d, hd, rfl⟩ := List.mem_map.mp hmem
  exact isAlphanum_toLower (h d hd)

theorem Alphanumeric.capitalize {word : List Char} (h : Alphanumeric word) :
    Alphanumeric (capitalize word) := by
  cases word with
  | nil => exact h
  | cons c word =>
      obtain ⟨hfirst, hrest⟩ := List.forall_mem_cons.mp h
      exact List.forall_mem_cons.mpr ⟨isAlphanum_toUpper hfirst, hrest⟩

theorem Alphanumeric.finishedWord {current : List Char} (h : Alphanumeric current) :
    ∀ word ∈ finishedWord current, Alphanumeric word := by
  intro word hmem
  cases current with
  | nil => cases hmem
  | cons c current =>
      rw [List.mem_singleton.mp hmem]
      exact fun d hd => h d (List.mem_reverse.mp hd)

theorem alphanumeric_of_mem_wordsFrom {current chars : List Char} (h : Alphanumeric current) :
    ∀ word ∈ wordsFrom current chars, Alphanumeric word := by
  fun_induction wordsFrom current chars with
  | case1 current => exact h.finishedWord
  | case2 c rest hc ih => exact ih (List.forall_mem_singleton.mpr hc)
  | case3 c rest hc last earlier _ ih =>
      exact List.forall_mem_append.mpr
        ⟨h.finishedWord, ih (List.forall_mem_singleton.mpr hc)⟩
  | case4 c rest hc last earlier _ ih => exact ih (List.forall_mem_cons.mpr ⟨hc, h⟩)
  | case5 current c rest _ ih =>
      exact List.forall_mem_append.mpr
        ⟨h.finishedWord, ih fun _ hmem => (List.not_mem_nil hmem).elim⟩

theorem alphanumeric_camelChars (chars : List Char) : Alphanumeric (camelChars chars) := by
  have hwords : ∀ word ∈ (words chars).map lowerWord, Alphanumeric word := by
    intro word hmem
    obtain ⟨spelled, hspelled, rfl⟩ := List.mem_map.mp hmem
    exact (alphanumeric_of_mem_wordsFrom (fun _ hnil => (List.not_mem_nil hnil).elim)
      spelled hspelled).lowerWord
  rw [camelChars]
  cases hlower : (words chars).map lowerWord with
  | nil => exact fun _ hmem => (List.not_mem_nil hmem).elim
  | cons first rest =>
      rw [hlower] at hwords
      obtain ⟨hfirst, hrest⟩ := List.forall_mem_cons.mp hwords
      refine List.forall_mem_append.mpr ⟨hfirst, fun c hmem => ?_⟩
      obtain ⟨word, hword, hc⟩ := List.mem_flatMap.mp hmem
      exact (hrest word hword).capitalize c hc

theorem alphanumeric_of_mem_table {table : List (String × String)}
    (h : (table.all fun entry => entry.2.toList.all Char.isAlphanum) = true)
    {entry : String × String} (hentry : entry ∈ table) : Alphanumeric entry.2.toList :=
  List.all_eq_true.mp (List.all_eq_true.mp h entry hentry)

theorem alphanumeric_classNameOfCamel {camel : List Char} (h : Alphanumeric camel) :
    Alphanumeric (classNameOfCamel camel) := by
  unfold classNameOfCamel
  simp only
  split
  · rename_i entry hfound
    exact alphanumeric_of_mem_table (by decide) (List.mem_of_find?_eq_some hfound)
  · split
    · rename_i entry hfound
      refine List.forall_mem_append.mpr
        ⟨alphanumeric_of_mem_table (by decide) (List.mem_of_find?_eq_some hfound), ?_⟩
      exact Alphanumeric.capitalize fun c hmem => h c (List.mem_of_mem_drop hmem)
    · exact h.capitalize

theorem not_isBlank_className {fileName : String} (h : className fileName ≠ "") :
    Text.isBlank (className fileName) = false := by
  have hchars := alphanumeric_classNameOfCamel (alphanumeric_camelChars fileName.toList)
  cases hclass : classNameOfCamel (camelChars fileName.toList) with
  | nil =>
      rw [className, hclass] at h
      exact absurd rfl h
  | cons c rest =>
      rw [hclass] at hchars
      rw [className, hclass, Text.isBlank, String.toList_ofList, List.all_cons,
        not_isBlankChar (hchars c List.mem_cons_self), Bool.false_and]

end IdlBindings.Naming
