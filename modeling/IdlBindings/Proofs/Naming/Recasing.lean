import IdlBindings.Proofs.Naming.ClassLetters

/-!
A class name that is taken for a file name again. The tables find the same entry as
before, since the letters are the same, but the words are now told apart by case alone.
A capital that follows a capital is only seen as the start of a word if a small letter
comes next, so initials run together: `a_b` is `AB`, and `AB` is `Ab`. Behind the acronym
a class name therefore stays as it is exactly when no two capitals stand together
without a small letter after them. Whatever was lost is lost at once, and the second
class name stays.
-/

namespace IdlBindings.Naming

/-- Behind a capital, a capital comes before a small letter only. -/
def CapitalsApart (chars : List Char) : Prop :=
  ∀ before first second after, chars = before ++ first :: second :: after →
    first.isUpper = true → second.isUpper = true → after.head?.any Char.isLower = true

theorem capitalsApart_nil : CapitalsApart [] := by
  intro before first second after h
  simp at h

theorem capitalsApart_singleton (c : Char) : CapitalsApart [c] := by
  intro before first second after h
  have hlength := congrArg List.length h
  simp only [List.length_append, List.length_cons, List.length_nil] at hlength
  omega

theorem capitalsApart_cons_cons {first second : Char} {after : List Char} :
    CapitalsApart (first :: second :: after) ↔
      (first.isUpper = true → second.isUpper = true → after.head?.any Char.isLower = true) ∧
        CapitalsApart (second :: after) := by
  constructor
  · intro h
    refine ⟨h [] first second after rfl, fun before c d rest hsplit => ?_⟩
    exact h (first :: before) c d rest (by rw [hsplit]; rfl)
  · rintro ⟨hfirst, hrest⟩ before c d rest hsplit
    cases before with
    | nil =>
        obtain ⟨rfl, rfl, rfl⟩ : first = c ∧ second = d ∧ after = rest := by simpa using hsplit
        exact hfirst
    | cons b before => exact hrest before c d rest (List.cons.inj hsplit).2

/-- Letters and digits in camel case, as they come after `last`: what starts a word keeps
its capital. -/
def recased (last : Char) : List Char → List Char
  | [] => []
  | c :: rest => (if startsWord last c rest.head? then c else c.toLower) :: recased c rest

/-- Words that are run together in camel case. -/
def joinCamel : List (List Char) → List Char
  | [] => []
  | first :: rest => first ++ rest.flatMap capitalize

theorem camelChars_eq_joinCamel (chars : List Char) :
    camelChars chars = joinCamel ((words chars).map lowerWord) := by
  unfold camelChars
  cases (words chars).map lowerWord with
  | nil => rfl
  | cons first rest => rfl

theorem flatMap_capitalize {parts : List (List Char)} (h : ∀ part ∈ parts, part ≠ []) :
    parts.flatMap capitalize = capitalize (joinCamel parts) := by
  cases parts with
  | nil => rfl
  | cons first rest =>
      cases first with
      | nil => exact absurd rfl (h [] List.mem_cons_self)
      | cons c word => rfl

theorem isUpper_of_startsWord {last c : Char} {next : Option Char}
    (h : startsWord last c next = true) : c.isUpper = true := by
  rw [startsWord, Bool.and_eq_true] at h
  exact h.1

/-- Where nothing but case tells words apart, camel case goes by one character after the
other. -/
theorem joinCamel_wordsFrom {last : Char} {earlier chars : List Char} (h : Alphanumeric chars) :
    joinCamel ((wordsFrom (last :: earlier) chars).map lowerWord) =
      lowerWord (last :: earlier).reverse ++ recased last chars := by
  induction chars generalizing last earlier with
  | nil => simp [wordsFrom, finishedWord, joinCamel, recased]
  | cons c rest ih =>
      obtain ⟨hc, hrest⟩ := List.forall_mem_cons.mp h
      rw [wordsFrom, if_pos hc, recased]
      by_cases hstarts : startsWord last c rest.head? = true
      · have hupper := toUpper_of_isUpper (isUpper_of_startsWord hstarts)
        rw [if_pos hstarts, if_pos hstarts, List.map_append]
        simp only [finishedWord, List.map_cons, List.map_nil, List.singleton_append, joinCamel]
        rw [flatMap_capitalize fun _ => ne_nil_of_mem_map_lowerWord, ih hrest]
        simp [lowerWord, capitalize, hupper]
      · rw [if_neg hstarts, if_neg hstarts, ih hrest, List.reverse_cons, lowerWord_append,
          List.append_assoc]
        rfl

theorem camelChars_of_alphanumeric {c : Char} {rest : List Char} (h : Alphanumeric (c :: rest)) :
    camelChars (c :: rest) = c.toLower :: recased c rest := by
  obtain ⟨hc, hrest⟩ := List.forall_mem_cons.mp h
  rw [camelChars_eq_joinCamel, words, wordsFrom, if_pos hc, joinCamel_wordsFrom hrest]
  rfl

theorem exists_drop_recased (last : Char) (front back : List Char) :
    ∃ before, (recased last (front ++ back)).drop front.length = recased before back := by
  induction front generalizing last with
  | nil => exact ⟨last, rfl⟩
  | cons c front ih => exact ih c

/-- Camel case with a capital in front. -/
def recapitalized : List Char → List Char
  | [] => []
  | c :: rest => c.toUpper :: recased c rest

theorem capitalize_recased (last : Char) (chars : List Char) :
    capitalize (recased last chars) = recapitalized chars := by
  cases chars with
  | nil => rfl
  | cons c rest =>
      rw [recased, capitalize, recapitalized]
      split
      · rfl
      · rw [toUpper_toLower]

/-- What comes behind the front of a name is the same in camel case, whatever the front is. -/
theorem capitalize_drop_camelChars (front back : List Char) (h : Alphanumeric (front ++ back)) :
    capitalize ((camelChars (front ++ back)).drop front.length) = recapitalized back := by
  cases front with
  | nil =>
      cases back with
      | nil => rfl
      | cons c rest =>
          rw [List.nil_append, camelChars_of_alphanumeric h, List.length_nil, List.drop_zero,
            capitalize, toUpper_toLower, recapitalized]
  | cons c front =>
      rw [List.cons_append] at h ⊢
      rw [camelChars_of_alphanumeric h, List.length_cons, List.drop_succ_cons]
      obtain ⟨before, hbefore⟩ := exists_drop_recased c front back
      rw [hbefore, capitalize_recased]

/-- A capital is kept behind anything but a capital, and there before a small letter only. -/
theorem kept_iff {last c : Char} {next : Option Char} (hlast : last.isAlphanum = true) :
    (if startsWord last c next then c else c.toLower) = c ↔
      (last.isUpper = true → c.isUpper = true → next.any Char.isLower = true) := by
  by_cases hc : c.isUpper = true
  · have hkept : (if startsWord last c next then c else c.toLower) = c ↔
        startsWord last c next = true := by
      by_cases hstarts : startsWord last c next = true
      · simp [hstarts]
      · simp [hstarts, toLower_ne_of_isUpper hc]
    rw [hkept]
    by_cases hupper : last.isUpper = true
    · have hother : last.isLower = false ∧ last.isDigit = false :=
        of_isAlphanum (p := fun last => last.isUpper = true →
          last.isLower = false ∧ last.isDigit = false) hlast (by decide) hupper
      simp [startsWord, hc, hupper, hother.1, hother.2]
    · have hother : last.isLower = true ∨ last.isDigit = true :=
        of_isAlphanum (p := fun last => ¬ last.isUpper = true →
          last.isLower = true ∨ last.isDigit = true) hlast (by decide) hupper
      rcases hother with hlower | hdigit
      · simp [startsWord, hc, hupper, hlower]
      · simp [startsWord, hc, hupper, hdigit]
  · have hsame := toLower_of_not_isUpper (Bool.eq_false_iff.mpr hc)
    simp [hsame, hc]

theorem recased_eq_self_iff {last : Char} {chars : List Char} (h : Alphanumeric (last :: chars)) :
    recased last chars = chars ↔ CapitalsApart (last :: chars) := by
  induction chars generalizing last with
  | nil => exact iff_of_true rfl (capitalsApart_singleton last)
  | cons c rest ih =>
      obtain ⟨hlast, hchars⟩ := List.forall_mem_cons.mp h
      rw [recased, List.cons.injEq, kept_iff hlast, ih hchars, capitalsApart_cons_cons]

theorem recapitalized_eq_self_iff {chars : List Char} (h : Alphanumeric chars)
    (hfirst : chars.head?.any Char.isLower = false) :
    recapitalized chars = chars ↔ CapitalsApart chars := by
  cases chars with
  | nil => exact iff_of_true rfl capitalsApart_nil
  | cons c rest =>
      have hupper : c.toUpper = c := toUpper_of_not_isLower hfirst
      rw [recapitalized, hupper, List.cons.injEq, recased_eq_self_iff h]
      simp

theorem isLower_head_recased {last : Char} {chars : List Char}
    (h : chars.head?.any Char.isLower = true) :
    (recased last chars).head?.any Char.isLower = true := by
  cases chars with
  | nil => exact h
  | cons c rest =>
      have hlower : c.isLower = true := h
      rw [recased]
      split
      · exact hlower
      · exact isLower_toLower (Or.inl hlower)

/-- What starts a word still does when the characters around it are in camel case. -/
theorem startsWord_recased {last before c : Char} {rest : List Char}
    (hbefore : before = last ∨ before = last.toLower)
    (h : startsWord last c rest.head? = true) :
    startsWord before c (recased c rest).head? = true := by
  have hc := isUpper_of_startsWord h
  simp only [startsWord, hc, Bool.true_and, Bool.or_eq_true, Bool.and_eq_true] at h ⊢
  rcases hbefore with rfl | rfl
  · exact h.imp_right fun hupper => ⟨hupper.1, isLower_head_recased hupper.2⟩
  · -- A capital became small, and a capital behind a small letter starts a word anyway.
    refine Or.inl ?_
    rcases h with (hlower | hdigit) | ⟨hupper, _⟩
    · exact Or.inl (isLower_toLower (Or.inl hlower))
    · have hsame : last.toLower = last := toLower_of_isSmall (by simp [isSmall, hdigit])
      exact Or.inr (hsame.symm ▸ hdigit)
    · exact Or.inl (isLower_toLower (Or.inr hupper))

theorem recased_recased {last before : Char} (hbefore : before = last ∨ before = last.toLower)
    (chars : List Char) : recased before (recased last chars) = recased last chars := by
  induction chars generalizing last before with
  | nil => rfl
  | cons c rest ih =>
      by_cases hstarts : startsWord last c rest.head? = true
      · have hagain := startsWord_recased hbefore hstarts
        simp only [recased, if_pos hstarts, if_pos hagain, ih (Or.inl rfl)]
      · simp only [recased, if_neg hstarts, toLower_toLower, ite_self,
          ih (Or.inr rfl)]

theorem recapitalized_recapitalized {chars : List Char}
    (hfirst : chars.head?.any Char.isLower = false) :
    recapitalized (recapitalized chars) = recapitalized chars := by
  cases chars with
  | nil => rfl
  | cons c rest =>
      have hupper : c.toUpper = c := toUpper_of_not_isLower hfirst
      rw [recapitalized, hupper, recapitalized, hupper, recased_recased (Or.inl rfl)]

/-- What a name has behind its acronym. -/
def afterAcronym (name : List Char) : List Char :=
  name.drop (acronymOf (lowerWord name)).length

theorem spelled_of_mem_traditionalNames {entry : String × String} (h : entry ∈ traditionalNames) :
    acronymOf (lowerWord entry.2.toList) ++ afterAcronym entry.2.toList = entry.2.toList ∧
      (afterAcronym entry.2.toList).head?.any Char.isLower = false ∧
      recapitalized (afterAcronym entry.2.toList) = afterAcronym entry.2.toList := by
  have hall : ∀ entry ∈ traditionalNames,
      acronymOf (lowerWord entry.2.toList) ++ afterAcronym entry.2.toList = entry.2.toList ∧
        (afterAcronym entry.2.toList).head?.any Char.isLower = false ∧
        recapitalized (afterAcronym entry.2.toList) = afterAcronym entry.2.toList := by decide
  exact hall entry h

/-- What class names have in common: letters and digits, the acronym in capitals and no
small letter right behind it, and the traditional spelling where there is one. -/
structure IsClassName (name : List Char) : Prop where
  alphanumeric : Alphanumeric name
  spelled : acronymOf (lowerWord name) ++ afterAcronym name = name
  not_small : (afterAcronym name).head?.any Char.isLower = false
  traditional : ∀ spelling, traditionalOf? (lowerWord name) = some spelling → spelling = name

theorem isClassName_classNameOfCamel {camel : List Char} (h : Alphanumeric camel) :
    IsClassName (classNameOfCamel camel) := by
  have halphanumeric := alphanumeric_classNameOfCamel h
  have hletters := lowerWord_classNameOfCamel camel
  rw [classNameOfCamel_eq] at halphanumeric hletters ⊢
  cases htraditional : traditionalOf? (lowerWord camel) with
  | some name =>
      rw [htraditional, Option.getD_some] at halphanumeric hletters
      obtain ⟨entry, hfound, rfl⟩ := Option.map_eq_some_iff.mp htraditional
      obtain ⟨hspelled, hsmall, _⟩ :=
        spelled_of_mem_traditionalNames (List.mem_of_find?_eq_some hfound)
      refine ⟨halphanumeric, hspelled, hsmall, fun spelling hspelling => ?_⟩
      rw [Option.getD_some, hletters, htraditional] at hspelling
      exact (Option.some.inj hspelling).symm
  | none =>
      rw [htraditional, Option.getD_none] at halphanumeric hletters
      have hafter : afterAcronym (acronymOf (lowerWord camel) ++
          capitalize (camel.drop (acronymOf (lowerWord camel)).length)) =
          capitalize (camel.drop (acronymOf (lowerWord camel)).length) := by
        rw [afterAcronym, hletters, List.drop_left]
      rw [Option.getD_none]
      refine ⟨halphanumeric, ?_, ?_, fun spelling hspelling => ?_⟩
      · rw [hafter, hletters]
      · rw [hafter]
        exact not_small_capitalize _
      · rw [hletters, htraditional] at hspelling
        cases hspelling

theorem lowerWord_camelChars_of_alphanumeric {name : List Char} (h : Alphanumeric name) :
    lowerWord (camelChars name) = lowerWord name := by
  rw [lowerWord_camelChars, List.filter_eq_self.mpr h]

/-- The class name of a name that has nothing but letters and digits. -/
theorem classNameOfCamel_camelChars {name : List Char} (h : Alphanumeric name) :
    classNameOfCamel (camelChars name) = (traditionalOf? (lowerWord name)).getD
      (acronymOf (lowerWord name) ++ recapitalized (afterAcronym name)) := by
  have hlength : (name.take (acronymOf (lowerWord name)).length).length =
      (acronymOf (lowerWord name)).length := by
    rw [List.length_take, min_eq_left]
    simpa using (lowerWord_acronymOf (lowerWord name)).length_le
  have hback := capitalize_drop_camelChars (name.take (acronymOf (lowerWord name)).length)
    (afterAcronym name) (by rw [afterAcronym, List.take_append_drop]; exact h)
  rw [afterAcronym, List.take_append_drop, hlength] at hback
  rw [classNameOfCamel_eq, lowerWord_camelChars_of_alphanumeric h, hback, afterAcronym]

namespace IsClassName

variable {name : List Char} (h : IsClassName name)

include h

/-- Behind its acronym, a class name is put in camel case again. -/
theorem classNameOfCamel_eq_recapitalized :
    classNameOfCamel (camelChars name) =
      acronymOf (lowerWord name) ++ recapitalized (afterAcronym name) := by
  rw [classNameOfCamel_camelChars h.alphanumeric]
  cases htraditional : traditionalOf? (lowerWord name) with
  | none => rw [Option.getD_none]
  | some spelling =>
      obtain rfl := h.traditional spelling htraditional
      obtain ⟨entry, hfound, rfl⟩ := Option.map_eq_some_iff.mp htraditional
      obtain ⟨hspelled, _, hsettled⟩ :=
        spelled_of_mem_traditionalNames (List.mem_of_find?_eq_some hfound)
      rw [Option.getD_some, hsettled, hspelled]

theorem classNameOfCamel_eq_self_iff :
    classNameOfCamel (camelChars name) = name ↔ CapitalsApart (afterAcronym name) := by
  have hafter : Alphanumeric (afterAcronym name) :=
    fun c hc => h.alphanumeric c (List.mem_of_mem_drop hc)
  rw [← recapitalized_eq_self_iff hafter h.not_small, h.classNameOfCamel_eq_recapitalized]
  constructor
  · intro hsame
    exact List.append_cancel_left (hsame.trans h.spelled.symm)
  · intro hsettled
    rw [hsettled, h.spelled]

/-- What a class name becomes as a file name does not change any more. -/
theorem classNameOfCamel_settles :
    classNameOfCamel (camelChars (classNameOfCamel (camelChars name))) =
      classNameOfCamel (camelChars name) := by
  have hsecond := isClassName_classNameOfCamel (alphanumeric_camelChars name)
  have hletters : lowerWord (classNameOfCamel (camelChars name)) = lowerWord name := by
    rw [lowerWord_classNameOfCamel, lowerWord_camelChars_of_alphanumeric h.alphanumeric]
  have hafter : afterAcronym (classNameOfCamel (camelChars name)) =
      recapitalized (afterAcronym name) := by
    rw [afterAcronym, hletters, h.classNameOfCamel_eq_recapitalized, List.drop_left]
  rw [hsecond.classNameOfCamel_eq_recapitalized, hafter, hletters,
    recapitalized_recapitalized h.not_small, h.classNameOfCamel_eq_recapitalized]

end IsClassName

theorem toList_className (fileName : String) :
    (className fileName).toList = classNameOfCamel (camelChars fileName.toList) :=
  String.toList_ofList

/-- A class name is its own class name exactly when, behind the acronym, no two capitals
stand together without a small letter after them. The class name of a class name always
is its own. -/
theorem className_settles (fileName : String) :
    (className (className fileName) = className fileName ↔
      CapitalsApart (afterAcronym (className fileName).toList)) ∧
      className (className (className fileName)) = className (className fileName) := by
  have hname := isClassName_classNameOfCamel (alphanumeric_camelChars fileName.toList)
  rw [← toList_className] at hname
  constructor
  · rw [← hname.classNameOfCamel_eq_self_iff, ← String.toList_inj, toList_className]
  · apply String.toList_inj.mp
    rw [toList_className (className (className fileName)), toList_className (className fileName)]
    exact hname.classNameOfCamel_settles

/-- Two initials are taken for one word when they are read again. -/
theorem className_changes_initials :
    className "a_b" = "AB" ∧ className (className "a_b") = "Ab" ∧
      ¬ ∀ fileName, className (className fileName) = className fileName := by
  refine ⟨by decide, by decide, fun h => ?_⟩
  have hsame := h "a_b"
  revert hsame
  decide

end IdlBindings.Naming
