import IdlBindings.Proofs.Naming.ClassName
import Mathlib.Tactic.Tauto

/-!
What the words of a name keep of it. Put together again they are the letters and
digits of the name, in order and in the case they had, and no word is empty. Two things
make splitting easy to follow: a character that separates closes the word before it,
and characters without a capital among them never do. What case does to a character
follows from the letters and digits by their numbers, and all others have no case.
-/

namespace IdlBindings.Naming

theorem flatten_finishedWord (current : List Char) :
    (finishedWord current).flatten = current.reverse := by
  cases current with
  | nil => rfl
  | cons c current => simp [finishedWord]

theorem finishedWord_reverse {word : List Char} (h : word ≠ []) :
    finishedWord word.reverse = [word] := by
  cases hreverse : word.reverse with
  | nil => exact absurd (List.reverse_eq_nil_iff.mp hreverse) h
  | cons c rest =>
      rw [finishedWord, ← hreverse, List.reverse_reverse]
      exact List.cons_ne_nil c rest

theorem flatten_wordsFrom (current chars : List Char) :
    (wordsFrom current chars).flatten = current.reverse ++ chars.filter Char.isAlphanum := by
  fun_induction wordsFrom current chars with
  | case1 current => rw [flatten_finishedWord, List.filter_nil, List.append_nil]
  | case2 c rest hc ih =>
      rw [ih, List.filter_cons_of_pos hc]
      rfl
  | case3 c rest hc last earlier _ ih =>
      rw [List.flatten_append, flatten_finishedWord, ih, List.filter_cons_of_pos hc]
      rfl
  | case4 c rest hc last earlier _ ih =>
      rw [ih, List.filter_cons_of_pos hc, List.reverse_cons, List.append_assoc]
      rfl
  | case5 current c rest hc ih =>
      rw [List.flatten_append, flatten_finishedWord, ih, List.filter_cons_of_neg hc]
      rfl

/-- The words of a name, put together, are its letters and digits. -/
theorem flatten_words (chars : List Char) :
    (words chars).flatten = chars.filter Char.isAlphanum :=
  flatten_wordsFrom [] chars

theorem ne_nil_of_mem_finishedWord {current word : List Char} (h : word ∈ finishedWord current) :
    word ≠ [] := by
  cases current with
  | nil => cases h
  | cons c current =>
      rw [List.mem_singleton.mp h]
      exact List.reverse_ne_nil_iff.mpr (List.cons_ne_nil c current)

theorem ne_nil_of_mem_wordsFrom {current chars word : List Char}
    (h : word ∈ wordsFrom current chars) : word ≠ [] := by
  fun_induction wordsFrom current chars with
  | case1 current => exact ne_nil_of_mem_finishedWord h
  | case2 c rest _ ih => exact ih h
  | case3 c rest _ last earlier _ ih =>
      rcases List.mem_append.mp h with hbefore | hlater
      · exact ne_nil_of_mem_finishedWord hbefore
      · exact ih hlater
  | case4 c rest _ last earlier _ ih => exact ih h
  | case5 current c rest _ ih =>
      rcases List.mem_append.mp h with hbefore | hlater
      · exact ne_nil_of_mem_finishedWord hbefore
      · exact ih hlater

theorem ne_nil_of_mem_map_lowerWord {current chars part : List Char}
    (h : part ∈ (wordsFrom current chars).map lowerWord) : part ≠ [] := by
  obtain ⟨word, hword, rfl⟩ := List.mem_map.mp h
  exact mt List.map_eq_nil_iff.mp (ne_nil_of_mem_wordsFrom hword)

theorem alphanumeric_of_mem_words {chars word : List Char} (h : word ∈ words chars) :
    Alphanumeric word :=
  alphanumeric_of_mem_wordsFrom (fun _ hnil => (List.not_mem_nil hnil).elim) word h

theorem wordsFrom_separator (current : List Char) {c : Char} (hc : c.isAlphanum = false)
    (rest : List Char) : wordsFrom current (c :: rest) = finishedWord current ++ words rest := by
  cases current with
  | nil => simp only [wordsFrom, hc, Bool.false_eq_true, if_false, words]
  | cons last earlier => simp only [wordsFrom, hc, Bool.false_eq_true, if_false, words]

theorem not_letter_of_separator {c : Char} (h : c.isAlphanum = false) :
    c.isLower = false ∧ c.isUpper = false := by
  delta Char.isAlphanum Char.isAlpha at h
  simp only [Bool.or_eq_false_iff] at h
  exact ⟨h.1.2, h.1.1⟩

theorem startsWord_before_separator (last c : Char) (rest : List Char) {separator : Char}
    (h : separator.isAlphanum = false) :
    startsWord last c (rest ++ [separator]).head? = startsWord last c rest.head? := by
  cases rest with
  | nil => simp [startsWord, (not_letter_of_separator h).1]
  | cons d rest => rfl

/-- A separator at the end of a name adds nothing to its words. -/
theorem wordsFrom_append_separator (current chars : List Char) {separator : Char}
    (h : separator.isAlphanum = false) :
    wordsFrom current (chars ++ [separator]) = wordsFrom current chars := by
  fun_induction wordsFrom current chars with
  | case1 current =>
      rw [List.nil_append, wordsFrom_separator current h]
      exact List.append_nil _
  | case2 c rest hc ih => rw [List.cons_append, wordsFrom, if_pos hc, ih]
  | case3 c rest hc last earlier hstarts ih =>
      rw [List.cons_append, wordsFrom, if_pos hc, startsWord_before_separator last c rest h,
        if_pos hstarts, ih]
  | case4 c rest hc last earlier hstarts ih =>
      rw [List.cons_append, wordsFrom, if_pos hc, startsWord_before_separator last c rest h,
        if_neg hstarts, ih]
  | case5 current c rest hc ih =>
      rw [List.cons_append, wordsFrom_separator current (Bool.eq_false_iff.mpr hc), words, ih]

/-- A small letter or a digit: what is left when all letters are in lower case. -/
def isSmall (c : Char) : Bool :=
  c.isLower || c.isDigit

theorem isAlphanum_of_isSmall {c : Char} (h : isSmall c = true) : c.isAlphanum = true := by
  simp only [isSmall, Bool.or_eq_true] at h
  delta Char.isAlphanum Char.isAlpha
  simp only [Bool.or_eq_true]
  tauto

theorem isSmall_toLower {c : Char} (h : c.isAlphanum = true) : isSmall c.toLower = true :=
  of_isAlphanum (p := fun c => isSmall c.toLower = true) h (by decide)

theorem not_isUpper_of_isSmall {c : Char} (h : isSmall c = true) : c.isUpper = false :=
  of_isAlphanum (p := fun c => isSmall c = true → c.isUpper = false) (isAlphanum_of_isSmall h)
    (by decide) h

/-- A character is a letter or a digit, or it has no case. -/
theorem of_case {p : Char → Prop} (c : Char)
    (halphanum : ∀ n < 128, (Char.ofNat n).isAlphanum = true → p (Char.ofNat n))
    (hothers : c.isLower = false → c.isUpper = false → c.toLower = c → c.toUpper = c → p c) :
    p c := by
  cases h : c.isAlphanum with
  | true => exact of_isAlphanum h halphanum
  | false =>
      obtain ⟨hlower, hupper⟩ := not_letter_of_separator h
      refine hothers hlower hupper (dif_neg (of_decide_eq_false hupper)) (dif_neg fun hsmall => ?_)
      refine Bool.eq_false_iff.mp hlower (Bool.and_eq_true_iff.mpr ?_)
      exact ⟨decide_eq_true hsmall.1, decide_eq_true hsmall.2⟩

@[simp] theorem toLower_toLower (c : Char) : c.toLower.toLower = c.toLower :=
  of_case (p := fun c => c.toLower.toLower = c.toLower) c (by decide)
    fun _ _ hlower _ => congrArg Char.toLower hlower

@[simp] theorem toLower_toUpper (c : Char) : c.toUpper.toLower = c.toLower :=
  of_case (p := fun c => c.toUpper.toLower = c.toLower) c (by decide)
    fun _ _ _ hupper => congrArg Char.toLower hupper

@[simp] theorem toUpper_toLower (c : Char) : c.toLower.toUpper = c.toUpper :=
  of_case (p := fun c => c.toLower.toUpper = c.toUpper) c (by decide)
    fun _ _ hlower _ => congrArg Char.toUpper hlower

@[simp] theorem isLower_toUpper (c : Char) : c.toUpper.isLower = false :=
  of_case (p := fun c => c.toUpper.isLower = false) c (by decide)
    fun hsmall _ _ hupper => by rw [hupper, hsmall]

theorem isLower_toLower {c : Char} (h : c.isLower = true ∨ c.isUpper = true) :
    c.toLower.isLower = true :=
  of_case (p := fun c => c.isLower = true ∨ c.isUpper = true → c.toLower.isLower = true) c
    (by decide) (fun hsmall hcapital _ _ hcase => by simp [hsmall, hcapital] at hcase) h

theorem toUpper_of_not_isLower {c : Char} (h : c.isLower = false) : c.toUpper = c :=
  of_case (p := fun c => c.isLower = false → c.toUpper = c) c (by decide)
    (fun _ _ _ hupper _ => hupper) h

theorem toUpper_of_isUpper {c : Char} (h : c.isUpper = true) : c.toUpper = c :=
  of_case (p := fun c => c.isUpper = true → c.toUpper = c) c (by decide)
    (fun _ _ _ hupper _ => hupper) h

theorem toLower_of_not_isUpper {c : Char} (h : c.isUpper = false) : c.toLower = c :=
  of_case (p := fun c => c.isUpper = false → c.toLower = c) c (by decide)
    (fun _ _ hlower _ _ => hlower) h

theorem toLower_ne_of_isUpper {c : Char} (h : c.isUpper = true) : c.toLower ≠ c :=
  of_case (p := fun c => c.isUpper = true → c.toLower ≠ c) c (by decide)
    (fun _ hcapital _ _ hcase => by simp [hcapital] at hcase) h

theorem toLower_of_isSmall {c : Char} (h : isSmall c = true) : c.toLower = c :=
  toLower_of_not_isUpper (not_isUpper_of_isSmall h)

theorem startsWord_of_isSmall {c : Char} (h : isSmall c = true) (last : Char)
    (next : Option Char) : startsWord last c next = false := by
  rw [startsWord, not_isUpper_of_isSmall h, Bool.false_and]

theorem wordsFrom_cons_of_isSmall {c : Char} (h : isSmall c = true) (current rest : List Char) :
    wordsFrom current (c :: rest) = wordsFrom (c :: current) rest := by
  cases current with
  | nil => rw [wordsFrom, if_pos (isAlphanum_of_isSmall h)]
  | cons last earlier =>
      rw [wordsFrom, if_pos (isAlphanum_of_isSmall h), startsWord_of_isSmall h,
        if_neg Bool.false_ne_true]

/-- Characters without a capital continue the word that they come after. -/
theorem wordsFrom_append_of_isSmall {group : List Char} (h : ∀ c ∈ group, isSmall c = true)
    (current rest : List Char) :
    wordsFrom current (group ++ rest) = wordsFrom (group.reverse ++ current) rest := by
  induction group generalizing current with
  | nil => rfl
  | cons c group ih =>
      obtain ⟨hc, hgroup⟩ := List.forall_mem_cons.mp h
      rw [List.cons_append, wordsFrom_cons_of_isSmall hc, ih hgroup, List.reverse_cons,
        List.append_assoc]
      rfl

end IdlBindings.Naming
