import IdlBindings.Proofs.Naming.Words

/-!
Words as a segmentation of a name. The letters and digits of the name are cut into words, and
whether two of them that come one after the other are in different words can be told from the
name alone: from what separates them, from their case, and from the character after them.
Reading a front of the name finishes some words and leaves one begun, so both neighbours are
met with the words before them finished.
-/

namespace IdlBindings.Naming

/-- The number of the word that holds the character at a position of the words put together. -/
def wordIndex : List (List Char) → Nat → Nat
  | [], _ => 0
  | word :: words, position =>
    if position < word.length then 0 else wordIndex words (position - word.length) + 1

/-- Two letters or digits of a text with nothing but separators between them. -/
structure Neighbours (chars : List Char) where
  before : List Char
  first : Char
  between : List Char
  second : Char
  after : List Char
  spelled : chars = before ++ first :: (between ++ second :: after)
  first_alphanum : first.isAlphanum = true
  second_alphanum : second.isAlphanum = true
  between_separators : ∀ c ∈ between, c.isAlphanum = false

namespace Neighbours

variable {chars : List Char}

/-- The position of the first of two neighbours among the letters and digits. -/
def position (pair : Neighbours chars) : Nat :=
  (pair.before.filter Char.isAlphanum).length

/-- What parts two neighbours: a separator between them, a capital after a small letter or
a digit, or a capital after a capital if a small letter comes right after it. -/
def Parted (pair : Neighbours chars) : Prop :=
  pair.between ≠ [] ∨
    (pair.second.isUpper = true ∧ (pair.first.isLower = true ∨ pair.first.isDigit = true)) ∨
    (pair.first.isUpper = true ∧ pair.second.isUpper = true ∧
      ∃ next, pair.after.head? = some next ∧ next.isLower = true)

theorem filter_between (pair : Neighbours chars) : pair.between.filter Char.isAlphanum = [] :=
  List.filter_eq_nil_iff.mpr fun c hc => Bool.eq_false_iff.mp (pair.between_separators c hc)

/-- Among the letters and digits, neighbours come one right after the other. -/
theorem filter_eq (pair : Neighbours chars) :
    chars.filter Char.isAlphanum = pair.before.filter Char.isAlphanum ++
      pair.first :: pair.second :: pair.after.filter Char.isAlphanum := by
  conv_lhs => rw [pair.spelled]
  rw [List.filter_append, List.filter_cons_of_pos pair.first_alphanum, List.filter_append,
    pair.filter_between, List.filter_cons_of_pos pair.second_alphanum, List.nil_append]

end Neighbours

/-- Letters and digits that come one right after the other are neighbours in the text. -/
theorem exists_neighbours {chars : List Char} {position : Nat}
    (h : position + 1 < (chars.filter Char.isAlphanum).length) :
    ∃ pair : Neighbours chars, pair.position = position := by
  obtain ⟨first, second, later, hdrop⟩ : ∃ first second later,
      (chars.filter Char.isAlphanum).drop position = first :: second :: later :=
    ⟨_, _, _, by rw [List.drop_eq_getElem_cons (by omega), List.drop_eq_getElem_cons h]⟩
  have hsplit : chars.filter Char.isAlphanum =
      (chars.filter Char.isAlphanum).take position ++ first :: second :: later := by
    rw [← hdrop, List.take_append_drop]
  obtain ⟨front, back, rfl, hfront, hback⟩ := List.filter_eq_append_iff.mp hsplit
  obtain ⟨skipped, rest, rfl, hskipped, hfirst, hrest⟩ := List.filter_eq_cons_iff.mp hback
  obtain ⟨between, after, rfl, hbetween, hsecond, -⟩ := List.filter_eq_cons_iff.mp hrest
  -- What separates the first from the letters and digits before it comes before the pair.
  refine ⟨⟨front ++ skipped, first, between, second, after, by simp, hfirst, hsecond,
    fun c hc => Bool.eq_false_iff.mpr (hbetween c hc)⟩, ?_⟩
  rw [Neighbours.position, List.filter_append, List.filter_eq_nil_iff.mpr hskipped,
    List.append_nil, hfront, List.length_take]
  omega

theorem wordIndex_append_cons (done : List (List Char)) (word : List Char)
    (words : List (List Char)) {offset : Nat} (h : offset < word.length) :
    wordIndex (done ++ word :: words) (done.flatten.length + offset) = done.length := by
  induction done with
  | nil => simp [wordIndex, h]
  | cons first done ih =>
      have hpast : ¬ (first :: done).flatten.length + offset < first.length := by
        rw [List.flatten_cons, List.length_append]
        omega
      have hshift : (first :: done).flatten.length + offset - first.length =
          done.flatten.length + offset := by
        rw [List.flatten_cons, List.length_append]
        omega
      rw [List.cons_append, wordIndex, if_neg hpast, hshift, ih, List.length_cons]

/-- Reading a character finishes words and leaves one begun, which ends in the character if
it is a letter or a digit. -/
theorem wordsFrom_step (current : List Char) (c : Char) (rest : List Char) :
    ∃ done next, wordsFrom current (c :: rest) = done ++ wordsFrom next rest ∧
      done.flatten ++ next.reverse = current.reverse ++ [c].filter Char.isAlphanum ∧
      (c.isAlphanum = true → next.head? = some c) := by
  by_cases hc : c.isAlphanum = true
  · rw [List.filter_cons_of_pos hc, List.filter_nil]
    cases current with
    | nil => exact ⟨[], [c], by rw [wordsFrom, if_pos hc]; rfl, rfl, fun _ => rfl⟩
    | cons last earlier =>
        rw [wordsFrom, if_pos hc]
        split
        · exact ⟨_, [c], rfl, by rw [flatten_finishedWord]; rfl, fun _ => rfl⟩
        · exact ⟨[], c :: last :: earlier, rfl, List.reverse_cons, fun _ => rfl⟩
  · rw [wordsFrom_separator current (Bool.eq_false_iff.mpr hc), List.filter_cons_of_neg hc]
    exact ⟨_, [], rfl, by rw [flatten_finishedWord]; rfl, fun hnot => absurd hnot hc⟩

theorem wordsFrom_run (current front rest : List Char) :
    ∃ done next, wordsFrom current (front ++ rest) = done ++ wordsFrom next rest ∧
      done.flatten ++ next.reverse = current.reverse ++ front.filter Char.isAlphanum := by
  induction front generalizing current with
  | nil => exact ⟨[], current, rfl, by simp⟩
  | cons c front ih =>
      obtain ⟨done, next, hstep, hread, -⟩ := wordsFrom_step current c (front ++ rest)
      obtain ⟨later, last, hrun, hrest⟩ := ih next
      refine ⟨done ++ later, last, by rw [List.cons_append, hstep, hrun, List.append_assoc], ?_⟩
      rw [List.flatten_append, List.append_assoc, hrest, ← List.append_assoc, hread,
        List.append_assoc, ← List.filter_append]
      rfl

/-- A word that is begun is continued or finished by what follows, never dropped. -/
theorem exists_wordsFrom_eq_cons (last : Char) (earlier rest : List Char) :
    ∃ more words, wordsFrom (last :: earlier) rest =
      ((last :: earlier).reverse ++ more) :: words := by
  induction rest generalizing last earlier with
  | nil => exact ⟨[], [], by rw [List.append_nil]; rfl⟩
  | cons c rest ih =>
      by_cases hc : c.isAlphanum = true
      · rw [wordsFrom, if_pos hc]
        split
        · exact ⟨[], _, by rw [List.append_nil]; rfl⟩
        · obtain ⟨more, words, hwords⟩ := ih c (last :: earlier)
          exact ⟨c :: more, words, by rw [hwords, List.reverse_cons, List.append_assoc]; rfl⟩
      · rw [wordsFrom_separator _ (Bool.eq_false_iff.mpr hc)]
        exact ⟨[], _, by rw [List.append_nil]; rfl⟩

theorem wordsFrom_separators (current : List Char) {separators : List Char} (hne : separators ≠ [])
    (h : ∀ c ∈ separators, c.isAlphanum = false) (rest : List Char) :
    wordsFrom current (separators ++ rest) = finishedWord current ++ words rest := by
  induction separators generalizing current with
  | nil => exact absurd rfl hne
  | cons c separators ih =>
      obtain ⟨hc, hlater⟩ := List.forall_mem_cons.mp h
      rw [List.cons_append, wordsFrom_separator current hc]
      cases separators with
      | nil => rfl
      | cons d separators =>
          rw [words, ih [] (List.cons_ne_nil d separators) hlater]
          rfl

theorem startsWord_eq_true_iff {last c : Char} {next : Option Char} :
    startsWord last c next = true ↔
      (c.isUpper = true ∧ (last.isLower = true ∨ last.isDigit = true)) ∨
        (last.isUpper = true ∧ c.isUpper = true ∧
          ∃ follower, next = some follower ∧ follower.isLower = true) := by
  simp only [startsWord, Bool.and_eq_true, Bool.or_eq_true, Option.any_eq_true]
  tauto

namespace Neighbours

variable {chars : List Char}

/-- When the first of two neighbours has been read, some words are finished and it ends the
one that is begun. -/
theorem exists_words_eq (pair : Neighbours chars) :
    ∃ done earlier, words chars =
        done ++ wordsFrom (pair.first :: earlier) (pair.between ++ pair.second :: pair.after) ∧
      done.flatten.length + earlier.length = pair.position := by
  obtain ⟨done, current, hrun, hread⟩ :=
    wordsFrom_run [] pair.before (pair.first :: (pair.between ++ pair.second :: pair.after))
  obtain ⟨finished, next, hstep, hfirst, hhead⟩ :=
    wordsFrom_step current pair.first (pair.between ++ pair.second :: pair.after)
  obtain ⟨earlier, rfl⟩ := List.head?_eq_some_iff.mp (hhead pair.first_alphanum)
  refine ⟨done ++ finished, earlier, ?_, ?_⟩
  · rw [List.append_assoc, ← hstep, ← hrun, ← pair.spelled]
    rfl
  · have hdone := congrArg List.length hread
    have hnext := congrArg List.length hfirst
    rw [List.filter_cons_of_pos pair.first_alphanum] at hnext
    simp only [List.length_append, List.length_reverse, List.length_cons, List.length_nil,
      List.filter_nil] at hdone hnext
    rw [position, List.flatten_append, List.length_append]
    omega

theorem wordsFrom_of_parted {pair : Neighbours chars} (h : pair.Parted) (earlier : List Char) :
    wordsFrom (pair.first :: earlier) (pair.between ++ pair.second :: pair.after) =
      (pair.first :: earlier).reverse :: wordsFrom [pair.second] pair.after := by
  by_cases hbetween : pair.between = []
  · have hstarts := startsWord_eq_true_iff.mpr (h.resolve_left (not_not_intro hbetween))
    rw [hbetween, List.nil_append, wordsFrom, if_pos pair.second_alphanum, if_pos hstarts]
    rfl
  · rw [wordsFrom_separators _ hbetween pair.between_separators, words, wordsFrom,
      if_pos pair.second_alphanum]
    rfl

theorem wordsFrom_of_not_parted {pair : Neighbours chars} (h : ¬ pair.Parted)
    (earlier : List Char) :
    wordsFrom (pair.first :: earlier) (pair.between ++ pair.second :: pair.after) =
      wordsFrom (pair.second :: pair.first :: earlier) pair.after := by
  obtain ⟨hbetween, hcase⟩ := not_or.mp h
  rw [not_not.mp hbetween, List.nil_append, wordsFrom, if_pos pair.second_alphanum,
    if_neg (mt startsWord_eq_true_iff.mp hcase)]

/-- Two neighbours are in different words exactly when something parts them. -/
theorem wordIndex_ne_iff (pair : Neighbours chars) :
    wordIndex (words chars) pair.position ≠ wordIndex (words chars) (pair.position + 1) ↔
      pair.Parted := by
  obtain ⟨done, earlier, hwords, hposition⟩ := pair.exists_words_eq
  by_cases hparted : pair.Parted
  · -- The first is the last character of its word, and the second starts the next one.
    obtain ⟨more, others, hsecond⟩ := exists_wordsFrom_eq_cons pair.second [] pair.after
    rw [wordsFrom_of_parted hparted, hsecond] at hwords
    have hfirst : wordIndex (words chars) pair.position = done.length := by
      rw [hwords, ← hposition]
      exact wordIndex_append_cons done _ _ (by simp)
    have hnext : wordIndex (words chars) (pair.position + 1) = done.length + 1 := by
      have hlength : (done ++ [(pair.first :: earlier).reverse]).flatten.length + 0 =
          pair.position + 1 := by
        simp [← hposition, Nat.add_assoc]
      rw [hwords, List.append_cons, ← hlength, wordIndex_append_cons _ _ _ (by simp)]
      simp
    exact iff_of_true (by omega) hparted
  · -- Both are in the word that is begun.
    obtain ⟨more, others, hword⟩ :=
      exists_wordsFrom_eq_cons pair.second (pair.first :: earlier) pair.after
    rw [wordsFrom_of_not_parted hparted, hword] at hwords
    have hfirst : wordIndex (words chars) pair.position = done.length := by
      rw [hwords, ← hposition]
      exact wordIndex_append_cons done _ _ (by simp)
    have hnext : wordIndex (words chars) (pair.position + 1) = done.length := by
      rw [hwords, ← hposition, Nat.add_assoc]
      exact wordIndex_append_cons done _ _ (by simp)
    exact iff_of_false (by omega) hparted

end Neighbours

/-- The words of a name are a segmentation of its letters and digits. No word is empty or has
another character in it, and the words put together are the letters and digits of the name.
Any two that come one after the other there are neighbours in the name, and they are in
different words exactly when something parts them. -/
theorem words_segmentation (chars : List Char) :
    (∀ word ∈ words chars, word ≠ [] ∧ ∀ c ∈ word, c.isAlphanum = true) ∧
      (words chars).flatten = chars.filter Char.isAlphanum ∧
      (∀ position, position + 1 < (words chars).flatten.length →
        ∃ pair : Neighbours chars, pair.position = position) ∧
      ∀ pair : Neighbours chars,
        (words chars).flatten[pair.position]? = some pair.first ∧
          (words chars).flatten[pair.position + 1]? = some pair.second ∧
          (wordIndex (words chars) pair.position ≠ wordIndex (words chars) (pair.position + 1) ↔
            pair.Parted) := by
  have hflatten := flatten_words chars
  refine ⟨fun word hword => ⟨ne_nil_of_mem_wordsFrom hword, alphanumeric_of_mem_words hword⟩,
    hflatten, fun position hposition => exists_neighbours (hflatten ▸ hposition), fun pair => ?_⟩
  rw [hflatten, pair.filter_eq]
  exact ⟨by simp [Neighbours.position], by simp [Neighbours.position], pair.wordIndex_ne_iff⟩

end IdlBindings.Naming
