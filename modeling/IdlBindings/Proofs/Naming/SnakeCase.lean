import IdlBindings.Proofs.Naming.Identifier
import IdlBindings.Proofs.Naming.Words

/-!
Snake case is a normal form, and so are identifiers. A text in snake case is made of
groups of small letters and digits with one underscore between two groups, so its words
are its groups and snake case does not change it again. An identifier may have an
underscore more than that, in front of a digit or after a reserved word. Neither adds
a word, so the name behind it is read off again and guarded in the same way.
-/

namespace IdlBindings.Naming

/-- Groups of small letters and digits, none of them empty. -/
def SnakeGroups (groups : List (List Char)) : Prop :=
  ∀ group ∈ groups, group ≠ [] ∧ ∀ c ∈ group, isSmall c = true

/-- A text of such groups with single underscores between them. Without any group it
is empty. -/
def IsSnake (text : String) : Prop :=
  ∃ groups, SnakeGroups groups ∧ text.toList = ['_'].intercalate groups

theorem words_intercalate {groups : List (List Char)} (h : SnakeGroups groups) :
    words (['_'].intercalate groups) = groups := by
  induction groups with
  | nil => rfl
  | cons group groups ih =>
      obtain ⟨⟨hne, hsmall⟩, hgroups⟩ := List.forall_mem_cons.mp h
      cases groups with
      | nil =>
          have hsplit := wordsFrom_append_of_isSmall hsmall [] []
          rw [List.append_nil, List.append_nil, wordsFrom, finishedWord_reverse hne] at hsplit
          rw [List.intercalate_singleton]
          exact hsplit
      | cons next rest =>
          rw [List.intercalate_cons_cons, List.append_assoc, List.singleton_append, words,
            wordsFrom_append_of_isSmall hsmall, List.append_nil, wordsFrom_separator _ (by decide),
            finishedWord_reverse hne, ih hgroups]
          rfl

theorem toList_snakeCase (name : String) :
    (snakeCase name).toList = ['_'].intercalate ((words name.toList).map lowerWord) := by
  rw [snakeCase, String.toList_intercalate, List.map_map]
  simp only [Function.comp_def, String.toList_ofList]
  rfl

theorem snakeGroups_lowerWord_words (chars : List Char) :
    SnakeGroups ((words chars).map lowerWord) := by
  intro group hgroup
  refine ⟨ne_nil_of_mem_map_lowerWord hgroup, fun c hc => ?_⟩
  obtain ⟨word, hword, rfl⟩ := List.mem_map.mp hgroup
  obtain ⟨d, hd, rfl⟩ := List.mem_map.mp hc
  exact isSmall_toLower (alphanumeric_of_mem_words hword d hd)

theorem isSnake_snakeCase (name : String) : IsSnake (snakeCase name) :=
  ⟨_, snakeGroups_lowerWord_words name.toList, toList_snakeCase name⟩

theorem lowerWord_of_isSmall {word : List Char} (h : ∀ c ∈ word, isSmall c = true) :
    lowerWord word = word :=
  (List.map_congr_left fun c hc => toLower_of_isSmall (h c hc)).trans (List.map_id word)

theorem IsSnake.snakeCase_eq {text : String} (h : IsSnake text) : snakeCase text = text := by
  obtain ⟨groups, hgroups, htext⟩ := h
  have hlower : groups.map lowerWord = groups :=
    (List.map_congr_left fun group hgroup =>
      lowerWord_of_isSmall (hgroups group hgroup).2).trans (List.map_id groups)
  apply String.toList_inj.mp
  rw [toList_snakeCase, htext, words_intercalate hgroups, hlower]

theorem snakeCase_underscore_append (name : String) : snakeCase ("_" ++ name) = snakeCase name := by
  have hwords : words ("_" ++ name).toList = words name.toList := by
    rw [String.toList_append]
    exact wordsFrom_separator [] (by decide) name.toList
  rw [snakeCase, hwords, snakeCase]

theorem snakeCase_append_underscore (name : String) : snakeCase (name ++ "_") = snakeCase name := by
  have hwords : words (name ++ "_").toList = words name.toList := by
    rw [String.toList_append]
    exact wordsFrom_append_separator [] name.toList (by decide)
  rw [snakeCase, hwords, snakeCase]

/-- The guards around an identifier leave its snake case as it was. -/
theorem snakeCase_identifierOfSnake {snake : String} (h : snake ≠ "") :
    snakeCase (identifierOfSnake snake) = snakeCase snake := by
  unfold identifierOfSnake
  split
  · rename_i hnil
    exact absurd (String.toList_eq_nil_iff.mp hnil) h
  · split
    · exact snakeCase_underscore_append snake
    · unfold unreserved
      split
      · exact snakeCase_append_underscore snake
      · rfl

theorem identifier_of_isSnake {text : String} (h : IsSnake text) :
    identifier text = identifierOfSnake text := by
  rw [identifier, h.snakeCase_eq]

theorem identifier_identifier (name : String) : identifier (identifier name) = identifier name := by
  have hsnake := isSnake_snakeCase name
  unfold identifier at *
  generalize snakeCase name = snake at hsnake
  by_cases hempty : snake = ""
  · -- Without a word there is nothing to keep, and a word stands in that stays itself.
    subst hempty
    decide
  · rw [snakeCase_identifierOfSnake hempty, hsnake.snakeCase_eq]

theorem startsWithDigit_identifier (name : String) : startsWithDigit (identifier name) = false := by
  rcases identifier_cases name with ⟨hlegal, _⟩ | ⟨hsame, _, hdigit⟩
  · exact hlegal.not_digit
  · rw [hsame]
    exact hdigit

/-- Snake case and identifiers are normal forms: both are of their shape for every name,
and neither changes when it is formed again. The identifier only depends on the snake
case. -/
theorem identifier_normal_form (name : String) :
    (IsSnake (snakeCase name) ∧ snakeCase (snakeCase name) = snakeCase name) ∧
      (Guarded (identifier name) ∧ startsWithDigit (identifier name) = false) ∧
      identifier (identifier name) = identifier name ∧
      identifier (snakeCase name) = identifier name := by
  have hsnake := isSnake_snakeCase name
  refine ⟨⟨hsnake, hsnake.snakeCase_eq⟩,
    ⟨guarded_identifier name, startsWithDigit_identifier name⟩, identifier_identifier name, ?_⟩
  rw [identifier_of_isSnake hsnake]
  rfl

end IdlBindings.Naming
