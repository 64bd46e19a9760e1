import IdlBindings.Naming.Identifier
import IdlBindings.Proofs.Naming.ClassName
import IdlBindings.Proofs.Naming.Pool

/-!
Which identifiers the generated language accepts. A declared name becomes a word of
small letters, digits and underscores that does not start with a digit. It is also kept
off the reserved words, but the language has more keywords than these. The identifier
of a name is therefore accepted exactly when the name is, in snake case, not one of the
other keywords. A name with an underscore in it is never a keyword, which covers all
the names that a number, an underscore or another word was added to.
-/

namespace IdlBindings.Naming

/-- The keywords of the generated language, with those that it only keeps for later. -/
def keywords : List String :=
  ["_", "as", "async", "await", "break", "const", "continue", "crate", "dyn", "else", "enum",
    "extern", "false", "fn", "for", "if", "impl", "in", "let", "loop", "match", "mod", "move",
    "mut", "pub", "ref", "return", "self", "Self", "static", "struct", "super", "trait", "true",
    "type", "unsafe", "use", "where", "while", "abstract", "become", "box", "do", "final", "gen",
    "macro", "override", "priv", "try", "typeof", "unsized", "virtual", "yield"]

/-- The keywords that are not kept off as reserved words. -/
def unguardedWords : List String :=
  keywords.filter fun word => word ∉ reservedWords

def isWordChar (c : Char) : Bool :=
  c.isLower || c.isDigit || c == '_'

def WordChars (chars : List Char) : Prop :=
  ∀ c ∈ chars, isWordChar c = true

-- Left to inference, the check could run over all characters there are.
instance : DecidablePred WordChars := fun chars =>
  List.decidableBAll (fun c => isWordChar c = true) chars

def startsWithDigit (name : String) : Bool :=
  name.toList.head?.any Char.isDigit

/-- A word of small letters, digits and underscores. -/
structure IsWord (name : String) : Prop where
  ne_nil : name.toList ≠ []
  chars : WordChars name.toList

/-- A word that is not reserved. -/
structure Guarded (name : String) : Prop extends IsWord name where
  not_reserved : name ∉ reservedWords

/-- An identifier that the generated language accepts: a word that starts with a letter
or an underscore and is not a keyword. -/
structure Legal (name : String) : Prop extends IsWord name where
  not_digit : startsWithDigit name = false
  not_keyword : name ∉ keywords

instance : DecidablePred Legal := fun name =>
  decidable_of_iff
    ((name.toList ≠ [] ∧ WordChars name.toList) ∧
      startsWithDigit name = false ∧ name ∉ keywords)
    ⟨fun h => ⟨⟨h.1.1, h.1.2⟩, h.2.1, h.2.2⟩,
      fun h => ⟨⟨h.ne_nil, h.chars⟩, h.not_digit, h.not_keyword⟩⟩

theorem mem_unguardedWords {word : String} :
    word ∈ unguardedWords ↔ word ∈ keywords ∧ word ∉ reservedWords := by
  simp [unguardedWords]

theorem reservedWords_subset_keywords : reservedWords ⊆ keywords := by
  decide

theorem not_digit_of_keyword {word : String} (h : word ∈ keywords) :
    startsWithDigit word = false := by
  have hall : ∀ word ∈ keywords, startsWithDigit word = false := by decide
  exact hall word h

/-- No keyword has an underscore beside other characters. -/
theorem not_keyword_of_underscore {name : String} (h : '_' ∈ name.toList)
    (hlength : 1 < name.length) : name ∉ keywords := by
  have hall : ∀ word ∈ keywords, '_' ∈ word.toList → word.length ≤ 1 := by decide
  intro hkeyword
  have hshort := hall name hkeyword h
  omega

theorem isWordChar_toLower {c : Char} (h : c.isAlphanum = true) : isWordChar c.toLower = true :=
  of_isAlphanum (p := fun c => isWordChar c.toLower = true) h (by decide)

theorem isWordChar_of_isDigit {c : Char} (h : c.isDigit = true) : isWordChar c = true := by
  simp [isWordChar, h]

theorem WordChars.append {chars others : List Char} (h : WordChars chars)
    (hothers : WordChars others) : WordChars (chars ++ others) :=
  List.forall_mem_append.mpr ⟨h, hothers⟩

theorem WordChars.intercalate {separator : List Char} (hseparator : WordChars separator)
    {parts : List (List Char)} (h : ∀ part ∈ parts, WordChars part) :
    WordChars (separator.intercalate parts) := by
  induction parts with
  | nil => exact fun _ hmem => (List.not_mem_nil hmem).elim
  | cons part parts ih =>
      obtain ⟨hpart, hparts⟩ := List.forall_mem_cons.mp h
      cases parts with
      | nil =>
          rw [List.intercalate_singleton]
          exact hpart
      | cons next rest =>
          rw [List.intercalate_cons_cons]
          exact (hpart.append hseparator).append (ih hparts)

theorem wordChars_snakeCase (name : String) : WordChars (snakeCase name).toList := by
  rw [snakeCase, String.toList_intercalate]
  refine WordChars.intercalate (by decide) fun part hmem => ?_
  obtain ⟨text, htext, rfl⟩ := List.mem_map.mp hmem
  obtain ⟨word, hword, rfl⟩ := List.mem_map.mp htext
  rw [String.toList_ofList]
  have hletters : Alphanumeric word :=
    alphanumeric_of_mem_wordsFrom (fun _ hnil => (List.not_mem_nil hnil).elim) word hword
  intro c hc
  obtain ⟨d, hd, rfl⟩ := List.mem_map.mp hc
  exact isWordChar_toLower (hletters d hd)

theorem wordChars_append {name other : String} (h : WordChars name.toList)
    (hother : WordChars other.toList) : WordChars (name ++ other).toList := by
  rw [String.toList_append]
  exact h.append hother

theorem startsWithDigit_append {name other : String} (h : startsWithDigit other = false) :
    startsWithDigit (name ++ other) = startsWithDigit name := by
  unfold startsWithDigit at h ⊢
  rw [String.toList_append]
  cases name.toList with
  | nil => exact h
  | cons c rest => rfl

theorem startsWithDigit_underscored (name rest : String) :
    startsWithDigit (name ++ "_" ++ rest) = startsWithDigit name := by
  rw [String.append_assoc]
  apply startsWithDigit_append
  rw [startsWithDigit, String.toList_append]
  rfl

theorem not_keyword_underscored {name rest : String} (h : 0 < name.length + rest.length) :
    name ++ "_" ++ rest ∉ keywords := by
  apply not_keyword_of_underscore
  · simp
  · have hlength : "_".length = 1 := rfl
    rw [String.length_append, String.length_append]
    omega

section Underscored

variable {name rest : String} (hname : WordChars name.toList) (hrest : WordChars rest.toList)
  (hmore : 0 < name.length + rest.length)

include hname hrest

theorem isWord_underscored : IsWord (name ++ "_" ++ rest) where
  ne_nil := by simp
  chars := wordChars_append (wordChars_append hname (by decide)) hrest

include hmore

theorem guarded_underscored : Guarded (name ++ "_" ++ rest) where
  toIsWord := isWord_underscored hname hrest
  not_reserved hreserved :=
    not_keyword_underscored hmore (reservedWords_subset_keywords hreserved)

/-- A name with an underscore after it, and more than that, is accepted unless it starts
with a digit. -/
theorem legal_underscored_iff : Legal (name ++ "_" ++ rest) ↔ startsWithDigit name = false := by
  rw [← startsWithDigit_underscored name rest]
  exact ⟨Legal.not_digit, fun hdigit =>
    ⟨isWord_underscored hname hrest, hdigit, not_keyword_underscored hmore⟩⟩

end Underscored

theorem IsWord.length_pos {name : String} (h : IsWord name) : 0 < name.length := by
  rw [← String.length_toList]
  exact List.length_pos_iff.mpr h.ne_nil

theorem Legal.guarded {name : String} (h : Legal name) : Guarded name where
  toIsWord := h.toIsWord
  not_reserved hreserved := h.not_keyword (reservedWords_subset_keywords hreserved)

theorem Guarded.legal_iff {name : String} (h : Guarded name)
    (hdigit : startsWithDigit name = false) : Legal name ↔ name ∉ unguardedWords := by
  rw [mem_unguardedWords, not_and_or, not_not]
  constructor
  · exact fun hlegal => Or.inl hlegal.not_keyword
  · rintro (hkeyword | hreserved)
    · exact ⟨h.toIsWord, hdigit, hkeyword⟩
    · exact absurd hreserved h.not_reserved

/-- A name becomes its snake case, unless that is empty, starts with a digit or is
reserved. -/
theorem identifier_cases (name : String) :
    (Legal (identifier name) ∧ snakeCase name ∉ unguardedWords) ∨
      (identifier name = snakeCase name ∧ Guarded (snakeCase name) ∧
        startsWithDigit (snakeCase name) = false) := by
  have hchars := wordChars_snakeCase name
  unfold identifier identifierOfSnake
  generalize snakeCase name = snake at hchars
  cases hsnake : snake.toList with
  | nil =>
      have hempty : snake = "" := String.toList_eq_nil_iff.mp hsnake
      refine Or.inl ⟨?_, ?_⟩
      · change Legal "unnamed"
        decide
      · rw [hempty]
        decide
  | cons c rest =>
      simp only
      have hfirst : startsWithDigit snake = c.isDigit := by
        rw [startsWithDigit, hsnake]
        rfl
      by_cases hdigit : c.isDigit = true
      · rw [if_pos hdigit]
        refine Or.inl ⟨?_, ?_⟩
        · rw [← String.empty_append (s := "_")]
          refine (legal_underscored_iff (by decide) hchars ?_).mpr rfl
          simp [← String.length_toList, hsnake]
        · -- No keyword starts with a digit.
          intro hmem
          have hnot := not_digit_of_keyword (mem_unguardedWords.mp hmem).1
          rw [hfirst, hdigit] at hnot
          cases hnot
      · rw [if_neg hdigit, unreserved]
        split
        · rename_i hreserved
          have hall : ∀ word ∈ reservedWords, Legal (word ++ "_") := by decide
          exact Or.inl ⟨hall snake hreserved, fun hmem => (mem_unguardedWords.mp hmem).2 hreserved⟩
        · rename_i hreserved
          refine Or.inr ⟨rfl, ⟨⟨?_, hchars⟩, hreserved⟩, ?_⟩
          · rw [hsnake]
            exact List.cons_ne_nil c rest
          · rw [hfirst]
            exact eq_false_of_ne_true hdigit

theorem guarded_identifier (name : String) : Guarded (identifier name) := by
  rcases identifier_cases name with ⟨hlegal, _⟩ | ⟨hsame, hguarded, _⟩
  · exact hlegal.guarded
  · exact hsame ▸ hguarded

/-- The identifier of a name is accepted unless the name is, in snake case, a keyword
that is not reserved. -/
theorem legal_identifier_iff (name : String) :
    Legal (identifier name) ↔ snakeCase name ∉ unguardedWords := by
  rcases identifier_cases name with ⟨hlegal, hsnake⟩ | ⟨hsame, hguarded, hdigit⟩
  · exact iff_of_true hlegal hsnake
  · rw [hsame]
    exact hguarded.legal_iff hdigit

namespace Pool

theorem wordChars_toString (n : Nat) : WordChars (toString n).toList := by
  intro c hc
  change c ∈ n.repr.toList at hc
  rw [Nat.toList_repr] at hc
  exact isWordChar_of_isDigit (Nat.isDigit_of_mem_toDigits (by decide) (by decide) hc)

theorem guarded_numbered (name : String) (h : Guarded name) (n : Nat) :
    Guarded (numbered name n) :=
  guarded_underscored h.chars (wordChars_toString n) (Nat.add_pos_left h.length_pos _)

theorem legal_numbered (name : String) (h : Legal name) (n : Nat) : Legal (numbered name n) :=
  (legal_underscored_iff h.chars (wordChars_toString n)
    (Nat.add_pos_left h.length_pos _)).mpr h.not_digit

end Pool

end IdlBindings.Naming
