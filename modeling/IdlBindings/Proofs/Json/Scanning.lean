import IdlBindings.Json.Token
import Mathlib.Data.List.Basic

/-!
Scanning what tokens are written as. Between two tokens the scanner holds nothing but
the tokens so far, so a text written token by token is scanned token by token. Inside a
string the same is true of characters: each is written so that it is read back alone,
by itself, by a letter after a backslash or by its number.
-/

namespace IdlBindings.Json

/-- The token can be told from its characters alone, whatever stands after it. That is
not so for a number, which goes on as long as digits follow. -/
def Token.SelfDelimiting : Token → Prop
  | .number _ | .text none | .broken _ _ => False
  | _ => True

namespace Scanner

/-- The scanner inside a string of which `chars` were read, last one first. -/
def reading (chars : List Char) (tokens : List Token) : Scanner :=
  ⟨.inText ⟨chars, none, true⟩, tokens⟩

theorem escaped?_shortEscape {c letter : Char} (h : shortEscape? c = some letter) :
    escaped? letter = some c ∧ letter ≠ 'u' := by
  unfold shortEscape? at h
  split_ifs at h with hc hc hc hc hc hc hc
  all_goals
    cases h
    rw [beq_iff_eq.mp hc]
    decide

theorem step_escape {letter c : Char} (h : escaped? letter = some c) (hletter : letter ≠ 'u')
    (text : OpenText) (tokens : List Token) :
    step ⟨.escape text, tokens⟩ letter = ⟨.inText (text.push c), tokens⟩ := by
  have hplain : (letter == 'u') = false := beq_eq_false_iff_ne.mpr hletter
  simp only [step, hplain, h, Bool.false_eq_true, if_false]

theorem foldl_step_shortEscape {c letter : Char} (h : shortEscape? c = some letter)
    (chars : List Char) (tokens : List Token) :
    ['\\', letter].foldl step (reading chars tokens) = reading (c :: chars) tokens := by
  obtain ⟨hescaped, hletter⟩ := escaped?_shortEscape h
  exact step_escape hescaped hletter ⟨chars, none, true⟩ tokens

/-- The digits of a control character stand for its number and take four bytes. -/
theorem hexValue?_control : ∀ n < 0x20,
    hexValue? ['0', '0', Nat.digitChar (n / 16), Nat.digitChar (n % 16)] = some n ∧
      unitBytes ['0', '0', Nat.digitChar (n / 16)] < 4 ∧
      4 ≤ unitBytes ['0', '0', Nat.digitChar (n / 16), Nat.digitChar (n % 16)] := by
  decide

theorem step_unitEscape_more {digits : List Char} {c : Char} (h : unitBytes (digits ++ [c]) < 4)
    (text : OpenText) (tokens : List Token) :
    step ⟨.unitEscape text digits, tokens⟩ c = ⟨.unitEscape text (digits ++ [c]), tokens⟩ := by
  simp only [step, h, if_true]

theorem step_unitEscape_last {digits : List Char} {c : Char} {unit : Nat}
    (h : 4 ≤ unitBytes (digits ++ [c])) (hvalue : hexValue? (digits ++ [c]) = some unit)
    (text : OpenText) (tokens : List Token) :
    step ⟨.unitEscape text digits, tokens⟩ c = ⟨.inText (text.pushUnit unit), tokens⟩ := by
  simp only [step, Nat.not_lt.mpr h, if_false, hvalue]

theorem pushUnit_control {c : Char} (h : c.toNat < 0x20) (chars : List Char) :
    OpenText.pushUnit ⟨chars, none, true⟩ c.toNat = ⟨c :: chars, none, true⟩ := by
  have hhigh : OpenText.isHighSurrogate c.toNat = false := by
    simp only [OpenText.isHighSurrogate, Bool.and_eq_false_iff, decide_eq_false_iff_not]
    omega
  have hlow : OpenText.isLowSurrogate c.toNat = false := by
    simp only [OpenText.isLowSurrogate, Bool.and_eq_false_iff, decide_eq_false_iff_not]
    omega
  simp [OpenText.pushUnit, hhigh, hlow]

theorem foldl_step_control {c : Char} (h : c.toNat < 0x20) (chars : List Char)
    (tokens : List Token) :
    ['\\', 'u', '0', '0', Nat.digitChar (c.toNat / 16), Nat.digitChar (c.toNat % 16)].foldl step
      (reading chars tokens) = reading (c :: chars) tokens := by
  obtain ⟨hvalue, hmore, hlast⟩ := hexValue?_control c.toNat h
  have hopened : ['\\', 'u', '0', '0'].foldl step (reading chars tokens) =
      ⟨.unitEscape ⟨chars, none, true⟩ ['0', '0'], tokens⟩ := rfl
  change step (step (['\\', 'u', '0', '0'].foldl step (reading chars tokens)) _) _ = _
  rw [hopened, step_unitEscape_more hmore, step_unitEscape_last hlast hvalue, pushUnit_control h]
  rfl

theorem step_plain {c : Char} (hshort : shortEscape? c = none) (hcontrol : ¬ c.toNat < 0x20)
    (chars : List Char) (tokens : List Token) :
    step (reading chars tokens) c = reading (c :: chars) tokens := by
  have hquote : (c == '"') = false := by
    rw [beq_eq_false_iff_ne]
    rintro rfl
    cases hshort
  have hbackslash : (c == '\\') = false := by
    rw [beq_eq_false_iff_ne]
    rintro rfl
    cases hshort
  simp only [step, reading, hquote, hbackslash, hcontrol, Bool.false_eq_true, if_false]
  rfl

theorem foldl_step_writtenChar (c : Char) (chars : List Char) (tokens : List Token) :
    (writtenChar c).foldl step (reading chars tokens) = reading (c :: chars) tokens := by
  unfold writtenChar
  cases hshort : shortEscape? c with
  | some letter => exact foldl_step_shortEscape hshort chars tokens
  | none =>
      by_cases hcontrol : c.toNat < 0x20
      · simp only [hcontrol, if_true]
        exact foldl_step_control hcontrol chars tokens
      · simp only [hcontrol, if_false]
        exact step_plain hshort hcontrol chars tokens

theorem foldl_step_writtenChars (text chars : List Char) (tokens : List Token) :
    (text.flatMap writtenChar).foldl step (reading chars tokens) =
      reading (text.reverse ++ chars) tokens := by
  induction text generalizing chars with
  | nil => rfl
  | cons c text ih =>
      rw [List.flatMap_cons, List.foldl_append, foldl_step_writtenChar, ih, List.reverse_cons,
        List.append_assoc]
      rfl

theorem foldl_step_writtenText (text : String) (tokens : List Token) :
    (writtenText text).foldl step ⟨.between, tokens⟩ =
      ⟨.between, .text (some text) :: tokens⟩ := by
  have hopened : step ⟨.between, tokens⟩ '"' = reading [] tokens := rfl
  have hclosed : ∀ chars, step (reading chars tokens) '"' =
      ⟨.between, .text (some (String.ofList chars.reverse)) :: tokens⟩ := fun _ => rfl
  rw [writtenText, List.foldl_cons, hopened, List.foldl_append, foldl_step_writtenChars,
    List.foldl_cons, List.foldl_nil, hclosed, List.append_nil, List.reverse_reverse,
    String.ofList_toList]

theorem foldl_step_chars {token : Token} (h : token.SelfDelimiting) (tokens : List Token) :
    token.chars.foldl step ⟨.between, tokens⟩ = ⟨.between, token :: tokens⟩ := by
  cases token with
  | openArray => rfl
  | closeArray => rfl
  | openObject => rfl
  | closeObject => rfl
  | comma => rfl
  | colon => rfl
  | null => rfl
  | boolean value => cases value <;> rfl
  | number numeral => exact h.elim
  | text content =>
      cases content with
      | none => exact h.elim
      | some text => exact foldl_step_writtenText text tokens
  | broken inText cut => exact h.elim

end Scanner

end IdlBindings.Json
