import IdlBindings.Proofs.Json.Scanning
import Mathlib.Tactic.IntervalCases

/-!
Numbers as they are written. Every number is spelled in a form that the scanner takes: no
zero stands before other digits of the whole part, and a fraction or an exponent has digits.
A number has no end of its own, so when its last character was read the scanner is still in
the middle of it. The next token, which starts with no character of a number, or the end of
the text completes it.
-/

namespace IdlBindings.Json

open Decimal

theorem digitsOf_of_lt {n : Nat} (h : n < 10) : digitsOf n = [n] := by
  rw [digitsOf, Nat.toDigits_of_lt_base h, List.map_singleton,
    Nat.toNat_digitChar_sub_48_of_lt_ten h]

theorem digitsOf_of_le {n : Nat} (h : 10 ≤ n) : digitsOf n = digitsOf (n / 10) ++ [n % 10] := by
  rw [digitsOf, Nat.toDigits_of_base_le (by decide) h, List.map_append, List.map_singleton,
    Nat.toNat_digitChar_sub_48_of_lt_ten (Nat.mod_lt n (by decide))]
  rfl

/-- Digits that may stand before a decimal point. -/
inductive WholePart : List Nat → Prop
  | zero : WholePart [0]
  | digits {first : Nat} {rest : List Nat} (hfirst : 0 < first) (hlt : first < 10)
      (hrest : ∀ digit ∈ rest, digit < 10) : WholePart (first :: rest)

theorem exists_digitsOf_eq {n : Nat} (h : 0 < n) :
    ∃ first rest, digitsOf n = first :: rest ∧ 0 < first ∧ first < 10 ∧
      ∀ digit ∈ rest, digit < 10 := by
  induction n using Nat.strongRecOn with
  | ind n ih =>
      by_cases hn : n < 10
      · exact ⟨n, [], digitsOf_of_lt hn, h, hn, List.forall_mem_nil _⟩
      · have hle : 10 ≤ n := Nat.not_lt.mp hn
        obtain ⟨first, rest, hdigits, hfirst, hlt, hrest⟩ :=
          ih (n / 10) (Nat.div_lt_self h (by decide)) (Nat.div_pos hle (by decide))
        refine ⟨first, rest ++ [n % 10], ?_, hfirst, hlt, ?_⟩
        · rw [digitsOf_of_le hle, hdigits, List.cons_append]
        · exact List.forall_mem_append.mpr
            ⟨hrest, List.forall_mem_singleton.mpr (Nat.mod_lt n (by decide))⟩

theorem wholePart_digitsOf (n : Nat) : WholePart (digitsOf n) := by
  rcases Nat.eq_zero_or_pos n with rfl | hpos
  · exact .zero
  · obtain ⟨first, rest, hdigits, hfirst, hlt, hrest⟩ := exists_digitsOf_eq hpos
    rw [hdigits]
    exact .digits hfirst hlt hrest

theorem WholePart.ne_nil {digits : List Nat} (h : WholePart digits) : digits ≠ [] := by
  cases h with
  | zero => exact List.cons_ne_nil _ _
  | digits _ _ _ => exact List.cons_ne_nil _ _

theorem WholePart.lt_ten {digits : List Nat} (h : WholePart digits) :
    ∀ digit ∈ digits, digit < 10 := by
  cases h with
  | zero => exact List.forall_mem_singleton.mpr (by decide)
  | digits _ hlt hrest => exact List.forall_mem_cons.mpr ⟨hlt, hrest⟩

/-- The digits of a number give the number. -/
theorem foldl_digitsOf (n : Nat) :
    (digitsOf n).foldl (fun value digit => value * 10 + digit) 0 = n := by
  induction n using Nat.strongRecOn with
  | ind n ih =>
      by_cases hn : n < 10
      · rw [digitsOf_of_lt hn, List.foldl_cons, List.foldl_nil, Nat.zero_mul, Nat.zero_add]
      · have hle : 10 ≤ n := Nat.not_lt.mp hn
        rw [digitsOf_of_le hle, List.foldl_append, ih (n / 10) (by omega), List.foldl_cons,
          List.foldl_nil]
        omega

/-- A numeral that can be scanned. -/
structure Numeral.Spelled (numeral : Numeral) : Prop where
  whole : WholePart numeral.whole
  fraction : ∀ digit ∈ numeral.fraction, digit < 10

/-- A decimal is spelled well, as long as zero has no power of ten. -/
theorem Numeral.spelled_ofScientific (negative : Bool) {value : Scientific}
    (h : 0 < value.digits ∨ value = ⟨0, 0⟩) : (ofScientific negative value).Spelled := by
  rcases h with hpos | rfl
  · obtain ⟨first, rest, hdigits, hfirst, hlt, hrest⟩ := exists_digitsOf_eq hpos
    have hall : ∀ digit ∈ first :: rest, digit < 10 := List.forall_mem_cons.mpr ⟨hlt, hrest⟩
    have hzeros (n : Nat) : ∀ digit ∈ List.replicate n 0, digit < 10 := by
      intro digit hdigit
      rw [List.eq_of_mem_replicate hdigit]
      decide
    have htake {n : Nat} (hn : 0 < n) : WholePart ((first :: rest).take n) := by
      rw [List.take_cons hn]
      exact .digits hfirst hlt fun digit hdigit => hrest digit (List.mem_of_mem_take hdigit)
    have hdrop (n : Nat) : ∀ digit ∈ (first :: rest).drop n, digit < 10 :=
      fun digit hdigit => hall digit (List.mem_of_mem_drop hdigit)
    rw [ofScientific, hdigits]
    split_ifs with hlarge hplaces hsmall
    · refine ⟨.digits hfirst hlt ?_, List.forall_mem_singleton.mpr (by decide)⟩
      exact List.forall_mem_append.mpr ⟨hrest, hzeros _⟩
    · rw [Bool.and_eq_true, decide_eq_true_eq] at hplaces
      exact ⟨htake (Int.lt_toNat.mpr hplaces.1), hdrop _⟩
    · exact ⟨.zero, List.forall_mem_append.mpr ⟨hzeros _, hall⟩⟩
    · exact ⟨htake Nat.one_pos, hdrop 1⟩
  · exact ⟨.zero, List.forall_mem_singleton.mpr (by decide)⟩

/-- A decimal that reads back as a magnitude other than zero is not zero. -/
theorem digits_pos_of_readsBack {d : Magnitude} (hd : d.mantissa ≠ 0) {candidate : Scientific}
    (h : d.readsBack candidate = true) : 0 < candidate.digits := by
  by_contra hzero
  have hdigits : candidate.digits = 0 := Nat.eq_zero_of_not_pos hzero
  have hlow : 0 < d.roundingInterval.1 := by
    rw [Magnitude.roundingInterval]
    refine Nat.mul_pos ?_ (Nat.pow_pos (by decide))
    split <;> omega
  have hbound : 0 < d.roundingInterval.1 * Nat.pow 10 (-candidate.power).toNat :=
    Nat.mul_pos hlow (Nat.pow_pos (by decide))
  simp only [Magnitude.readsBack, hdigits, Nat.zero_mul] at h
  split_ifs at h with heven
  · rw [Bool.and_eq_true, decide_eq_true_eq] at h
    omega
  · rw [Bool.and_eq_true, decide_eq_true_eq] at h
    omega

theorem digits_pos_of_shortestFrom {d : Magnitude} (hd : d.mantissa ≠ 0) (count more : Nat) :
    0 < (d.shortestFrom count more).digits ∨ d.shortestFrom count more = ⟨0, 0⟩ := by
  induction more generalizing count with
  | zero => exact Or.inr rfl
  | succ more ih =>
      rw [Magnitude.shortestFrom]
      cases hfound : (d.gridNeighbours (d.decimalPlaces - count)).find? d.readsBack with
      | some found => exact Or.inl (digits_pos_of_readsBack hd (List.find?_some hfound))
      | none => exact ih (count + 1)

theorem Number.spelled_numeral (number : Number) : number.numeral.Spelled := by
  cases number with
  | natural n => exact ⟨wholePart_digitsOf n, List.forall_mem_nil _⟩
  | negative n => exact ⟨wholePart_digitsOf n, List.forall_mem_nil _⟩
  | real isNegative magnitude =>
      rw [Number.numeral]
      split_ifs with hzero
      · exact ⟨.zero, List.forall_mem_singleton.mpr (by decide)⟩
      · exact Numeral.spelled_ofScientific isNegative (digits_pos_of_shortestFrom hzero 1 17)

/-- A digit is read as itself. -/
theorem read_digitChar : ∀ digit < 10, (digitChar digit).isDigit = true ∧
    OpenNumeral.digitOf (digitChar digit) = digit := by
  decide

namespace Scanner

/-- Digits go one after the other into the part of a number that is being spelled. Here
`state` tells the number by the digits of that part, last one first. -/
theorem foldl_step_digits {state : List Nat → OpenNumeral}
    (hstate : ∀ (before : List Nat) (c : Char), c.isDigit = true →
      (state before).next c = .more (state (OpenNumeral.digitOf c :: before)))
    {digits : List Nat} (hdigits : ∀ digit ∈ digits, digit < 10) (before : List Nat)
    (tokens : List Token) :
    (digits.map digitChar).foldl step ⟨.inNumber (state before), tokens⟩ =
      ⟨.inNumber (state (digits.reverse ++ before)), tokens⟩ := by
  induction digits generalizing before with
  | nil => rfl
  | cons digit digits ih =>
      obtain ⟨hdigit, hrest⟩ := List.forall_mem_cons.mp hdigits
      obtain ⟨hchar, hvalue⟩ := read_digitChar digit hdigit
      have hstep : step ⟨.inNumber (state before), tokens⟩ (digitChar digit) =
          ⟨.inNumber (state (digit :: before)), tokens⟩ := by
        simp only [step, hstate before _ hchar, hvalue]
      rw [List.map_cons, List.foldl_cons, hstep, ih hrest, List.reverse_cons, List.append_assoc]
      rfl

/-- The first digit of a part opens it, after a point or a mark. -/
theorem foldl_step_part {opened : OpenNumeral} {state : List Nat → OpenNumeral}
    (hopened : ∀ c : Char, c.isDigit = true →
      opened.next c = .more (state [OpenNumeral.digitOf c]))
    (hstate : ∀ (before : List Nat) (c : Char), c.isDigit = true →
      (state before).next c = .more (state (OpenNumeral.digitOf c :: before)))
    {digits : List Nat} (hsome : digits ≠ []) (hdigits : ∀ digit ∈ digits, digit < 10)
    (tokens : List Token) :
    (digits.map digitChar).foldl step ⟨.inNumber opened, tokens⟩ =
      ⟨.inNumber (state digits.reverse), tokens⟩ := by
  cases digits with
  | nil => exact absurd rfl hsome
  | cons first rest =>
      obtain ⟨hfirst, hrest⟩ := List.forall_mem_cons.mp hdigits
      obtain ⟨hchar, hvalue⟩ := read_digitChar first hfirst
      have hstep : step ⟨.inNumber opened, tokens⟩ (digitChar first) =
          ⟨.inNumber (state [first]), tokens⟩ := by
        simp only [step, hopened _ hchar, hvalue]
      rw [List.map_cons, List.foldl_cons, hstep, foldl_step_digits hstate hrest, List.reverse_cons]

/-- The sign and the whole part of a number. -/
theorem foldl_step_whole (negative : Bool) {whole : List Nat} (h : WholePart whole)
    (tokens : List Token) :
    ∃ part, (part = .zero ∨ part = .whole) ∧
      ((if negative then ['-'] else []) ++ whole.map digitChar).foldl step ⟨.between, tokens⟩ =
        ⟨.inNumber ⟨part, negative, whole.reverse, [], false, 0⟩, tokens⟩ := by
  cases h with
  | zero =>
      refine ⟨.zero, Or.inl rfl, ?_⟩
      cases negative <;> rfl
  | @digits first rest hfirst hlt hrest =>
      refine ⟨.whole, Or.inr rfl, ?_⟩
      let state (digits : List Nat) : OpenNumeral := ⟨.whole, negative, digits, [], false, 0⟩
      have hopened : ((if negative then ['-'] else []) ++ [digitChar first]).foldl step
          ⟨.between, tokens⟩ = ⟨.inNumber (state [first]), tokens⟩ := by
        interval_cases first <;> cases negative <;> rfl
      have hstate : ∀ (before : List Nat) (c : Char), c.isDigit = true →
          (state before).next c = .more (state (OpenNumeral.digitOf c :: before)) := by
        intro before c hc
        simp only [state, OpenNumeral.next, hc, if_true]
      rw [List.map_cons, List.append_cons, List.foldl_append, hopened,
        foldl_step_digits hstate hrest, List.reverse_cons]

/-- A fraction after the whole part. -/
theorem foldl_step_fraction {part : NumeralPart} (hpart : part = .zero ∨ part = .whole)
    (negative : Bool) (whole : List Nat) {fraction : List Nat}
    (h : ∀ digit ∈ fraction, digit < 10) (tokens : List Token) :
    ∃ next, (next = .zero ∨ next = .whole ∨ next = .fraction) ∧
      (if fraction.isEmpty then [] else '.' :: fraction.map digitChar).foldl step
          ⟨.inNumber ⟨part, negative, whole, [], false, 0⟩, tokens⟩ =
        ⟨.inNumber ⟨next, negative, whole, fraction.reverse, false, 0⟩, tokens⟩ := by
  by_cases hsome : fraction = []
  · rw [hsome]
    exact ⟨part, hpart.imp_right Or.inl, rfl⟩
  · refine ⟨.fraction, Or.inr (Or.inr rfl), ?_⟩
    have hpoint : step ⟨.inNumber ⟨part, negative, whole, [], false, 0⟩, tokens⟩ '.' =
        ⟨.inNumber ⟨.point, negative, whole, [], false, 0⟩, tokens⟩ := by
      rcases hpart with rfl | rfl <;> rfl
    let state (digits : List Nat) : OpenNumeral := ⟨.fraction, negative, whole, digits, false, 0⟩
    rw [if_neg (mt List.isEmpty_iff.mp hsome), List.foldl_cons, hpoint]
    apply @foldl_step_part _ state _ _ _ hsome h
    · intro c hc
      simp only [state, OpenNumeral.next, hc, if_true]
    · intro before c hc
      simp only [state, OpenNumeral.next, hc, if_true]

/-- An exponent after the whole part or the fraction. -/
theorem foldl_step_exponent {part : NumeralPart}
    (hpart : part = .zero ∨ part = .whole ∨ part = .fraction) (negative : Bool)
    (whole fraction : List Nat) (exponent : Int) (tokens : List Token) :
    (exponentChars exponent).foldl step
        ⟨.inNumber ⟨part, negative, whole, fraction, false, 0⟩, tokens⟩ =
      ⟨.inNumber ⟨.exponent, negative, whole, fraction, decide (exponent < 0), exponent.natAbs⟩,
        tokens⟩ := by
  have hmark : ['e', if exponent < 0 then '-' else '+'].foldl step
      ⟨.inNumber ⟨part, negative, whole, fraction, false, 0⟩, tokens⟩ =
        ⟨.inNumber ⟨.markSign, negative, whole, fraction, decide (exponent < 0), 0⟩, tokens⟩ := by
    by_cases hsign : exponent < 0
    · simp only [hsign, if_true, decide_true]
      rcases hpart with rfl | rfl | rfl <;> rfl
    · simp only [hsign, if_false, decide_false]
      rcases hpart with rfl | rfl | rfl <;> rfl
  have hwhole := wholePart_digitsOf exponent.natAbs
  let state (digits : List Nat) : OpenNumeral :=
    ⟨.exponent, negative, whole, fraction, decide (exponent < 0),
      digits.foldr (fun digit value => value * 10 + digit) 0⟩
  have hresult : state (digitsOf exponent.natAbs).reverse =
      ⟨.exponent, negative, whole, fraction, decide (exponent < 0), exponent.natAbs⟩ := by
    simp only [state, List.foldr_reverse, foldl_digitsOf]
  change (['e', if exponent < 0 then '-' else '+'] ++
    (digitsOf exponent.natAbs).map digitChar).foldl step _ = _
  rw [List.foldl_append, hmark, ← hresult]
  apply @foldl_step_part _ state _ _ _ hwhole.ne_nil hwhole.lt_ten
  · intro c hc
    simp only [state, OpenNumeral.next, hc, if_true, List.foldr_cons, List.foldr_nil, Nat.zero_mul,
      Nat.zero_add]
  · intro before c hc
    simp only [state, OpenNumeral.next, hc, if_true, List.foldr_cons]

end Scanner

/-- The tokens of the text so far were scanned and nothing else, but the last of them may be
a number that nothing has ended yet. -/
inductive Scanner.Holds : List Token → Scanner → Prop
  | between (tokens : List Token) : Holds tokens ⟨.between, tokens⟩
  | inNumber {number : OpenNumeral} {numeral : Numeral} (hcomplete : number.isComplete = true)
      (hnumeral : number.numeral = numeral) (tokens : List Token) :
      Holds (.number numeral :: tokens) ⟨.inNumber number, tokens⟩

namespace Scanner

/-- A numeral is scanned up to its last character. -/
theorem holds_numeral {numeral : Numeral} (h : numeral.Spelled) (tokens : List Token) :
    Holds (.number numeral :: tokens) (numeral.chars.foldl step ⟨.between, tokens⟩) := by
  obtain ⟨part, hpart, hwhole⟩ := foldl_step_whole numeral.negative h.whole tokens
  obtain ⟨next, hnext, hfraction⟩ :=
    foldl_step_fraction hpart numeral.negative numeral.whole.reverse h.fraction tokens
  rw [Numeral.chars, List.foldl_append, List.foldl_append, hwhole, hfraction]
  obtain ⟨negative, whole, fraction, exponent⟩ := numeral
  cases exponent with
  | none =>
      have hplain : next ≠ .exponent := by
        rcases hnext with rfl | rfl | rfl <;> exact NumeralPart.noConfusion
      refine .inNumber ?_ ?_ tokens
      · rcases hnext with rfl | rfl | rfl <;> rfl
      · simp only [OpenNumeral.numeral, List.reverse_reverse, if_neg hplain]
  | some exponent =>
      simp only [foldl_step_exponent hnext]
      have hsign : (if decide (exponent < 0) = true then -(exponent.natAbs : Int)
          else exponent.natAbs) = exponent := by
        simp only [decide_eq_true_eq]
        split <;> omega
      refine .inNumber rfl ?_ tokens
      simp only [OpenNumeral.numeral, List.reverse_reverse, if_true, hsign]

/-- No token that delimits itself starts with a character that a number may go on with. -/
theorem exists_chars_eq {token : Token} (h : token.SelfDelimiting) :
    ∃ c rest, token.chars = c :: rest ∧ c.isDigit = false ∧ c ≠ '.' ∧
      OpenNumeral.isMark c = false := by
  cases token with
  | number numeral => exact h.elim
  | broken inText cut => exact h.elim
  | boolean value => cases value <;> exact ⟨_, _, rfl, by decide⟩
  | text content => exact ⟨_, _, rfl, by decide⟩
  | _ => exact ⟨_, _, rfl, by decide⟩

theorem next_eq_over {number : OpenNumeral} (h : number.isComplete = true) {c : Char}
    (hdigit : c.isDigit = false) (hpoint : c ≠ '.') (hmark : OpenNumeral.isMark c = false) :
    number.next c = .over := by
  have hnot : (c == '.') = false := beq_eq_false_iff_ne.mpr hpoint
  obtain ⟨part, _, _, _, _, _⟩ := number
  cases part with
  | sign | point | mark | markSign => cases h
  | zero | whole | fraction | exponent =>
      simp only [OpenNumeral.next, hdigit, hnot, hmark, Bool.false_eq_true, if_false]

/-- A token that delimits itself completes what was scanned before it. -/
theorem foldl_step_after {tokens : List Token} {scanner : Scanner} (hholds : Holds tokens scanner)
    {token : Token} (htoken : token.SelfDelimiting) :
    token.chars.foldl step scanner = ⟨.between, token :: tokens⟩ := by
  cases hholds with
  | between => exact foldl_step_chars htoken tokens
  | @inNumber number numeral hcomplete hnumeral tokens =>
      subst hnumeral
      obtain ⟨c, rest, hchars, hdigit, hpoint, hmark⟩ := exists_chars_eq htoken
      have hstep : step ⟨.inNumber number, tokens⟩ c =
          step ⟨.between, .number number.numeral :: tokens⟩ c := by
        simp only [step, next_eq_over hcomplete hdigit hpoint hmark]
      have htokens := foldl_step_chars htoken (.number number.numeral :: tokens)
      rw [hchars, List.foldl_cons] at htokens ⊢
      rw [hstep, htokens]

theorem finish_of_holds {tokens : List Token} {scanner : Scanner} (h : Holds tokens scanner) :
    scanner.finish = tokens.reverse := by
  cases h with
  | between => rfl
  | inNumber hcomplete hnumeral tokens => simp only [finish, hcomplete, if_true, hnumeral]

end Scanner

/-- The text that the tokens are written as is scanned as these tokens, after any others
that have come to an end. -/
def Token.Scanned (written : List Token) : Prop :=
  ∀ tokens, Scanner.Holds (written.reverse ++ tokens)
    ((written.flatMap Token.chars).foldl Scanner.step ⟨.between, tokens⟩)

namespace Token.Scanned

theorem nil : Scanned [] :=
  fun tokens => .between tokens

theorem number {numeral : Numeral} (h : numeral.Spelled) : Scanned [.number numeral] := by
  intro tokens
  rw [List.flatMap_singleton]
  exact Scanner.holds_numeral h tokens

/-- Tokens may be joined by one that delimits itself. -/
theorem append_cons {first rest : List Token} {token : Token} (hfirst : Scanned first)
    (htoken : token.SelfDelimiting) (hrest : Scanned rest) : Scanned (first ++ token :: rest) := by
  intro tokens
  rw [List.flatMap_append, List.flatMap_cons, List.foldl_append, List.foldl_append,
    Scanner.foldl_step_after (hfirst tokens) htoken, List.reverse_append, List.reverse_cons,
    List.append_assoc, List.append_assoc]
  exact hrest _

theorem cons {token : Token} {rest : List Token} (htoken : token.SelfDelimiting)
    (hrest : Scanned rest) : Scanned (token :: rest) :=
  append_cons nil htoken hrest

theorem scan_eq {written : List Token} (h : Scanned written) :
    Token.scan (written.flatMap Token.chars) = written := by
  rw [Token.scan, Scanner.initial, Scanner.finish_of_holds (h []), List.append_nil,
    List.reverse_reverse]

end Token.Scanned

end IdlBindings.Json
