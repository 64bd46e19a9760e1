import IdlBindings.Proofs.Text.Lines

/-!
Dropping blank lines. A text is split at line feeds with or without a carriage return before
them, and the lines that are kept are written with a line feed alone. A line that still has a
carriage return at its end is read back without it. Otherwise the lines of the result are the
lines of the text that are not blank, and dropping blank lines again changes nothing. Of the
text no characters are lost but blank ones, and what stands in one line goes on doing so.
-/

namespace IdlBindings.Text

/-- The lines of a text that are not blank. -/
def keptLines (text : String) : List String :=
  (linesOf text).filter fun line => !isBlank line

theorem dropBlankLines_eq_ended (text : String) :
    dropBlankLines text = ended (keptLines text) := by
  have hkept : keptLines text =
      ((lines text.toList).filter fun line => !line.all isBlankChar).map String.ofList := by
    rw [keptLines, linesOf, List.filter_map]
    congr 2
    funext line
    simp [isBlank]
  have hwritten (chosen : List (List Char)) :
      (ended (chosen.map String.ofList)).toList = chosen.flatMap fun line => line ++ ['\n'] := by
    induction chosen with
    | nil => rfl
    | cons line rest ih =>
        rw [List.map_cons, toList_ended_cons, ih, List.flatMap_cons, String.toList_ofList,
          List.append_assoc]
        rfl
  rw [dropBlankLines, ← hwritten, ← hkept, String.ofList_toList]

theorem not_mem_endedLine {chars : List Char} (h : '\n' ∉ chars) : '\n' ∉ endedLine chars := by
  unfold endedLine
  split
  · exact fun hmem => h (List.mem_cons_of_mem _ (List.mem_reverse.mp hmem))
  · exact fun hmem => h (List.mem_reverse.mp hmem)

theorem not_mem_of_mem_linesFrom {current chars line : List Char} (hcurrent : '\n' ∉ current)
    (h : line ∈ linesFrom current chars) : '\n' ∉ line := by
  fun_induction linesFrom current chars with
  | case1 current => cases h
  | case2 current _ =>
      rw [List.mem_singleton.mp h]
      exact fun hmem => hcurrent (List.mem_reverse.mp hmem)
  | case3 current rest ih =>
      rcases List.mem_cons.mp h with rfl | hlater
      · exact not_mem_endedLine hcurrent
      · exact ih List.not_mem_nil hlater
  | case4 current c rest hc ih =>
      exact ih (List.not_mem_cons_of_ne_of_not_mem (Ne.symm hc) hcurrent) h

theorem unbroken_of_mem_linesOf {text line : String} (h : line ∈ linesOf text) :
    Unbroken line := by
  obtain ⟨chars, hchars, rfl⟩ := List.mem_map.mp h
  exact unbroken_ofList (not_mem_of_mem_linesFrom List.not_mem_nil hchars)

theorem unbroken_of_mem_keptLines {text line : String} (h : line ∈ keptLines text) :
    Unbroken line :=
  unbroken_of_mem_linesOf (List.mem_of_mem_filter h)

/-- A carriage return is blank, so taking it away leaves a line as blank as it was. -/
theorem isBlank_withoutReturn (line : String) : isBlank (withoutReturn line) = isBlank line := by
  unfold withoutReturn
  split
  · rename_i hreturn
    obtain ⟨front, hfront⟩ := List.getLast?_eq_some_iff.mp hreturn
    have hblank : isBlankChar '\r' = true := by decide
    rw [isBlank, isBlank, String.toList_ofList, hfront, List.dropLast_concat, List.all_append,
      List.all_cons, hblank]
    simp
  · rfl

theorem unbroken_withoutReturn {line : String} (h : Unbroken line) :
    Unbroken (withoutReturn line) := by
  unfold withoutReturn
  split
  · exact unbroken_ofList fun hmem => h (List.dropLast_subset _ hmem)
  · exact h

theorem linesOf_dropBlankLines (text : String) :
    linesOf (dropBlankLines text) = (keptLines text).map withoutReturn := by
  rw [dropBlankLines_eq_ended, linesOf_ended fun _ => unbroken_of_mem_keptLines]

theorem not_isBlank_of_mem_dropBlankLines {text line : String}
    (h : line ∈ linesOf (dropBlankLines text)) : isBlank line = false := by
  rw [linesOf_dropBlankLines] at h
  obtain ⟨kept, hkept, rfl⟩ := List.mem_map.mp h
  rw [isBlank_withoutReturn]
  simpa using (List.mem_filter.mp hkept).2

/-- Only a carriage return is taken from a line where it ends. -/
theorem endedLine_eq (chars : List Char) :
    endedLine chars = chars.reverse ∨
      ∃ others, chars = '\r' :: others ∧ endedLine chars = others.reverse := by
  unfold endedLine
  split
  · exact Or.inr ⟨_, rfl, rfl⟩
  · exact Or.inl rfl

theorem filter_flatten_linesFrom (current chars : List Char) :
    (linesFrom current chars).flatten.filter (fun c => !isBlankChar c) =
      (current.reverse ++ chars).filter fun c => !isBlankChar c := by
  have hfeed : isBlankChar '\n' = true := by decide
  have hreturn : isBlankChar '\r' = true := by decide
  fun_induction linesFrom current chars with
  | case1 current hempty => simp [List.isEmpty_iff.mp hempty]
  | case2 current _ => simp
  | case3 current rest ih =>
      rw [List.flatten_cons, List.filter_append, ih]
      rcases endedLine_eq current with hall | ⟨others, rfl, hothers⟩
      · simp [hall, hfeed]
      · simp [hothers, hfeed, hreturn]
  | case4 current c rest _ ih =>
      rw [ih, List.reverse_cons, List.append_assoc, List.singleton_append]

/-- Only blank characters are lost with the blank lines. -/
theorem filter_dropBlankLines (text : String) :
    (dropBlankLines text).toList.filter (fun c => !isBlankChar c) =
      text.toList.filter fun c => !isBlankChar c := by
  have hfeed : isBlankChar '\n' = true := by decide
  have hlines := filter_flatten_linesFrom [] text.toList
  rw [List.reverse_nil, List.nil_append] at hlines
  rw [← hlines, dropBlankLines, String.toList_ofList, lines]
  induction linesFrom [] text.toList with
  | nil => rfl
  | cons line rest ih =>
      rw [List.flatten_cons, List.filter_append, ← ih]
      cases hblank : line.all isBlankChar with
      | true =>
          have hnone : line.filter (fun c => !isBlankChar c) = [] := by
            simpa using hblank
          rw [List.filter_cons_of_neg (by simp [hblank]), hnone, List.nil_append]
      | false =>
          rw [List.filter_cons_of_pos (by simp [hblank]), List.flatMap_cons, List.filter_append,
            List.filter_append]
          simp [hfeed]

/-- While a line is read that begins with a stretch of text, it comes to hold that stretch. -/
theorem exists_line_of_begun {piece : List Char} (hne : piece ≠ [])
    (hreturn : piece.getLast? ≠ some '\r') (front : List Char) (begun rest : List Char) :
    ∃ line ∈ linesFrom (begun ++ piece.reverse ++ front) rest, piece <:+: line := by
  induction rest generalizing begun with
  | nil =>
      have hsome : (begun ++ piece.reverse ++ front).isEmpty = false := by simp [hne]
      rw [linesFrom, hsome]
      exact ⟨_, List.mem_singleton_self _, front.reverse, begun.reverse, by simp⟩
  | cons c rest ih =>
      rw [linesFrom]
      split
      · refine ⟨_, List.mem_cons_self, ?_⟩
        rcases endedLine_eq (begun ++ piece.reverse ++ front) with hall | ⟨others, hothers, hline⟩
        · rw [hall]
          exact ⟨front.reverse, begun.reverse, by simp⟩
        · -- The carriage return stands after the stretch, which does not end in one.
          rw [hline]
          cases begun with
          | nil =>
              have hlast : piece.getLast? = some '\r' := by
                simpa [List.head?_append, hne] using congrArg List.head? hothers
              exact absurd hlast hreturn
          | cons _ begun =>
              cases hothers
              exact ⟨front.reverse, begun.reverse, by simp⟩
      · exact ih (c :: begun)

/-- A stretch of text that could be a line stands in one of the lines. -/
theorem exists_line_of_append {piece : List Char} (hfeed : '\n' ∉ piece) (hne : piece ≠ [])
    (hreturn : piece.getLast? ≠ some '\r') (current before after : List Char) :
    ∃ line ∈ linesFrom current (before ++ piece ++ after), piece <:+: line := by
  induction before generalizing current with
  | nil =>
      rw [List.nil_append, linesFrom_append hfeed]
      exact exists_line_of_begun hne hreturn current [] after
  | cons c before ih =>
      rw [List.cons_append, List.cons_append, linesFrom]
      split
      · obtain ⟨line, hline, hpiece⟩ := ih []
        exact ⟨line, List.mem_cons_of_mem _ hline, hpiece⟩
      · exact ih (c :: current)

/-- The file holds what stands in the lines of the text: each stretch that could be a line
and is not blank. -/
def Holds (file text : String) : Prop :=
  ∀ piece : String, piece.toList <:+: text.toList → IsLine piece → isBlank piece = false →
    piece.toList <:+: file.toList

theorem holds_dropBlankLines {text part : String} (h : part.toList <:+: text.toList) :
    Holds (dropBlankLines text) part := by
  intro piece hpiece hline hblank
  have hne : piece.toList ≠ [] := by
    intro hempty
    rw [isBlank, hempty] at hblank
    cases hblank
  obtain ⟨before, after, htext⟩ := hpiece.trans h
  obtain ⟨line, hmem, hwithin⟩ :=
    exists_line_of_append hline.unbroken hne hline.no_return [] before after
  have hkept : !line.all isBlankChar := by
    obtain ⟨front, back, rfl⟩ := hwithin
    rw [isBlank] at hblank
    simp [hblank]
  rw [dropBlankLines, String.toList_ofList, lines, ← htext]
  have hwritten : line ++ ['\n'] ∈ ((linesFrom [] (before ++ piece.toList ++ after)).filter
      fun line => !line.all isBlankChar).map fun line => line ++ ['\n'] :=
    List.mem_map.mpr ⟨line, List.mem_filter.mpr ⟨hmem, hkept⟩, rfl⟩
  refine (hwithin.trans (List.infix_append [] line ['\n'])).trans ?_
  exact List.infix_of_mem_flatten hwritten

theorem ended_cons_ne_ended_nil (line : String) (rest : List String) :
    ended (line :: rest) ≠ ended [] := by
  intro hsame
  have hchars := congrArg String.toList hsame
  rw [toList_ended_cons] at hchars
  exact List.append_ne_nil_of_right_ne_nil _ (List.cons_ne_nil _ _) hchars

/-- What is written first ends at the first line feed, so a text that is written from lines
tells which lines they were. -/
theorem ended_inj {lines others : List String} (h : ∀ line ∈ lines, Unbroken line)
    (hothers : ∀ line ∈ others, Unbroken line) (hsame : ended lines = ended others) :
    lines = others := by
  induction lines generalizing others with
  | nil =>
      cases others with
      | nil => rfl
      | cons other rest => exact absurd hsame.symm (ended_cons_ne_ended_nil other rest)
  | cons line rest ih =>
      cases others with
      | nil => exact absurd hsame (ended_cons_ne_ended_nil line rest)
      | cons other otherRest =>
          obtain ⟨hline, hrest⟩ := List.forall_mem_cons.mp h
          obtain ⟨hother, hotherRest⟩ := List.forall_mem_cons.mp hothers
          have hchars := congrArg String.toList hsame
          rw [toList_ended_cons, toList_ended_cons] at hchars
          -- Neither line has a line feed, so the first one stands right behind both.
          have hlength : line.toList.length = other.toList.length := by
            have hfeed := congrArg (List.idxOf '\n') hchars
            rwa [List.idxOf_append_of_notMem hline, List.idxOf_append_of_notMem hother,
              List.idxOf_cons_self, List.idxOf_cons_self] at hfeed
          obtain ⟨hfirst, hlater⟩ := List.append_inj hchars hlength
          rw [String.toList_inj.mp hfirst,
            ih hrest hotherRest (String.toList_inj.mp (List.cons.inj hlater).2)]

theorem dropBlankLines_dropBlankLines (text : String) :
    dropBlankLines (dropBlankLines text) = ended ((keptLines text).map withoutReturn) := by
  -- The second time no line is blank, so all lines are kept as they are read.
  have hall : (linesOf (dropBlankLines text)).filter (fun line => !isBlank line) =
      linesOf (dropBlankLines text) :=
    List.filter_eq_self.mpr fun line hline => by
      rw [not_isBlank_of_mem_dropBlankLines hline]
      rfl
  rw [dropBlankLines_eq_ended (dropBlankLines text), keptLines, hall, linesOf_dropBlankLines]

theorem map_withoutReturn_eq_self_iff {lines : List String} :
    lines.map withoutReturn = lines ↔ ∀ line ∈ lines, line.toList.getLast? ≠ some '\r' := by
  have hsame : lines.map withoutReturn = lines.map id ↔
      ∀ line ∈ lines, withoutReturn line = line := List.map_inj_left
  rw [List.map_id] at hsame
  simp only [hsame, withoutReturn_eq_self_iff]

/-- The lines that are left when blank lines are dropped: those of the text that are not
blank, in order, each less one carriage return at its end. None of them is blank. They are
the lines of the text themselves, and dropping blank lines again changes nothing, exactly
when no line that is kept ends in a carriage return. -/
theorem dropBlankLines_exact_iff (text : String) :
    linesOf (dropBlankLines text) = (keptLines text).map withoutReturn ∧
      (∀ line ∈ linesOf (dropBlankLines text), isBlank line = false) ∧
      (linesOf (dropBlankLines text) = keptLines text ↔
        ∀ line ∈ keptLines text, line.toList.getLast? ≠ some '\r') ∧
      (dropBlankLines (dropBlankLines text) = dropBlankLines text ↔
        ∀ line ∈ keptLines text, line.toList.getLast? ≠ some '\r') := by
  refine ⟨linesOf_dropBlankLines text, fun _ => not_isBlank_of_mem_dropBlankLines, ?_, ?_⟩
  · rw [linesOf_dropBlankLines, map_withoutReturn_eq_self_iff]
  · rw [← map_withoutReturn_eq_self_iff, dropBlankLines_dropBlankLines, dropBlankLines_eq_ended]
    refine ⟨ended_inj ?_ fun _ => unbroken_of_mem_keptLines, fun hsame => by rw [hsame]⟩
    intro line hline
    obtain ⟨kept, hkept, rfl⟩ := List.mem_map.mp hline
    exact unbroken_withoutReturn (unbroken_of_mem_keptLines hkept)

/-- A carriage return before the two characters that end a line is lost on the way. -/
theorem dropBlankLines_loses_return :
    keptLines "a\r\r\n" = ["a\r"] ∧ linesOf (dropBlankLines "a\r\r\n") = ["a"] ∧
      dropBlankLines (dropBlankLines "a\r\r\n") ≠ dropBlankLines "a\r\r\n" := by
  decide

end IdlBindings.Text
