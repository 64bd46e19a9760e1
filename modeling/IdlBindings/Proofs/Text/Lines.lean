import IdlBindings.Text.Lines
import Mathlib.Data.List.Basic

/-!
Text that is written line by line. Where no line has a line feed in it, the lines of the text
are the lines that were written, each by itself and each less one carriage return at its end,
which is taken for a part of the ending.
-/

namespace IdlBindings.Text

/-- The lines of a text, as texts. -/
def linesOf (text : String) : List String :=
  (lines text.toList).map String.ofList

/-- The lines, each written with a line feed after it. -/
def ended (lines : List String) : String :=
  String.join (lines.map fun line => line ++ "\n")

/-- The text consists of the lines: it is written from them, and they are read from it. -/
def ConsistsOf (text : String) (lines : List String) : Prop :=
  text = ended lines ∧ linesOf text = lines

theorem ended_append (lines others : List String) :
    ended (lines ++ others) = ended lines ++ ended others := by
  rw [ended, List.map_append, String.join_append]
  rfl

/-- A text without a line feed. -/
def Unbroken (text : String) : Prop :=
  '\n' ∉ text.toList

theorem Unbroken.append {text other : String} (h : Unbroken text) (hother : Unbroken other) :
    Unbroken (text ++ other) := by
  rw [Unbroken, String.toList_append, List.mem_append]
  exact not_or.mpr ⟨h, hother⟩

theorem unbroken_ofList {chars : List Char} (h : '\n' ∉ chars) :
    Unbroken (String.ofList chars) := by
  rw [Unbroken, String.toList_ofList]
  exact h

theorem Unbroken.enclosed {text : String} (h : Unbroken text) {front back : List Char}
    (hfront : '\n' ∉ front) (hback : '\n' ∉ back) :
    Unbroken (String.ofList front ++ text ++ String.ofList back) :=
  ((unbroken_ofList hfront).append h).append (unbroken_ofList hback)

/-- A text that is one line once a line feed ends it. -/
structure IsLine (text : String) : Prop where
  unbroken : Unbroken text
  no_return : text.toList.getLast? ≠ some '\r'

/-- What ends in the end of a line is a line if it has no line feed before. -/
theorem isLine_append {text : String} (h : Unbroken text) {ending : List Char}
    (hne : ending ≠ []) (hfeed : '\n' ∉ ending) (hreturn : ending.getLast? ≠ some '\r') :
    IsLine (text ++ String.ofList ending) where
  unbroken := h.append (unbroken_ofList hfeed)
  no_return := by
    rw [String.toList_append, String.toList_ofList, List.getLast?_append_of_ne_nil _ hne]
    exact hreturn

theorem linesFrom_append {line : List Char} (h : '\n' ∉ line) (current rest : List Char) :
    linesFrom current (line ++ rest) = linesFrom (line.reverse ++ current) rest := by
  induction line generalizing current with
  | nil => rfl
  | cons c line ih =>
      obtain ⟨hne, hline⟩ := List.ne_and_not_mem_of_not_mem_cons h
      rw [List.cons_append, linesFrom, if_neg (Ne.symm hne), ih hline, List.reverse_cons,
        List.append_assoc, List.singleton_append]

theorem linesFrom_append_feed {line : List Char} (h : '\n' ∉ line) (current rest : List Char) :
    linesFrom current (line ++ '\n' :: rest) =
      endedLine (line.reverse ++ current) :: linesFrom [] rest := by
  rw [linesFrom_append h, linesFrom, if_pos rfl]

/-- The line without the one carriage return that may stand at its end. -/
def withoutReturn (line : String) : String :=
  if line.toList.getLast? = some '\r' then String.ofList line.toList.dropLast else line

/-- A line that a line feed ends is read without a carriage return before the line feed. -/
theorem endedLine_reverse (line : String) :
    endedLine line.toList.reverse = (withoutReturn line).toList := by
  unfold withoutReturn
  split
  · rename_i hreturn
    obtain ⟨front, hfront⟩ := List.getLast?_eq_some_iff.mp hreturn
    rw [hfront, List.reverse_append, String.toList_ofList, List.dropLast_concat]
    exact List.reverse_reverse front
  · rename_i hreturn
    rw [List.getLast?_eq_head?_reverse] at hreturn
    unfold endedLine
    split
    · rename_i chars hchars
      exact absurd (congrArg List.head? hchars) hreturn
    · exact List.reverse_reverse line.toList

theorem withoutReturn_eq_self_iff {line : String} :
    withoutReturn line = line ↔ line.toList.getLast? ≠ some '\r' := by
  unfold withoutReturn
  split
  · rename_i hreturn
    refine iff_of_false (fun hsame => ?_) (fun hnot => hnot hreturn)
    obtain ⟨front, hfront⟩ := List.getLast?_eq_some_iff.mp hreturn
    have hlength := congrArg (fun text => text.toList.length) hsame
    simp [hfront] at hlength
  · rename_i hreturn
    exact iff_of_true rfl hreturn

theorem toList_ended_cons (line : String) (rest : List String) :
    (ended (line :: rest)).toList = line.toList ++ '\n' :: (ended rest).toList := by
  rw [ended, List.map_cons, String.join_cons, String.toList_append, String.toList_append,
    List.append_assoc]
  rfl

/-- What is written line by line is read line by line, each without a carriage return
at its end. -/
theorem linesOf_ended {lines : List String} (h : ∀ line ∈ lines, Unbroken line) :
    linesOf (ended lines) = lines.map withoutReturn := by
  induction lines with
  | nil => rfl
  | cons line rest ih =>
      obtain ⟨hunbroken, hrest⟩ := List.forall_mem_cons.mp h
      have hrestLines := ih hrest
      unfold linesOf Text.lines at hrestLines ⊢
      rw [toList_ended_cons, linesFrom_append_feed hunbroken, List.append_nil, endedLine_reverse,
        List.map_cons, hrestLines, String.ofList_toList, List.map_cons]

/-- Lines without such an end are read as they were written. -/
theorem consistsOf_ended {lines : List String} (h : ∀ line ∈ lines, IsLine line) :
    ConsistsOf (ended lines) lines := by
  refine ⟨rfl, ?_⟩
  rw [linesOf_ended fun line hline => (h line hline).unbroken]
  exact (List.map_congr_left fun line hline =>
    withoutReturn_eq_self_iff.mpr (h line hline).no_return).trans (List.map_id lines)

end IdlBindings.Text
