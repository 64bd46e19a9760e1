import IdlBindings.Files.Tree
import IdlBindings.Proofs.Sequence
import IdlBindings.Proofs.Text.Utf8

/-!
Writing files into a tree. A write changes what there is at one path and nothing else,
and a text that was written is read back. Names that differ before a common ending lead
to different paths from a directory, unless the ending leads up again.
-/

namespace IdlBindings.Files

namespace Tree

theorem node?_put_self (tree : Tree) {path : Path} (hpath : path ≠ []) (node : Node) :
    (tree.put path node).node? path = some node := by
  have hroot : path.isEmpty = false := List.isEmpty_eq_false_iff.mpr hpath
  rw [node?, put, hroot]
  exact List.lookup_cons_self

theorem node?_put_of_ne (tree : Tree) {path other : Path} (h : other ≠ path) (node : Node) :
    (tree.put path node).node? other = tree.node? other := by
  have hother : (other == path) = false := beq_false_of_ne h
  simp only [node?, put, List.lookup_cons, hother]

theorem readText_of_node? {tree : Tree} {path : Path} {text : String}
    (h : tree.node? path = some (.file (Text.encode text))) : tree.readText path = .ok text := by
  simp only [readText, h, Text.ofUtf8_encode]

/-- A file is written where its name leads, and never over a directory. -/
theorem writeBelow_eq_ok {tree next : Tree} {directory : Path} {name : String}
    {content : List UInt8} (h : tree.writeBelow directory name content = .ok next) :
    tree.isDirectory (directory.follow name) = false ∧
      next = tree.put (directory.follow name) (.file content) := by
  obtain ⟨_, _, hthen⟩ := Sequence.bind_eq_ok_iff.mp h
  simp only at hthen
  split at hthen
  · cases hthen
  · rename_i hallowed
    obtain ⟨_, hfile⟩ := not_or.mp (mt Bool.or_eq_true_iff.mpr hallowed)
    exact ⟨Bool.eq_false_iff.mpr hfile, (Except.ok.inj hthen).symm⟩

theorem ne_nil_of_isDirectory {tree : Tree} {path : Path} (h : tree.isDirectory path = false) :
    path ≠ [] := by
  rintro rfl
  cases h

end Tree

theorem splitFrom_append {chars : List Char} (h : '/' ∉ chars) (current rest : List Char) :
    splitFrom current (chars ++ rest) = splitFrom (chars.reverse ++ current) rest := by
  induction chars generalizing current with
  | nil => rfl
  | cons c chars ih =>
      obtain ⟨hfirst, hothers⟩ := not_or.mp (mt List.mem_cons.mpr h)
      rw [List.cons_append, splitFrom, if_neg (Ne.symm hfirst), ih hothers]
      simp only [List.reverse_cons, List.append_assoc, List.singleton_append]

/-- Where the first part ends does not depend on how it begins. -/
theorem exists_splitFrom (chars : List Char) :
    ∃ ending parts, ∀ current, splitFrom current chars =
      String.ofList (current.reverse ++ ending) :: parts := by
  induction chars with
  | nil => exact ⟨[], [], fun current => by rw [splitFrom, List.append_nil]⟩
  | cons c chars ih =>
      obtain ⟨ending, parts, hrest⟩ := ih
      by_cases hslash : c = '/'
      · exact ⟨[], splitFrom [] chars, fun current => by
          rw [splitFrom, if_pos hslash, List.append_nil]⟩
      · refine ⟨c :: ending, parts, fun current => ?_⟩
        rw [splitFrom, if_neg hslash, hrest, List.reverse_cons, List.append_assoc]
        rfl

/-- The parts of a name with an extension: the extension begins in the first part. -/
theorem exists_nameParts (fileExtension : String) :
    ∃ ending, ∀ stem : String, '/' ∉ stem.toList →
      nameParts (stem ++ "." ++ fileExtension) =
        String.ofList (stem.toList ++ '.' :: ending) ::
          (splitName fileExtension).tail.filter (· != "") := by
  obtain ⟨ending, parts, hsplit⟩ := exists_splitFrom fileExtension.toList
  refine ⟨ending, fun stem hstem => ?_⟩
  have hchars : '/' ∉ stem.toList ++ ['.'] := by simpa using hstem
  have hname : splitName (stem ++ "." ++ fileExtension) =
      String.ofList (stem.toList ++ '.' :: ending) :: parts := by
    rw [splitName, String.toList_append, String.toList_append]
    change splitFrom [] ((stem.toList ++ ['.']) ++ fileExtension.toList) = _
    rw [splitFrom_append hchars, hsplit]
    simp
  have htail : (splitName fileExtension).tail = parts := by rw [splitName, hsplit, List.tail_cons]
  rw [nameParts, hname, htail, List.filter_cons_of_pos]
  rw [bne_iff_ne, ne_eq, ← String.toList_inj]
  simp

/-- Parts that do not lead up lead on, each to a name of its own. -/
theorem foldl_step {parts : List String} (h : ".." ∉ parts) (path : Path) :
    parts.foldl Path.step path = path ++ parts.filter (· != ".") := by
  induction parts generalizing path with
  | nil => rw [List.foldl_nil, List.filter_nil, List.append_nil]
  | cons part parts ih =>
      obtain ⟨hfirst, hothers⟩ := List.ne_and_not_mem_of_not_mem_cons h
      rw [List.foldl_cons, ih hothers, Path.step]
      split
      · rename_i hdot
        rw [List.filter_cons_of_neg (by simp [hdot])]
      · rename_i hdot
        rw [if_neg (Ne.symm hfirst), List.filter_cons_of_pos (by simp [hdot]), List.append_assoc,
          List.singleton_append]

/-- What starts as a stem without dots does is none of the names made of dots. -/
theorem head?_ne_dot {stem : String} (hne : stem ≠ "") (hdot : '.' ∉ stem.toList)
    (rest : List Char) : (stem.toList ++ rest).head? ≠ some '.' := by
  obtain ⟨first, others, hfirst⟩ := List.exists_cons_of_ne_nil (mt String.toList_eq_nil_iff.mp hne)
  rw [hfirst] at hdot ⊢
  exact fun hhead => hdot (Option.some.inj hhead ▸ List.mem_cons_self)

/-- Where a name with an extension leads that does not lead up. -/
theorem exists_follow_extension {fileExtension : String}
    (h : ".." ∉ (splitName fileExtension).tail) (directory : Path) :
    ∃ ending parts, ∀ stem : String, stem ≠ "" → '/' ∉ stem.toList → '.' ∉ stem.toList →
      directory.follow (stem ++ "." ++ fileExtension) =
        directory ++ String.ofList (stem.toList ++ '.' :: ending) :: parts := by
  obtain ⟨ending, hparts⟩ := exists_nameParts fileExtension
  refine ⟨ending, ((splitName fileExtension).tail.filter (· != "")).filter (· != "."),
    fun stem hne hslash hdot => ?_⟩
  have hnever (name : String) (hname : name.toList.head? = some '.') :
      name ≠ String.ofList (stem.toList ++ '.' :: ending) := by
    rintro rfl
    rw [String.toList_ofList] at hname
    exact head?_ne_dot hne hdot _ hname
  have hup : ".." ∉ String.ofList (stem.toList ++ '.' :: ending) ::
      (splitName fileExtension).tail.filter (· != "") :=
    List.not_mem_cons_of_ne_of_not_mem (hnever ".." (by decide))
      fun hmem => h (List.mem_of_mem_filter hmem)
  rw [Path.follow, hparts stem hslash, foldl_step hup, List.filter_cons_of_pos]
  exact bne_iff_ne.mpr (hnever "." (by decide)).symm

-- An extension that leads up brings different stems together.
example : Path.follow ["out"] "a.x/../same" = Path.follow ["out"] "b.x/../same" := by decide

end IdlBindings.Files
