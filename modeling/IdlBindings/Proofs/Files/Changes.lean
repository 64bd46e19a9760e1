import IdlBindings.Proofs.Files.Tree
import Mathlib.Data.Set.Basic

/-!
What operations on files leave as it was. A path is kept, or becomes a directory where
there was nothing, or becomes a file where there was no directory. Changes that stay
within some paths, one after the other, stay within them together.
-/

namespace IdlBindings.Files

/-- What has become of a path, where directories may be made at some paths and files be
written at others. -/
inductive Change (made written : Set Path) (tree after : Tree) (path : Path) : Prop
  | kept (h : after.node? path = tree.node? path)
  | made (hpath : path ∈ made) (hbefore : tree.node? path = none)
      (hafter : after.node? path = some .directory)
  | written (hpath : path ∈ written) (hbefore : tree.node? path ≠ some .directory)
      {content : List UInt8} (hafter : after.node? path = some (.file content))

namespace Change

variable {made written : Set Path} {tree next after : Tree} {path : Path}

/-- A directory that was made stays one, and a file that was written stays a file. -/
theorem trans (hfirst : Change made written tree next path)
    (hsecond : Change made written next after path) : Change made written tree after path := by
  cases hsecond with
  | kept hsame =>
      cases hfirst with
      | kept h => exact .kept (hsame.trans h)
      | made hpath hbefore hafter => exact .made hpath hbefore (hsame.trans hafter)
      | written hpath hbefore hafter => exact .written hpath hbefore (hsame.trans hafter)
  | made hpath hnone hdirectory =>
      cases hfirst with
      | kept h => exact .made hpath (h.symm.trans hnone) hdirectory
      | made _ _ hafter => cases hnone.symm.trans hafter
      | written _ _ hafter => cases hnone.symm.trans hafter
  | written hpath hnoDirectory hfile =>
      cases hfirst with
      | kept h => exact .written hpath (h ▸ hnoDirectory) hfile
      | made _ _ hafter => exact absurd hafter hnoDirectory
      | written _ hbefore _ => exact .written hpath hbefore hfile

end Change

variable {made written : Set Path} {tree after : Tree}

theorem change_put_directory {place : Path} (hplace : place ≠ []) (hmade : place ∈ made)
    (hnone : tree.node? place = none) (path : Path) :
    Change made written tree (tree.put place .directory) path := by
  by_cases hpath : path = place
  · subst hpath
    exact .made hmade hnone (tree.node?_put_self hplace _)
  · exact .kept (tree.node?_put_of_ne hpath _)

theorem change_put_file {place : Path} (hplace : place ≠ []) (hwritten : place ∈ written)
    (hbefore : tree.node? place ≠ some .directory) (content : List UInt8) (path : Path) :
    Change made written tree (tree.put place (.file content)) path := by
  by_cases hpath : path = place
  · subst hpath
    exact .written hwritten hbefore (tree.node?_put_self hplace _)
  · exact .kept (tree.node?_put_of_ne hpath _)

/-- Directories are made on the way to the last of them, where they are missing. -/
theorem change_makeDirectoriesBelow {above : Path} {names : List String}
    (h : tree.makeDirectoriesBelow above names = .ok after) (path : Path) :
    Change {path | path <+: above ++ names} written tree after path := by
  induction names generalizing tree above with
  | nil =>
      cases h
      exact .kept rfl
  | cons name names ih =>
      have hway : above ++ name :: names = (above ++ [name]) ++ names := by simp
      rw [hway]
      unfold Tree.makeDirectoriesBelow at h
      simp only at h
      split at h
      · exact ih h
      · cases h
      · rename_i hnone
        refine Change.trans ?_ (ih h)
        exact change_put_directory (by simp) (List.prefix_append _ _) hnone path

theorem change_makeDirectories {directory : Path} (h : tree.makeDirectories directory = .ok after)
    (path : Path) : Change {path | path <+: directory} written tree after path :=
  change_makeDirectoriesBelow h path

/-- A file is written where its name leads alone, and not over a directory. -/
theorem change_writeBelow {directory : Path} {name : String} {content : List UInt8}
    (h : tree.writeBelow directory name content = .ok after)
    (hwritten : directory.follow name ∈ written) (path : Path) :
    Change made written tree after path := by
  obtain ⟨hfile, rfl⟩ := Tree.writeBelow_eq_ok h
  refine change_put_file (Tree.ne_nil_of_isDirectory hfile) hwritten (fun hdirectory => ?_)
    content path
  have hrefused : tree.isDirectory (directory.follow name) = true := beq_of_eq hdirectory
  rw [hfile] at hrefused
  cases hrefused

/-- A name that stands for an entry of the directory in which it is looked up. -/
def IsEntryName (name : String) : Prop :=
  name ≠ "" ∧ name ≠ "." ∧ name ≠ ".." ∧ '/' ∉ name.toList

theorem follow_of_isEntryName {name : String} (h : IsEntryName name) (directory : Path) :
    directory.follow name = directory ++ [name] := by
  obtain ⟨hempty, hdot, hup, hslash⟩ := h
  have hsplit : splitName name = [name] := by
    have hall := splitFrom_append hslash [] []
    rw [List.append_nil, List.append_nil] at hall
    rw [splitName, hall, splitFrom, List.reverse_reverse, String.ofList_toList]
  have hparts : nameParts name = [name] := by
    rw [nameParts, hsplit, List.filter_cons_of_pos, List.filter_nil]
    exact bne_iff_ne.mpr hempty
  rw [Path.follow, hparts, List.foldl_cons, List.foldl_nil, Path.step, if_neg hdot, if_neg hup]

end IdlBindings.Files
