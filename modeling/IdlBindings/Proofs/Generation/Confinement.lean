import IdlBindings.Proofs.Files.Changes
import IdlBindings.Proofs.Generation.WrittenFiles
import Mathlib.Data.List.Infix

/-!
Where a run writes. The file name of a unit is free text, but only its stem enters a path,
and a stem has no separators and no dots. So whatever the names are, a run makes the output
directory with those above it that are missing, and writes files that lie directly in it.
Nothing is written before all units are loaded, checked and generated, so a run that fails
until then leaves all files as they were.
-/

namespace IdlBindings.Generation

open Files

/-- With an extension that stays in the directory, the name does. -/
theorem isEntryName_of_fileStem {fileName fileExtension : String} (hstem : fileStem fileName ≠ "")
    (hextension : '/' ∉ fileExtension.toList) :
    IsEntryName (fileStem fileName ++ "." ++ fileExtension) := by
  have hname : (fileStem fileName ++ "." ++ fileExtension).toList =
      (fileStem fileName).toList ++ '.' :: fileExtension.toList := by simp
  have hhead := head?_ne_dot hstem (dot_not_mem_fileStem fileName) ('.' :: fileExtension.toList)
  rw [← hname] at hhead
  refine ⟨fun h => ?_, fun h => ?_, fun h => ?_, fun h => ?_⟩
  · rw [h] at hname
    simp at hname
  · rw [h] at hhead
    exact hhead rfl
  · rw [h] at hhead
    exact hhead rfl
  · rw [hname, List.mem_append, List.mem_cons] at h
    obtain h | h | h := h
    · exact slash_not_mem_fileStem fileName h
    · cases h
    · exact hextension h

theorem outputFile_of_fileStem {unit : GeneratedUnit} {fileExtension : String}
    (hstem : fileStem unit.fileName ≠ "") (hextension : '/' ∉ fileExtension.toList)
    (directory : Path) :
    outputFile directory fileExtension unit =
      directory ++ [fileStem unit.fileName ++ "." ++ fileExtension] :=
  follow_of_isEntryName (isEntryName_of_fileStem hstem hextension) directory

/-- Only the files of units are written, also when writing stops at a fault. -/
theorem change_writeAll {made written : Set Path} {directory : Path} {fileExtension : String}
    {units : List GeneratedUnit}
    (hwritten : ∀ unit ∈ units, outputFile directory fileExtension unit ∈ written) (tree : Tree)
    (path : Path) :
    Change made written tree (writeAll tree directory fileExtension units).1 path := by
  induction units generalizing tree with
  | nil => exact .kept rfl
  | cons unit units ih =>
      obtain ⟨hfirst, hothers⟩ := List.forall_mem_cons.mp hwritten
      rw [writeAll]
      cases hwrite : tree.writeBelow directory (unit.outputName fileExtension)
          (Text.encode unit.source) with
      | error fault => exact .kept rfl
      | ok next =>
          have hnext : Change made written tree next path :=
            change_writeBelow hwrite hfirst path
          exact hnext.trans (ih hothers next)

/-- The paths in a directory that are named for the units of a run. -/
def unitPaths (tree : Tree) (inputs : List Path) (directory : Path) (fileExtension : String) :
    Set Path :=
  {path | ∃ units, loadUnits tree inputs = .ok units ∧ ∃ unit ∈ units, unit.validate = .ok () ∧
    path = directory ++ [unit.stem ++ "." ++ fileExtension]}

section Run

variable {settings : Settings} (hextension : '/' ∉ settings.fileExtension.toList)
  (tree : Tree) (inputs : List Path) (directory : Path) (choice : ErrorChoice GenerationError)

include hextension

theorem mem_unitPaths_iff {generated : List GeneratedUnit}
    (hprepare : prepare tree inputs settings choice = .ok generated) (path : Path) :
    path ∈ unitPaths tree inputs directory settings.fileExtension ↔
      ∃ out ∈ generated, outputFile directory settings.fileExtension out = path := by
  obtain ⟨units, hunits, hloaded⟩ := exists_loaded_of_prepare hprepare
  have hpath {unit : SourceUnit} {out : GeneratedUnit} (hvalid : unit.validate = .ok ())
      (hname : out.fileName = unit.fileName) :
      outputFile directory settings.fileExtension out =
        directory ++ [unit.stem ++ "." ++ settings.fileExtension] := by
    rw [outputFile_of_fileStem (hname ▸ stem_ne_of_validate hvalid) hextension, hname]
    rfl
  constructor
  · rintro ⟨_, hsame, unit, hunit, _, rfl⟩
    cases hunits.symm.trans hsame
    obtain ⟨out, hout, hvalid, hname⟩ := Sequence.exists_right_of_mem hloaded hunit
    exact ⟨out, hout, hpath hvalid hname⟩
  · rintro ⟨out, hout, rfl⟩
    obtain ⟨unit, hunit, hvalid, hname⟩ := Sequence.exists_left_of_mem hloaded hout
    exact ⟨units, hunits, unit, hunit, hvalid, hpath hvalid hname⟩

theorem change_generateFiles (path : Path) :
    Change {path | path <+: directory} (unitPaths tree inputs directory settings.fileExtension)
      tree (generateFiles tree inputs directory settings choice).1 path := by
  rw [generateFiles]
  cases hprepare : prepare tree inputs settings choice with
  | error error => exact .kept rfl
  | ok generated =>
      simp only [writeUnits]
      cases hready : tree.makeDirectories directory with
      | error fault => exact .kept rfl
      | ok ready =>
          refine (change_makeDirectories hready path).trans (change_writeAll ?_ ready path)
          intro out hout
          rw [mem_unitPaths_iff hextension tree inputs directory choice hprepare]
          exact ⟨out, hout, rfl⟩

theorem isFile_of_generateFiles {generated : List GeneratedUnit}
    (h : (generateFiles tree inputs directory settings choice).2 = .ok generated) {path : Path}
    (hpath : path ∈ unitPaths tree inputs directory settings.fileExtension) :
    (generateFiles tree inputs directory settings choice).1.isFile path = true := by
  obtain ⟨hprepare, ready, paths, _, hwrite⟩ := generateFiles_eq_ok_iff.mp (Prod.ext rfl h)
  obtain ⟨out, hout, rfl⟩ :=
    (mem_unitPaths_iff hextension tree inputs directory choice hprepare _).mp hpath
  obtain ⟨before, last, later, hgenerated, hsame, hlater⟩ :=
    exists_last directory settings.fileExtension hout
  rw [hgenerated] at hwrite
  rw [← hsame, Tree.isFile, node?_of_last hwrite hlater]
  rfl

end Run

/-- Once all units are generated, a run can only fail with a fault of the files. -/
theorem generateFiles_of_no_io {tree : Tree} {inputs : List Path} {directory : Path}
    {settings : Settings} {choice : ErrorChoice GenerationError} {error : GenerationError}
    (h : (generateFiles tree inputs directory settings choice).2 = .error error)
    (hcause : ∀ fault, error ≠ .io fault) :
    (generateFiles tree inputs directory settings choice).1 = tree := by
  rw [generateFiles] at h ⊢
  cases hprepare : prepare tree inputs settings choice with
  | error _ => rfl
  | ok generated =>
      rw [hprepare] at h
      simp only [writeUnits] at h
      cases hready : tree.makeDirectories directory with
      | error fault =>
          rw [hready] at h
          cases h
          exact absurd rfl (hcause fault)
      | ok ready =>
          rw [hready] at h
          obtain ⟨fault, _, hfault⟩ :=
            Sequence.mapError_eq_error_iff.mp (Sequence.map_eq_error_iff.mp h)
          exact absurd hfault.symm (hcause fault)

/-- A unit that passes the checks has a stem that names one entry of a directory. A run makes
no directories but the output directory and those above it, and writes no files but those
named for its units, directly in it; when it succeeds, all of these are there. When it
fails with anything but a fault of the files, or before the first file is written, nothing
has changed. -/
theorem writes_stay_inside {settings : Settings} (hextension : '/' ∉ settings.fileExtension.toList)
    (tree : Tree) (inputs : List Path) (directory : Path) (choice : ErrorChoice GenerationError) :
    (∀ unit : SourceUnit, unit.validate = .ok () →
      unit.stem ≠ "" ∧ (∀ c ∈ unit.stem.toList, c ≠ '/' ∧ c ≠ '\\' ∧ c ≠ '.') ∧
        IsEntryName (unit.stem ++ "." ++ settings.fileExtension)) ∧
    (∀ path, Change {path | path <+: directory}
      (unitPaths tree inputs directory settings.fileExtension) tree
      (generateFiles tree inputs directory settings choice).1 path) ∧
    (∀ generated, (generateFiles tree inputs directory settings choice).2 = .ok generated →
      ∀ path ∈ unitPaths tree inputs directory settings.fileExtension,
        (generateFiles tree inputs directory settings choice).1.isFile path = true) ∧
    (∀ error, (generateFiles tree inputs directory settings choice).2 = .error error →
      (∀ fault, error ≠ .io fault) →
        (generateFiles tree inputs directory settings choice).1 = tree) ∧
    ∀ error, prepare tree inputs settings choice = .error error →
      generateFiles tree inputs directory settings choice = (tree, .error error) := by
  refine ⟨fun unit hvalid => ?_, change_generateFiles hextension tree inputs directory choice,
    fun generated h path => isFile_of_generateFiles hextension tree inputs directory choice h,
    fun error => generateFiles_of_no_io, fun error hfailed => ?_⟩
  · have hstem := stem_ne_of_validate hvalid
    exact ⟨hstem, fun c => plain_of_mem_fileStem, isEntryName_of_fileStem hstem hextension⟩
  · rw [generateFiles, hfailed]

/-- File names that lead out of the directory in which they would be looked up. -/
def strayNames : List String :=
  ["../../etc/passwd.d.ts", "C:\\boot.ini"]

def strayFiles : Tree :=
  ⟨(["first.json"], .file (Text.encode (SourceUnit.toText ⟨"../../etc/passwd.d.ts", []⟩))) ::
    (["second.json"], .file (Text.encode (SourceUnit.toText ⟨"C:\\boot.ini", []⟩))) ::
    TemplateKind.all.map fun kind =>
      (["templates", kind.fileName], .file (Text.encode ((TemplateSet.slotsOnly kind).getD "")))⟩

def strayInputs : List Path :=
  [["first.json"], ["second.json"]]

theorem loadUnits_stray :
    loadUnits strayFiles strayInputs = .ok (strayNames.map fun name => ⟨name, []⟩) := by
  refine loadUnits_blankUnits (.cons ⟨?_, ?_⟩ (.cons ⟨?_, ?_⟩ .nil))
  all_goals rfl

theorem prepare_stray (choice : ErrorChoice GenerationError) :
    prepare strayFiles strayInputs drawingSettings choice = .ok (strayNames.map blankUnit) :=
  prepare_blankUnits loadUnits_stray (by decide) rfl (fun kind => by cases kind <;> rfl) choice

theorem generateFiles_stray (choice : ErrorChoice GenerationError) :
    (generateFiles strayFiles strayInputs ["build", "out"] drawingSettings choice).2 =
      .ok (strayNames.map blankUnit) := by
  have hready : strayFiles.makeDirectories ["build", "out"] =
      .ok ((strayFiles.put ["build"] .directory).put ["build", "out"] .directory) := rfl
  have hpaths : (writeAll ((strayFiles.put ["build"] .directory).put ["build", "out"] .directory)
      ["build", "out"] drawingSettings.fileExtension (strayNames.map blankUnit)).2 =
        .ok [["build", "out", "passwd.rs"], ["build", "out", "boot.rs"]] := by decide
  rw [generateFiles_of_writeAll (prepare_stray choice) hready hpaths]

theorem slash_not_mem_drawingSettings : '/' ∉ drawingSettings.fileExtension.toList := by
  decide

theorem mem_unitPaths_stray (path : Path) :
    path ∈ unitPaths strayFiles strayInputs ["build", "out"] drawingSettings.fileExtension ↔
      path ∈ [["build", "out", "passwd.rs"], ["build", "out", "boot.rs"]] := by
  have hpaths : (strayNames.map blankUnit).map
      (outputFile ["build", "out"] drawingSettings.fileExtension) =
        [["build", "out", "passwd.rs"], ["build", "out", "boot.rs"]] := by decide
  rw [mem_unitPaths_iff slash_not_mem_drawingSettings _ _ _ _ (prepare_stray .first),
    ← List.mem_map, hpaths]

theorem writes_stay_inside_stray :
    '/' ∉ drawingSettings.fileExtension.toList ∧ ∀ choice,
      let run := generateFiles strayFiles strayInputs ["build", "out"] drawingSettings choice
      run.2 = .ok (strayNames.map blankUnit) ∧
      (∀ path, run.1.node? path ≠ strayFiles.node? path →
        path ∈ [["build"], ["build", "out"], ["build", "out", "passwd.rs"],
          ["build", "out", "boot.rs"]]) ∧
      ∀ path ∈ [["build", "out", "passwd.rs"], ["build", "out", "boot.rs"]],
        run.1.isFile path = true := by
  refine ⟨slash_not_mem_drawingSettings, fun choice => ?_⟩
  have hrun := generateFiles_stray choice
  obtain ⟨_, hchange, hwritten, _⟩ :=
    writes_stay_inside slash_not_mem_drawingSettings strayFiles strayInputs ["build", "out"] choice
  refine ⟨hrun, fun path hpath => ?_,
    fun path hpath => hwritten _ hrun path ((mem_unitPaths_stray path).mpr hpath)⟩
  cases hchange path with
  | kept hsame => exact absurd hsame hpath
  | made hplace hbefore _ =>
      have hway : path ∈ [[], ["build"], ["build", "out"]] := (List.mem_inits _ _).mpr hplace
      obtain rfl | hway := List.mem_cons.mp hway
      · cases hbefore
      · exact List.mem_append_left [_, _] hway
  | written hplace _ _ =>
      exact List.mem_append_right [_, _] ((mem_unitPaths_stray path).mp hplace)

end IdlBindings.Generation
