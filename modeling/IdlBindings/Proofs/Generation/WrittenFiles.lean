import IdlBindings.Generation.Output
import IdlBindings.Proofs.Files.Tree
import IdlBindings.Proofs.Generation.RunOutcome
import IdlBindings.Proofs.Generation.UnitText
import IdlBindings.Proofs.Schema.LoaderAgreement
import IdlBindings.Schema.Writing
import Mathlib.Data.List.TakeWhile

/-!
The files that a run leaves behind. A unit is written to a file that depends on the stem
of its file name only, and a later unit with the same file is written over it. The last
unit of each file is in it afterwards. All units are, exactly when units with the same
file have the same source. Units have the same file if they have the same stem, and only
then unless the extension leads up.
-/

namespace IdlBindings.Generation

open Files

/-- A stem has neither separators nor dots. -/
theorem plain_of_mem_fileStem {fileName : String} {c : Char}
    (h : c ∈ (fileStem fileName).toList) : c ≠ '/' ∧ c ≠ '\\' ∧ c ≠ '.' := by
  rw [fileStem, String.toList_ofList] at h
  have hdot := List.mem_takeWhile_imp h
  have hpart := List.mem_reverse.mp ((List.takeWhile_sublist _).mem h)
  have hseparators := List.mem_takeWhile_imp hpart
  simp only [bne_iff_ne, Bool.and_eq_true] at hdot hseparators
  exact ⟨hseparators.1, hseparators.2, hdot⟩

theorem slash_not_mem_fileStem (fileName : String) : '/' ∉ (fileStem fileName).toList :=
  fun h => (plain_of_mem_fileStem h).1 rfl

theorem dot_not_mem_fileStem (fileName : String) : '.' ∉ (fileStem fileName).toList :=
  fun h => (plain_of_mem_fileStem h).2.2 rfl

theorem stem_ne_of_validate {unit : SourceUnit} (h : unit.validate = .ok ()) : unit.stem ≠ "" := by
  intro hempty
  rw [SourceUnit.validate, if_pos hempty] at h
  cases h

/-- What a run would write are the results of the units that were loaded, all of them valid. -/
theorem exists_loaded_of_prepare {tree : Tree} {inputs : List Path} {settings : Settings}
    {choice : ErrorChoice GenerationError} {generated : List GeneratedUnit}
    (h : prepare tree inputs settings choice = .ok generated) :
    ∃ units, loadUnits tree inputs = .ok units ∧
      List.Forall₂ (fun unit out => unit.validate = .ok () ∧ out.fileName = unit.fileName)
        units generated := by
  obtain ⟨units, hunits, h⟩ := Sequence.bind_eq_ok_iff.mp h
  obtain ⟨templates, _, h⟩ := Sequence.bind_eq_ok_iff.mp h
  obtain ⟨hregistrable, hgenerated⟩ := generateAll_eq_ok_iff.mp h
  refine ⟨units, hunits, ?_⟩
  have hvalid : ∀ unit ∈ units, unit.validate = .ok () := hregistrable.valid
  have hnames := hgenerated.imp fun _ _ => fileName_of_generate
  exact (List.forall₂_and_left _ _).mpr ⟨hvalid, hnames⟩

theorem fileStem_ne_of_prepare {tree : Tree} {inputs : List Path} {settings : Settings}
    {choice : ErrorChoice GenerationError} {generated : List GeneratedUnit}
    (h : prepare tree inputs settings choice = .ok generated) {out : GeneratedUnit}
    (hout : out ∈ generated) : fileStem out.fileName ≠ "" := by
  obtain ⟨_, _, hloaded⟩ := exists_loaded_of_prepare h
  obtain ⟨unit, _, hvalid, hname⟩ := Sequence.exists_left_of_mem hloaded hout
  rw [hname]
  exact stem_ne_of_validate hvalid

/-- The file that the path of a unit leads to. -/
def outputFile (directory : Path) (fileExtension : String) (unit : GeneratedUnit) : Path :=
  directory.follow (unit.outputName fileExtension)

section Paths

variable (directory : Path) {fileExtension : String} {unit other : GeneratedUnit}

theorem outputFile_of_same_stem (h : fileStem unit.fileName = fileStem other.fileName) :
    outputFile directory fileExtension unit = outputFile directory fileExtension other := by
  rw [outputFile, outputFile, GeneratedUnit.outputName, GeneratedUnit.outputName, h]

/-- By an extension that does not lead up, units with different stems have different files. -/
theorem same_stem_of_outputFile (hextension : ".." ∉ (splitName fileExtension).tail)
    (hunit : fileStem unit.fileName ≠ "") (hother : fileStem other.fileName ≠ "")
    (h : outputFile directory fileExtension unit = outputFile directory fileExtension other) :
    fileStem unit.fileName = fileStem other.fileName := by
  obtain ⟨ending, parts, hpath⟩ := exists_follow_extension hextension directory
  have hfile (out : GeneratedUnit) (hout : fileStem out.fileName ≠ "") :
      outputFile directory fileExtension out = directory ++
        String.ofList ((fileStem out.fileName).toList ++ '.' :: ending) :: parts :=
    hpath _ hout (slash_not_mem_fileStem _) (dot_not_mem_fileStem _)
  rw [hfile unit hunit, hfile other hother] at h
  simpa using h

end Paths

/-- What is in the file of a unit when it holds the source of the unit. -/
def written (unit : GeneratedUnit) : Node :=
  .file (Text.encode unit.source)

section Writing

variable {tree after : Tree} {directory : Path} {fileExtension : String}
  {units : List GeneratedUnit} {paths : List Path}

theorem writeAll_cons_eq_ok {unit : GeneratedUnit}
    (h : writeAll tree directory fileExtension (unit :: units) = (after, .ok paths)) :
    outputFile directory fileExtension unit ≠ [] ∧
      ∃ others, writeAll (tree.put (outputFile directory fileExtension unit) (written unit))
        directory fileExtension units = (after, .ok others) := by
  rw [writeAll] at h
  cases hwrite : tree.writeBelow directory (unit.outputName fileExtension)
      (Text.encode unit.source) with
  | error fault =>
      rw [hwrite] at h
      cases h
  | ok next =>
      rw [hwrite] at h
      obtain ⟨hfile, rfl⟩ := Tree.writeBelow_eq_ok hwrite
      obtain ⟨htree, hpaths⟩ := Prod.mk.inj h
      obtain ⟨others, hothers, _⟩ := Sequence.map_eq_ok_iff.mp hpaths
      exact ⟨Tree.ne_nil_of_isDirectory hfile, others, Prod.ext htree hothers⟩

/-- A path to which no unit is written keeps what it has. -/
theorem node?_of_not_written
    (h : writeAll tree directory fileExtension units = (after, .ok paths)) {path : Path}
    (hpath : ∀ unit ∈ units, path ≠ outputFile directory fileExtension unit) :
    after.node? path = tree.node? path := by
  induction units generalizing tree paths with
  | nil =>
      cases h
      rfl
  | cons unit units ih =>
      obtain ⟨hfirst, hothers⟩ := List.forall_mem_cons.mp hpath
      obtain ⟨_, others, hrest⟩ := writeAll_cons_eq_ok h
      rw [ih hrest hothers, Tree.node?_put_of_ne _ hfirst]

/-- A unit is in its file if none after it is written to the same file. -/
theorem node?_of_last {before later : List GeneratedUnit} {last : GeneratedUnit}
    (h : writeAll tree directory fileExtension (before ++ last :: later) = (after, .ok paths))
    (hlater : ∀ unit ∈ later,
      outputFile directory fileExtension unit ≠ outputFile directory fileExtension last) :
    after.node? (outputFile directory fileExtension last) = some (written last) := by
  induction before generalizing tree paths with
  | nil =>
      obtain ⟨hfile, others, hrest⟩ := writeAll_cons_eq_ok h
      rw [node?_of_not_written hrest fun unit hunit => (hlater unit hunit).symm,
        Tree.node?_put_self _ hfile]
  | cons unit before ih =>
      obtain ⟨_, others, hrest⟩ := writeAll_cons_eq_ok h
      exact ih hrest

end Writing

/-- Among the units with the same file there is a last one. -/
theorem exists_last (directory : Path) (fileExtension : String) {units : List GeneratedUnit}
    {unit : GeneratedUnit} (h : unit ∈ units) :
    ∃ before last later, units = before ++ last :: later ∧
      outputFile directory fileExtension last = outputFile directory fileExtension unit ∧
      ∀ other ∈ later,
        outputFile directory fileExtension other ≠ outputFile directory fileExtension last := by
  have hfound : (units.reverse.find? fun other =>
      outputFile directory fileExtension other =
        outputFile directory fileExtension unit).isSome := by
    rw [List.find?_isSome]
    exact ⟨unit, List.mem_reverse.mpr h, decide_eq_true rfl⟩
  obtain ⟨last, hlast⟩ := Option.isSome_iff_exists.mp hfound
  obtain ⟨hsame, later, before, hsplit, hlater⟩ := List.find?_eq_some_iff_append.mp hlast
  have hfile : outputFile directory fileExtension last =
      outputFile directory fileExtension unit := of_decide_eq_true hsame
  refine ⟨before.reverse, last, later.reverse, ?_, hfile, fun other hother => ?_⟩
  · rw [← List.reverse_reverse units, hsplit]
    simp
  · rw [hfile]
    simpa using hlater other (List.mem_reverse.mp hother)

theorem generateFiles_eq_ok_iff {tree after : Tree} {inputs : List Path} {directory : Path}
    {settings : Settings} {choice : ErrorChoice GenerationError} {units : List GeneratedUnit} :
    generateFiles tree inputs directory settings choice = (after, .ok units) ↔
      prepare tree inputs settings choice = .ok units ∧
        ∃ ready paths, tree.makeDirectories directory = .ok ready ∧
          writeAll ready directory settings.fileExtension units = (after, .ok paths) := by
  rw [generateFiles]
  cases hprepare : prepare tree inputs settings choice with
  | error error => simp
  | ok prepared =>
      simp only [writeUnits]
      cases hready : tree.makeDirectories directory with
      | error fault => simp [Except.map]
      | ok ready =>
          simp only [Prod.mk.injEq, Except.ok.injEq, Sequence.map_eq_ok_iff,
            Sequence.mapError_eq_ok_iff]
          constructor
          · rintro ⟨htree, paths, hpaths, rfl⟩
            exact ⟨rfl, ready, paths, rfl, Prod.ext htree hpaths⟩
          · rintro ⟨rfl, _, paths, rfl, hwrite⟩
            rw [hwrite]
            exact ⟨rfl, paths, rfl, rfl⟩

theorem generateFiles_of_writeAll {tree ready : Tree} {inputs : List Path} {directory : Path}
    {settings : Settings} {choice : ErrorChoice GenerationError} {units : List GeneratedUnit}
    {paths : List Path} (hprepare : prepare tree inputs settings choice = .ok units)
    (hready : tree.makeDirectories directory = .ok ready)
    (hpaths : (writeAll ready directory settings.fileExtension units).2 = .ok paths) :
    generateFiles tree inputs directory settings choice =
      ((writeAll ready directory settings.fileExtension units).1, .ok units) :=
  generateFiles_eq_ok_iff.mpr ⟨hprepare, ready, paths, hready, Prod.ext rfl hpaths⟩

/-- After every run on files that succeeds, the last unit of each file is in it, to be read
back as it was generated. All units are in their files exactly when units with the same
file have the same source. Units whose file names have the same stem have the same file,
and by an extension that does not lead up no others have. -/
theorem written_iff_of_same_file {tree after : Tree} {inputs : List Path} {directory : Path}
    {settings : Settings} {choice : ErrorChoice GenerationError} {units : List GeneratedUnit}
    (h : generateFiles tree inputs directory settings choice = (after, .ok units)) :
    let file := outputFile directory settings.fileExtension
    (∀ before last later, units = before ++ last :: later →
      (∀ unit ∈ later, file unit ≠ file last) →
      after.node? (file last) = some (.file (Text.encode last.source)) ∧
        after.readText (file last) = .ok last.source) ∧
    ((∀ unit ∈ units, after.node? (file unit) = some (.file (Text.encode unit.source))) ↔
      ∀ unit ∈ units, ∀ other ∈ units, file unit = file other → unit.source = other.source) ∧
    ∀ unit ∈ units, ∀ other ∈ units,
      (fileStem unit.fileName = fileStem other.fileName → file unit = file other) ∧
      (".." ∉ (splitName settings.fileExtension).tail → file unit = file other →
        fileStem unit.fileName = fileStem other.fileName) := by
  obtain ⟨hprepare, ready, paths, _, hwrite⟩ := generateFiles_eq_ok_iff.mp h
  refine ⟨?_, ⟨?_, ?_⟩, fun unit hunit other hother => ⟨?_, ?_⟩⟩
  · intro before last later hunits hlater
    rw [hunits] at hwrite
    have hnode := node?_of_last hwrite hlater
    exact ⟨hnode, Tree.readText_of_node? hnode⟩
  · intro hkept unit hunit other hother hsame
    have hfile := hkept unit hunit
    rw [hsame, hkept other hother] at hfile
    exact (Text.encode_injective (Node.file.inj (Option.some.inj hfile))).symm
  · intro hsources unit hunit
    obtain ⟨before, last, later, hunits, hsame, hlater⟩ :=
      exists_last directory settings.fileExtension hunit
    have hlast : last ∈ units := by
      rw [hunits]
      exact List.mem_append_right _ List.mem_cons_self
    rw [hunits] at hwrite
    rw [← hsame, node?_of_last hwrite hlater, written, hsources last hlast unit hunit hsame]
  · exact outputFile_of_same_stem directory
  · intro hextension
    exact same_stem_of_outputFile directory hextension (fileStem_ne_of_prepare hprepare hunit)
      (fileStem_ne_of_prepare hprepare hother)

section Templates

variable {tree : Tree} {directory : Path} {sources : TemplateKind → String}
  (hfiles : ∀ kind, tree.node? (directory ++ [kind.fileName]) =
    some (.file (Text.encode (sources kind))))

include hfiles

theorem templateSources_of_files (kinds : List TemplateKind) :
    templateSources tree directory kinds = .ok (kinds.map fun kind => (kind, sources kind)) := by
  induction kinds with
  | nil => rfl
  | cons kind kinds ih =>
      have hfile : tree.isFile (directory ++ [kind.fileName]) = true := by
        rw [Tree.isFile, hfiles kind]
      simp only [templateSources, hfile, if_true, Tree.readText_of_node? (hfiles kind), ih]
      rfl

/-- A directory with a file for each kind replaces all templates. -/
theorem loadTemplates_of_files {settings : Settings}
    (hdirectory : settings.templateDirectory = some directory) :
    loadTemplates tree settings =
      (TemplateSet.ofSources fun kind => some (sources kind)).mapError .template := by
  have hlookup (kind : TemplateKind) :
      (TemplateKind.all.map fun kind => (kind, sources kind)).lookup kind =
        some (sources kind) := by
    cases kind <;> rfl
  simp only [loadTemplates, hdirectory, templateSources_of_files hfiles]
  change (TemplateSet.ofSources fun kind => _).mapError GenerationError.template = _
  simp only [hlookup]

end Templates

/-- Units without declarations, of which the first two differ in the directory of their
file names only, and templates that are nothing but their slots. -/
def drawingFiles : Tree :=
  ⟨(["first.json"], .file (Text.encode (SourceUnit.toText ⟨"a/point", []⟩))) ::
    (["second.json"], .file (Text.encode (SourceUnit.toText ⟨"b/point", []⟩))) ::
    (["third.json"], .file (Text.encode (SourceUnit.toText ⟨"line", []⟩))) ::
    TemplateKind.all.map fun kind =>
      (["templates", kind.fileName], .file (Text.encode ((TemplateSet.slotsOnly kind).getD "")))⟩

def drawingInputs : List Path :=
  [["first.json"], ["second.json"], ["third.json"]]

def drawingSettings : Settings :=
  { templateDirectory := some ["templates"] }

/-- What a unit without declarations gives by these templates. -/
def blankUnit (fileName : String) : GeneratedUnit :=
  ⟨fileName, Naming.className (fileStem fileName),
    Text.dropBlankLines (fileName ++ (Naming.className (fileStem fileName) ++ ("" ++ ""))), []⟩

def drawing : List GeneratedUnit :=
  [blankUnit "a/point", blankUnit "b/point", blankUnit "line"]

theorem load_blankUnit {tree : Tree} {path : Path} {fileName : String}
    (h : tree.node? path = some (.file (Text.encode (SourceUnit.toText ⟨fileName, []⟩))))
    (hnamed : Text.isBlank fileName = false) : SourceUnit.load tree path = .ok ⟨fileName, []⟩ := by
  have hplain : (SourceUnit.toValue ⟨fileName, []⟩).Plain Json.greatestDepth := by
    refine .object (show ["filename", "objects"].Pairwise (· < ·) by decide) ?_
    simp only [List.forall_mem_cons]
    exact ⟨.text _ _, .array (List.forall_mem_nil _), List.forall_mem_nil _⟩
  rw [SourceUnit.load_of_file h]
  exact SourceUnit.parseAt_eq_ok_iff.mpr ⟨_, _, SourceUnit.toValue ⟨fileName, []⟩,
    Json.Document.ofText_print _, hplain.value_document, rfl, rfl, hnamed⟩

theorem loadUnits_blankUnits {tree : Tree} {inputs : List Path} {names : List String}
    (h : List.Forall₂ (fun path name => tree.node? path =
        some (.file (Text.encode (SourceUnit.toText ⟨name, []⟩))) ∧ Text.isBlank name = false)
      inputs names) :
    loadUnits tree inputs = .ok (names.map fun name => ⟨name, []⟩) := by
  rw [loadUnits, Sequence.mapError_eq_ok_iff, Sequence.mapM_eq_ok_iff, List.forall₂_map_right_iff]
  exact h.imp fun _ _ hfile => load_blankUnit hfile.1 hfile.2

theorem loadUnits_drawing :
    loadUnits drawingFiles drawingInputs =
      .ok (["a/point", "b/point", "line"].map fun name => ⟨name, []⟩) := by
  refine loadUnits_blankUnits (.cons ⟨?_, ?_⟩ (.cons ⟨?_, ?_⟩ (.cons ⟨?_, ?_⟩ .nil)))
  all_goals rfl

theorem node?_drawingFiles (kind : TemplateKind) :
    drawingFiles.node? (["templates"] ++ [kind.fileName]) =
      some (.file (Text.encode ((TemplateSet.slotsOnly kind).getD ""))) := by
  cases kind <;> rfl

theorem base_of_slotsOnly {templates : TemplateSet}
    (h : TemplateSet.ofSources TemplateSet.slotsOnly = .ok templates) :
    templates.base = ⟨.base, [.slot "source", .slot "class_name", .slot "content"]⟩ := by
  have hslots : TemplateSet.load TemplateSet.slotsOnly .base =
      .ok ⟨.base, [.slot "source", .slot "class_name", .slot "content"]⟩ :=
    TemplateSet.load_slotsOnly .base
  obtain ⟨base, hbase, h⟩ := Sequence.bind_eq_ok_iff.mp h
  obtain ⟨_, _, h⟩ := Sequence.bind_eq_ok_iff.mp h
  obtain ⟨_, _, h⟩ := Sequence.bind_eq_ok_iff.mp h
  obtain ⟨_, _, h⟩ := Sequence.bind_eq_ok_iff.mp h
  cases h
  exact Except.ok.inj (hbase.symm.trans hslots)

theorem generate_blankUnit {templates : TemplateSet}
    (hread : TemplateSet.ofSources TemplateSet.slotsOnly = .ok templates)
    (registry : Registry) (settings : Settings) (fileName : String) :
    generate registry templates settings ⟨fileName, []⟩ = .ok (blankUnit fileName) := by
  obtain ⟨texts, framed, htexts, hframed, hgenerate⟩ :=
    generate_of_loaded (TemplateSet.loaded_of_ofSources hread) registry ⟨fileName, []⟩
  cases htexts
  change templates.base.render _ = _ at hframed
  rw [base_of_slotsOnly hread] at hframed
  cases hframed
  have hclean : diagnostics registry ⟨fileName, []⟩ = [] := rfl
  rw [hgenerate, hclean, List.isEmpty_nil, Bool.not_true, Bool.and_false]
  rfl

theorem registrable_blankUnits {names : List String} (h : ∀ name ∈ names, fileStem name ≠ "") :
    Registrable (names.map fun name => ⟨name, []⟩) := by
  have hclasses : ∀ unit ∈ names.map fun name => (⟨name, []⟩ : SourceUnit), unit.classes = [] := by
    intro unit hunit
    obtain ⟨_, _, rfl⟩ := List.mem_map.mp hunit
    rfl
  refine ⟨fun unit hunit => ?_, ?_, fun name hloop => ?_⟩
  · obtain ⟨name, hname, rfl⟩ := List.mem_map.mp hunit
    exact if_neg (h name hname)
  · have hnone : declaredNames (names.map fun name => ⟨name, []⟩) = [] :=
      List.flatMap_eq_nil_iff.mpr fun unit hunit => by rw [hclasses unit hunit, List.map_nil]
    rw [hnone]
    exact List.nodup_nil
  · obtain ⟨_, ⟨unit, hunit, _, hentry, _⟩, _⟩ := Relation.TransGen.head'_iff.mp hloop
    rw [hclasses unit hunit] at hentry
    cases hentry

/-- A run of units without declarations by these templates. -/
theorem prepare_blankUnits {tree : Tree} {inputs : List Path} {settings : Settings}
    {directory : Path} {names : List String}
    (hunits : loadUnits tree inputs = .ok (names.map fun name => ⟨name, []⟩))
    (hnames : ∀ name ∈ names, fileStem name ≠ "")
    (hdirectory : settings.templateDirectory = some directory)
    (hfiles : ∀ kind, tree.node? (directory ++ [kind.fileName]) =
      some (.file (Text.encode ((TemplateSet.slotsOnly kind).getD ""))))
    (choice : ErrorChoice GenerationError) :
    prepare tree inputs settings choice = .ok (names.map blankUnit) := by
  obtain ⟨templates, hread⟩ := TemplateSet.exists_ofSources_slotsOnly
  have htemplates : loadTemplates tree settings = .ok templates := by
    rw [loadTemplates_of_files hfiles hdirectory]
    exact Sequence.mapError_eq_ok_iff.mpr hread
  rw [prepare, hunits, htemplates]
  change generateAll _ templates _ choice = _
  refine generateAll_eq_ok_iff.mpr ⟨registrable_blankUnits hnames, ?_⟩
  rw [List.forall₂_map_left_iff, List.forall₂_map_right_iff, List.forall₂_same]
  exact fun name _ => generate_blankUnit hread _ _ name

theorem prepare_drawing (choice : ErrorChoice GenerationError) :
    prepare drawingFiles drawingInputs drawingSettings choice = .ok drawing :=
  prepare_blankUnits loadUnits_drawing (by decide) rfl node?_drawingFiles choice

theorem exists_generateFiles_drawing :
    ∃ after, ∀ choice, generateFiles drawingFiles drawingInputs ["out"] drawingSettings choice =
      (after, .ok drawing) := by
  have hready : drawingFiles.makeDirectories ["out"] =
      .ok (drawingFiles.put ["out"] .directory) := by
    have hfree : drawingFiles.node? ([] ++ ["out"]) = none := by decide
    rw [Tree.makeDirectories, Tree.makeDirectoriesBelow]
    simp only [hfree]
    rfl
  have hpaths : (writeAll (drawingFiles.put ["out"] .directory) ["out"]
      drawingSettings.fileExtension drawing).2 =
        .ok [["out", "point.rs"], ["out", "point.rs"], ["out", "line.rs"]] := by decide +kernel
  exact ⟨_, fun choice => generateFiles_of_writeAll (prepare_drawing choice) hready hpaths⟩

theorem source_ne_of_points : (blankUnit "a/point").source ≠ (blankUnit "b/point").source := by
  decide

theorem written_iff_of_same_file_drawing :
    ∃ after, (∀ choice, generateFiles drawingFiles drawingInputs ["out"] drawingSettings choice =
        (after, .ok drawing)) ∧
      after.readText ["out", "point.rs"] = .ok (blankUnit "b/point").source ∧
      after.readText ["out", "line.rs"] = .ok (blankUnit "line").source ∧
      ¬ ∀ unit ∈ drawing, after.node? (outputFile ["out"] "rs" unit) =
        some (.file (Text.encode unit.source)) := by
  obtain ⟨after, hrun⟩ := exists_generateFiles_drawing
  obtain ⟨hlast, hall, hfiles⟩ := written_iff_of_same_file (hrun .first)
  have hfirst : blankUnit "a/point" ∈ drawing := List.mem_cons_self
  have hsecond : blankUnit "b/point" ∈ drawing := List.mem_cons_of_mem _ List.mem_cons_self
  refine ⟨after, hrun, ?_, ?_, fun hkept => ?_⟩
  · exact (hlast [blankUnit "a/point"] _ [blankUnit "line"] rfl (by decide)).2
  · exact (hlast [blankUnit "a/point", blankUnit "b/point"] _ [] rfl
      fun _ hmem => (List.not_mem_nil hmem).elim).2
  · exact source_ne_of_points (hall.mp hkept _ hfirst _ hsecond
      ((hfiles _ hfirst _ hsecond).1 (by decide)))

/-- The run succeeds, and the file of its first unit holds the source of the second. -/
theorem written_over_drawing :
    ∃ after, (∀ choice, generateFiles drawingFiles drawingInputs ["out"] drawingSettings choice =
        (after, .ok drawing)) ∧
      after.readText (outputFile ["out"] "rs" (blankUnit "a/point")) =
        .ok (blankUnit "b/point").source ∧
      (blankUnit "a/point").source ≠ (blankUnit "b/point").source := by
  obtain ⟨after, hrun⟩ := exists_generateFiles_drawing
  obtain ⟨_, ready, paths, _, hwrite⟩ := generateFiles_eq_ok_iff.mp (hrun .first)
  have hfile : after.node? (outputFile ["out"] "rs" (blankUnit "b/point")) =
      some (written (blankUnit "b/point")) := by
    have hsplit : drawing =
        [blankUnit "a/point"] ++ blankUnit "b/point" :: [blankUnit "line"] := rfl
    rw [hsplit] at hwrite
    exact node?_of_last hwrite (by decide)
  refine ⟨after, hrun, ?_, source_ne_of_points⟩
  rw [outputFile_of_same_stem _
    (show fileStem (blankUnit "a/point").fileName = fileStem (blankUnit "b/point").fileName by
      decide)]
  exact Tree.readText_of_node? hfile

end IdlBindings.Generation
