import IdlBindings.Generation.Run

/-!
Runs on files. Units and templates are read, and nothing is written before the
whole run has succeeded.
-/

namespace IdlBindings.Generation

open Files

def loadUnits (tree : Tree) (paths : List Path) : Except GenerationError (List SourceUnit) :=
  (paths.mapM (SourceUnit.load tree)).mapError .load

/-- The sources of the templates that a directory replaces. -/
def templateSources (tree : Tree) (directory : Path) :
    List TemplateKind → Except IoFault (List (TemplateKind × String))
  | [] => .ok []
  | kind :: kinds => do
    let path := directory ++ [kind.fileName]
    if tree.isFile path then
      let source ← tree.readText path
      return (kind, source) :: (← templateSources tree directory kinds)
    else templateSources tree directory kinds

def loadTemplates (tree : Tree) (settings : Settings) : Except GenerationError TemplateSet :=
  match settings.templateDirectory with
  | none => standardTemplates
  | some directory => do
    let sources ← (templateSources tree directory TemplateKind.all).mapError .io
    (TemplateSet.ofSources fun kind => sources.lookup kind).mapError .template

/-- The path of the file that is written for a unit. -/
def outputPath (directory : Path) (fileExtension : String) (unit : GeneratedUnit) : Path :=
  directory.below (unit.outputName fileExtension)

/-- Writes units in order, up to the first fault. -/
def writeAll (tree : Tree) (directory : Path) (fileExtension : String) :
    List GeneratedUnit → Tree × Except IoFault (List Path)
  | [] => (tree, .ok [])
  | unit :: units =>
    match tree.writeBelow directory (unit.outputName fileExtension) (Text.encode unit.source) with
    | .error fault => (tree, .error fault)
    | .ok tree =>
      let (tree, rest) := writeAll tree directory fileExtension units
      (tree, rest.map (outputPath directory fileExtension unit :: ·))

/-- Writes units into a directory, which is made if it is not there. -/
def writeUnits (tree : Tree) (directory : Path) (fileExtension : String)
    (units : List GeneratedUnit) : Tree × Except GenerationError (List Path) :=
  match tree.makeDirectories directory with
  | .error fault => (tree, .error (.io fault))
  | .ok tree =>
    let (tree, written) := writeAll tree directory fileExtension units
    (tree, written.mapError .io)

/-- What a run on files would write. -/
def prepare (tree : Tree) (inputs : List Path) (settings : Settings)
    (choice : ErrorChoice GenerationError := .first) :
    Except GenerationError (List GeneratedUnit) := do
  let units ← loadUnits tree inputs
  let templates ← loadTemplates tree settings
  generateAll units templates settings choice

/-- Runs on files and writes the results into a directory. -/
def generateFiles (tree : Tree) (inputs : List Path) (directory : Path) (settings : Settings)
    (choice : ErrorChoice GenerationError := .first) :
    Tree × Except GenerationError (List GeneratedUnit) :=
  match prepare tree inputs settings choice with
  | .error error => (tree, .error error)
  | .ok units =>
    let (tree, written) := writeUnits tree directory settings.fileExtension units
    (tree, written.map fun _ => units)

end IdlBindings.Generation
