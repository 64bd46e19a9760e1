import IdlBindings.Generation.SideBySide
import IdlBindings.Generation.Unit

/-!
A run generates several units together. All units are checked and registered
before any is generated, and the results keep the order of the units. The first
error ends the run, unless units are generated side by side: then it may be the
error of any unit that fails.
-/

namespace IdlBindings.Generation

/-- The registry of a run, in which classes have only members that can be
bound. -/
def buildRegistry (units : List SourceUnit) : Except GenerationError Registry := do
  (units.forM SourceUnit.validate).mapError .schema
  (Registry.build (units.map SourceUnit.bindable)).mapError .schema

def generateAll (units : List SourceUnit) (templates : TemplateSet) (settings : Settings)
    (choice : ErrorChoice GenerationError := .first) :
    Except GenerationError (List GeneratedUnit) := do
  let registry ← buildRegistry units
  choice.traverse settings.parallel (generate registry templates settings) units

def standardTemplates : Except GenerationError TemplateSet :=
  TemplateSet.standard.mapError .template

/-- Generates the units of some JSON texts by the standard templates. -/
def generateTexts (texts : List String) (choice : ErrorChoice GenerationError := .first) :
    Except GenerationError (List String) := do
  let units ← (texts.mapM SourceUnit.parse).mapError .load
  let templates ← standardTemplates
  let generated ← generateAll units templates .standard choice
  return generated.map GeneratedUnit.source

/-- Generates the unit of one file by the standard templates. -/
def generateFile (tree : Files.Tree) (path : Files.Path)
    (choice : ErrorChoice GenerationError := .first) : Except GenerationError String := do
  let unit ← (SourceUnit.load tree path).mapError .load
  let templates ← standardTemplates
  let generated ← generateAll [unit] templates .standard choice
  return String.join (generated.map GeneratedUnit.source)

end IdlBindings.Generation
