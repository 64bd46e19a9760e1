import IdlBindings.Files.Tree

/-!
Settings of a run.
-/

namespace IdlBindings

structure Settings where
  /-- Any diagnostic is an error. -/
  strict : Bool := false
  /-- The extension of generated files, without the dot before it. -/
  fileExtension : String := "rs"
  /-- Where templates are looked for before the standard ones. -/
  templateDirectory : Option Files.Path := none
  /-- Whether units are generated side by side. When several of them fail, the error of any
  of them may then be reported. -/
  parallel : Bool := true
deriving DecidableEq

namespace Settings

def standard : Settings := {}

/-- Sets the extension, which may be given with dots in front. -/
def withExtension (settings : Settings) (given : String) : Settings :=
  { settings with fileExtension := String.ofList (given.toList.dropWhile (· == '.')) }

end Settings

end IdlBindings
