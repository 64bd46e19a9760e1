import IdlBindings.Template.Standard

/-!
A set holds one template of each kind. Kinds without a source of their own
take the standard one.
-/

namespace IdlBindings

structure TemplateSet where
  base : Template
  interface : Template
  dictionary : Template
  globalFunction : Template
deriving DecidableEq

namespace TemplateSet

def load (sources : TemplateKind → Option String) (kind : TemplateKind) :
    Except TemplateError Template :=
  Template.parse kind ((sources kind).getD (Template.standardSource kind))

/-- Reads the templates in the order of their kinds, up to the first error. -/
def ofSources (sources : TemplateKind → Option String) : Except TemplateError TemplateSet := do
  let base ← load sources .base
  let interface ← load sources .interface
  let dictionary ← load sources .dictionary
  let globalFunction ← load sources .globalFunction
  return ⟨base, interface, dictionary, globalFunction⟩

def standard : Except TemplateError TemplateSet :=
  ofSources fun _ => none

def get (templates : TemplateSet) : TemplateKind → Template
  | .base => templates.base
  | .interface => templates.interface
  | .dictionary => templates.dictionary
  | .globalFunction => templates.globalFunction

/-- Renders a fragment by the template of its kind. -/
def render (templates : TemplateSet) (fragment : Fragment) : Except TemplateError String :=
  (templates.get fragment.kind).render fragment

end TemplateSet

end IdlBindings
