/-!
Steps for several items, each of which may fail. They are taken in order, up to the first
that fails, or side by side. Both ways the results stand in the order of the items. Side
by side any of the errors may be the one that is reported.
-/

namespace IdlBindings

/-- Which error is reported where steps that were taken side by side fail with `first` and
`rest`, in the order of the items. It may be any of them. -/
structure ErrorChoice (ε : Type) where
  pick : ε → List ε → ε
  pick_mem : ∀ first rest, pick first rest ∈ first :: rest

namespace ErrorChoice

variable {α β ε : Type}

/-- The error of the item that stands first, as where one worker takes all steps. -/
def first : ErrorChoice ε :=
  ⟨fun first _ => first, fun _ _ => List.mem_cons_self⟩

def values (results : List (Except ε α)) : List α :=
  results.filterMap fun
    | .ok value => some value
    | .error _ => none

def errors (results : List (Except ε α)) : List ε :=
  results.filterMap fun
    | .ok _ => none
    | .error error => some error

/-- All values, or one of the errors if there are any. -/
def collect (choice : ErrorChoice ε) (results : List (Except ε α)) : Except ε (List α) :=
  match errors results with
  | [] => .ok (values results)
  | first :: rest => .error (choice.pick first rest)

/-- Takes a step for each item. -/
def traverse (choice : ErrorChoice ε) (sideBySide : Bool) (step : α → Except ε β)
    (items : List α) : Except ε (List β) :=
  if sideBySide then choice.collect (items.map step) else items.mapM step

end ErrorChoice

end IdlBindings
