import IdlBindings.Proofs.Schema.Bindable
import IdlBindings.Proofs.Schema.MemberCheck
import IdlBindings.Registry.Lineage

/-!
The registry of units from which members were left out. Registration looks at names and
parents of classes and at their place in a unit, never at members. So it takes the same
steps for a unit and for its bindable copy, ends in the same error, or gives registries
in which the same classes stand, once with all their members and once with those that
can be bound.
-/

namespace IdlBindings

/-- The class as it stands in the registry of bindable copies. -/
def RegisteredClass.bindable (c : RegisteredClass) : RegisteredClass :=
  { c with decl := c.decl.bindable }

theorem entriesFrom_map_bindable (unit : String) (isPrimary : Bool)
    (classes : List (ClassKind × ClassDecl)) :
    entriesFrom unit isPrimary (classes.map fun entry => (entry.1, entry.2.bindable)) =
      (entriesFrom unit isPrimary classes).map RegisteredClass.bindable := by
  induction classes generalizing isPrimary with
  | nil => rfl
  | cons entry classes ih =>
      rw [List.map_cons, entriesFrom, entriesFrom, List.map_cons, ih]
      rfl

theorem SourceUnit.entries_bindable (unit : SourceUnit) :
    unit.bindable.entries = unit.entries.map RegisteredClass.bindable := by
  rw [entries, classes_bindable, entriesFrom_map_bindable]
  rfl

namespace Registry

def bindable (registry : Registry) : Registry :=
  ⟨registry.classes.map RegisteredClass.bindable⟩

variable (registry : Registry)

theorem get?_bindable (name : String) :
    registry.bindable.get? name = (registry.get? name).map RegisteredClass.bindable := by
  rw [get?, bindable, List.find?_map]
  rfl

theorem parentOf?_bindable (name : String) :
    registry.bindable.parentOf? name = registry.parentOf? name := by
  rw [parentOf?, get?_bindable, Option.bind_map]
  rfl

theorem names_bindable : registry.bindable.names = registry.names := by
  rw [names, bindable, List.foldr_map]
  rfl

theorem loopFrom_bindable (fuel : Nat) (last : String) (path : List String) :
    registry.bindable.loopFrom fuel last path = registry.loopFrom fuel last path := by
  induction fuel generalizing last path with
  | zero => rfl
  | succ fuel ih => simp only [loopFrom, parentOf?_bindable, ih]

theorem checkLoops_bindable : registry.bindable.checkLoops = registry.checkLoops := by
  have hloop : registry.bindable.loop? = registry.loop? := by
    funext name
    have hsize : registry.bindable.size = registry.size := List.length_map _
    rw [loop?, loop?, hsize, loopFrom_bindable]
  rw [checkLoops, checkLoops, names_bindable, hloop]

/-- One step of registration is the same for a class and its bindable copy. -/
theorem add_bindable (entry : RegisteredClass) :
    registry.bindable.add entry.bindable = (registry.add entry).map bindable := by
  rw [add, add, get?_bindable]
  cases hfound : registry.get? entry.decl.name with
  | none =>
      have hnone : registry.get? entry.bindable.decl.name = none := hfound
      simp only [hnone, Option.map_none, Except.map, bindable, List.map_append, List.map_cons,
        List.map_nil]
  | some earlier =>
      have hsome : registry.get? entry.bindable.decl.name = some earlier := hfound
      simp only [hsome, Option.map_some, Except.map]
      rfl

theorem foldlM_add_bindable (entries : List RegisteredClass) :
    (entries.map RegisteredClass.bindable).foldlM add registry.bindable =
      (entries.foldlM add registry).map bindable := by
  induction entries generalizing registry with
  | nil => rfl
  | cons entry entries ih =>
      rw [List.map_cons, List.foldlM_cons, List.foldlM_cons, add_bindable]
      cases registry.add entry with
      | error error => rfl
      | ok next => exact ih next

/-- Building the registry of bindable copies succeeds or fails as it does for the units
themselves, and with the same error. -/
theorem build_map_bindable (units : List SourceUnit) :
    build (units.map SourceUnit.bindable) = (build units).map bindable := by
  have hentries : (units.map SourceUnit.bindable).flatMap SourceUnit.entries =
      (units.flatMap SourceUnit.entries).map RegisteredClass.bindable := by
    rw [List.flatMap_map, List.map_flatMap]
    exact List.flatMap_congr fun unit _ => unit.entries_bindable
  have hregistered : empty.registerAll (units.map SourceUnit.bindable) =
      (empty.registerAll units).map bindable := by
    rw [registerAll_eq_foldlM, registerAll_eq_foldlM, hentries]
    exact foldlM_add_bindable empty _
  rw [build, build, hregistered]
  cases empty.registerAll units with
  | error error => rfl
  | ok registered =>
      change (registered.bindable.checkLoops >>= fun _ => _) =
        (registered.checkLoops >>= fun _ => pure registered).map bindable
      rw [checkLoops_bindable]
      cases registered.checkLoops with
      | error error => rfl
      | ok u => rfl

end Registry

end IdlBindings
