import IdlBindings.Proofs.Registry.Registration

/-!
Registering units one after the other, also when that fails. A unit adds its classes up to
the first whose name is taken and leaves what was there as it was, so a registry only ever
grows at its end: what is found under a name is found there for good, and no name is held
twice.
-/

namespace IdlBindings

/-- The entry for a class of a unit, by the place of the class. -/
theorem getElem?_entriesFrom (unit : String) (isPrimary : Bool)
    (classes : List (ClassKind × ClassDecl)) (i : Nat) :
    (entriesFrom unit isPrimary classes)[i]? =
      classes[i]?.map fun entry => ⟨entry.1, unit, isPrimary && i == 0, entry.2⟩ := by
  induction classes generalizing isPrimary i with
  | nil => rfl
  | cons entry classes ih =>
      obtain ⟨kind, decl⟩ := entry
      cases i with
      | zero => simp [entriesFrom]
      | succ i => simpa [entriesFrom] using ih false i

theorem length_entriesFrom (unit : String) (isPrimary : Bool)
    (classes : List (ClassKind × ClassDecl)) :
    (entriesFrom unit isPrimary classes).length = classes.length := by
  have hnames := congrArg List.length (map_name_entriesFrom unit isPrimary classes)
  simpa using hnames

/-- Where entries are split, the classes are split in the same place. -/
theorem exists_split_of_entriesFrom {unit : String} {isPrimary : Bool}
    {classes : List (ClassKind × ClassDecl)} {before after : List RegisteredClass}
    {entry : RegisteredClass} (h : entriesFrom unit isPrimary classes = before ++ entry :: after) :
    ∃ first rest, classes = first ++ (entry.kind, entry.decl) :: rest ∧
      entriesFrom unit isPrimary first = before := by
  induction before generalizing isPrimary classes with
  | nil =>
      cases classes with
      | nil => cases h
      | cons c classes =>
          cases h
          exact ⟨[], classes, rfl, rfl⟩
  | cons earlier before ih =>
      cases classes with
      | nil => cases h
      | cons c classes =>
          obtain ⟨hfirst, hlater⟩ := List.cons.inj h
          obtain ⟨first, rest, rfl, hbefore⟩ := ih hlater
          refine ⟨c :: first, rest, rfl, ?_⟩
          rw [entriesFrom, hbefore, hfirst]

namespace Registry

/-- The registry after some units were registered one after the other, whether or not that
failed. -/
def registerEach (registry : Registry) (units : List SourceUnit) : Registry :=
  units.foldl (fun registry unit => (registry.register unit).1) registry

/-- What a unit adds to a registry, and how that ends. The entries are for the first classes
of the unit, and of them the first is primary. All classes are added, or those before the
first whose name is taken, by what was there or by a class before it. -/
structure Adds (registry : Registry) (unit : SourceUnit) (added : List RegisteredClass)
    (error : Option SchemaError) : Prop where
  entry : ∀ i c, added[i]? = some c → unit.classes[i]? = some (c.kind, c.decl) ∧
    c.unit = unit.fileName ∧ (c.isPrimary = true ↔ i = 0)
  nodup : (added.map RegisteredClass.name).Nodup
  fresh : ∀ c ∈ added, c.name ∉ registry.classNames
  complete : error = none → added.length = unit.classes.length
  taken : ∀ e, error = some e → ∃ kind decl earlier,
    unit.classes[added.length]? = some (kind, decl) ∧
    earlier ∈ registry.classes ++ added ∧ earlier.name = decl.name ∧
    e = .duplicateClass decl.name earlier.unit unit.fileName

/-- After classes that were all added, adding goes on as if it had started there. -/
theorem addClasses_append {unit : String} {isPrimary : Bool} {registry next : Registry}
    {classes : List (ClassKind × ClassDecl)}
    (h : addClasses unit isPrimary registry classes = (next, none))
    (rest : List (ClassKind × ClassDecl)) :
    addClasses unit isPrimary registry (classes ++ rest) =
      addClasses unit (isPrimary && classes.isEmpty) next rest := by
  induction classes generalizing isPrimary registry with
  | nil =>
      cases h
      simp
  | cons entry classes ih =>
      obtain ⟨kind, decl⟩ := entry
      rw [List.cons_append, addClasses]
      rw [addClasses] at h
      cases hadd : registry.add ⟨kind, unit, isPrimary, decl⟩ with
      | error e => simp [hadd] at h
      | ok added =>
          simp only [hadd] at h ⊢
          rw [ih h]
          simp

theorem addClasses_of_fresh {unit : String} {isPrimary : Bool} {registry : Registry}
    {classes : List (ClassKind × ClassDecl)}
    (hnodup : ((entriesFrom unit isPrimary classes).map RegisteredClass.name).Nodup)
    (hfresh : ∀ c ∈ entriesFrom unit isPrimary classes, c.name ∉ registry.classNames) :
    addClasses unit isPrimary registry classes =
      (⟨registry.classes ++ entriesFrom unit isPrimary classes⟩, none) := by
  have hfold := addClasses_eq_foldlM unit isPrimary registry classes
  rw [foldlM_add_eq_ok_iff.mpr ⟨hnodup, hfresh, rfl⟩] at hfold
  rcases hresult : addClasses unit isPrimary registry classes with ⟨next, error⟩
  rw [hresult] at hfold
  cases error with
  | none =>
      cases hfold
      rfl
  | some e => cases hfold

/-- Adding classes ends at one whose name is taken by then. -/
theorem addClasses_of_taken {unit : String} {isPrimary : Bool} {registry : Registry}
    {before : List (ClassKind × ClassDecl)}
    (hnodup : ((entriesFrom unit isPrimary before).map RegisteredClass.name).Nodup)
    (hfresh : ∀ c ∈ entriesFrom unit isPrimary before, c.name ∉ registry.classNames)
    (kind : ClassKind) {decl : ClassDecl}
    (htaken : ∃ c ∈ registry.classes ++ entriesFrom unit isPrimary before, c.name = decl.name)
    (after : List (ClassKind × ClassDecl)) :
    (addClasses unit isPrimary registry (before ++ (kind, decl) :: after)).1 =
      ⟨registry.classes ++ entriesFrom unit isPrimary before⟩ := by
  rw [addClasses_append (addClasses_of_fresh hnodup hfresh), addClasses]
  have hname : decl.name ∈ Registry.classNames
      ⟨registry.classes ++ entriesFrom unit isPrimary before⟩ := List.mem_map.mpr htaken
  obtain ⟨earlier, _, _, hadd⟩ := add_of_taken
    (show RegisteredClass.name ⟨kind, unit, isPrimary && before.isEmpty, decl⟩ ∈ _ from hname)
  rw [hadd]

theorem entry_of_getElem?_entries {unit : SourceUnit} {i : Nat} {c : RegisteredClass}
    (h : unit.entries[i]? = some c) :
    unit.classes[i]? = some (c.kind, c.decl) ∧ c.unit = unit.fileName ∧
      (c.isPrimary = true ↔ i = 0) := by
  rw [SourceUnit.entries, getElem?_entriesFrom, Option.map_eq_some_iff] at h
  obtain ⟨⟨kind, decl⟩, hclass, rfl⟩ := h
  exact ⟨hclass, rfl, by simp⟩

theorem adds_of_register_eq_ok {registry : Registry} {unit : SourceUnit}
    (h : (registry.register unit).2 = none) :
    (registry.register unit).1 = ⟨registry.classes ++ unit.entries⟩ ∧
      Adds registry unit unit.entries none := by
  have hfold := addClasses_eq_foldlM unit.fileName true registry unit.classes
  rcases hresult : registry.register unit with ⟨next, error⟩
  rw [hresult] at h
  rw [register] at hresult
  cases h
  rw [hresult] at hfold
  obtain ⟨hnodup, hfresh, rfl⟩ := foldlM_add_eq_ok_iff.mp hfold.symm
  refine ⟨rfl, fun i c hc => entry_of_getElem?_entries hc, hnodup, hfresh, fun _ => ?_, ?_⟩
  · exact length_entriesFrom _ _ _
  · intro e herror
    cases herror

/-- A unit whose registration fails adds what it declares before the class at fault. -/
theorem adds_of_register_eq_error {registry : Registry} {unit : SourceUnit} {error : SchemaError}
    (h : (registry.register unit).2 = some error) :
    ∃ added, (registry.register unit).1 = ⟨registry.classes ++ added⟩ ∧
      Adds registry unit added (some error) := by
  have hfold := addClasses_eq_foldlM unit.fileName true registry unit.classes
  rw [register] at h ⊢
  rcases hresult : addClasses unit.fileName true registry unit.classes with ⟨next, found⟩
  rw [hresult] at h hfold
  cases h
  obtain ⟨added, entry, after, earlier, hsplit, hnodup, hfresh, hearlier, hname, herror⟩ :=
    foldlM_add_eq_error hfold.symm
  obtain ⟨first, rest, hclasses, rfl⟩ := exists_split_of_entriesFrom hsplit
  have hmem : entry ∈ entriesFrom unit.fileName true unit.classes := by
    rw [hsplit]
    exact List.mem_append_right _ List.mem_cons_self
  have hentry (i : Nat) (c : RegisteredClass)
      (hc : (entriesFrom unit.fileName true first)[i]? = some c) : unit.entries[i]? = some c := by
    rw [SourceUnit.entries, hsplit,
      List.getElem?_append_left (List.getElem?_eq_some_iff.mp hc).1, hc]
  refine ⟨_, ?_, fun i c hc => entry_of_getElem?_entries (hentry i c hc), hnodup, hfresh, ?_, ?_⟩
  · have hnext := addClasses_of_taken hnodup hfresh entry.kind ⟨earlier, hearlier, hname⟩ rest
    rw [← hclasses, hresult] at hnext
    exact hnext
  · intro hnone
    cases hnone
  · rintro e ⟨⟩
    refine ⟨entry.kind, entry.decl, earlier, ?_, hearlier, hname, ?_⟩
    · rw [length_entriesFrom, hclasses, List.getElem?_append_right (Nat.le_refl _), Nat.sub_self]
      rfl
    · rw [herror, (mem_entriesFrom hmem).1]
      rfl

/-- Whatever a registry holds, registering a unit adds to its end. -/
theorem exists_adds (registry : Registry) (unit : SourceUnit) :
    ∃ added, (registry.register unit).1 = ⟨registry.classes ++ added⟩ ∧
      Adds registry unit added (registry.register unit).2 := by
  cases herror : (registry.register unit).2 with
  | none => exact ⟨_, adds_of_register_eq_ok herror⟩
  | some error => exact adds_of_register_eq_error herror

theorem get?_register {registry : Registry} {name : String} {c : RegisteredClass}
    (h : registry.get? name = some c) (unit : SourceUnit) :
    (registry.register unit).1.get? name = some c := by
  obtain ⟨added, hnext, _⟩ := registry.exists_adds unit
  rw [hnext, get?, List.find?_append, show registry.classes.find? _ = some c from h]
  rfl

theorem nodup_register {registry : Registry} (h : registry.classNames.Nodup)
    (unit : SourceUnit) : (registry.register unit).1.classNames.Nodup := by
  obtain ⟨added, hnext, hadds⟩ := registry.exists_adds unit
  rw [hnext, classNames, List.map_append, List.nodup_append']
  refine ⟨h, hadds.nodup, fun name hold hnew => ?_⟩
  obtain ⟨c, hc, rfl⟩ := List.mem_map.mp hnew
  exact hadds.fresh c hc hold

theorem get?_registerEach {registry : Registry} {name : String} {c : RegisteredClass}
    (h : registry.get? name = some c) (units : List SourceUnit) :
    (registry.registerEach units).get? name = some c := by
  induction units generalizing registry with
  | nil => exact h
  | cons unit units ih => exact ih (get?_register h unit)

theorem nodup_registerEach {registry : Registry} (h : registry.classNames.Nodup)
    (units : List SourceUnit) : (registry.registerEach units).classNames.Nodup := by
  induction units generalizing registry with
  | nil => exact h
  | cons unit units ih => exact ih (nodup_register h unit)

/-- Registration only appends, over any run of units, of which some may fail. What is found
under a name after some units is found there after all later ones. A registered class is
found under its declared name and under no other. And the next unit adds, after what is
there, its classes in order up to the first whose name is taken, all of them if there is
none; of these the first class of the unit is primary and no other. -/
theorem registration_append_only (units : List SourceUnit) :
    let registry := empty.registerEach units
    (∀ later name c, registry.get? name = some c →
      (registry.registerEach later).get? name = some c) ∧
    (∀ name c, registry.get? name = some c ↔ c ∈ registry.classes ∧ c.decl.name = name) ∧
    ∀ unit, ∃ added, (registry.register unit).1 = ⟨registry.classes ++ added⟩ ∧
      Adds registry unit added (registry.register unit).2 := by
  intro registry
  have hempty : empty.classNames.Nodup := List.nodup_nil
  have hnodup : registry.classNames.Nodup := nodup_registerEach hempty units
  refine ⟨fun later name c h => get?_registerEach h later, fun name c => ?_, ?_⟩
  · exact get?_eq_some_iff hnodup
  · exact registry.exists_adds

end Registry

end IdlBindings
