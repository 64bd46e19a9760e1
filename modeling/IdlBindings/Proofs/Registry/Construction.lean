import IdlBindings.Proofs.Registry.Ancestry
import IdlBindings.Proofs.Text.ByteOrder
import Mathlib.Data.List.Chain

/-!
What building a registry comes to. Either no name is declared twice and no class is its own
proper ancestor, and the registry records every class under its name, with its file and its
place in it. Or a name is repeated, and the first class that repeats one is reported. Or
there is a loop, and the path into it from the least class that leads there is reported.
-/

namespace IdlBindings

open Relation

/-- The classes of some units by name, each with the file that declares it. -/
def placedNames (units : List SourceUnit) : List (String × String) :=
  units.flatMap fun unit => unit.classes.map fun entry => (entry.2.name, unit.fileName)

/-- The first class whose name an earlier one has, by its name and the two files. -/
def FirstRepeated (units : List SourceUnit) (name first second : String) : Prop :=
  ∃ before after, placedNames units = before ++ (name, second) :: after ∧
    (before.map Prod.fst).Nodup ∧ (name, first) ∈ before

/-- Parents lead from a name to one that is its own proper ancestor. -/
def LeadsIntoLoop (inherits : String → String → Prop) (name : String) : Prop :=
  ∃ turn, ReflTransGen inherits name turn ∧ TransGen inherits turn turn

/-- A path from a name by parents into a loop. It ends as soon as it is closed: its last name
is the only one that it already holds. -/
structure LoopPath (inherits : String → String → Prop) (start : String) (path : List String) :
    Prop where
  starts : path.head? = some start
  follows : path.IsChain inherits
  closes : ∃ front last, path = front ++ [last] ∧ front.Nodup ∧ last ∈ front

theorem reaches_last {inherits : String → String → Prop} {path : List String} {start last : String}
    (h : path.IsChain inherits) (hstart : path.head? = some start)
    (hlast : path.getLast? = some last) : ReflTransGen inherits start last := by
  cases path with
  | nil => cases hstart
  | cons first rest =>
      cases hstart
      apply List.relationReflTransGen_of_exists_isChain_cons rest h
      rw [List.getLast?_eq_some_getLast (List.cons_ne_nil _ _)] at hlast
      exact Option.some.inj hlast

theorem LoopPath.leadsIntoLoop {inherits : String → String → Prop} {start : String}
    {path : List String} (h : LoopPath inherits start path) : LeadsIntoLoop inherits start := by
  obtain ⟨front, last, rfl, -, hmem⟩ := h.closes
  obtain ⟨before, after, rfl⟩ := List.append_of_mem hmem
  have hstarts := h.starts
  have hfollows := h.follows
  -- The path is cut where its last name stands for the first time.
  rw [List.append_assoc, List.cons_append] at hstarts hfollows
  obtain ⟨hway, hround⟩ := List.isChain_split.mp hfollows
  refine ⟨last, reaches_last hway ?_ List.getLast?_concat, ?_⟩
  · rw [← hstarts]
    cases before with
    | nil => rfl
    | cons first rest => rfl
  · obtain ⟨next, rest, hnext⟩ := List.exists_cons_of_ne_nil
      (List.append_ne_nil_of_right_ne_nil after (List.cons_ne_nil last []))
    have hlast : (next :: rest).getLast? = some last := hnext ▸ List.getLast?_concat
    rw [hnext] at hround
    obtain ⟨hstep, hback⟩ := List.isChain_cons_cons.mp hround
    exact TransGen.head' hstep (reaches_last hback rfl hlast)

namespace Registry

/-- A search that finds a path has gone on from the names that it had passed. -/
theorem closes_of_loopFrom {registry : Registry} {fuel : Nat} {last : String}
    {passed path : List String} (hsome : registry.loopFrom fuel last (last :: passed) = some path)
    (hnodup : (last :: passed).Nodup)
    (hchain : (last :: passed).reverse.IsChain registry.Inherits) :
    (last :: passed).reverse <+: path ∧ path.IsChain registry.Inherits ∧
      ∃ front last, path = front ++ [last] ∧ front.Nodup ∧ last ∈ front := by
  induction fuel generalizing last passed with
  | zero => cases hsome
  | succ fuel ih =>
      rw [loopFrom] at hsome
      cases hparent : registry.parentOf? last with
      | none => simp only [hparent, reduceCtorEq] at hsome
      | some parent =>
          have hinherits : registry.Inherits last parent := hparent
          have hlonger : (parent :: last :: passed).reverse.IsChain registry.Inherits := by
            rw [List.isChain_reverse] at hchain ⊢
            exact List.isChain_cons_cons.mpr ⟨hinherits, hchain⟩
          simp only [hparent] at hsome
          by_cases hmet : parent ∈ last :: passed
          · rw [if_pos hmet] at hsome
            cases hsome
            refine ⟨?_, hlonger, (last :: passed).reverse, parent, List.reverse_cons, ?_, ?_⟩
            · rw [List.reverse_cons (a := parent)]
              exact List.prefix_append _ _
            · exact List.nodup_reverse.mpr hnodup
            · exact List.mem_reverse.mpr hmet
          · rw [if_neg hmet] at hsome
            obtain ⟨hpassed, hpath⟩ := ih hsome (List.nodup_cons.mpr ⟨hmet, hnodup⟩) hlonger
            refine ⟨List.IsPrefix.trans ?_ hpassed, hpath⟩
            rw [List.reverse_cons (a := parent)]
            exact List.prefix_append _ _

theorem loopPath_of_loop? {registry : Registry} {start : String} {path : List String}
    (h : registry.loop? start = some path) : LoopPath registry.Inherits start path := by
  obtain ⟨⟨rest, rfl⟩, hchain, hcloses⟩ :=
    closes_of_loopFrom h (List.nodup_singleton start) (List.isChain_singleton start)
  exact ⟨rfl, hchain, hcloses⟩

theorem Ends.of_reaches {registry : Registry} {name other : String} (h : registry.Ends name)
    (hreaches : ReflTransGen registry.Inherits name other) : registry.Ends other := by
  induction hreaches with
  | refl => exact h
  | tail _ hstep ih => exact ih.inv hstep

/-- The search finds a path from every name that leads into a loop. -/
theorem not_leadsIntoLoop_of_loop?_eq_none {registry : Registry} {name : String}
    (h : registry.loop? name = none) : ¬ LeadsIntoLoop registry.Inherits name := by
  rintro ⟨turn, hreaches, hloop⟩
  exact ((ends_of_loop?_eq_none h).of_reaches hreaches).not_self_ancestor hloop

theorem mem_classNames_of_leadsIntoLoop {registry : Registry} {name : String}
    (h : LeadsIntoLoop registry.Inherits name) : name ∈ registry.classNames := by
  obtain ⟨turn, hreaches, hloop⟩ := h
  obtain ⟨next, hstep, -⟩ := TransGen.head'_iff.mp (TransGen.trans_right hreaches hloop)
  exact hstep.mem_classNames

theorem pairwise_insertName {name : String} {sorted : List String}
    (h : sorted.Pairwise (· < ·)) (hnew : name ∉ sorted) :
    (insertName name sorted).Pairwise (· < ·) := by
  induction sorted with
  | nil => exact List.pairwise_singleton _ _
  | cons first rest ih =>
      obtain ⟨hfirst, hrest⟩ := List.pairwise_cons.mp h
      obtain ⟨hne, hlater⟩ := List.ne_and_not_mem_of_not_mem_cons hnew
      rw [insertName]
      split
      · rename_i hle
        have hless : name < first := Std.lt_of_le_of_ne hle hne
        refine List.pairwise_cons.mpr ⟨List.forall_mem_cons.mpr ⟨hless, ?_⟩, h⟩
        exact fun other hother => String.lt_trans hless (hfirst other hother)
      · rename_i hnle
        refine List.pairwise_cons.mpr ⟨fun other hother => ?_, ih hrest hlater⟩
        rcases mem_insertName.mp hother with rfl | hother
        · exact String.not_le.mp hnle
        · exact hfirst other hother

/-- Distinct names stand in strictly increasing order. -/
theorem pairwise_names {registry : Registry} (hnodup : registry.classNames.Nodup) :
    registry.names.Pairwise (· < ·) := by
  obtain ⟨classes⟩ := registry
  induction classes with
  | nil => exact List.Pairwise.nil
  | cons c classes ih =>
      obtain ⟨hnew, hrest⟩ := List.nodup_cons.mp hnodup
      exact pairwise_insertName (ih hrest) fun hmem => hnew (mem_names.mp hmem)

/-- Where there is a loop, the path into it from the least name that leads into one is
reported. -/
theorem checkLoops_of_not_acyclic {registry : Registry} (hnodup : registry.classNames.Nodup)
    (h : ¬ registry.Acyclic) :
    ∃ start path, registry.checkLoops = .error (.circularInheritance path) ∧
      LoopPath registry.Inherits start path ∧
      ∀ other, LeadsIntoLoop registry.Inherits other → other ≠ start → start < other := by
  cases hfound : registry.names.findSome? registry.loop? with
  | none =>
      have hok : registry.checkLoops = .ok () := by rw [checkLoops, hfound]
      exact absurd (acyclic_of_checkLoops_eq_ok hok) h
  | some path =>
      obtain ⟨smaller, start, larger, hnames, hloop, hnone⟩ := List.findSome?_eq_some_iff.mp hfound
      refine ⟨start, path, by rw [checkLoops, hfound], loopPath_of_loop? hloop, ?_⟩
      intro other hother hne
      have hsorted := pairwise_names hnodup
      have hmem := mem_names.mpr (mem_classNames_of_leadsIntoLoop hother)
      rw [hnames] at hsorted hmem
      rcases List.mem_append.mp hmem with hsmaller | hlarger
      · exact absurd hother (not_leadsIntoLoop_of_loop?_eq_none (hnone other hsmaller))
      · have hlater := (List.mem_cons.mp hlarger).resolve_left hne
        exact List.rel_of_pairwise_cons (List.pairwise_append.mp hsorted).2.1 hlater

/-- A registry that records the classes of some units, and no others. -/
structure Records (registry : Registry) (units : List SourceUnit) : Prop where
  /-- A name stands for a class exactly when it is declared. -/
  isSome_get?_iff : ∀ name, (registry.get? name).isSome ↔ name ∈ declaredNames units
  /-- A class is found as it is declared, and is primary when it is the first of its unit. -/
  get?_name : ∀ unit ∈ units, ∀ before kind decl after,
    unit.classes = before ++ (kind, decl) :: after →
      registry.get? decl.name = some ⟨kind, unit.fileName, before.isEmpty, decl⟩
  mem_names_iff : ∀ name, name ∈ registry.names ↔ name ∈ declaredNames units
  /-- The names are in strictly increasing order of their bytes. -/
  sorted : registry.names.Pairwise fun name other => Text.encode name < Text.encode other

theorem mem_entriesFrom_append (unit : String) (isPrimary : Bool)
    (before : List (ClassKind × ClassDecl)) (kind : ClassKind) (decl : ClassDecl)
    (after : List (ClassKind × ClassDecl)) :
    ⟨kind, unit, isPrimary && before.isEmpty, decl⟩ ∈
      entriesFrom unit isPrimary (before ++ (kind, decl) :: after) := by
  induction before generalizing isPrimary with
  | nil =>
      rw [List.isEmpty_nil, Bool.and_true]
      exact List.mem_cons_self
  | cons entry rest ih =>
      rw [List.isEmpty_cons, Bool.and_false]
      exact List.mem_cons_of_mem _ (ih false)

theorem records_ofUnits {units : List SourceUnit} (hnodup : (declaredNames units).Nodup) :
    (ofUnits units).Records units := by
  rw [← classNames_ofUnits] at hnodup
  refine ⟨fun name => ?_, fun unit hunit before kind decl after hclasses => ?_, fun name => ?_, ?_⟩
  · rw [← classNames_ofUnits, Option.isSome_iff_ne_none, ne_eq, get?_eq_none_iff, not_not]
  · refine (get?_eq_some_iff hnodup).mpr ⟨List.mem_flatMap.mpr ⟨unit, hunit, ?_⟩, rfl⟩
    rw [SourceUnit.entries, hclasses]
    exact mem_entriesFrom_append unit.fileName true before kind decl after
  · rw [← classNames_ofUnits, mem_names]
  · exact (pairwise_names hnodup).imp Text.encode_lt_encode_iff.mpr

theorem map_place_flatMap_entries (units : List SourceUnit) :
    (units.flatMap SourceUnit.entries).map (fun c => (c.name, c.unit)) = placedNames units := by
  have hunit (unit : String) (isPrimary : Bool) (classes : List (ClassKind × ClassDecl)) :
      (entriesFrom unit isPrimary classes).map (fun c => (c.name, c.unit)) =
        classes.map fun entry => (entry.2.name, unit) := by
    induction classes generalizing isPrimary with
    | nil => rfl
    | cons entry classes ih =>
        rw [entriesFrom, List.map_cons, List.map_cons, ih false]
        rfl
  rw [List.map_flatMap]
  exact List.flatMap_congr fun unit _ => hunit _ _ _

theorem build_of_repeated {units : List SourceUnit} (h : ¬ (declaredNames units).Nodup) :
    ∃ name first second, FirstRepeated units name first second ∧
      build units = .error (.duplicateClass name first second) := by
  cases hregistered : empty.registerAll units with
  | ok registry => exact absurd (registerAll_empty_eq_ok_iff.mp hregistered).1 h
  | error error =>
      have hbuild : build units = .error error := by
        rw [build, hregistered]
        rfl
      rw [registerAll_eq_foldlM] at hregistered
      obtain ⟨before, entry, after, earlier, hentries, hnodup, -, hmem, hname, rfl⟩ :=
        foldlM_add_eq_error hregistered
      refine ⟨entry.name, earlier.unit, entry.unit, ⟨before.map fun c => (c.name, c.unit),
        after.map fun c => (c.name, c.unit), ?_, ?_, ?_⟩, hbuild⟩
      · rw [← map_place_flatMap_entries, hentries, List.map_append, List.map_cons]
      · rw [List.map_map]
        exact hnodup
      · exact List.mem_map.mpr ⟨earlier, hmem, congrArg (·, earlier.unit) hname⟩

theorem build_of_loop {units : List SourceUnit} (hnodup : (declaredNames units).Nodup)
    (hloop : ∃ name, TransGen (DeclaresParent units) name name) :
    ∃ start path, LoopPath (DeclaresParent units) start path ∧
      (∀ other, LeadsIntoLoop (DeclaresParent units) other → other ≠ start →
        Text.encode start < Text.encode other) ∧
      build units = .error (.circularInheritance path) := by
  have hinherits : (ofUnits units).Inherits = DeclaresParent units := by
    funext child parent
    exact propext (inherits_ofUnits_iff hnodup)
  have hcyclic : ¬ (ofUnits units).Acyclic := by
    obtain ⟨name, hname⟩ := hloop
    exact fun hacyclic => (acyclic_ofUnits_iff hnodup).mp hacyclic name hname
  have hnames : (ofUnits units).classNames.Nodup := (classNames_ofUnits units).symm ▸ hnodup
  obtain ⟨start, path, hcheck, hpath, hleast⟩ := checkLoops_of_not_acyclic hnames hcyclic
  rw [hinherits] at hpath hleast
  refine ⟨start, path, hpath,
    fun other hother hne => Text.encode_lt_encode_iff.mpr (hleast other hother hne), ?_⟩
  rw [build, registerAll_empty_eq_ok_iff.mpr ⟨hnodup, rfl⟩]
  change ((ofUnits units).checkLoops >>= fun _ => _) = _
  rw [hcheck]
  rfl

/-- Building a registry succeeds exactly when no name is declared twice and no class is its
own proper ancestor; parents may be missing. The registry then records the classes of the
units and no others. A repeated name is reported before any loop, for the first class that
repeats one. A loop is reported by the path into it from the name that comes first, in the
order of bytes, among all that lead into one. -/
theorem build_outcome (units : List SourceUnit) :
    ((∃ registry, build units = .ok registry) ↔
      (declaredNames units).Nodup ∧ ∀ name, ¬ TransGen (DeclaresParent units) name name) ∧
    (∀ registry, build units = .ok registry → registry.Records units) ∧
    (¬ (declaredNames units).Nodup → ∃ name first second,
      FirstRepeated units name first second ∧
      build units = .error (.duplicateClass name first second)) ∧
    ((declaredNames units).Nodup → (∃ name, TransGen (DeclaresParent units) name name) →
      ∃ start path, LeadsIntoLoop (DeclaresParent units) start ∧
        (∀ other, LeadsIntoLoop (DeclaresParent units) other → other ≠ start →
          Text.encode start < Text.encode other) ∧
        LoopPath (DeclaresParent units) start path ∧
        build units = .error (.circularInheritance path)) := by
  refine ⟨exists_build_iff, fun registry hbuild => ?_, build_of_repeated, fun hnodup hloop => ?_⟩
  · obtain ⟨hnodup, -, rfl⟩ := build_eq_ok_iff.mp hbuild
    exact records_ofUnits hnodup
  · obtain ⟨start, path, hpath, hleast, hbuild⟩ := build_of_loop hnodup hloop
    exact ⟨start, path, hpath.leadsIntoLoop, hleast, hpath, hbuild⟩

-- The loop is entered from a class outside it, whose name comes first.
example : build [⟨"shape.idl", [.class .interface ⟨"Oval", some "Shape", []⟩,
      .class .interface ⟨"Shape", some "Oval", []⟩, .class .interface ⟨"Disc", some "Oval", []⟩]⟩] =
    .error (.circularInheritance ["Disc", "Oval", "Shape", "Oval"]) := by
  rfl

end Registry

end IdlBindings
