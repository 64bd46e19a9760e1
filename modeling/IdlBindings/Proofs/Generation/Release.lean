import IdlBindings.Proofs.Binding.MethodTable
import IdlBindings.Proofs.Generation.ReferenceClosure
import IdlBindings.Proofs.Registry.Lineage
import Mathlib.Data.List.Chain
import Mathlib.Data.List.TakeWhile

/-!
Who releases a native object. A wrapper holds the wrapper of its parent, that one the
wrapper of its own parent, and so on as long as parents are interfaces; all of them
stand for one object. Only a class without parent releases it. Along such a chain the
object is therefore released once, by the last wrapper, or by none where the chain
breaks off at a parent that is missing or is a dictionary.
-/

namespace IdlBindings

namespace Registry

def isInterface (registry : Registry) (c : ClassDecl) : Bool :=
  (registry.get? c.name).any fun found => found.kind = .interface

/-- A class and its ancestors, up to the first that is a dictionary. -/
def wrapperChain (registry : Registry) (c : ClassDecl) : List ClassDecl :=
  (c :: registry.ancestors c).takeWhile registry.isInterface

/-- The parent of `c` is registered, as the interface `parent`. -/
structure InterfaceParent (registry : Registry) (c parent : ClassDecl) : Prop where
  named : c.parent = some parent.name
  registered : ∃ found, registry.get? parent.name = some found ∧ found.decl = parent ∧
    found.kind = .interface

/-- No interface stands under the name. -/
def NoInterface (registry : Registry) (name : String) : Prop :=
  ∀ found, registry.get? name = some found → found.kind = .dictionary

theorem isInterface_of_get? {registry : Registry} {name : String} {found : RegisteredClass}
    (h : registry.get? name = some found) :
    registry.isInterface found.decl = decide (found.kind = .interface) := by
  obtain rfl : found.decl.name = name := (get?_some h).2
  rw [isInterface, h, Option.any_some]

/-- Cutting a lineage before its first dictionary leaves a chain of interfaces, each the
parent of the one before, that ends where no interface stands above. -/
theorem takeWhile_lineage {registry : Registry} {c : ClassDecl} {ancestors : List ClassDecl}
    (hc : registry.isInterface c = true) (hlineage : registry.Lineage c.parent ancestors) :
    ∃ held last, (c :: ancestors).takeWhile registry.isInterface = held ++ [last] ∧
      (held ++ [last]).IsChain registry.InterfaceParent ∧
      (last.parent = none → held ++ [last] = c :: ancestors) ∧
      ∀ name, last.parent = some name → registry.NoInterface name := by
  generalize hparent : c.parent = parent at hlineage
  induction hlineage generalizing c with
  | root =>
      refine ⟨[], c, by simp [hc], .singleton c, fun _ => rfl, fun name hname => ?_⟩
      rw [hparent] at hname
      cases hname
  | @missing name hmissing =>
      refine ⟨[], c, by simp [hc], .singleton c, fun _ => rfl, fun other hother found hfound => ?_⟩
      rw [hparent] at hother
      cases hother
      rw [hmissing] at hfound
      cases hfound
  | @step name found above hfound _ ih =>
      have hname : found.decl.name = name := (get?_some hfound).2
      have hinterface := isInterface_of_get? hfound
      cases hkind : found.kind with
      | dictionary =>
          rw [hkind] at hinterface
          refine ⟨[], c, by simp [hc, hinterface], .singleton c, fun hnone => ?_,
            fun other hother again hagain => ?_⟩
          · rw [hparent] at hnone
            cases hnone
          · rw [hparent] at hother
            cases hother
            rw [hfound] at hagain
            cases hagain
            exact hkind
      | interface =>
          rw [hkind] at hinterface
          obtain ⟨held, last, htake, hchain, hroot, hend⟩ := ih hinterface rfl
          have hstep : registry.InterfaceParent c found.decl :=
            ⟨hname ▸ hparent, found, hname ▸ hfound, rfl, hkind⟩
          refine ⟨c :: held, last, ?_, ?_, ?_, hend⟩
          · rw [List.takeWhile_cons_of_pos hc, htake, List.cons_append]
          · rw [List.cons_append, ← htake, List.takeWhile_cons_of_pos hinterface]
            rw [← htake, List.takeWhile_cons_of_pos hinterface] at hchain
            exact List.isChain_cons_cons.mpr ⟨hstep, hchain⟩
          · intro hnone
            rw [List.cons_append, hroot hnone]

end Registry

namespace Binding

open Naming

/-- The type of the slot of a member: the native function behind it. -/
def BoundMember.slotType (m : BoundMember) : String :=
  "extern \"C\" fn(" ++ String.intercalate ", " m.slotParameters ++ ")" ++ m.slotResult

namespace InterfaceBinding

theorem slot?_parent_field (binding : InterfaceBinding) :
    binding.fragment.slot? "parent_field" = some binding.parent.wrapperField := rfl

theorem slot?_parent_table_field (binding : InterfaceBinding) :
    binding.fragment.slot? "parent_table_field" = some binding.parent.tableField := rfl

theorem slot?_table_fields (binding : InterfaceBinding) :
    binding.fragment.slot? "table_fields" = some binding.tableFields := rfl

theorem slot?_inheritance (binding : InterfaceBinding) :
    binding.fragment.slot? "inheritance" =
      some (binding.parent.inheritance binding.objectName) := rfl

/-- The slots of the method table after its version, by name and type. -/
def slots (binding : InterfaceBinding) : List (String × String) :=
  (binding.parent.slotName, binding.parent.slotType) ::
    binding.members.map fun m => (m.name, m.slotType)

def slotLine (slot : String × String) : String :=
  "    pub " ++ slot.1 ++ ": " ++ slot.2 ++ ",\n"

theorem slotText_eq_slotLine (m : BoundMember) : m.slotText = slotLine (m.name, m.slotType) := by
  have hliteral : ": extern \"C\" fn(" = ": " ++ "extern \"C\" fn(" := rfl
  change _ = "    pub " ++ m.name ++ ": " ++ ("extern \"C\" fn(" ++
    String.intercalate ", " m.slotParameters ++ ")" ++ m.slotResult) ++ ",\n"
  rw [BoundMember.slotText_eq, hliteral]
  simp only [String.append_assoc]

/-- The table is written slot by slot, that for the parent first. -/
theorem table_written (binding : InterfaceBinding) :
    ∃ first rest, binding.fragment.slot? "parent_table_field" = some first ∧
      binding.fragment.slot? "table_fields" = some rest ∧
      first ++ rest = String.join (binding.slots.map slotLine) := by
  refine ⟨_, _, binding.slot?_parent_table_field, binding.slot?_table_fields, ?_⟩
  have hmembers : binding.members.map BoundMember.slotText =
      (binding.members.map fun m => (m.name, m.slotType)).map slotLine := by
    rw [List.map_map]
    exact List.map_congr_left fun m _ => slotText_eq_slotLine m
  rw [BoundParent.tableField_eq, tableFields, hmembers, slots, List.map_cons, String.join_cons]
  rfl

/-- The wrapper holds the wrapper of the class emitted as `parent` and gives access to it. -/
def Extends (binding : InterfaceBinding) (parent : String) : Prop :=
  ∃ field,
    binding.fragment.slot? "parent_field" = some ("    pub " ++ field ++ ": " ++ parent ++ ",\n") ∧
    binding.fragment.slot? "inheritance" =
      some ("impl std::ops::Deref for " ++ binding.objectName ++ " \x7b\n" ++
        "    type Target = " ++ parent ++ ";\n\n" ++
        "    fn deref(&self) -> &" ++ parent ++ " \x7b\n" ++
        "        &self." ++ field ++ "\n    \x7d\n\x7d\n")

/-- The wrapper releases its object when it goes, by the slot of that name. -/
structure Releases (binding : InterfaceBinding) : Prop where
  drop : binding.fragment.slot? "inheritance" =
    some ("impl Drop for " ++ binding.objectName ++ " \x7b\n" ++
      "    fn drop(&mut self) \x7b\n" ++
      "        if let Ok(methods) = self.boundary.methods() \x7b\n" ++
      "            (methods.release)(self.boundary.ptr());\n" ++
      "        \x7d\n    \x7d\n\x7d\n")
  slot : binding.fragment.slot? "parent_table_field" =
    some "    pub release: extern \"C\" fn(*const OpaquePtr),\n"
  named : "release" ∈ binding.slots.map Prod.fst

/-- The wrapper does nothing when it goes, and could not: its table has no slot for it. -/
structure NeverReleases (binding : InterfaceBinding) : Prop where
  noDrop : ∃ text, binding.fragment.slot? "inheritance" = some text ∧
    ¬ "impl Drop".toList <+: text.toList
  noSlot : "release" ∉ binding.slots.map Prod.fst

variable {binding : InterfaceBinding}

theorem extends_of_held {field parent : String} (h : binding.parent = .held field parent) :
    binding.Extends parent := by
  refine ⟨field, ?_, ?_⟩
  · rw [slot?_parent_field, h]
    rfl
  · rw [slot?_inheritance, h]
    rfl

theorem releases_of_root (h : binding.parent = .root) : binding.Releases := by
  refine ⟨?_, ?_, ?_⟩
  · rw [slot?_inheritance, h]
    rfl
  · rw [slot?_parent_table_field, h]
    rfl
  · rw [slots, h]
    exact List.mem_cons_self

/-- The access to a parent is written as another trait's implementation. -/
theorem not_drop_inheritance {parent : BoundParent} (objectName : String) (h : parent ≠ .root) :
    ¬ "impl Drop".toList <+: (parent.inheritance objectName).toList := by
  intro hdrop
  cases parent with
  | root => exact h rfl
  | held field name =>
      have hderef : "impl std::ops::Deref for ".toList <+:
          (BoundParent.inheritance objectName (.held field name)).toList := by
        rw [← BoundParent.written_inheritancePieces]
        change _ <+: (written (.plain "impl std::ops::Deref for " :: _)).toList
        rw [written_plain_cons, String.toList_append]
        exact List.prefix_append _ _
      have hboth := List.prefix_of_prefix_length_le hdrop hderef (by decide)
      exact absurd hboth (by decide)
  | unbound field =>
      have hempty : "impl Drop".toList <+: "".toList := hdrop
      exact absurd hempty (by decide)

theorem neverReleases_of_parent (h : binding.parent ≠ .root)
    (hslot : "release" ∉ binding.slots.map Prod.fst) : binding.NeverReleases := by
  exact ⟨⟨_, binding.slot?_inheritance, not_drop_inheritance binding.objectName h⟩, hslot⟩

end InterfaceBinding

variable {registry : Registry} {c : ClassDecl}

theorem bindParent_root (pool : Pool) (h : c.parent = none) :
    (bindParent registry pool c).1 = .root := by
  rw [bindParent, Registry.parent, h]

theorem bindParent_held (pool : Pool) {name : String} {found : RegisteredClass}
    (h : c.parent = some name) (hfound : registry.get? name = some found)
    (hkind : found.kind = .interface) :
    (bindParent registry pool c).1 =
      .held (pool.choose (identifier found.emittedName)) found.emittedName := by
  rw [bindParent, Registry.parent, h]
  simp only [hfound, hkind]
  rfl

theorem bindParent_unbound (pool : Pool) {name : String} (h : c.parent = some name)
    (hname : registry.NoInterface name) :
    ∃ asked, (bindParent registry pool c).1 = .unbound (pool.choose asked) := by
  rw [bindParent, Registry.parent, h]
  cases hfound : registry.get? name with
  | none =>
      refine ⟨identifier name, ?_⟩
      simp only [hfound]
      rfl
  | some found =>
      refine ⟨identifier found.decl.name, ?_⟩
      simp only [hfound, hname found hfound]
      rfl

theorem release_not_mem_slots (registry : Registry) (c : ClassDecl) (objectName : String)
    (h : (bindParent registry (.ofReserved reservedMembers) c).1.slotName ≠ "release") :
    "release" ∉ (bindInterface registry c objectName).1.slots.map Prod.fst := by
  have hreserved := (taken_of_bindParent registry (.ofReserved reservedMembers) c (by decide)).2
  have hfresh := (names_of_bindMembers registry c.name
    (bindParent registry (.ofReserved reservedMembers) c).2.2 (memberRequests c)).2
  intro hmem
  rw [InterfaceBinding.slots, List.map_cons, List.map_map] at hmem
  rcases List.mem_cons.mp hmem with hparent | hmember
  · exact h hparent.symm
  · obtain ⟨m, hm, hname⟩ := List.mem_map.mp hmember
    have hname : m.name = "release" := hname
    apply hfresh m hm
    rw [hname]
    exact hreserved (by decide)

/-- The name chosen for the slot of a parent is not one of the reserved names. -/
theorem choose_ne_release (asked : String) :
    (Pool.ofReserved reservedMembers).choose asked ≠ "release" := by
  intro hsame
  have hfree := (Pool.ofReserved reservedMembers).choose_not_taken asked
  rw [hsame] at hfree
  exact hfree (by decide)

/-- Under an interface the wrapper holds that of its parent and releases nothing. -/
theorem extends_of_interface (objectName : String) {name : String} {found : RegisteredClass}
    (h : c.parent = some name) (hfound : registry.get? name = some found)
    (hkind : found.kind = .interface) :
    (bindInterface registry c objectName).1.Extends found.emittedName ∧
      (bindInterface registry c objectName).1.NeverReleases := by
  have hheld := bindParent_held (.ofReserved reservedMembers) h hfound hkind
  have hslot : "release" ∉ (bindInterface registry c objectName).1.slots.map Prod.fst := by
    apply release_not_mem_slots
    rw [hheld]
    exact choose_ne_release _
  have hparent : (bindInterface registry c objectName).1.parent = .held _ found.emittedName := hheld
  refine ⟨InterfaceBinding.extends_of_held hparent,
    InterfaceBinding.neverReleases_of_parent ?_ hslot⟩
  rw [hparent]
  exact BoundParent.noConfusion

/-- Under a parent that is missing or a dictionary the wrapper stands alone, and releases
nothing either. -/
theorem neverReleases_of_noInterface (objectName : String) {name : String}
    (h : c.parent = some name) (hname : registry.NoInterface name) :
    (bindInterface registry c objectName).1.fragment.slot? "parent_field" = some "" ∧
      (bindInterface registry c objectName).1.fragment.slot? "inheritance" = some "" ∧
      (bindInterface registry c objectName).1.NeverReleases := by
  obtain ⟨asked, hunbound⟩ := bindParent_unbound (.ofReserved reservedMembers) h hname
  have hslot : "release" ∉ (bindInterface registry c objectName).1.slots.map Prod.fst := by
    apply release_not_mem_slots
    rw [hunbound]
    exact choose_ne_release _
  have hparent : (bindInterface registry c objectName).1.parent = .unbound _ := hunbound
  refine ⟨?_, ?_, InterfaceBinding.neverReleases_of_parent ?_ hslot⟩
  · rw [InterfaceBinding.slot?_parent_field, hparent]
    rfl
  · rw [InterfaceBinding.slot?_inheritance, hparent]
    rfl
  · rw [hparent]
    exact BoundParent.noConfusion

/-- Without parent the wrapper holds no other and releases the object. -/
theorem releases_of_no_parent (objectName : String) (h : c.parent = none) :
    (bindInterface registry c objectName).1.fragment.slot? "parent_field" = some "" ∧
      (bindInterface registry c objectName).1.Releases := by
  have hparent : (bindInterface registry c objectName).1.parent = .root :=
    bindParent_root (.ofReserved reservedMembers) h
  refine ⟨?_, InterfaceBinding.releases_of_root hparent⟩
  rw [InterfaceBinding.slot?_parent_field, hparent]
  rfl

end Binding

namespace Generation

open Binding

variable {registry : Registry} {c : ClassDecl}

theorem emittedName?_of_isInterface (unit : SourceUnit) (h : registry.isInterface c = true) :
    registry.emittedName? c.name = some (interfaceBinding registry unit c).objectName := by
  cases hfound : registry.get? c.name with
  | none =>
      rw [Registry.isInterface, hfound] at h
      cases h
  | some found =>
      rw [Registry.emittedName?, hfound]
      exact congrArg some (objectName_of_get? hfound unit).symm

theorem interfaceBinding_of_no_parent (unit : SourceUnit) (h : c.parent = none) :
    (interfaceBinding registry unit c).fragment.slot? "parent_field" = some "" ∧
      (interfaceBinding registry unit c).Releases :=
  releases_of_no_parent (c := c.bindable) (objectName registry unit c) h

theorem interfaceBinding_of_noInterface (unit : SourceUnit) {name : String}
    (h : c.parent = some name) (hname : registry.NoInterface name) :
    (interfaceBinding registry unit c).fragment.slot? "parent_field" = some "" ∧
      (interfaceBinding registry unit c).fragment.slot? "inheritance" = some "" ∧
      (interfaceBinding registry unit c).NeverReleases :=
  neverReleases_of_noInterface (c := c.bindable) (objectName registry unit c) h hname

/-- The wrapper of `c` holds that of `next`, its parent, under the emitted name of `next`. -/
def HoldsNext (registry : Registry) (unit : SourceUnit) (c next : ClassDecl) : Prop :=
  c.parent = some next.name ∧ ∃ parent, registry.emittedName? next.name = some parent ∧
    (interfaceBinding registry unit c).Extends parent ∧
      (interfaceBinding registry unit c).NeverReleases

theorem holdsNext_of_interfaceParent (unit : SourceUnit) {next : ClassDecl}
    (h : registry.InterfaceParent c next) : HoldsNext registry unit c next := by
  obtain ⟨found, hfound, _, hkind⟩ := h.registered
  refine ⟨h.named, found.emittedName, ?_, extends_of_interface _ h.named hfound hkind⟩
  rw [Registry.emittedName?, hfound]
  rfl

theorem exists_next_of_isChain {α : Type} {R : α → α → Prop} {before : List α} {last : α}
    (h : (before ++ [last]).IsChain R) : ∀ item ∈ before, ∃ next, R item next := by
  induction before with
  | nil => exact fun _ hmem => (List.not_mem_nil hmem).elim
  | cons first rest ih =>
      have hnext : ∃ next, R first next := by
        cases rest with
        | nil => exact ⟨last, (List.isChain_cons_cons.mp h).1⟩
        | cons second rest => exact ⟨second, (List.isChain_cons_cons.mp h).1⟩
      exact List.forall_mem_cons.mpr ⟨hnext, ih h.tail⟩

/-- Over a registry that was built, the wrappers of an interface and of its ancestors up to
the first dictionary form a chain: each holds the wrapper of the next class under its
emitted name and gives access to it, and the last holds none. If the last class has no
parent, the chain takes in all ancestors, and the last wrapper releases the object and
is the only one that does. If it has one, which is then missing or a dictionary, no
wrapper of the chain releases the object. The method table of each wrapper consists of
the slots that are meant when one is said to be there or not. -/
theorem released_by_last {units : List SourceUnit} {registry : Registry}
    (hbuild : Registry.build units = .ok registry) {name : String} {found : RegisteredClass}
    (hfound : registry.get? name = some found) (hkind : found.kind = .interface)
    (unit : SourceUnit) :
    ∃ held last, registry.wrapperChain found.decl = held ++ [last] ∧
      (∀ c ∈ held ++ [last],
        registry.emittedName? c.name = some (interfaceBinding registry unit c).objectName ∧
        (bindDeclaration registry unit (.class .interface c)).1 =
          some (interfaceBinding registry unit c).fragment ∧
        ∃ first rest,
          (interfaceBinding registry unit c).fragment.slot? "parent_table_field" = some first ∧
          (interfaceBinding registry unit c).fragment.slot? "table_fields" = some rest ∧
          first ++ rest =
            String.join ((interfaceBinding registry unit c).slots.map InterfaceBinding.slotLine)) ∧
      (held ++ [last]).IsChain (HoldsNext registry unit) ∧
      (interfaceBinding registry unit last).fragment.slot? "parent_field" = some "" ∧
      (last.parent = none →
        held ++ [last] = found.decl :: registry.ancestors found.decl ∧
        (interfaceBinding registry unit last).Releases ∧
        ∀ c ∈ held, (interfaceBinding registry unit c).NeverReleases) ∧
      ∀ parent, last.parent = some parent →
        (registry.get? parent = none ∨
          ∃ other, registry.get? parent = some other ∧ other.kind = .dictionary) ∧
        (interfaceBinding registry unit last).fragment.slot? "inheritance" = some "" ∧
        ∀ c ∈ held ++ [last], (interfaceBinding registry unit c).NeverReleases := by
  obtain ⟨_, hacyclic, hregistry⟩ := Registry.build_eq_ok_iff.mp hbuild
  have hlineage := Registry.lineage_ancestors (hregistry ▸ hacyclic) hfound
  have hinterface : registry.isInterface found.decl = true := by
    rw [Registry.isInterface_of_get? hfound, hkind]
    rfl
  obtain ⟨held, last, htake, hchain, hroot, hend⟩ :=
    Registry.takeWhile_lineage hinterface hlineage
  have hheld : ∀ c ∈ held, (interfaceBinding registry unit c).NeverReleases := by
    intro c hc
    obtain ⟨next, hnext⟩ := exists_next_of_isChain hchain c hc
    obtain ⟨_, _, _, _, hnever⟩ := holdsNext_of_interfaceParent unit hnext
    exact hnever
  refine ⟨held, last, htake, ?_, hchain.imp fun c next h => holdsNext_of_interfaceParent unit h,
    ?_, ?_, ?_⟩
  · intro c hc
    have hc : registry.isInterface c = true := List.mem_takeWhile_imp (htake ▸ hc)
    exact ⟨emittedName?_of_isInterface unit hc, bindDeclaration_interface registry unit c,
      (interfaceBinding registry unit c).table_written⟩
  · cases hparent : last.parent with
    | none => exact (interfaceBinding_of_no_parent unit hparent).1
    | some parent => exact (interfaceBinding_of_noInterface unit hparent (hend parent hparent)).1
  · intro hnone
    exact ⟨hroot hnone, (interfaceBinding_of_no_parent unit hnone).2, hheld⟩
  · intro parent hparent
    obtain ⟨_, hempty, hlast⟩ := interfaceBinding_of_noInterface unit hparent (hend parent hparent)
    refine ⟨?_, hempty, List.forall_mem_append.mpr ⟨hheld, List.forall_mem_singleton.mpr hlast⟩⟩
    cases hother : registry.get? parent with
    | none => exact Or.inl rfl
    | some other => exact Or.inr ⟨other, rfl, hend parent hparent other hother⟩

theorem released_by_last_shapes :
    ∃ registry base, Registry.build shapes = .ok registry ∧
      registry.wrapperChain circle = [circle, base] ∧
      ∀ unit, (interfaceBinding registry unit circle).Extends "BaseShape" ∧
        (interfaceBinding registry unit circle).NeverReleases ∧
          (interfaceBinding registry unit base).Releases := by
  have hbuild : Registry.build shapes = .ok (.ofUnits shapes) :=
    Registry.build_eq_ok_iff.mpr
      ⟨by decide, Registry.acyclic_of_checkLoops_eq_ok (by rfl), rfl⟩
  have hfound : (Registry.ofUnits shapes).get? "Circle" =
      some ⟨.interface, "circle.idl", true, circle⟩ := by decide
  have hchain : (Registry.ofUnits shapes).wrapperChain circle =
      [circle] ++ [⟨"Shape", none, [.attribute ⟨"area", .double, true⟩]⟩] := by decide
  refine ⟨_, _, hbuild, hchain, fun unit => ?_⟩
  obtain ⟨held, last, hlast, _, hholds, _, hreleased, _⟩ :=
    released_by_last hbuild hfound rfl unit
  obtain ⟨rfl, hbase⟩ := List.append_inj' (hlast.symm.trans hchain) rfl
  obtain rfl := List.singleton_inj.mp hbase
  obtain ⟨_, hbase, hcircle⟩ := hreleased rfl
  obtain ⟨_, parent, hname, hextends, _⟩ := (List.isChain_cons_cons.mp hholds).1
  have hparent : (Registry.ofUnits shapes).emittedName? "Shape" = some "BaseShape" := by
    decide
  obtain rfl : parent = "BaseShape" := Option.some.inj (hname.symm.trans hparent)
  exact ⟨hextends, hcircle circle List.mem_cons_self, hbase⟩

end Generation

end IdlBindings
