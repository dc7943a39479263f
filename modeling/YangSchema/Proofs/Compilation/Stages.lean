import Mathlib.Data.List.Forall2
import YangSchema.Proofs.Compilation.Links
import YangSchema.Proofs.Linking.Running

/-!
# The stages of a compilation

The units that the statements of the sources leave behind are linked alone, one
after the other, then their imports and includes are bound, and then they are
linked across.  A unit whose source goes wrong can no longer be used.  At the
start no field has a value, and no two references ask for one place, so the units
are tidy at every moment, and each step takes them further.
-/

namespace YangSchema

namespace Draft

variable {draft : Draft} {statement : Statement}

theorem read_of_block {openBlock closeBlock : Step}
    (isBlock : role statement.known = .block openBlock closeBlock) :
    read draft statement =
      (Progress.ofStep draft (openBlock draft statement)).andThen fun draft =>
        (readAll draft statement.substatements).andThen fun draft =>
          .ofStep draft (closeBlock draft statement) := by
  rw [read_eq, isBlock]

/-- The unit of a file has been linked at its end, even if the file goes wrong
behind it. -/
theorem readTopLevel_reaches (draft : Draft) (statements : List Statement) :
    (∃ before opened inner unit after,
      ReachesTopLevel draft false statements
          (.exit before opened inner unit) ∧
        unit.known ∈ [Keyword.module, .submodule] ∧
        closeUnit inner unit = .ok after ∧
        (readTopLevel draft false statements).draft.asUnit = after.asUnit) ∨
    (readTopLevel draft false statements).error.isSome = true := by
  induction statements generalizing draft with
  | nil => exact .inr rfl
  | cons statement rest ih =>
      have unit (known : statement.known ∈ [Keyword.module, .submodule]) :
          let progress := (read draft statement).andThen
            (readTopLevel · true rest)
          (∃ before opened inner unit after,
            ReachesTopLevel draft false (statement :: rest)
                (.exit before opened inner unit) ∧
              unit.known ∈ [Keyword.module, .submodule] ∧
              closeUnit inner unit = .ok after ∧
              progress.draft.asUnit = after.asUnit) ∨
          progress.error.isSome = true := by
        obtain ⟨construct, isBlock, -⟩ := role_unit known
        rw [read_of_block isBlock]
        cases opening : openUnit construct draft statement with
        | error error => exact .inr rfl
        | ok opened =>
            cases whole : (readAll opened statement.substatements).error with
            | some error =>
                refine .inr ?_
                simp [Progress.ofStep, Progress.andThen, whole]
            | none =>
                cases closing : closeUnit
                    (readAll opened statement.substatements).draft statement with
                | error error =>
                    refine .inr ?_
                    simp [Progress.ofStep, Progress.andThen, whole, closing]
                | ok after =>
                    have stands : AtTopLevel false statement.known :=
                      ⟨by simp at known ⊢; tauto, by simp⟩
                    refine .inl ⟨_, _, _, _, after,
                      .here stands (.exit isBlock opening whole), known,
                      closing, ?_⟩
                    simpa [Progress.ofStep, Progress.andThen, whole, closing]
                      using readTopLevel_seen rest
      unfold readTopLevel
      dsimp only
      split
      case h_1 known => exact unit (by simp [known])
      case h_2 known => exact unit (by simp [known])
      case h_3 known =>
        have extension : read draft statement =
            ⟨draft.passOver statement, none⟩ := read_of_extension known
        have whole : (read draft statement).error = none := by rw [extension]
        refine (@ih (draft.passOver statement)).imp ?_ ?_
        · rintro ⟨before, opened, inner, unit, after, reached, rest⟩
          refine ⟨before, opened, inner, unit, after, .later ?_ whole ?_, ?_⟩
          · exact ⟨by simp [known], by simp⟩
          · simpa [known, extension] using reached
          · simpa [extension, Progress.andThen] using rest
        · simp [extension, Progress.andThen]
      case h_4 => exact .inr rfl

end Draft

namespace Construct

variable {construct : Construct}
  (unbound : ∀ binding ∈ construct.bindings, binding = none)
include unbound

theorem importing_eq_none {index : Nat} :
    construct.link? (.importing index) = none := by
  refine Option.bind_eq_none_iff.mpr fun header declared =>
    Option.bind_eq_none_iff.mpr fun declaration listed => ?_
  rw [unbound _ (mem_bindings_of_import declared (List.mem_of_getElem? listed))]
  rfl

theorem including_eq_none {index : Nat} :
    construct.link? (.including index) = none := by
  refine Option.bind_eq_none_iff.mpr fun header declared =>
    Option.bind_eq_none_iff.mpr fun declaration listed => ?_
  rw [unbound _ (mem_bindings_of_include declared (List.mem_of_getElem? listed))]
  rfl

end Construct

/-- Nothing has a link before linking. -/
theorem SchemaNode.link?_eq_none {node : SchemaNode}
    (unlinked : node.IsUnlinked)
    (unbound : ∀ binding ∈ node.construct.bindings, binding = none)
    (part : LinkPart) : node.link? part = none := by
  obtain ⟨target, types, features⟩ := unlinked
  have type (member : Option Nat) (part : TypeLinks → Option LinkValue)
      (empty : part .none = none) :
      ((node.construct.typeAt? member).bind fun use => part use.links) =
        none := by
    refine Option.bind_eq_none_iff.mpr fun use declared => ?_
    rw [types declared, empty]
  cases part with
  | uses | augment | base =>
      simp only [link?, Construct.link?]
      split
      next body is => simpa [is, Construct.target?] using target
      · rfl
  | feature index =>
      refine Option.bind_eq_none_iff.mpr fun feature listed => ?_
      rw [features feature (List.mem_of_getElem? listed)]
      rfl
  | typedef member => exact type member (·.typedef.map .node) rfl
  | effective member => exact type member (·.effective.map .effective) rfl
  | identity member => exact type member (·.identity.map .node) rfl
  | leafrefTarget member => exact type member (·.leafrefTarget.map .node) rfl
  | importing index => exact Construct.importing_eq_none unbound
  | including index => exact Construct.including_eq_none unbound

namespace LinkUnit

variable {unit : LinkUnit}

/-- Neither an import nor an include of a unit is bound. -/
def IsDetached (unit : LinkUnit) : Prop :=
  ∀ header, unit.tree.header? = some header →
    ∀ binding ∈ header.bindings, binding = none

theorem IsDetached.evolves {after : LinkUnit} (detached : unit.IsDetached)
    (evolves : unit.Evolves after) : after.IsDetached := by
  intro header declared
  exact detached header (evolves.text.header?.symm.trans declared)

theorem IsTidy.writes {tree : SchemaTree} {written : LinkField → Prop}
    (tidy : unit.IsTidy) (writes : unit.tree.WritesTo written tree)
    (elsewhere : ∀ field, written field → field.place? = none) :
    IsTidy { unit with tree } where
  apart := tidy.apart
  vacant item queued pending field claimed := by
    have placed := Reference.place?_of_mem_claims claimed
    refine (writes.others field fun listed => ?_).trans
      (tidy.vacant item queued pending field claimed)
    simp [elsewhere field listed] at placed

end LinkUnit

namespace Draft.IsFinished

variable {draft : Draft}

theorem link?_eq_none (finished : draft.IsFinished) (field : LinkField) :
    draft.tree.link? field = none := by
  refine Option.bind_eq_none_iff.mpr fun node found => ?_
  exact SchemaNode.link?_eq_none (finished.unlinked.nodes found)
    (finished.sound.nodes found).unbound field.part

/-- A unit that has been read is tidy, and it is bound to nothing. -/
theorem isTidy (finished : draft.IsFinished) :
    draft.asUnit.IsTidy ∧ draft.asUnit.IsDetached := by
  refine ⟨⟨ReferenceQueue.nodup_claims finished.single,
    fun _ _ _ field _ => finished.link?_eq_none field⟩, ?_⟩
  intro header declared binding listed
  obtain ⟨root, found, declared⟩ := Option.bind_eq_some_iff.mp declared
  refine (finished.sound.nodes found).unbound binding ?_
  rwa [Construct.bindings, declared]

end Draft.IsFinished

namespace Linking

theorem bindImport_unlinked (entries : List UnitEntry) (declaration : Import) :
    { (bindImport entries declaration).1 with resolved := none } =
      { declaration with resolved := none } := by
  unfold bindImport
  split <;> rfl

theorem bindInclude_unlinked (entries : List UnitEntry) (parent : String)
    (declaration : Include) :
    { (bindInclude entries parent declaration).1 with resolved := none } =
      { declaration with resolved := none } := by
  unfold bindInclude
  dsimp only
  split
  · split <;> rfl
  · rfl

/-- Binding writes to fields of the root only, and to those of no reference. -/
theorem bindUnit_writesTo (entries : List UnitEntry) (unit : LinkUnit) :
    unit.tree.WritesTo (fun field => field.node = rootId ∧ field.place? = none)
      (bindUnit entries unit).1.tree := by
  unfold bindUnit
  split
  next entry header _ _ declared =>
    obtain ⟨root, found, declared⟩ := Option.bind_eq_some_iff.mp declared
    have same : unit.tree.construct? rootId = some root.construct :=
      SchemaTree.construct?_eq_some_iff.mpr ⟨root, found, rfl⟩
    refine .modifyConstruct (fun construct known => ?_)
      fun construct known part other => ?_
    · obtain rfl := Option.some.inj (same.symm.trans known)
      cases is : root.construct <;>
        simp_all [Construct.header?, Construct.mapHeader, Construct.unlinked,
          ModuleHeader.unlinked, Function.comp_def, bindImport_unlinked,
          bindInclude_unlinked]
    · cases part with
      | importing index | including index => exact absurd ⟨rfl, rfl⟩ other
      | _ =>
        simp only [Construct.link?, Construct.typeAt?_mapHeader]
        try (cases construct <;> rfl)
  · exact .refl _ unit.tree

end Linking

namespace LinkUnit

variable {unit : LinkUnit}

/-- What a unit that is bound to nothing has in the fields for that. -/
theorem IsDetached.link?_eq_none (detached : unit.IsDetached)
    {field : LinkField} (root : field.node = rootId)
    (header : field.place? = none) : unit.tree.link? field = none := by
  obtain ⟨id, part⟩ := field
  obtain rfl : id = rootId := root
  refine Option.bind_eq_none_iff.mpr fun node found => ?_
  have unbound : ∀ binding ∈ node.construct.bindings, binding = none := by
    intro binding listed
    unfold Construct.bindings at listed
    cases declared : node.construct.header? with
    | none => simp [declared] at listed
    | some header =>
        refine detached header ?_ binding (by simpa [declared] using listed)
        exact Option.bind_eq_some_iff.mpr ⟨node, found, declared⟩
  cases part with
  | importing index => exact Construct.importing_eq_none unbound
  | including index => exact Construct.including_eq_none unbound
  | _ => simp [LinkField.place?] at header

/-- A unit that is bound to nothing can be bound to others. -/
theorem bindUnit_keeps (entries : List UnitEntry)
    (whole : unit.usable = true → unit.IsTidy ∧ unit.IsDetached) :
    ((Linking.bindUnit entries unit).1.usable = true →
        (Linking.bindUnit entries unit).1.IsTidy) ∧
      unit.LinksFurther (Linking.bindUnit entries unit).1 := by
  have writes := Linking.bindUnit_writesTo entries unit
  have same : (Linking.bindUnit entries unit).1 =
      { unit with tree := (Linking.bindUnit entries unit).1.tree } := by
    unfold Linking.bindUnit
    split <;> rfl
  cases usable : unit.usable with
  | false =>
      have unchanged : (Linking.bindUnit entries unit).1 = unit := by
        simp [Linking.bindUnit, usable]
      rw [unchanged]
      exact ⟨fun usable' => by simp [usable] at usable', .refl unit⟩
  | true =>
      obtain ⟨tidy, detached⟩ := whole usable
      rw [same]
      refine ⟨fun _ => tidy.writes writes fun _ => And.right,
        { tree := writes.linksFurther fun field written =>
            detached.link?_eq_none written.1 written.2
          usable := fun _ => usable
          frozen := fun unusable => by simp [usable] at unusable
          deferred := rfl
          queue := fun {_ item} found => ⟨item.state, found, fun _ => rfl⟩ }⟩

theorem refuse_linksFurther (unit : LinkUnit) :
    unit.LinksFurther { unit with usable := false } where
  tree := .refl unit.tree
  usable unusable := by simp at unusable
  frozen unusable := by
    cases unit
    simp_all
  deferred := rfl
  queue {_ item} found := ⟨item.state, found, fun _ => rfl⟩

theorem rejectUnit_linksFurther (entries : List UnitEntry) (unit : LinkUnit) :
    unit.LinksFurther (Linking.rejectUnit entries unit).1 := by
  unfold Linking.rejectUnit
  split
  · split
    · exact unit.refuse_linksFurther
    · exact .refl unit
  · exact .refl unit

end LinkUnit

/-- Binding the sources leaves the units tidy and takes them further. -/
theorem Linking.bindSources_keeps {units : List LinkUnit}
    (whole : ∀ unit ∈ units, unit.usable = true →
      unit.IsTidy ∧ unit.IsDetached) :
    (∀ unit ∈ (bindSources units).1, unit.usable = true → unit.IsTidy) ∧
      LinksFurther units (bindSources units).1 := by
  have kept : ∀ unit ∈ units, (rejectUnit (entriesOf units) unit).1.usable =
      true → (rejectUnit (entriesOf units) unit).1.IsTidy ∧
        (rejectUnit (entriesOf units) unit).1.IsDetached := by
    intro unit member usable
    have same := rejectUnit_eq_self usable
    rw [same] at usable ⊢
    exact whole unit member usable
  rw [bindSources_eq]
  refine ⟨fun bound listed => ?_, .map fun unit member => ?_⟩
  · obtain ⟨unit, member, rfl⟩ := List.mem_map.mp listed
    exact (LinkUnit.bindUnit_keeps _ (kept unit member)).1
  · exact (unit.rejectUnit_linksFurther _).trans
      (LinkUnit.bindUnit_keeps _ (kept unit member)).2

/-- A unit as the statements of a source leave it behind, before it is linked. -/
inductive LinkUnit.IsRead (source : SourceId) (statements : List Statement) :
    LinkUnit → Prop
  | ended {before opened inner : Draft} {unit : Statement}
      (reached : Draft.ReachesTopLevel (.empty source) false statements
        (.exit before opened inner unit))
      (isUnit : unit.known ∈ [Keyword.module, .submodule]) :
      IsRead source statements inner.asUnit
  | failed (failed : (Analysis.ofStatements source statements).failed = true) :
      IsRead source statements (ofAnalysis (.ofStatements source statements))

theorem LinkUnit.IsRead.isTidy {source : SourceId}
    {statements : List Statement} {unit : LinkUnit}
    (read : unit.IsRead source statements) (usable : unit.usable = true) :
    unit.IsTidy ∧ unit.IsDetached := by
  cases read with
  | @ended _ _ inner _ reached isUnit =>
      exact (reached.isFinished (.empty source) (fun _ => .empty source)
        isUnit).2.isTidy
  | failed failed => simp [ofAnalysis, failed] at usable

namespace Compilation

/-- How far a compilation has come. -/
inductive Stage where
  /-- The unit at a place is linked alone. -/
  | alone (place : Nat)
  /-- All units are linked with each other. -/
  | across

/-- A moment of a compilation. -/
structure Moment where
  stage : Stage
  units : List LinkUnit
  waiting : List Linking.Settled

/-- What a compilation does next. -/
inductive Moment.Step : Moment → Moment → Prop
  | inside {place : Nat} {units : List LinkUnit} {unit unit' : LinkUnit}
      {waiting waiting' : List Linking.Settled}
      (found : units[place]? = some unit)
      (step : Linking.Moment.Step .intraFile ⟨[unit], waiting⟩
        ⟨[unit'], waiting'⟩) :
      Step ⟨.alone place, units, waiting⟩
        ⟨.alone place, units.set place unit', waiting'⟩
  /-- The source goes wrong behind the unit. -/
  | refuse (place : Nat) (units : List LinkUnit) :
      Step ⟨.alone place, units, []⟩
        ⟨.alone place, units.modify place ({ · with usable := false }), []⟩
  | next (place : Nat) (units : List LinkUnit) :
      Step ⟨.alone place, units, []⟩ ⟨.alone (place + 1), units, []⟩
  | bind (place : Nat) (units : List LinkUnit) :
      Step ⟨.alone place, units, []⟩
        ⟨.across, (Linking.bindSources units).1, []⟩
  | across {units units' : List LinkUnit}
      {waiting waiting' : List Linking.Settled}
      (step : Linking.Moment.Step .interFile ⟨units, waiting⟩
        ⟨units', waiting'⟩) :
      Step ⟨.across, units, waiting⟩ ⟨.across, units', waiting'⟩

abbrev Moment.Steps : Moment → Moment → Prop :=
  Relation.ReflTransGen Moment.Step

/-- The units that can be used are tidy, and bound to nothing as long as they are
linked alone. -/
inductive Moment.IsTidy : Moment → Prop
  | alone {place : Nat} {units : List LinkUnit}
      {waiting : List Linking.Settled}
      (each : ∀ unit ∈ units, unit.usable = true →
        unit.IsTidy ∧ unit.IsDetached)
      (here : ∀ unit, units[place]? = some unit →
        Linking.Moment.IsTidy ⟨[unit], waiting⟩) :
      IsTidy ⟨.alone place, units, waiting⟩
  | across {units : List LinkUnit} {waiting : List Linking.Settled}
      (tidy : Linking.Moment.IsTidy ⟨units, waiting⟩) :
      IsTidy ⟨.across, units, waiting⟩

namespace Moment

variable {before after : Moment}

/-- When a unit has been linked, the next one can be. -/
theorem isTidy_of_units {place : Nat} {units : List LinkUnit}
    (each : ∀ unit ∈ units, unit.usable = true →
      unit.IsTidy ∧ unit.IsDetached) : IsTidy ⟨.alone place, units, []⟩ :=
  .alone each fun unit found => Linking.Moment.isTidy_of_units <| by
    simpa using fun usable =>
      (each unit (List.mem_of_getElem? found) usable).1

/-- One step keeps a moment tidy and takes the units further. -/
theorem Step.keeps (step : Step before after) (tidy : before.IsTidy) :
    after.IsTidy ∧ Linking.LinksFurther before.units after.units := by
  cases step with
  | @inside place units unit unit' waiting waiting' found step =>
      cases tidy with
      | alone each here =>
          obtain ⟨tidy', further⟩ := step.keeps (here unit found)
          obtain ⟨_, first, further⟩ :=
            further.unit (show [unit][0]? = some unit from rfl)
          obtain rfl : unit' = _ := by simpa using first
          obtain ⟨_, first, evolves⟩ :=
            step.evolves.unit (show [unit][0]? = some unit from rfl)
          obtain rfl : unit' = _ := by simpa using first
          refine ⟨.alone (fun other member usable => ?_) fun other found' => ?_,
            .set found further⟩
          · obtain old | rfl := List.mem_or_eq_of_mem_set member
            · exact each other old usable
            · exact ⟨tidy'.units other (List.mem_singleton_self other) usable,
                (each unit (List.mem_of_getElem? found)
                  (further.usable usable)).2.evolves evolves⟩
          · rw [List.getElem?_set_self
              (List.getElem?_eq_some_iff.mp found).1] at found'
            obtain rfl := Option.some.inj found'
            exact tidy'
  | refuse place units =>
      cases tidy with
      | alone each here =>
          refine ⟨isTidy_of_units fun unit member usable => ?_,
            .modify fun unit _ => unit.refuse_linksFurther⟩
          obtain ⟨other, changed⟩ := List.mem_iff_getElem?.mp member
          rw [List.getElem?_modify] at changed
          obtain ⟨unit, found, rfl⟩ := Option.map_eq_some_iff.mp changed
          split at usable
          · simp at usable
          next another =>
            simpa [another] using each unit (List.mem_of_getElem? found) usable
  | next place units =>
      cases tidy with
      | alone each here => exact ⟨isTidy_of_units each, .refl units⟩
  | bind place units =>
      cases tidy with
      | alone each here =>
          obtain ⟨tidy, further⟩ := Linking.bindSources_keeps each
          exact ⟨.across (Linking.Moment.isTidy_of_units tidy), further⟩
  | across step =>
      cases tidy with
      | across tidy =>
          obtain ⟨tidy', further⟩ := step.keeps tidy
          exact ⟨.across tidy', further⟩

/-- Any number of steps keeps a moment tidy and takes the units further. -/
theorem Steps.keeps (steps : Steps before after) (tidy : before.IsTidy) :
    after.IsTidy ∧ Linking.LinksFurther before.units after.units := by
  induction steps with
  | refl => exact ⟨tidy, .refl before.units⟩
  | tail _ step ih =>
      obtain ⟨tidy', further⟩ := ih
      obtain ⟨tidy'', further'⟩ := step.keeps tidy'
      exact ⟨tidy'', further.trans further'⟩

theorem Steps.across {before after : Linking.Moment}
    (steps : Linking.Moment.Steps .interFile before after) :
    Steps ⟨.across, before.units, before.waiting⟩
      ⟨.across, after.units, after.waiting⟩ := by
  induction steps with
  | refl => exact .refl
  | tail _ step ih => exact ih.tail (.across step)

/-- What linking does with a unit alone is done in its place. -/
theorem Steps.inside {place : Nat} {units : List LinkUnit} {unit : LinkUnit}
    {waiting : List Linking.Settled} {reached : Linking.Moment}
    (found : units[place]? = some unit)
    (steps : Linking.Moment.Steps .intraFile ⟨[unit], waiting⟩ reached) :
    ∃ unit', reached.units = [unit'] ∧
      Steps ⟨.alone place, units, waiting⟩
        ⟨.alone place, units.set place unit', reached.waiting⟩ := by
  have inside := (List.getElem?_eq_some_iff.mp found).1
  induction steps with
  | refl =>
      refine ⟨unit, rfl, ?_⟩
      obtain ⟨_, rfl⟩ := List.getElem?_eq_some_iff.mp found
      rw [List.set_getElem_self]
  | @tail before after _ step ih =>
      obtain ⟨unit', only, steps⟩ := ih
      have length := step.evolves.length
      rw [only] at length
      obtain ⟨unit'', only'⟩ := List.length_eq_one_iff.mp length
      obtain ⟨_, waiting'⟩ := before
      obtain ⟨_, waiting''⟩ := after
      obtain rfl : _ = [unit'] := only
      obtain rfl : _ = [unit''] := only'
      refine ⟨unit'', rfl, steps.tail ?_⟩
      have next := Step.inside
        (List.getElem?_set_self (a := unit') inside) step
      rwa [List.set_set] at next

end Moment

/-- The statements of a source are read and linked alone. -/
theorem read_steps (front back : List LinkUnit) (source : SourceId)
    (statements : List Statement) :
    ∃ unit : LinkUnit, unit.IsRead source statements ∧
      Moment.Steps ⟨.alone front.length, front ++ unit :: back, []⟩
        ⟨.alone front.length,
          front ++ .ofAnalysis (.ofStatements source statements) :: back, []⟩ := by
  obtain ⟨before, opened, inner, unit, after, reached, isUnit, closed, ends⟩ |
      failed := Draft.readTopLevel_reaches (.empty source) statements
  · refine ⟨inner.asUnit, .ended reached isUnit, ?_⟩
    obtain ⟨⟨root, stack⟩, -⟩ := reached.isFinished (.empty source)
      (fun _ => .empty source) isUnit
    have alone := (Draft.asUnit_linkInside { inner with stack := [] }).1
    rw [← Draft.closeUnit_eq_ok stack closed, ← ends] at alone
    have found : (front ++ inner.asUnit :: back)[front.length]? =
        some inner.asUnit := by simp
    obtain ⟨linked, only, steps⟩ := Moment.Steps.inside found
      (Linking.link_steps .intraFile [inner.asUnit])
    obtain rfl := (List.cons.inj (only.symm.trans alone)).1
    rw [List.set_append_right _ _ (Nat.le_refl _), Nat.sub_self,
      List.set_cons_zero] at steps
    cases failed : (Analysis.ofStatements source statements).failed with
    | false =>
        have same : LinkUnit.ofAnalysis (.ofStatements source statements) =
            (Draft.readTopLevel (.empty source) false statements).draft.asUnit := by
          simp only [LinkUnit.ofAnalysis, failed]
          rfl
        rwa [same]
    | true =>
        have same : LinkUnit.ofAnalysis (.ofStatements source statements) =
            { (Draft.readTopLevel (.empty source) false
                statements).draft.asUnit with usable := false } := by
          simp only [LinkUnit.ofAnalysis, failed]
          rfl
        have refused := steps.tail (.refuse front.length _)
        rw [List.modify_eq_take_cons_drop (by simp)] at refused
        rw [same]
        simpa using refused
  · exact ⟨.ofAnalysis (.ofStatements source statements), .failed failed, .refl⟩

end Compilation

/-- The sources that have no syntax errors, with their statements. -/
def ParsedSources.readable (parsed : ParsedSources) :
    List (SourceId × List Statement) :=
  parsed.trees.zipIdx.filterMap fun (tree, id) =>
    if parsed.diagnostics.hasErrorsIn id then none
    else some (id, Statement.ofTree tree)

theorem ParsedSources.analyses_eq (parsed : ParsedSources) :
    parsed.analyses = parsed.readable.map fun (source, statements) =>
      .ofStatements source statements := by
  rw [analyses, readable, List.map_filterMap]
  refine List.filterMap_congr fun entry _ => ?_
  dsimp only
  split <;> rfl

namespace Compilation

/-- All sources are read, and their units are linked alone. -/
theorem readAll_steps (front : List LinkUnit)
    (readable : List (SourceId × List Statement)) :
    ∃ units : List LinkUnit,
      List.Forall₂ (fun (input : SourceId × List Statement) unit =>
        LinkUnit.IsRead input.1 input.2 unit) readable units ∧
      Moment.Steps ⟨.alone front.length, front ++ units, []⟩
        ⟨.alone (front.length + readable.length),
          front ++ readable.map fun (source, statements) =>
            .ofAnalysis (.ofStatements source statements), []⟩ := by
  induction readable generalizing front with
  | nil => exact ⟨[], .nil, by simpa using .refl⟩
  | cons input rest ih =>
      obtain ⟨source, statements⟩ := input
      obtain ⟨units, read, steps⟩ :=
        ih (front ++ [.ofAnalysis (.ofStatements source statements)])
      obtain ⟨unit, readUnit, first⟩ := read_steps front units source statements
      refine ⟨unit :: units, .cons readUnit read, ?_⟩
      have next := first.tail (.next front.length _)
      simp only [List.length_append, List.length_singleton, List.append_assoc,
        List.singleton_append] at steps
      have all := next.trans steps
      rwa [Nat.add_assoc, Nat.add_comm 1] at all

theorem exists_isRead {readable : List (SourceId × List Statement)}
    {units : List LinkUnit}
    (read : List.Forall₂ (fun (input : SourceId × List Statement) unit =>
      LinkUnit.IsRead input.1 input.2 unit) readable units) :
    ∀ unit ∈ units, ∃ source statements,
      LinkUnit.IsRead source statements unit := by
  induction read with
  | nil => exact List.forall_mem_nil _
  | cons here _ ih => exact List.forall_mem_cons.mpr ⟨⟨_, _, here⟩, ih⟩

/-- A compilation is a run from the units that the statements leave behind, and
no such run takes anything away:  from one moment to any later one, nodes stay
what their statements say, links and settled states stay, and units that cannot
be used stay as they are. -/
theorem linking_goesFurther (parsed : ParsedSources) :
    (∃ units : List LinkUnit,
      List.Forall₂ (fun (input : SourceId × List Statement) unit =>
        LinkUnit.IsRead input.1 input.2 unit) parsed.readable units ∧
      Moment.Steps ⟨.alone 0, units, []⟩
        ⟨.alone parsed.readable.length, (ofParsed parsed).units, []⟩ ∧
      Moment.Steps
        ⟨.alone parsed.readable.length, (ofParsed parsed).units, []⟩
        ⟨.across, (ofParsed parsed).linked.units, []⟩) ∧
    ∀ units : List LinkUnit,
      (∀ unit ∈ units, ∃ source statements, unit.IsRead source statements) →
      ∀ middle after, Moment.Steps ⟨.alone 0, units, []⟩ middle →
        Moment.Steps middle after →
          Linking.LinksFurther middle.units after.units := by
  constructor
  · obtain ⟨units, read, steps⟩ := readAll_steps [] parsed.readable
    have analysed : (ofParsed parsed).units = parsed.readable.map
        fun (source, statements) =>
          .ofAnalysis (.ofStatements source statements) := by
      simp only [ofParsed, ParsedSources.analyses_eq, List.map_map]
      rfl
    refine ⟨units, read, ?_, ?_⟩
    · rw [analysed]
      simpa using steps
    · exact .head (.bind _ _) (Moment.Steps.across
        (Linking.link_steps .interFile _))
  · intro units read middle after first later
    have start : Moment.IsTidy ⟨.alone 0, units, []⟩ := by
      refine Moment.isTidy_of_units fun unit member usable => ?_
      obtain ⟨source, statements, read⟩ := read unit member
      exact read.isTidy usable
    exact (later.keeps (first.keeps start).1).2

/-- A grouping and its use, linked from the first moment to the last. -/
theorem linking_goesFurther_alone :
    ∃ parsed units, ParsedSources.ofSources .standard
        [⟨.inline, "module a \x7b namespace \"u:a\"; prefix a; " ++
            "grouping g \x7b leaf x \x7b type string; \x7d \x7d " ++
            "uses g; \x7d"⟩] = .ok parsed ∧
      (∀ unit ∈ units, ∃ source statements,
        LinkUnit.IsRead source statements unit) ∧
      Moment.Steps ⟨.alone 0, units, []⟩
        ⟨.across, (ofParsed parsed).linked.units, []⟩ ∧
      Linking.LinksFurther units (ofParsed parsed).linked.units := by
  generalize written : ([_] : Sources) = sources
  have succeeds : (ParsedSources.ofSources .standard sources).isOk = true := by
    subst written
    decide +kernel
  cases parsing : ParsedSources.ofSources .standard sources with
  | error error => simp [parsing, Except.isOk, Except.toBool] at succeeds
  | ok parsed =>
      obtain ⟨⟨units, read, alone, across⟩, keeps⟩ := linking_goesFurther parsed
      have each := exists_isRead read
      have run := alone.trans across
      exact ⟨parsed, units, rfl, each, run, keeps units each _ _ .refl run⟩

end Compilation

end YangSchema
