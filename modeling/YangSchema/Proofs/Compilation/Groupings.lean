import Mathlib.Data.List.TFAE
import Mathlib.Order.WellFoundedSet
import Mathlib.Tactic.TFAE
import YangSchema.Proofs.Compilation.Completeness
import YangSchema.Proofs.Compilation.Links
import YangSchema.Proofs.Instances.Deciding

/-!
# Groupings that use each other

A grouping expands another one if some `uses` below it, at any depth, is bound to
that one.  Linking looks at each `uses` alone and refuses a grouping that encloses
it, so no grouping expands itself.  Two groupings may still expand each other.
Where no two do, expanding ends.
-/

namespace YangSchema

namespace Scene

/-- Some `uses` below a grouping is bound to a target. -/
def Expands (scene : Scene) (grouping target : NodeRef) : Prop :=
  scene.kind? grouping = some .grouping ∧
    ∃ uses, grouping ∈ scene.ancestors uses ∧
      scene.usesTarget? uses = some target

/-- No two groupings lead to each other. -/
def HasNoMutualUse (scene : Scene) : Prop :=
  ∀ first second, Relation.TransGen scene.Expands first second →
    Relation.TransGen scene.Expands second first → first = second

variable {scene : Scene} {grouping target : NodeRef}

theorem Expands.mem_nodeRefs (expands : scene.Expands grouping target) :
    grouping ∈ scene.nodeRefs := by
  obtain ⟨node, known, -⟩ := Option.map_eq_some_iff.mp expands.1
  exact mem_nodeRefs_of_node? known

/-- There are finitely many groupings, so expanding goes on for ever only if it
comes back to where it was. -/
theorem wellFounded_expands_iff :
    WellFounded (fun target grouping => scene.Expands grouping target) ↔
      ∀ grouping, ¬ Relation.TransGen scene.Expands grouping grouping := by
  constructor
  · intro ends grouping cycle
    exact ends.transGen.irrefl.irrefl grouping (Relation.transGen_swap.mpr cycle)
  · intro acyclic
    let leads (target grouping : NodeRef) : Prop :=
      Relation.TransGen scene.Expands grouping target
    have : IsTrans NodeRef leads := ⟨fun _ _ _ first second => second.trans first⟩
    have : Std.Irrefl leads := ⟨acyclic⟩
    have : IsStrictOrder NodeRef leads := {}
    have ends : {ref | ref ∈ scene.nodeRefs}.WellFoundedOn leads :=
      (List.finite_toSet scene.nodeRefs).wellFoundedOn
    -- What is no node of the scene expands nothing.
    have accessible {grouping : NodeRef} (known : grouping ∈ scene.nodeRefs) :
        Acc (fun target grouping => scene.Expands grouping target) grouping := by
      refine ends.induction known fun grouping _ ih => .intro _ fun target expands => ?_
      by_cases among : target ∈ scene.nodeRefs
      · exact ih target among (.single expands)
      · exact .intro _ fun _ further => absurd further.mem_nodeRefs among
    refine ⟨fun grouping => .intro _ fun target expands => ?_⟩
    exact (accessible expands.mem_nodeRefs).inv expands

end Scene

namespace Linking

variable {phase : LinkPhase} {units : List LinkUnit}
  (connected : IsConnected phase units)
  (usable : ∀ unit ∈ units, unit.usable = true)
include connected usable

/-- What a `uses` is bound to is a grouping that does not enclose it. -/
theorem IsConnected.suits_of_usesTarget? {uses grouping : NodeRef}
    (isBound : (Scene.ofUnits units phase).usesTarget? uses = some grouping) :
    (Scene.ofUnits units phase).Suits uses .uses grouping := by
  obtain ⟨body, isUses, bound⟩ := Scene.usesTarget?_eq_some_iff.mp isBound
  obtain ⟨node, known, construct⟩ := Option.map_eq_some_iff.mp isUses
  obtain ⟨tree, isTree, known⟩ := Option.bind_eq_some_iff.mp known
  obtain ⟨unit, member, rfl, source⟩ := Scene.tree?_mem isTree
  have isUses : unit.tree.construct? uses.node = some (.uses body) := by
    simp [SchemaTree.construct?, known, construct]
  have suits := (connected.units unit member (usable unit member)).links
    (.construct isUses rfl bound)
  rwa [source] at suits

/-- A `uses` is never bound to a grouping that encloses it. -/
theorem IsConnected.not_expands_self (grouping : NodeRef) :
    ¬ (Scene.ofUnits units phase).Expands grouping grouping := by
  rintro ⟨-, uses, around, isBound⟩
  exact (connected.suits_of_usesTarget? usable isBound).outside rfl around

theorem IsConnected.isWellFormed : (Scene.ofUnits units phase).IsWellFormed := by
  refine Scene.isWellFormed_ofUnits (fun unit member =>
    (connected.units unit member (usable unit member)).nested)
    fun uses _ grouping isBound => ?_
  obtain ⟨kind, among, isKind⟩ :=
    (connected.suits_of_usesTarget? usable isBound).isTarget.ofKind
  rwa [List.mem_singleton.mp among] at isKind

end Linking

namespace Scene

/-- In units that can be used no grouping expands itself, so it comes back to
where it was only through another one. -/
theorem expands_tfae {phase : LinkPhase} {units : List LinkUnit}
    (connected : Linking.IsConnected phase units)
    (usable : ∀ unit ∈ units, unit.usable = true) :
    List.TFAE [
      WellFounded fun target grouping =>
        (ofUnits units phase).Expands grouping target,
      ∀ grouping, ¬ Relation.TransGen (ofUnits units phase).Expands
        grouping grouping,
      (ofUnits units phase).HasNoMutualUse] := by
  tfae_have 1 ↔ 2 := wellFounded_expands_iff
  tfae_have 2 → 3 := fun acyclic first _ forth back =>
    absurd (forth.trans back) (acyclic first)
  tfae_have 3 → 2 := by
    intro apart grouping cycle
    obtain ⟨target, expands, back⟩ := Relation.TransGen.head'_iff.mp cycle
    obtain rfl | back := Relation.reflTransGen_iff_eq_or_transGen.mp back
    · exact connected.not_expands_self usable grouping expands
    · obtain rfl := apart _ _ (.single expands) back
      exact connected.not_expands_self usable grouping expands
  tfae_finish

end Scene

/-- The units of a compilation are connected. -/
theorem compile_isConnected {limits : ParseLimits} {sources : Sources}
    {compilation : Compilation}
    (compiled : compile limits sources = .ok compilation) :
    Linking.IsConnected .interFile compilation.units := by
  simp only [compile, bind_eq_ok_iff, pure_eq_ok_iff] at compiled
  obtain ⟨parsed, -, rfl⟩ := compiled
  have bound := Linking.bindSources_isConnected
    (Compilation.ofParsed_distinct parsed) fun _ =>
      Compilation.ofParsed_isLinkedAlone parsed
  exact bound.of_passes (Linking.link_passes _ _)

namespace Compilation

/-- In a compilation without errors no grouping is used below itself, but two
groupings may be used below each other:  expanding all `uses` ends exactly if no
two do. -/
theorem valid_expansion_ends_iff {limits : ParseLimits} {sources : Sources}
    {compilation : Compilation}
    (compiled : compile limits sources = .ok compilation)
    (valid : compilation.isValid = true) :
    (∀ grouping, ¬ (Scene.ofUnits compilation.units .interFile).Expands
      grouping grouping) ∧
    List.TFAE [
      WellFounded fun target grouping =>
        (Scene.ofUnits compilation.units .interFile).Expands grouping target,
      ∀ grouping, ¬ Relation.TransGen
        (Scene.ofUnits compilation.units .interFile).Expands grouping grouping,
      (Scene.ofUnits compilation.units .interFile).HasNoMutualUse] := by
  have linked : ∀ unit ∈ compilation.units, unit.IsLinked := by
    simp only [compile, bind_eq_ok_iff, pure_eq_ok_iff] at compiled
    obtain ⟨parsed, -, rfl⟩ := compiled
    exact (ofParsed_isLinked valid).2
  have connected := compile_isConnected compiled
  have usable unit (member : unit ∈ compilation.units) := (linked unit member).usable
  exact ⟨connected.not_expands_self usable, Scene.expands_tfae connected usable⟩

/-- A grouping that uses another one, which is also used by itself. -/
theorem valid_expansion_ends_iff_nested :
    ∃ compilation, compile .standard
        [⟨.inline, "module m \x7b namespace \"urn:m\"; prefix m; " ++
            "grouping g \x7b container c \x7b uses h; \x7d \x7d " ++
            "grouping h \x7b leaf l \x7b type string; \x7d \x7d " ++
            "uses g; uses h; \x7d"⟩] = .ok compilation ∧
      compilation.isValid = true ∧
      (∀ grouping, ¬ (Scene.ofUnits compilation.units .interFile).Expands
        grouping grouping) ∧
      List.TFAE [
        WellFounded fun target grouping =>
          (Scene.ofUnits compilation.units .interFile).Expands grouping target,
        ∀ grouping, ¬ Relation.TransGen
          (Scene.ofUnits compilation.units .interFile).Expands grouping grouping,
        (Scene.ofUnits compilation.units .interFile).HasNoMutualUse] := by
  generalize written : ([_] : Sources) = sources
  have valid : (compile .standard sources).toOption.any (·.isValid) = true := by
    subst written
    decide +kernel
  cases compiled : compile .standard sources with
  | error error => simp [compiled, Except.toOption] at valid
  | ok compilation =>
      have valid : compilation.isValid = true := by
        simpa [compiled, Except.toOption] using valid
      exact ⟨compilation, rfl, valid, valid_expansion_ends_iff compiled valid⟩

/-- Two groupings that use each other are accepted. -/
theorem compile_accepts_mutual_use :
    ∃ compilation, compile .standard
        [⟨.inline, "module m \x7b namespace \"urn:m\"; prefix m; " ++
            "grouping g \x7b uses h; \x7d grouping h \x7b uses g; \x7d \x7d"⟩] =
          .ok compilation ∧
      compilation.isValid = true ∧
      (Scene.ofUnits compilation.units .interFile).Expands ⟨0, 1⟩ ⟨0, 3⟩ ∧
      (Scene.ofUnits compilation.units .interFile).Expands ⟨0, 3⟩ ⟨0, 1⟩ ∧
      ¬ WellFounded fun target grouping =>
        (Scene.ofUnits compilation.units .interFile).Expands grouping target := by
  generalize written : ([_] : Sources) = sources
  have checked : (compile .standard sources).toOption.any (fun compilation =>
      let scene := Scene.ofUnits compilation.units .interFile
      let expands (grouping uses target : NodeId) : Bool :=
        scene.kind? ⟨0, grouping⟩ = some .grouping ∧
          ⟨0, grouping⟩ ∈ scene.ancestors ⟨0, uses⟩ ∧
          scene.usesTarget? ⟨0, uses⟩ = some ⟨0, target⟩
      compilation.isValid && expands 1 2 3 && expands 3 4 1) = true := by
    subst written
    decide +kernel
  cases compiled : compile .standard sources with
  | error error => simp [compiled, Except.toOption] at checked
  | ok compilation =>
      simp only [compiled, Except.toOption, Option.any_some, Bool.and_eq_true,
        decide_eq_true_eq] at checked
      obtain ⟨⟨valid, isG, inG, usesH⟩, isH, inH, usesG⟩ := checked
      have forth : (Scene.ofUnits compilation.units .interFile).Expands
        ⟨0, 1⟩ ⟨0, 3⟩ := ⟨isG, _, inG, usesH⟩
      have back : (Scene.ofUnits compilation.units .interFile).Expands
        ⟨0, 3⟩ ⟨0, 1⟩ := ⟨isH, _, inH, usesG⟩
      refine ⟨compilation, rfl, valid, forth, back, fun ends => ?_⟩
      exact Scene.wellFounded_expands_iff.mp ends _
        (.tail (.single forth) back)

end Compilation

end YangSchema
