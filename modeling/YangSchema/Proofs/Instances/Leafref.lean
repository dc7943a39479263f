import Mathlib.Tactic.MkIffOfInductiveProp
import YangSchema.Compilation
import YangSchema.Proofs.Except
import YangSchema.Proofs.Instances.Climbing
import YangSchema.Proofs.Instances.Listing

/-!
# Leafrefs in the tree of instances

A leafref is evaluated on the nodes of the units.  From an instance of the leaf
that declares it, together with the `uses` of that instance, this should lead to
the node of the instance that its path reaches in the tree of instances.

The lookup can take one instance for another:  behind an augment of a grouping
it has lost the `uses` around, it stops at a choice or a case that an augment
adds to, and what is in sight under a name may have been added to another copy
of a grouping.  Where it does not, evaluating a leafref is walking in the tree
exactly when all instances on the way are in sight.  The lookup forgets the
augments of a `uses` after the first step below it, a submodule has only what it
includes itself in sight, and the `uses` may run out.
-/

namespace YangSchema

theorem Path.parseSteps_ne_nil {path : String} {text : List Char}
    {steps : List QualifiedName}
    (parsed : Path.parseSteps path text = .ok steps) : steps ≠ [] := by
  rw [← List.length_pos_iff, length_of_mapM parsed, List.length_pos_iff]
  exact Text.splitOn_ne_nil '/' text

theorem LeafrefPath.steps_ne_nil {text : String} {path : LeafrefPath}
    (parsed : LeafrefPath.parse text = .ok path) : path.steps ≠ [] := by
  rw [LeafrefPath.parse] at parsed
  split at parsed
  · simp at parsed
  · obtain ⟨stripped, _, parsed⟩ := bind_eq_ok_iff.mp parsed
    split at parsed
    · obtain ⟨steps, named, parsed⟩ := bind_eq_ok_iff.mp parsed
      obtain rfl := pure_eq_ok_iff.mp parsed
      exact Path.parseSteps_ne_nil named
    · dsimp only at parsed
      split at parsed
      · simp at parsed
      · obtain ⟨steps, named, parsed⟩ := bind_eq_ok_iff.mp parsed
        obtain rfl := pure_eq_ok_iff.mp parsed
        exact Path.parseSteps_ne_nil named

namespace Scene

section

variable (scene : Scene) (leaf : Spot) (path : LeafrefPath)

/-- Where the lookup stands when the named steps of a path begin. -/
def StandsAt (stand : Spot) : Prop :=
  if path.absolute then
    scene.moduleRoot leaf.ref.source (firstQualifier path.steps) =
        .ok stand.ref ∧
      ∃ module, scene.host stand = .root module ∧
        scene.NamesModule leaf.ref.source (firstQualifier path.steps) module
  else
    scene.Lands path.up leaf leaf.uses stand

/-- Nothing on the way of a leafref is taken for something else. -/
structure IsRegular : Prop where
  /-- The unit where an absolute path starts belongs to a module. -/
  absolute : path.absolute = true → ∀ root,
    scene.moduleRoot leaf.ref.source (firstQualifier path.steps) = .ok root →
      ∃ module, scene.NamesModule leaf.ref.source (firstQualifier path.steps)
        module
  relative : path.absolute = false → scene.LeadsUp path.up leaf leaf.uses
  steps : ∀ stand, scene.StandsAt leaf path stand →
    scene.ShowsOnlyAlong stand path.steps

/-- A leafref path leads to an instance, and each one on the way is in sight from
the one before. -/
def ReachesInSight (found : Spot) : Prop :=
  ∃ stand, scene.StandsAt leaf path stand ∧
    scene.DescendsInSight stand path.steps found

end

variable {scene : Scene}

/-- The lookup of a module leads to its top level or to a part of that. -/
theorem NamesModule.moduleRoot {source module : SourceId}
    {qualifier : Option String}
    (names : scene.NamesModule source qualifier module) :
    ∃ stand, scene.host stand = .root module ∧
      scene.moduleRoot source qualifier = .ok stand.ref := by
  have own {header : ModuleHeader}
      (declared : (scene.tree? source).bind (·.header?) = some header)
      (unqualified : qualifier.filter (· ≠ header.qualifier) = none) :
      scene.moduleRoot source qualifier = .ok ⟨source, rootId⟩ := by
    simp only [Scene.moduleRoot, scopes, declared, unqualified]
    cases scene.phase <;> rfl
  cases names with
  | own declared unqualified _ same =>
      subst same
      exact ⟨.root module, rfl, own declared unqualified⟩
  | including declared unqualified =>
      exact ⟨.part (.root module) source, rfl, own declared unqualified⟩
  | imported declared qualified imports _ usable =>
      refine ⟨.root module, rfl, ?_⟩
      simp only [Scene.moduleRoot, scopes, declared, qualified, imports, usable]
      rfl

theorem NamesModule.placed {source module : SourceId}
    {qualifier : Option String}
    (names : scene.NamesModule source qualifier module) :
    scene.Placed (.root module) := by
  cases names with
  | own _ _ isModule same => exact .root (same ▸ isModule)
  | including _ _ _ isModule => exact .root isModule
  | imported _ _ _ isModule => exact .root isModule

theorem contextLeaf_eq {leaf : NodeRef}
    (isLeaf : (scene.kind? leaf).any isLeafKind = true) :
    scene.contextLeaf leaf = leaf := by
  obtain ⟨kind, isKind, leafKind⟩ := (Option.any_eq_true _ _).mp isLeaf
  have found : (scene.kind? leaf == some .leaf ||
      scene.kind? leaf == some .leafList) = true := by
    simpa [isKind, isLeafKind] using leafKind
  simp only [contextLeaf, List.find?_cons_of_pos, found, Option.getD_some]

section

variable {outer leaf : Spot} {path : LeafrefPath} {text : String}

/-- The lookup stands in the instance where the path starts. -/
theorem StandsAt.startsAt (instantiated : scene.Contains outer leaf)
    (regular : scene.IsRegular leaf path) {stand : Spot}
    (stands : scene.StandsAt leaf path stand) :
    scene.StartsAt leaf path (scene.host stand) := by
  cases absolute : path.absolute with
  | true =>
      simp only [StartsAt, StandsAt, absolute, if_true] at stands ⊢
      obtain ⟨-, module, inside, names⟩ := stands
      exact ⟨module, inside, names⟩
  | false =>
      simp only [StartsAt, StandsAt, absolute, Bool.false_eq_true, if_false]
        at stands ⊢
      obtain ⟨_, _, rfl, -, visible, -⟩ := id instantiated
      have climbs := stands.ascend? (fun _ => visible)
        (regular.relative absolute)
      rwa [instantiated.isInstance] at climbs

/-- The lookup stands where the start of a leafref has been found. -/
theorem leafrefStart_eq_ok_iff (wellFormed : scene.IsWellFormed)
    (instantiated : scene.Contains outer leaf)
    (isLeaf : (scene.kind? leaf.ref).any isLeafKind = true)
    (regular : scene.IsRegular leaf path) (place : NodeRef) :
    scene.leafrefStart path leaf.ref text leaf.uses = .ok place ↔
      ∃ stand, scene.StandsAt leaf path stand ∧ stand.ref = place := by
  cases absolute : path.absolute with
  | true =>
      simp only [leafrefStart, StandsAt, absolute, if_true]
      constructor
      · intro found
        obtain ⟨module, names⟩ := regular.absolute absolute place found
        obtain ⟨stand, inside, same⟩ := names.moduleRoot
        refine ⟨stand, ⟨same, module, inside, names⟩, ?_⟩
        exact Except.ok.inj (same.symm.trans found)
      · rintro ⟨stand, ⟨found, -⟩, rfl⟩
        exact found
  | false =>
      simp only [leafrefStart, StandsAt, absolute, Bool.false_eq_true, if_false]
      rw [contextLeaf_eq isLeaf]
      obtain ⟨_, _, rfl, placed, -⟩ := id instantiated
      exact climb_eq_ok_iff wellFormed placed trivial
        (regular.relative absolute) place

/-- Once the start of a leafref has been found, the lookup stands in every
instance where the path starts. -/
theorem StartsAt.standsAt (wellFormed : scene.IsWellFormed)
    (instantiated : scene.Contains outer leaf)
    (isLeaf : (scene.kind? leaf.ref).any isLeafKind = true)
    (regular : scene.IsRegular leaf path) {start : Spot} {place : NodeRef}
    (starts : scene.StartsAt leaf path start)
    (found : scene.leafrefStart path leaf.ref text leaf.uses = .ok place) :
    ∃ stand, scene.StandsAt leaf path stand ∧ scene.host stand = start ∧
      stand.ref = place := by
  obtain ⟨stand, stands, rfl⟩ := (leafrefStart_eq_ok_iff wellFormed
    instantiated isLeaf regular place).mp found
  cases absolute : path.absolute with
  | true =>
      simp only [StartsAt, StandsAt, absolute, if_true] at starts stands ⊢
      obtain ⟨module, rfl, names⟩ := starts
      obtain ⟨stand', inside, found'⟩ := names.moduleRoot
      exact ⟨stand', ⟨found', module, inside, names⟩, inside,
        Except.ok.inj (found'.symm.trans stands.1)⟩
  | false =>
      have starts' := stands.startsAt instantiated regular
      simp only [StartsAt, absolute, Bool.false_eq_true, if_false]
        at starts starts'
      exact ⟨stand, stands, Option.some.inj (starts'.symm.trans starts), rfl⟩

/-- A leafref leads to the leaf that its path reaches in sight. -/
theorem leafref_eq_ok_iff (wellFormed : scene.IsWellFormed)
    (distinct : scene.HasDistinctSiblings)
    (instantiated : scene.Contains outer leaf)
    (isLeaf : (scene.kind? leaf.ref).any isLeafKind = true)
    (parsed : LeafrefPath.parse text = .ok path)
    (regular : scene.IsRegular leaf path) (node : NodeRef) :
    scene.leafref leaf.ref text leaf.uses = .ok node ↔
      ∃ found, scene.ReachesInSight leaf path found ∧ found.ref = node ∧
        (scene.kind? node).any isLeafKind = true := by
  have begins (place : NodeRef) :
      scene.leafrefStart path leaf.ref text leaf.uses = .ok place ↔
        ∃ stand, scene.StandsAt leaf path stand ∧ stand.ref = place :=
    leafrefStart_eq_ok_iff wellFormed instantiated isLeaf regular place
  have follows {stand : Spot} (stands : scene.StandsAt leaf path stand) :=
    follow_eq_ok_iff wellFormed distinct (regular.steps stand stands) node
  rw [leafref_eq_ok_iff_follow parsed]
  constructor
  · rintro ⟨place, started, followed, isLeaf⟩
    obtain ⟨stand, stands, rfl⟩ := (begins place).mp started
    obtain ⟨found, descends, same⟩ := (follows stands).mp followed
    exact ⟨found, ⟨stand, stands, descends⟩, same, isLeaf⟩
  · rintro ⟨found, ⟨stand, stands, descends⟩, same, isLeaf⟩
    exact ⟨stand.ref, (begins stand.ref).mpr ⟨stand, stands, rfl⟩,
      (follows stands).mpr ⟨found, descends, same⟩, isLeaf⟩

/-- Evaluating a leafref is walking from an instance in the tree exactly when the
walk keeps to what is in sight. -/
theorem leafref_agrees_iff (wellFormed : scene.IsWellFormed)
    (distinct : scene.HasDistinctSiblings)
    (instantiated : scene.Contains outer leaf)
    (isLeaf : (scene.kind? leaf.ref).any isLeafKind = true)
    (parsed : LeafrefPath.parse text = .ok path)
    (regular : scene.IsRegular leaf path) :
    (∀ node, scene.leafref leaf.ref text leaf.uses = .ok node ↔
        ∃ found, scene.Reaches leaf path found ∧ found.ref = node) ↔
      ∀ found, scene.Reaches leaf path found →
        scene.ReachesInSight leaf path found := by
  have nonempty := LeafrefPath.steps_ne_nil parsed
  constructor
  · rintro agrees found ⟨leafKind, start, starts, descends⟩
    have evaluated := (agrees found.ref).mpr
      ⟨found, ⟨leafKind, start, starts, descends⟩, rfl⟩
    obtain ⟨place, started, followed, -⟩ :=
      (leafref_eq_ok_iff_follow parsed).mp evaluated
    obtain ⟨stand, stands, rfl, rfl⟩ :=
      starts.standsAt wellFormed instantiated isLeaf regular started
    obtain ⟨found', descends', -⟩ := (follow_eq_ok_iff wellFormed distinct
      (regular.steps stand stands) found.ref).mp followed
    obtain rfl := descends.unique distinct (descends'.descends nonempty)
    exact ⟨stand, stands, descends'⟩
  · intro inSight node
    rw [leafref_eq_ok_iff wellFormed distinct instantiated isLeaf parsed
      regular]
    constructor
    · rintro ⟨found, ⟨stand, stands, descends⟩, rfl, leafKind⟩
      exact ⟨found, ⟨leafKind, scene.host stand,
        stands.startsAt instantiated regular, descends.descends nonempty⟩, rfl⟩
    · rintro ⟨found, reaches, rfl⟩
      exact ⟨found, inSight found reaches, rfl, reaches.1⟩

end

/-- A grouping that is used with an augment, and an augment at the top level. -/
def augmentedUses : Sources :=
  [⟨.inline, "module m \x7b namespace \"urn:m\"; prefix m; " ++
    "grouping g \x7b container c \x7b leaf a \x7b type string; \x7d \x7d \x7d " ++
    "uses g \x7b augment \"c\" \x7b leaf x \x7b type string; \x7d \x7d \x7d " ++
    "container k; augment \"/m:k\" \x7b choice h \x7b leaf y " ++
    "\x7b type string; \x7d \x7d \x7d leaf r \x7b " ++
    "type leafref \x7b path \"/m:c/m:x\"; \x7d \x7d \x7d"⟩]

namespace augmentedUses

/-- The container of the grouping where this is used. -/
def c : Spot :=
  .child (.copy (.root 0) 4 ⟨0, 1⟩) 2

def a : Spot :=
  .child c 3

/-- The leaf that the `uses` adds to the container. -/
def x : Spot :=
  .child (.addition c ⟨0, 5⟩ []) 6

/-- The container at the top level. -/
def k : Spot :=
  .child (.root 0) 7

/-- The leaf in the choice that is added to the container at the top level. -/
def y : Spot :=
  .child (.child (.addition k ⟨0, 8⟩ []) 9) 10

def r : Spot :=
  .child (.root 0) 11

def spots : List Spot :=
  [.root 0, .copy (.root 0) 4 ⟨0, 1⟩, c, a, .addition c ⟨0, 5⟩ [], x, k,
    .addition k ⟨0, 8⟩ [], .child (.addition k ⟨0, 8⟩ []) 9, y, r]

def toX : LeafrefPath :=
  ⟨true, 0, [⟨some "m", "c"⟩, ⟨some "m", "x"⟩]⟩

def toY : LeafrefPath :=
  ⟨false, 2, [⟨some "m", "k"⟩, ⟨some "m", "y"⟩]⟩

/-- What can be computed of the linked units. -/
@[mk_iff]
structure IsScene (scene : Scene) : Prop where
  units : ∀ unit ∈ scene.units, unit.usable = true ∧ unit.tree.IsNested
  groupings : ∀ uses ∈ scene.nodeRefs, ∀ grouping ∈ scene.usesTarget? uses,
    scene.kind? grouping = some .grouping
  listing : scene.IsListing spots
  distinct : scene.HasDistinctKeys spots
  showsRoot : scene.ShowsListed (.root 0) spots
  showsContainer : scene.ShowsListed k spots
  alone : scene.sharedRoots ⟨0, rootId⟩ = []
  inRoot : ∀ spot ∈ [c, k, r], scene.Contains (.root 0) spot
  inCopy : ∀ spot ∈ [a, x], scene.Contains c spot
  inContainer : scene.Contains k y
  named : [c, x, k, y].map (fun spot => scene.nameOf spot.ref) =
    ["c", "x", "k", "y"]
  leaves : ∀ spot ∈ [a, x, y, r], scene.kind? spot.ref = some .leaf
  names : scene.NamesModule 0 (some "m") 0
  linked : ∀ unit ∈ scene.units, ∀ item ∈ unit.queue,
    item.kind ∈ [.uses, .augment] →
      item.state ∈ [.resolved ⟨0, 1⟩, .resolved c.ref, .resolved k.ref]
  missed : scene.leafref r.ref "/m:c/m:x" r.uses = .error .notFound

instance (scene : Scene) : Decidable (IsScene scene) :=
  decidable_of_iff _ (isScene_iff scene).symm

theorem exists_scene :
    ∃ compilation, compile .standard augmentedUses = .ok compilation ∧
      IsScene (ofUnits compilation.units .interFile) := by
  have checked : (compile .standard augmentedUses).toOption.any
      (fun compilation =>
        decide (IsScene (ofUnits compilation.units .interFile))) = true := by
    decide +kernel
  cases compiled : compile .standard augmentedUses with
  | error error => simp [compiled, Except.toOption] at checked
  | ok compilation =>
      exact ⟨compilation, rfl,
        by simpa [compiled, Except.toOption] using checked⟩

section

variable {units : List LinkUnit} (known : IsScene (ofUnits units .interFile))
include known

theorem isWellFormed : (ofUnits units .interFile).IsWellFormed :=
  isWellFormed_ofUnits (fun unit member => (known.units unit member).2)
    known.groupings

theorem hasDistinctSiblings : (ofUnits units .interFile).HasDistinctSiblings :=
  known.listing.hasDistinctSiblings known.distinct

theorem isLeaf {spot : Spot} (listed : spot ∈ [a, x, y, r]) :
    ((ofUnits units .interFile).kind? spot.ref).any isLeafKind = true := by
  rw [known.leaves spot listed]
  rfl

theorem reaches_x : (ofUnits units .interFile).Reaches r toX x := by
  obtain ⟨isC, isX, -⟩ : _ ∧ _ ∧ _ := by simpa using known.named
  refine ⟨isLeaf known (by simp), .root 0, ⟨0, rfl, known.names⟩, ?_⟩
  exact .step (known.inRoot c (by simp)) isC
    (.step (known.inCopy x (by simp)) isX .here)

/-- A step out of the leaf ends in its container, and one out of that leaves the
copy. -/
theorem landing_c : (ofUnits units .interFile).landing c = c ∧
    (ofUnits units .interFile).usesLeft c = [] := by
  obtain ⟨_, _, -, -, visible, -⟩ := known.inRoot c (by simp)
  rw [c] at visible ⊢
  simp [landing, usesLeft, visible]

theorem leadsUp : (ofUnits units .interFile).LeadsUp 2 a a.uses := by
  obtain ⟨landing, left⟩ := landing_c known
  obtain ⟨_, _, -, -, visible, -⟩ := known.inRoot c (by simp)
  refine ⟨fun _ => ?_, .inl ⟨a.uses, by rw [left]; rfl, ?_⟩⟩
  · rwa [landing]
  · rw [landing]
    exact ⟨fun absurd => (absurd rfl).elim, .inl ⟨[], rfl, trivial⟩⟩

theorem standsAt_iff {stand : Spot} :
    (ofUnits units .interFile).StandsAt a toY stand ↔ stand = .root 0 := by
  obtain ⟨landing, left⟩ := landing_c known
  show (ofUnits units .interFile).Lands 2 a a.uses stand ↔ stand = .root 0
  constructor
  · intro lands
    generalize a.uses = chain at lands
    cases lands with
    | @up _ _ _ _ rest lands =>
        rw [landing] at lands
        cases lands with
        | @up _ _ _ _ rest lands =>
            cases lands
            rfl
  · rintro rfl
    have inner : (ofUnits units .interFile).Lands 1 c (a.uses ++ []) (.root 0) :=
      .up .here
    have outer : (ofUnits units .interFile).Lands 2 a
        ((ofUnits units .interFile).usesLeft c ++ a.uses) (.root 0) :=
      .up (landing.symm ▸ inner)
    rwa [left] at outer

theorem showsRoot : (ofUnits units .interFile).ShowsAdditions (.root 0) :=
  known.listing.showsAdditions known.showsRoot

theorem showsContainer : (ofUnits units .interFile).ShowsAdditions k :=
  known.listing.showsAdditions known.showsContainer

theorem isRegular : (ofUnits units .interFile).IsRegular a toY where
  absolute := by simp [toY]
  relative _ := leadsUp known
  steps stand stands := by
    obtain rfl := (standsAt_iff known).mp stands
    have containsK := known.inRoot k (by simp)
    obtain ⟨-, -, isK, -⟩ : _ ∧ _ ∧ _ ∧ _ := by simpa using known.named
    have alone := known.alone
    refine ⟨ShowsAdditions.showsOnly (showsRoot known) known.names.placed rfl
      (by simp [Spot.ref, alone]) _, fun inner contains named => ?_⟩
    obtain rfl :=
      hasDistinctSiblings known contains containsK (named.trans isK.symm)
    exact ⟨ShowsAdditions.showsOnly (showsContainer known) containsK.placed
      containsK.isInstance (by simp [sharedRoots, k, Spot.ref, rootId]) _,
      fun _ _ _ => trivial⟩

theorem reachesInSight_y :
    (ofUnits units .interFile).ReachesInSight a toY y := by
  have containsK := known.inRoot k (by simp)
  obtain ⟨-, -, isK, isY⟩ : _ ∧ _ ∧ _ ∧ _ := by simpa using known.named
  refine ⟨.root 0, (standsAt_iff known).mpr rfl, .step containsK isK
    (ShowsAdditions.hasInSight (showsRoot known) containsK) ?_⟩
  exact .step (containsK.isInstance.symm ▸ known.inContainer) isY
    (ShowsAdditions.hasInSight (showsContainer known) known.inContainer) .here

theorem reachesInSight (found : Spot)
    (reaches : (ofUnits units .interFile).Reaches a toY found) :
    (ofUnits units .interFile).ReachesInSight a toY found := by
  obtain ⟨-, start, starts, descends⟩ := reaches
  have inSight := reachesInSight_y known
  obtain ⟨stand, stands, descends'⟩ := id inSight
  have starts' :=
    stands.startsAt (known.inCopy a (by simp)) (isRegular known)
  obtain rfl := Option.some.inj (starts'.symm.trans starts)
  obtain rfl := (descends'.descends (by simp [toY])).unique
    (hasDistinctSiblings known) descends
  exact inSight

end

end augmentedUses

section

open augmentedUses

/-- From a leaf of the grouping two steps up lead out of the copy, and all that
the path reaches from there is in sight. -/
theorem leafref_agrees_iff_augmentedUses :
    ∃ compilation, compile .standard augmentedUses = .ok compilation ∧
      let scene := ofUnits compilation.units .interFile
      scene.IsWellFormed ∧ scene.HasDistinctSiblings ∧ scene.Contains c a ∧
        (scene.kind? a.ref).any isLeafKind = true ∧
        LeafrefPath.parse "../../m:k/m:y" = .ok toY ∧
        scene.IsRegular a toY ∧
        (∀ found, scene.Reaches a toY found →
          scene.ReachesInSight a toY found) ∧
        ∀ node, scene.leafref a.ref "../../m:k/m:y" a.uses = .ok node ↔
          ∃ found, scene.Reaches a toY found ∧ found.ref = node := by
  obtain ⟨compilation, compiled, known⟩ := exists_scene
  have parsed : LeafrefPath.parse "../../m:k/m:y" = .ok toY := by
    decide +kernel
  have contains := known.inCopy a (by simp)
  have leaf := @isLeaf _ known a (by simp)
  exact ⟨compilation, compiled, isWellFormed known, hasDistinctSiblings known,
    contains, leaf, parsed, isRegular known, reachesInSight known,
    (leafref_agrees_iff (isWellFormed known) (hasDistinctSiblings known)
      contains leaf parsed (isRegular known)).mpr (reachesInSight known)⟩

/-- What a `uses` adds below the top level of its grouping is in the tree of
instances, but a path that starts above the copy does not find it. -/
theorem leafref_misses_addition_of_uses :
    ∃ compilation, compile .standard augmentedUses = .ok compilation ∧
      let scene := ofUnits compilation.units .interFile
      (∀ unit ∈ scene.units, unit.usable = true ∧ ∀ item ∈ unit.queue,
        item.kind ∈ [.uses, .augment] →
          ∃ target, item.state = .resolved target) ∧
        scene.IsWellFormed ∧ scene.HasDistinctSiblings ∧
        scene.Contains (.root 0) r ∧
        (scene.kind? r.ref).any isLeafKind = true ∧
        LeafrefPath.parse "/m:c/m:x" = .ok toX ∧
        scene.Reaches r toX x ∧
        scene.leafref r.ref "/m:c/m:x" r.uses = .error .notFound := by
  obtain ⟨compilation, compiled, known⟩ := exists_scene
  have linked {unit : LinkUnit}
      (member : unit ∈ (ofUnits compilation.units .interFile).units)
      {item : Reference} (queued : item ∈ unit.queue)
      (kind : item.kind ∈ [.uses, .augment]) :
      ∃ target, item.state = .resolved target := by
    have state := known.linked unit member item queued kind
    simp only [List.mem_cons, List.not_mem_nil, or_false] at state
    rcases state with state | state | state <;> exact ⟨_, state⟩
  exact ⟨compilation, compiled,
    fun unit member => ⟨(known.units unit member).1,
      fun _ queued kind => linked member queued kind⟩,
    isWellFormed known, hasDistinctSiblings known, known.inRoot r (by simp),
    isLeaf known (by simp), by decide +kernel, reaches_x known, known.missed⟩

end

end Scene

end YangSchema
