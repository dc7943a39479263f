import YangSchema.Proofs.Linking.Connecting

/-!
# Scenes that grow

A scene grows into another one if the units that can be used are still there with
the same nodes, and if the names in them mean what they have meant.  A unit that is
connected stays so.  Scenes grow while linking goes on, for it writes nothing but
links, and when a unit that has been linked alone is put among others.
-/

namespace YangSchema

/-- Links and headers apart, one unit is like the other. -/
structure LinkUnit.Resembles (before after : LinkUnit) : Prop where
  usable : after.usable = before.usable
  outline : before.tree.SameOutline after.tree

namespace Scene

variable {before after : Scene} {place target : NodeRef}

/-- The scenes have the same unit at a source, links and headers apart. -/
inductive AgreeAt (before after : Scene) (source : SourceId) : Prop
  | missing (old : before.unit? source = none)
      (new : after.unit? source = none) : AgreeAt before after source
  | found {unit unit' : LinkUnit} (old : before.unit? source = some unit)
      (new : after.unit? source = some unit')
      (resembles : unit.Resembles unit') : AgreeAt before after source

/-- What is live stays so, and names that are written in live nodes keep their
meaning. -/
structure Grows (before after : Scene) : Prop where
  agree : ∀ {source}, before.isUsable source = true → before.AgreeAt after source
  lexical : ∀ {place name kind target}, before.IsLive place →
    before.lexical place name kind = .ok target →
      after.lexical place name kind = .ok target

/-- A search among more sources ends where it has ended. -/
theorem searchFrom_append {kind : ConstructKind} {name : String}
    {blocked : Bool} {sources more : List SourceId}
    (agree : ∀ source ∈ sources, before.AgreeAt after source)
    (found : before.searchFrom kind name blocked sources = .ok target) :
    after.searchFrom kind name blocked (sources ++ more) = .ok target := by
  induction sources generalizing blocked with
  | nil => simp [searchFrom] at found
  | cons source rest ih =>
      obtain ⟨here, others⟩ := List.forall_mem_cons.mp agree
      rw [List.cons_append]
      unfold searchFrom at found ⊢
      cases here with
      | missing old new =>
          simp only [old] at found
          simp only [new]
          exact ih others found
      | found old new resembles =>
          simp only [old] at found
          simp only [new, resembles.usable, resembles.outline.findChild?]
          split at found
          next unusable =>
            rw [if_pos unusable]
            exact ih others found
          next usable =>
            rw [if_neg usable]
            split at found
            · exact found
            · exact ih others found

theorem enclosing?_congr (agree : before.AgreeAt after place.source)
    (kind : ConstructKind) (name : String) :
    after.enclosing? place kind name = before.enclosing? place kind name := by
  unfold enclosing? tree?
  cases agree with
  | missing old new => rw [old, new]
  | found old new resembles =>
      simp only [old, new, Option.map_some, resembles.outline.ancestors,
        resembles.outline.findChild?]

/-- A name keeps its meaning if only further sources are searched. -/
theorem lexical_append {name : QualifiedName} {kind : ConstructKind}
    (scopes : ∀ {sources},
      before.scopes place.source name.qualifier = .ok sources →
        (∃ more, after.scopes place.source name.qualifier =
          .ok (sources ++ more)) ∧
        ∀ source ∈ place.source :: sources, before.AgreeAt after source)
    (found : before.lexical place name kind = .ok target) :
    after.lexical place name kind = .ok target := by
  obtain ⟨sources, searched, found⟩ := bind_eq_ok_iff.mp found
  obtain ⟨⟨more, searched'⟩, agree⟩ := scopes searched
  refine bind_eq_ok_iff.mpr ⟨sources ++ more, searched', ?_⟩
  obtain ⟨here, others⟩ := List.forall_mem_cons.mp agree
  cases sources with
  | nil => simp [searchFrom] at found
  | cons first rest =>
      rw [List.cons_append, List.head?_cons, enclosing?_congr here]
      rw [List.head?_cons] at found
      dsimp only at found ⊢
      split at found
      · exact found
      · exact searchFrom_append others found

section

variable (growth : before.Grows after)
include growth

/-- A live node is still there in a unit that is like the one that it had. -/
theorem Grows.unit? (live : before.IsLive place) :
    ∃ unit unit', before.unit? place.source = some unit ∧
      after.unit? place.source = some unit' ∧ unit.Resembles unit' ∧
        unit.usable = true ∧ place.node < unit.tree.size := by
  obtain ⟨unit, found, usable, inside⟩ := live.unit?
  cases growth.agree live.usable with
  | missing old => simp [found] at old
  | found old new resembles =>
      obtain rfl := Option.some.inj (found.symm.trans old)
      exact ⟨_, _, found, new, resembles, usable, inside⟩

theorem IsLive.grows (live : before.IsLive place) : after.IsLive place := by
  obtain ⟨unit, unit', -, found, resembles, usable, inside⟩ := growth.unit? live
  exact isLive_of_unit? found (resembles.usable.trans usable)
    (resembles.outline.size_eq ▸ inside)

theorem Grows.kind? (live : before.IsLive place) :
    after.kind? place = before.kind? place := by
  obtain ⟨unit, unit', found, found', resembles, -⟩ := growth.unit? live
  have kind := resembles.outline.kind? place.node
  unfold SchemaTree.kind? at kind
  unfold Scene.kind?
  rw [node?_of_unit? found, node?_of_unit? found', kind]

theorem Grows.ancestors (live : before.IsLive place) :
    after.ancestors place = before.ancestors place := by
  obtain ⟨unit, unit', found, found', resembles, -⟩ := growth.unit? live
  simp only [Scene.ancestors, tree?, found, found', Option.map_some,
    resembles.outline.ancestors]

theorem Grows.type? (live : before.IsLive place) {use : TypeUse}
    (declared : before.type? place = some use) :
    ∃ use', after.type? place = some use' ∧ use'.unlinked = use.unlinked := by
  obtain ⟨unit, unit', found, found', resembles, -⟩ := growth.unit? live
  have types {scene : Scene} {unit : LinkUnit}
      (found : scene.unit? place.source = some unit) :
      scene.type? place = unit.tree.typeAt? ⟨place.node, none⟩ := by
    rw [SchemaTree.typeAt?_eq, Scene.type?, Scene.construct?,
      node?_of_unit? found]
    rfl
  rw [types found] at declared
  obtain ⟨use', declared', unlinked⟩ :=
    resembles.outline.symm.typeAt? declared
  exact ⟨use', (types found').trans declared', unlinked⟩

theorem IsTarget.grows {kind : ReferenceKind}
    (isTarget : before.IsTarget kind target) : after.IsTarget kind target where
  live := isTarget.live.grows growth
  ofKind := by
    rw [growth.kind? isTarget.live]
    exact isTarget.ofKind

theorem Suits.grows {kind : ReferenceKind} (live : before.IsLive place)
    (suits : before.Suits place kind target) :
    after.Suits place kind target where
  isTarget := suits.isTarget.grows growth
  outside := by
    rw [growth.ancestors live]
    exact suits.outside
  other := suits.other

theorem ChainEnds.grows {first last : NodeRef} {builtin : BuiltinType}
    (ends : before.ChainEnds first last builtin) (live : before.IsLive first) :
    after.ChainEnds first last builtin := by
  induction ends with
  | here declared named =>
      obtain ⟨use, declared, unlinked⟩ := growth.type? live declared
      have builtin := congrArg (·.builtin) unlinked
      exact .here declared (builtin.trans named)
  | next declared derived found _ ih =>
      obtain ⟨use, declared, unlinked⟩ := growth.type? live declared
      have builtin := congrArg (·.builtin) unlinked
      have name : use.name = _ := congrArg (·.name) unlinked
      refine .next declared (builtin.trans derived) ?_
        (ih (lexical_isLive live found))
      rw [name]
      exact growth.lexical live found

theorem Derives.grows {name : QualifiedName} {typedef : NodeRef}
    {effective : EffectiveType} (live : before.IsLive place)
    (derives : before.Derives place name typedef effective) :
    after.Derives place name typedef effective where
  found := growth.lexical live derives.found
  ends := by
    obtain ⟨last, ends, holder⟩ := derives.ends
    exact ⟨last, ends.grows growth (lexical_isLive live derives.found), holder⟩

end

end Scene

theorem SchemaTree.Links.lt_size {tree : SchemaTree} {id : NodeId}
    {kind : ReferenceKind} {target : NodeRef}
    (linked : tree.Links id kind target) : id < tree.size := by
  cases linked with
  | construct found =>
      obtain ⟨node, known, -⟩ := construct?_eq_some_iff.mp found
      exact lt_size_of_node? known
  | type declared =>
      obtain ⟨node, known, -⟩ := typeAt?_eq_some_iff.mp declared
      exact lt_size_of_node? known
  | feature found => exact lt_size_of_node? found

/-- A connected unit stays so when the scene grows. -/
theorem LinkUnit.IsConnectedIn.grows {unit : LinkUnit} {before after : Scene}
    (whole : unit.IsConnectedIn before) (growth : before.Grows after)
    (live : ∀ id < unit.tree.size, before.IsLive ⟨unit.source, id⟩) :
    unit.IsConnectedIn after :=
  { whole with
    links := fun linked =>
      (whole.links linked).grows growth (live _ linked.lt_size)
    derived := fun declared bound => by
      obtain ⟨effective, recorded, derives⟩ := whole.derived declared bound
      obtain ⟨node, known, -⟩ := SchemaTree.typeAt?_eq_some_iff.mp declared
      exact ⟨effective, recorded,
        derives.grows growth (live _ (SchemaTree.lt_size_of_node? known))⟩
    named := fun queued names => (whole.named queued names).grows growth }

namespace Scene

variable {phase : LinkPhase} {before after units : List LinkUnit}

theorem unit?_front (units : List LinkUnit) (phase : LinkPhase)
    (source : SourceId) :
    ((ofUnits units phase).unit? source).map (·.front) =
      (units.map (·.front)).find? (·.2.1 == source) := by
  rw [List.find?_map]
  rfl

/-- Which sources a name is looked up in can be seen from outside. -/
theorem scopes_congr (same : after.map (·.front) = before.map (·.front))
    (source : SourceId) (qualifier : Option String) :
    (ofUnits after phase).scopes source qualifier =
      (ofUnits before phase).scopes source qualifier := by
  have front (source : SourceId) :
      ((ofUnits after phase).unit? source).map (·.front) =
        ((ofUnits before phase).unit? source).map (·.front) := by
    rw [unit?_front, unit?_front, same]
  have header : ((ofUnits after phase).tree? source).bind (·.header?) =
      ((ofUnits before phase).tree? source).bind (·.header?) := by
    have header := congrArg (·.bind (·.2.2)) (front source)
    simp only [Option.bind_map] at header
    simp only [tree?, Option.bind_map]
    exact header
  have usable (source : SourceId) : (ofUnits after phase).isUsable source =
      (ofUnits before phase).isUsable source := by
    have usable := congrArg (·.any (·.1)) (front source)
    simp only [Option.any_map] at usable
    exact usable
  simp only [scopes, header, usable]
  rfl

/-- Linking changes links and queues only. -/
theorem agreeAt_of_evolves (distinct : (before.map (·.source)).Nodup)
    (evolves : Linking.Evolves before after) (source : SourceId) :
    (ofUnits before phase).AgreeAt (ofUnits after phase) source := by
  cases old : (ofUnits before phase).unit? source with
  | none =>
      refine .missing old ?_
      have front := unit?_front after phase source
      rw [evolves.map_front, ← unit?_front before phase, old] at front
      exact Option.map_eq_none_iff.mp front
  | some unit =>
      obtain ⟨member, rfl⟩ := unit?_mem old
      obtain ⟨place, listed⟩ := List.mem_iff_getElem?.mp member
      obtain ⟨unit', listed', evolved⟩ := evolves.unit listed
      have source : unit'.source = unit.source := evolved.text.source
      have new : (ofUnits after phase).unit? unit'.source = some unit' :=
        @unit?_of_mem (ofUnits after phase) (evolves.map_source ▸ distinct)
          unit' (List.mem_of_getElem? listed')
      rw [source] at new
      exact .found old new ⟨evolved.usable, evolved.text.outline⟩

/-- Linking lets the scene of the units grow. -/
theorem grows_of_evolves (distinct : (before.map (·.source)).Nodup)
    (evolves : Linking.Evolves before after) :
    (ofUnits before phase).Grows (ofUnits after phase) := by
  have agree := fun source =>
    @agreeAt_of_evolves phase _ _ distinct evolves source
  refine ⟨fun _ => agree _, fun _ found => lexical_append ?_ found⟩
  intro sources searched
  rw [scopes_congr evolves.map_front]
  exact ⟨⟨[], by rw [List.append_nil, searched]⟩, fun source _ => agree source⟩

end Scene

/-- None of the imports of a unit is bound. -/
def LinkUnit.IsUnbound (unit : LinkUnit) : Prop :=
  ∀ header, unit.tree.header? = some header →
    ∀ declaration ∈ header.imports, declaration.resolved = none

namespace Scene

/-- In a unit that is alone all names mean nodes of this unit. -/
theorem scopes_alone {unit : LinkUnit} {qualifier : Option String}
    {sources : List SourceId} (unbound : unit.IsUnbound)
    (searched : (ofUnits [unit] .intraFile).scopes unit.source qualifier =
      .ok sources) :
    sources = [unit.source] ∧ ∃ own, unit.tree.ownQualifier? = some own ∧
      qualifier.filter (· ≠ own) = none := by
  have tree : (ofUnits [unit] .intraFile).tree? unit.source = some unit.tree := by
    simp [tree?, unit?, ofUnits]
  simp only [scopes, tree, Option.bind_some] at searched
  split at searched
  · simp at searched
  next header declared =>
    split at searched
    next own =>
      exact ⟨(Except.ok.inj searched).symm, header.qualifier, by
        simp [SchemaTree.ownQualifier?, declared], own⟩
    next foreign _ =>
      split at searched
      · simp at searched
      next imported bound =>
        obtain ⟨declaration, listed, resolved⟩ := Option.bind_eq_some_iff.mp bound
        have unresolved := unbound header declared declaration
          (List.mem_of_find?_eq_some listed)
        simp [unresolved] at resolved

theorem scopes_own {scene : Scene} {source : SourceId} {tree : SchemaTree}
    {own : String} {qualifier : Option String}
    (known : scene.tree? source = some tree)
    (named : tree.ownQualifier? = some own)
    (mine : qualifier.filter (· ≠ own) = none) :
    ∃ more, scene.scopes source qualifier = .ok (source :: more) := by
  obtain ⟨header, declared, rfl⟩ := Option.map_eq_some_iff.mp named
  simp only [scopes, known, Option.bind_some, declared, mine]
  split <;> exact ⟨_, rfl⟩

/-- A unit that has been alone is put among others. -/
theorem grows_of_alone {unit unit' : LinkUnit} {units : List LinkUnit}
    {phase : LinkPhase} (unbound : unit.IsUnbound)
    (found : (ofUnits units phase).unit? unit.source = some unit')
    (resembles : unit.Resembles unit')
    (qualifier : unit'.tree.ownQualifier? = unit.tree.ownQualifier?) :
    (ofUnits [unit] .intraFile).Grows (ofUnits units phase) := by
  have alone : (ofUnits [unit] .intraFile).unit? unit.source = some unit := by
    simp [unit?, ofUnits]
  have agree : (ofUnits [unit] .intraFile).AgreeAt (ofUnits units phase)
      unit.source := .found alone found resembles
  have only {source : SourceId}
      (usable : (ofUnits [unit] .intraFile).isUsable source = true) :
      source = unit.source := by
    obtain ⟨other, known, -⟩ := isUsable_iff.mp usable
    obtain ⟨member, rfl⟩ := unit?_mem known
    rw [List.mem_singleton.mp member]
  refine ⟨fun usable => only usable ▸ agree,
    fun live found' => lexical_append ?_ found'⟩
  intro sources searched
  rw [only live.usable] at searched ⊢
  obtain ⟨rfl, own, named, mine⟩ := scopes_alone unbound searched
  have tree : (ofUnits units phase).tree? unit.source = some unit'.tree := by
    simp [tree?, found]
  refine ⟨scopes_own tree (qualifier.trans named) mine, ?_⟩
  simpa using agree

end Scene

end YangSchema

/-!
## Linking keeps units connected

Linking passes through the units that there are after each rank and, across files,
after the groupings have been instantiated.  Units that are connected at the start
are connected wherever linking passes:  what a rank writes down suits the scene
that it was found in, and that scene grows into the next one.
-/

namespace YangSchema

namespace Linking

/-- The units that linking can pass through. -/
inductive Passes (phase : LinkPhase) (start : List LinkUnit) :
    List LinkUnit → Prop
  | start : Passes phase start start
  | rank {units : List LinkUnit} (rank : Nat)
      (passes : Passes phase start units) :
      Passes phase start (applyAll units (rankOutcomes units phase rank))
  | instances {units : List LinkUnit} (across : phase = .interFile)
      (passes : Passes phase start units) :
      Passes phase start (instantiateGroupings units)

section

variable {phase : LinkPhase} {start units : List LinkUnit}

theorem Passes.roundFrom (passes : Passes phase start units)
    (ranks rank : Nat) :
    Passes phase start (roundFrom phase ranks rank units).1 := by
  induction ranks generalizing rank units with
  | zero => exact passes
  | succ ranks ih => exact ih (passes.rank rank) (rank + 1)

theorem Passes.settle (passes : Passes phase start units) :
    Passes phase start (settle phase units) :=
  repeatRounds_keeps (Passes phase start)
    (fun _ before => before.roundFrom ReferenceKind.rankCount 0) _ passes

theorem link_passes (phase : LinkPhase) (start : List LinkUnit) :
    Passes phase start (link phase start) := by
  have settled : Passes phase start (Linking.settle phase start) :=
    Passes.start.settle
  cases phase with
  | intraFile => exact settled
  | interFile => exact (settled.instances rfl).settle

end

/-- An outcome is one that a reference of one of the units can have. -/
def Settled.IsSuitedTo (settled : Settled) (scene : Scene)
    (units : List LinkUnit) : Prop :=
  ∃ unit, units[settled.unit]? = some unit ∧
    unit.IsSuitedAt scene settled.index settled.outcome

variable {scene : Scene} {phase : LinkPhase} {units : List LinkUnit}

/-- Whatever is written down, units stay connected in the scene in which it has
been found. -/
theorem applyAll_isConnectedIn {outcomes : List Settled}
    (whole : ∀ unit ∈ units, unit.usable = true → unit.IsConnectedIn scene)
    (suited : ∀ settled ∈ outcomes, settled.IsSuitedTo scene units) :
    ∀ unit ∈ applyAll units outcomes, unit.usable = true →
      unit.IsConnectedIn scene :=
  applyAll_keeps (fun settled unit =>
      unit.IsSuitedAt scene settled.index settled.outcome)
    (fun suited evolves => suited.evolves evolves)
    (fun whole suited => whole.apply suited) whole suited

namespace IsConnected

variable (connected : IsConnected phase units)
include connected

/-- Units that have evolved and are still connected in the scene of before are so
in their own. -/
theorem of_evolves {after : List LinkUnit} (evolves : Evolves units after)
    (whole : ∀ unit ∈ after, unit.usable = true →
      unit.IsConnectedIn (.ofUnits units phase)) : IsConnected phase after where
  distinct := evolves.map_source ▸ connected.distinct
  units unit' member' usable := by
    obtain ⟨unit, member, evolved⟩ := evolves.earlier member'
    have source : unit'.source = unit.source := evolved.text.source
    refine (whole unit' member' usable).grows
      (Scene.grows_of_evolves connected.distinct evolves) fun id inside => ?_
    rw [source]
    refine connected.isLive_of_mem member (evolved.usable ▸ usable) ?_
    rwa [evolved.text.outline.size_eq] at inside

theorem rankOutcomes_isSuitedTo {rank : Nat} {settled : Settled}
    (listed : settled ∈ rankOutcomes units phase rank) :
    settled.IsSuitedTo (.ofUnits units phase) units := by
  obtain ⟨⟨unit, place⟩, atPlace, listed⟩ := List.mem_flatMap.mp listed
  have found := List.mk_mem_zipIdx_iff_getElem?.mp atPlace
  dsimp only at listed
  split at listed
  next usable =>
    obtain ⟨index, _, listed⟩ := List.mem_filterMap.mp listed
    obtain ⟨item, queued, listed⟩ := Option.bind_eq_some_iff.mp listed
    have suited := connected.outcome_isSuited (List.mem_of_getElem? found)
      usable (List.mem_of_getElem? queued)
    split at listed
    · simp at listed
    · obtain rfl := Option.some.inj listed
      exact ⟨unit, found, item, queued, suited⟩
  · simp at listed

/-- The units stay connected in the scene in which a rank has been computed. -/
theorem applyAll_isConnectedIn (rank : Nat) :
    ∀ unit ∈ applyAll units (rankOutcomes units phase rank),
      unit.usable = true → unit.IsConnectedIn (.ofUnits units phase) :=
  Linking.applyAll_isConnectedIn connected.units fun _ listed =>
    connected.rankOutcomes_isSuitedTo listed

theorem applyAll (rank : Nat) :
    IsConnected phase (applyAll units (rankOutcomes units phase rank)) :=
  connected.of_evolves (applyAll_evolves units _)
    (connected.applyAll_isConnectedIn rank)

omit connected in
theorem instantiateGroupings_isConnectedIn
    (connected : IsConnected .interFile units) :
    ∀ unit ∈ instantiateGroupings units, unit.usable = true →
      unit.IsConnectedIn (.ofUnits units .interFile) := by
  intro unit' member' usable'
  obtain ⟨unit, member, rfl⟩ := List.mem_map.mp member'
  split at usable'
  next usable =>
    rw [if_pos usable]
    have whole := connected.units unit member usable
    refine whole.of_outline (.refl unit.tree) .inl whole.derived ?_
    intro item ref queued named
    obtain old | new := List.mem_append.mp queued
    · exact whole.named old named
    · obtain ⟨origin, queued, made⟩ := List.mem_flatMap.mp new
      exact connected.isLive <| Scene.instances_names
        (fun named => .queued member usable queued named) made named
  next unusable => exact absurd usable' unusable

omit connected in
theorem instantiateGroupings (connected : IsConnected .interFile units) :
    IsConnected .interFile (instantiateGroupings units) :=
  connected.of_evolves (instantiateGroupings_evolves units)
    connected.instantiateGroupings_isConnectedIn

/-- Wherever linking passes, the units are connected. -/
theorem of_passes {passed : List LinkUnit} (passes : Passes phase units passed) :
    IsConnected phase passed := by
  induction passes with
  | start => exact connected
  | rank rank _ ih => exact ih.applyAll rank
  | instances across _ ih =>
      subst across
      exact ih.instantiateGroupings

end IsConnected

end Linking

end YangSchema
