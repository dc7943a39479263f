import Mathlib.Data.List.Find
import YangSchema.Proofs.Linking.Failing
import YangSchema.Proofs.Linking.FirstMatch
import YangSchema.Proofs.Linking.Relocating

/-!
# Moving definitions into a submodule

Definitions at the top level of a module can be moved into a submodule that the module
includes.  The other nodes of the units stay where they are, and all names are written
as before.  A name that is looked up in the module reaches the submodule as well, and
one that is looked up in what has been moved finds what has been moved.  But a name
with the prefix of an import reaches the imported module only.
-/

namespace YangSchema

/-- Which nodes of a unit are moved into another one, and the numbers that the nodes
have in their trees then. -/
structure Splitting where
  /-- The module that is split. -/
  whole : SourceId
  /-- The new submodule. -/
  part : SourceId
  moved : NodeId → Bool
  number : NodeId → NodeId

namespace Splitting

/-- The nodes that are moved. -/
def Moves (σ : Splitting) (node : NodeRef) : Bool :=
  node.source == σ.whole && σ.moved node.node

/-- The unit in which a node stands then. -/
def home (σ : Splitting) (node : NodeRef) : SourceId :=
  if σ.Moves node then σ.part else node.source

theorem home_eq (σ : Splitting) (node : NodeRef) :
    σ.home node = σ.part ∨ σ.home node = node.source := by
  unfold home
  split
  · exact .inl rfl
  · exact .inr rfl

/-- Where a node stands then. -/
def ref (σ : Splitting) (node : NodeRef) : NodeRef :=
  ⟨σ.home node,
    if node.source = σ.whole then σ.number node.node else node.node⟩

/-- Where a node stands then that encloses another one. -/
def around (σ : Splitting) (node enclosing : NodeRef) : NodeRef :=
  if enclosing.node = rootId then ⟨σ.home node, rootId⟩ else σ.ref enclosing

end Splitting

/-- The members of a construct that is a union. -/
def Construct.unionMembers : Construct → List TypeUse
  | .union members => members
  | _ => []

theorem Construct.typeAt?_some (construct : Construct) (index : Nat) :
    construct.typeAt? (some index) = construct.unionMembers[index]? := by
  cases construct <;> rfl

/-- What a node says, as far as names are looked up in it. -/
@[ext]
structure Wording where
  kind : ConstructKind
  name : String
  type : Option TypeText
  members : List TypeText

instance : DecidableEq Wording := fun _ _ =>
  decidable_of_iff _ Wording.ext_iff.symm

def SchemaNode.wording (node : SchemaNode) : Wording :=
  { kind := node.kind
    name := node.name
    type := node.construct.type?.map (·.text)
    members := node.construct.unionMembers.map (·.text) }

namespace LinkUnit

/-- What the prefixes of the imports of a unit mean. -/
def imported (unit : LinkUnit) : List (String × Option SourceId) :=
  unit.tree.header?.elim [] fun header =>
    header.imports.map fun declaration =>
      (declaration.qualifier, declaration.resolved)

/-- The names that a unit looks up for itself, whatever has been found for them. -/
def asks (unit : LinkUnit) : List Ask :=
  (unit.queue.filter fun item => item.origin.isNone && item.kind.isName).map
    (·.ask unit.source)

end LinkUnit

/-- A name of a kind of definition, and where it is written. -/
structure Writing where
  place : NodeRef
  kind : ConstructKind
  name : QualifiedName

/-- The name that is asked for. -/
def Ask.writing? (ask : Ask) : Option Writing :=
  (Linking.soughtKind ask.kind).bind fun kind =>
    (QualifiedName.parse? ask.text).map (⟨ask.consumer, kind, ·⟩)

/-- The names in a type that is written at a place. -/
def TypeUse.writings (use : TypeUse) (place : NodeRef) : List Writing :=
  ⟨place, .typedef, use.name⟩ :: use.base.toList.map (⟨place, .identity, ·⟩)

/-- The names that are written in a unit. -/
def LinkUnit.writings (unit : LinkUnit) : List Writing :=
  (unit.tree.ids.flatMap fun id =>
    (unit.tree.construct? id).elim [] fun construct =>
      (construct.type?.toList ++ construct.unionMembers).flatMap
        (·.writings ⟨unit.source, id⟩)) ++
    unit.asks.filterMap (·.writing?)

/-- The names that are written in the units of a scene. -/
def Scene.writings (scene : Scene) : List Writing :=
  scene.units.flatMap (·.writings)

/-- What a name means where it is written. -/
def Writing.target? (writing : Writing) (scene : Scene) : Option NodeRef :=
  (scene.means writing.place writing.kind writing.name).toOption

namespace Splitting

/-- A unit with the imports and includes that it has had.  The one that is split
includes the new one as well, wherever it says so. -/
structure KeepsUnit (σ : Splitting) (unit unit' : LinkUnit) : Prop where
  source : unit'.source = unit.source
  usable : unit'.usable = unit.usable
  qualifier : unit'.tree.ownQualifier? = unit.tree.ownQualifier?
  imported : unit'.imported = unit.imported
  sources : unit'.ownSources.Perm
    (unit.ownSources ++ if unit.source = σ.whole then [σ.part] else [])

instance (σ : Splitting) (unit unit' : LinkUnit) :
    Decidable (σ.KeepsUnit unit unit') :=
  decidable_of_iff (_ ∧ _ ∧ _ ∧ _ ∧ _)
    ⟨fun each => ⟨each.1, each.2.1, each.2.2.1, each.2.2.2.1, each.2.2.2.2⟩,
      fun keeps => ⟨keeps.source, keeps.usable, keeps.qualifier, keeps.imported,
        keeps.sources⟩⟩

/-- Units of which one has been split:  every node says what it has said and has the
same nodes inside, those at the top of the whole are shared out in their order, and the
same names are looked up for the same nodes. -/
structure Splits (σ : Splitting) (before after : Scene) : Prop where
  across : before.phase = .interFile ∧ after.phase = .interFile
  /-- No two nodes come to stand at one place, and none at the root of the new unit. -/
  apart : (⟨σ.part, rootId⟩ :: before.nodeRefs.map σ.ref).Nodup
  root : σ.ref ⟨σ.whole, rootId⟩ = ⟨σ.whole, rootId⟩
  wording : ∀ node ∈ before.nodeRefs,
    (after.node? (σ.ref node)).map (·.wording) =
      (before.node? node).map (·.wording)
  enclosing : ∀ node ∈ before.nodeRefs,
    after.ancestors (σ.ref node) = (before.ancestors node).map (σ.around node)
  inside : ∀ node ∈ before.nodeRefs, node ≠ ⟨σ.whole, rootId⟩ →
    after.children (σ.ref node) = (before.children node).map σ.ref
  rest : after.children ⟨σ.whole, rootId⟩ =
    ((before.children ⟨σ.whole, rootId⟩).filter (!σ.Moves ·)).map σ.ref
  part : after.children ⟨σ.part, rootId⟩ =
    ((before.children ⟨σ.whole, rootId⟩).filter σ.Moves).map σ.ref
  units : ∀ unit ∈ before.units, ∃ unit' ∈ after.units, σ.KeepsUnit unit unit'
  added : ∃ unit' ∈ after.units, unit'.source = σ.part ∧ unit'.usable = true ∧
    unit'.tree.ownQualifier? =
      (before.tree? σ.whole).bind (·.ownQualifier?)
  asks : (after.units.flatMap (·.asks)).Perm
    ((before.units.flatMap (·.asks)).map (·.move σ.ref))

instance (σ : Splitting) (before after : Scene) :
    Decidable (σ.Splits before after) :=
  decidable_of_iff (_ ∧ _ ∧ _ ∧ _ ∧ _ ∧ _ ∧ _ ∧ _ ∧ _ ∧ _ ∧ _)
    ⟨fun each => ⟨each.1, each.2.1, each.2.2.1, each.2.2.2.1, each.2.2.2.2.1,
        each.2.2.2.2.2.1, each.2.2.2.2.2.2.1, each.2.2.2.2.2.2.2.1,
        each.2.2.2.2.2.2.2.2.1, each.2.2.2.2.2.2.2.2.2.1,
        each.2.2.2.2.2.2.2.2.2.2⟩,
      fun splits => ⟨splits.across, splits.apart, splits.root, splits.wording,
        splits.enclosing, splits.inside, splits.rest, splits.part, splits.units,
        splits.added, splits.asks⟩⟩

/-- The names in what is moved mean what is moved. -/
def IsClosed (σ : Splitting) (scene : Scene) : Prop :=
  ∀ writing ∈ scene.writings, σ.Moves writing.place →
    ∀ target ∈ writing.target? scene, σ.Moves target

instance (σ : Splitting) (scene : Scene) : Decidable (σ.IsClosed scene) :=
  inferInstanceAs (Decidable (∀ writing ∈ scene.writings,
    _ → ∀ target ∈ writing.target? scene, _))

/-- What is moved is meant by names of its own unit only, without the prefix of an
import. -/
def IsPrivate (σ : Splitting) (scene : Scene) : Prop :=
  ∀ writing ∈ scene.writings, ∀ target ∈ writing.target? scene, σ.Moves target →
    writing.place.source = σ.whole ∧
      (writing.name.qualifier = none ∨ writing.name.qualifier =
        (scene.tree? σ.whole).bind (·.ownQualifier?))

instance (σ : Splitting) (scene : Scene) : Decidable (σ.IsPrivate scene) :=
  inferInstanceAs (Decidable (∀ writing ∈ scene.writings,
    ∀ target ∈ writing.target? scene, _ → _))

end Splitting

namespace Scene

/-- Where a name is looked up that is written in a unit. -/
theorem scopes_eq {scene : Scene} {source : SourceId} {unit : LinkUnit}
    (across : scene.phase = .interFile) (known : scene.unit? source = some unit)
    (qualifier : Option String) : scene.scopes source qualifier =
      unit.tree.ownQualifier?.elim (.error .notFound) fun own =>
        (qualifier.filter (· ≠ own)).elim (.ok unit.ownSources) fun other =>
          ((unit.imported.find? (·.1 == other)).bind (·.2)).elim
            (.error .notFound) fun imported =>
              if scene.isUsable imported then .ok [imported]
              else .error .blocked := by
  obtain ⟨-, rfl⟩ := unit?_mem known
  simp only [scopes, tree?, known, Option.map_some, Option.bind_some, across,
    SchemaTree.ownQualifier?, LinkUnit.ownSources, LinkUnit.imported]
  cases unit.tree.header? with
  | none => rfl
  | some header =>
      simp only [Option.map_some, Option.elim_some, List.find?_map,
        Option.bind_map]
      cases qualifier.filter (· ≠ header.qualifier) with
      | none => rfl
      | some other =>
          change _ = ((header.importFor? other).bind (·.resolved)).elim _ _
          dsimp only
          cases (header.importFor? other).bind (·.resolved) <;> rfl

end Scene

/-- The first match stays the first one among those that are kept. -/
theorem find?_filter_of_some {α : Type} {items : List α} {item : α}
    {ask keep : α → Bool} (found : items.find? ask = some item)
    (kept : keep item = true) : (items.filter keep).find? ask = some item := by
  obtain ⟨isAsked, front, back, rfl, others⟩ :=
    List.find?_eq_some_iff_append.mp found
  rw [List.filter_append, List.filter_cons_of_pos kept, List.find?_append,
    List.find?_eq_none.mpr, Option.none_or, List.find?_cons_of_pos isAsked]
  exact fun other listed => by simpa using others other (List.mem_of_mem_filter listed)

namespace Splitting.Splits

variable {σ : Splitting} {before after : Scene} {node : NodeRef}
  (splits : σ.Splits before after)

include splits

theorem injective {first second : NodeRef} (known : first ∈ before.nodeRefs)
    (known' : second ∈ before.nodeRefs) (same : σ.ref first = σ.ref second) :
    first = second :=
  List.inj_on_of_nodup_map splits.apart.of_cons known known' same

theorem ref_ne_part (known : node ∈ before.nodeRefs) :
    σ.ref node ≠ ⟨σ.part, rootId⟩ := fun same =>
  (List.nodup_cons.mp splits.apart).1 (same ▸ List.mem_map_of_mem known)

/-- No node comes to stand at the top of its tree. -/
theorem node_eq_root_of_ref (known : node ∈ before.nodeRefs)
    (top : (σ.ref node).node = rootId) : node.node = rootId := by
  by_cases whole : node.source = σ.whole
  · have there : σ.ref node = ⟨σ.home node, rootId⟩ :=
      congrArg (NodeRef.mk (σ.home node)) top
    cases moves : σ.Moves node with
    | true =>
        rw [home, moves, if_pos rfl] at there
        exact absurd there (splits.ref_ne_part known)
    | false =>
        rw [home, moves, if_neg Bool.false_ne_true, whole, ← splits.root] at there
        rw [splits.injective known
          (whole ▸ Scene.root_mem_nodeRefs known) there]
  · simpa [ref, whole] using top

theorem kind?_ref (known : node ∈ before.nodeRefs) :
    after.kind? (σ.ref node) = before.kind? node := by
  have same := congrArg (·.map (·.kind)) (splits.wording node known)
  simp only [Option.map_map] at same
  exact same

theorem nameOf_ref (known : node ∈ before.nodeRefs) :
    after.nameOf (σ.ref node) = before.nameOf node := by
  have same := congrArg (·.map (·.name)) (splits.wording node known)
  unfold Scene.nameOf
  cases inAfter : after.node? (σ.ref node) <;>
    cases inBefore : before.node? node <;>
      simp_all [SchemaNode.wording]

/-- What is kept of the nodes at a place is found there as before. -/
theorem firstNamed?_of_children {kind : ConstructKind} {name : String}
    {place place' target : NodeRef} {keep : NodeRef → Bool}
    (children : after.children place' =
      ((before.children place).filter keep).map σ.ref)
    (kept : keep target = true)
    (found : before.firstNamed? [kind] name [place] = some target) :
    after.firstNamed? [kind] name [place'] = some (σ.ref target) := by
  simp only [Scene.firstNamed?, List.flatMap_singleton] at found ⊢
  rw [children, List.find?_map, Option.map_eq_some_iff]
  refine ⟨target, ?_, rfl⟩
  rw [← find?_filter_of_some found kept]
  refine List.find?_congr fun child listed => ?_
  have known := Scene.mem_nodeRefs_of_mem_children (List.mem_of_mem_filter listed)
  simp only [Function.comp_apply, splits.kind?_ref known, splits.nameOf_ref known]

theorem mem_units {source : SourceId} {unit : LinkUnit}
    (distinct : (after.units.map (·.source)).Nodup)
    (known : before.unit? source = some unit) :
    ∃ unit', after.unit? source = some unit' ∧ σ.KeepsUnit unit unit' := by
  obtain ⟨member, rfl⟩ := Scene.unit?_mem known
  obtain ⟨unit', member', keeps⟩ := splits.units unit member
  exact ⟨unit', keeps.source ▸ Scene.unit?_of_mem distinct member', keeps⟩

theorem isUsable_of {source : SourceId}
    (distinct : (after.units.map (·.source)).Nodup)
    (usable : before.isUsable source = true) : after.isUsable source = true := by
  obtain ⟨unit, known, usable⟩ := (Option.any_eq_true _ _).mp usable
  obtain ⟨unit', known', keeps⟩ := splits.mem_units distinct known
  simp [Scene.isUsable, known', keeps.usable, usable]

theorem isUsable_home (distinct : (after.units.map (·.source)).Nodup)
    (usable : before.isUsable node.source = true) :
    after.isUsable (σ.home node) = true := by
  unfold home
  split
  · obtain ⟨unit', member', source, usable', -⟩ := splits.added
    have known' : after.unit? σ.part = some unit' :=
      source ▸ Scene.unit?_of_mem distinct member'
    simp [Scene.isUsable, known', usable']
  · exact splits.isUsable_of distinct usable

/-- Where a name is looked up that is written in a unit besides the new one. -/
theorem exists_scopes {source : SourceId} {qualifier : Option String}
    {sources : List SourceId} (distinct : (after.units.map (·.source)).Nodup)
    (scopes : before.scopes source qualifier = .ok sources) :
    ∃ sources', after.scopes source qualifier = .ok sources' ∧
      sources'.head? = sources.head? ∧ (∀ other ∈ sources, other ∈ sources') ∧
      (source = σ.whole → qualifier = none ∨ qualifier =
          (before.tree? σ.whole).bind (·.ownQualifier?) →
        σ.part ∈ sources') := by
  cases known : before.unit? source with
  | none => simp [Scene.scopes, Scene.tree?, known] at scopes
  | some unit =>
      obtain ⟨unit', known', keeps⟩ := splits.mem_units distinct known
      obtain ⟨-, rfl⟩ := Scene.unit?_mem known
      rw [Scene.scopes_eq splits.across.1 known] at scopes
      rw [Scene.scopes_eq splits.across.2 known', keeps.qualifier, keeps.imported]
      cases declared : unit.tree.ownQualifier? with
      | none => simp [declared] at scopes
      | some own =>
          simp only [declared, Option.elim_some] at scopes ⊢
          cases foreign : qualifier.filter (· ≠ own) with
          | none =>
              simp only [foreign, Option.elim_none] at scopes ⊢
              obtain rfl := Except.ok.inj scopes
              refine ⟨unit'.ownSources, rfl, ?_, fun other listed => ?_,
                fun whole _ => ?_⟩
              · rw [LinkUnit.ownSources, LinkUnit.ownSources, keeps.source]
                rfl
              · exact keeps.sources.mem_iff.mpr (List.mem_append_left _ listed)
              · rw [keeps.sources.mem_iff, if_pos whole]
                exact List.mem_append_right _ (List.mem_singleton_self _)
          | some other =>
              simp only [foreign, Option.elim_some] at scopes ⊢
              cases found : (unit.imported.find? (·.1 == other)).bind (·.2) with
              | none => simp [found] at scopes
              | some imported =>
                  simp only [found, Option.elim_some] at scopes ⊢
                  split at scopes
                  next usable =>
                    obtain rfl := Except.ok.inj scopes
                    rw [if_pos (splits.isUsable_of distinct usable)]
                    refine ⟨[imported], rfl, rfl, fun _ listed => listed,
                      fun whole mine => ?_⟩
                    -- A name of the unit itself is not looked up in an import.
                    have isTree : before.tree? σ.whole = some unit.tree := by
                      rw [← whole, Scene.tree?, known, Option.map_some]
                    rw [isTree, Option.bind_some, declared] at mine
                    obtain rfl | rfl := mine
                    · simp at foreign
                    · simp only [Option.filter_some, ne_eq, decide_not,
                        decide_true, Bool.not_true] at foreign
                      cases foreign
                  · simp at scopes

/-- Where a name is looked up that is written in the new unit. -/
theorem exists_scopes_part {qualifier : Option String}
    {sources : List SourceId} (distinct : (after.units.map (·.source)).Nodup)
    (scopes : before.scopes σ.whole qualifier = .ok sources)
    (mine : qualifier = none ∨ qualifier =
      (before.tree? σ.whole).bind (·.ownQualifier?)) :
    sources.head? = some σ.whole ∧
      ∃ sources', after.scopes σ.part qualifier = .ok sources' ∧
        sources'.head? = some σ.part ∧ σ.part ∈ sources' := by
  cases known : before.unit? σ.whole with
  | none => simp [Scene.scopes, Scene.tree?, known] at scopes
  | some unit =>
      obtain ⟨unit', member', source, -, qualifier'⟩ := splits.added
      have known' : after.unit? σ.part = some unit' :=
        source ▸ Scene.unit?_of_mem distinct member'
      have isTree : before.tree? σ.whole = some unit.tree := by
        rw [Scene.tree?, known, Option.map_some]
      rw [isTree, Option.bind_some] at mine qualifier'
      rw [Scene.scopes_eq splits.across.1 known] at scopes
      rw [Scene.scopes_eq splits.across.2 known', qualifier']
      cases declared : unit.tree.ownQualifier? with
      | none => simp [declared] at scopes
      | some own =>
          have foreign : qualifier.filter (· ≠ own) = none := by
            rw [declared] at mine
            obtain rfl | rfl := mine <;> simp
          simp only [declared, foreign, Option.elim_some, Option.elim_none]
            at scopes ⊢
          obtain rfl := Except.ok.inj scopes
          refine ⟨congrArg some (Scene.unit?_mem known).2, _, rfl,
            congrArg some source, ?_⟩
          exact source ▸ List.mem_cons_self

section

variable (nested : before.IsNestedAt node.source) (known : node ∈ before.nodeRefs)
include nested known

theorem enclosers_ref : after.enclosers (σ.ref node) =
    (before.enclosers node).map σ.ref := by
  unfold Scene.enclosers
  rw [splits.enclosing node known, List.filter_map]
  have same : (before.ancestors node).filter
        ((fun ref => decide (ref.node ≠ rootId)) ∘ σ.around node) =
      (before.ancestors node).filter (·.node ≠ rootId) := by
    refine List.filter_congr fun enclosing around => ?_
    have known' := Scene.mem_nodeRefs_of_mem_ancestors nested around
    simp only [Function.comp_apply, Splitting.around]
    split
    next top => simp [top]
    next inner =>
      simpa [inner] using fun top =>
        inner (splits.node_eq_root_of_ref known' top)
  rw [same]
  refine List.map_congr_left fun enclosing listed => ?_
  rw [Splitting.around, if_neg (by simpa using (List.mem_filter.mp listed).2)]

theorem endsAtRoot_ref : after.EndsAtRoot (σ.ref node) := by
  have enclosers := splits.enclosers_ref nested known
  have inner : (before.enclosers node).map (σ.around node) =
      (before.enclosers node).map σ.ref :=
    List.map_congr_left fun enclosing listed => by
      rw [Splitting.around, if_neg (by simpa using (List.mem_filter.mp listed).2)]
  unfold Scene.EndsAtRoot
  rw [enclosers, splits.enclosing node known, ← inner]
  obtain above | above := Scene.endsAtRoot nested
  · exact .inl (congrArg _ above)
  · refine .inr ((congrArg _ above).trans ?_)
    rw [List.map_append, List.map_singleton, Splitting.around, if_pos rfl]
    rfl

end

/-- In nodes that are not at the top a name is found as before. -/
theorem firstNamed?_ref {kind : ConstructKind} {name : String}
    {places : List NodeRef}
    (inner : ∀ place ∈ places, place ∈ before.nodeRefs ∧ place.node ≠ rootId) :
    after.firstNamed? [kind] name (places.map σ.ref) =
      (before.firstNamed? [kind] name places).map σ.ref := by
  have children : (places.map σ.ref).flatMap after.children =
      (places.flatMap before.children).map σ.ref := by
    rw [List.flatMap_map, List.map_flatMap]
    refine List.flatMap_congr fun place listed => ?_
    obtain ⟨known, below⟩ := inner place listed
    exact splits.inside place known fun top => below (congrArg (·.node) top)
  unfold Scene.firstNamed?
  rw [children, List.find?_map]
  congr 1
  refine List.find?_congr fun child listed => ?_
  obtain ⟨place, -, inside⟩ := List.mem_flatMap.mp listed
  have known := Scene.mem_nodeRefs_of_mem_children inside
  simp only [Function.comp_apply, splits.kind?_ref known, splits.nameOf_ref known]

/-- What has been found at a top level is found at the one where it stands then. -/
theorem firstNamed?_root {kind : ConstructKind} {name : String}
    {source : SourceId} {target : NodeRef}
    (found : before.firstNamed? [kind] name [⟨source, rootId⟩] = some target) :
    target.source = source ∧
      after.firstNamed? [kind] name [⟨σ.home target, rootId⟩] =
        some (σ.ref target) := by
  have inside : target ∈ before.children ⟨source, rootId⟩ := by
    have listed := List.mem_of_find?_eq_some found
    simpa using listed
  obtain ⟨rfl, -⟩ := Scene.node?_of_mem_children inside
  refine ⟨rfl, ?_⟩
  have known := Scene.root_mem_nodeRefs (Scene.mem_nodeRefs_of_mem_children inside)
  by_cases whole : target.source = σ.whole
  · rw [whole] at found
    cases moves : σ.Moves target with
    | true =>
        rw [Splitting.home, moves, if_pos rfl]
        exact splits.firstNamed?_of_children splits.part moves found
    | false =>
        rw [Splitting.home, moves, if_neg Bool.false_ne_true, whole]
        exact splits.firstNamed?_of_children splits.rest (by simp [moves]) found
  · have stays (id : NodeId) : σ.Moves ⟨target.source, id⟩ = false := by
      simp [Splitting.Moves, whole]
    have same : σ.ref ⟨target.source, rootId⟩ = ⟨target.source, rootId⟩ := by
      simp [Splitting.ref, Splitting.home, stays, whole]
    have children := splits.inside _ known fun top =>
      whole (congrArg (·.source) top)
    rw [same, ← List.filter_true (before.children _)] at children
    rw [Splitting.home, stays target.node, if_neg Bool.false_ne_true]
    exact splits.firstNamed?_of_children children rfl found

section

variable {kind : ConstructKind} {name : QualifiedName} {target : NodeRef}
  (distinct : (after.units.map (·.source)).Nodup)
  (closed : σ.IsClosed before) (inside : σ.IsPrivate before)
  (written : ⟨node, kind, name⟩ ∈ before.writings)
  (found : before.means node kind name = .ok target)
include distinct closed inside written found

/-- The name is looked up where the definition stands then. -/
theorem exists_scopes_home {sources : List SourceId}
    (scopes : before.scopes node.source name.qualifier = .ok sources) :
    ∃ sources', after.scopes (σ.home node) name.qualifier = .ok sources' ∧
      (sources'.head? = some (σ.home node) ↔
        sources.head? = some node.source) ∧
      (target.source ∈ sources → σ.home target ∈ sources') := by
  have isTarget : target ∈ Writing.target? ⟨node, kind, name⟩ before := by
    simp [Writing.target?, found, Except.toOption]
  cases moves : σ.Moves node with
  | true =>
      have moved := closed _ written moves target isTarget
      obtain ⟨whole, mine⟩ := inside _ written target isTarget moved
      rw [whole] at scopes
      obtain ⟨first, sources', scopes', first', reaches⟩ :=
        splits.exists_scopes_part distinct scopes mine
      simp only [home, moves, moved, if_true]
      exact ⟨sources', scopes',
        iff_of_true first' (first.trans (congrArg some whole.symm)),
        fun _ => reaches⟩
  | false =>
      obtain ⟨sources', scopes', first, reaches, added⟩ :=
        splits.exists_scopes distinct scopes
      simp only [home, moves, Bool.false_eq_true, if_false]
      refine ⟨sources', scopes', by rw [first], fun among => ?_⟩
      split
      next moved =>
        obtain ⟨whole, mine⟩ := inside _ written target isTarget moved
        exact added whole mine
      · exact reaches _ among

variable (nested : before.IsNestedAt node.source)
  (known : node ∈ before.nodeRefs) (usable : before.isUsable node.source = true)
  (unambiguous : after.IsUnambiguous)
include nested known usable unambiguous

/-- A name means the same as before, where it stands then. -/
theorem means : after.means (σ.ref node) kind name = .ok (σ.ref target) := by
  obtain ⟨sources, scopes, first⟩ :=
    (Scene.means_eq_ok_iff (Scene.endsAtRoot nested) usable).mp found
  obtain ⟨sources', scopes', head, reaches⟩ :=
    splits.exists_scopes_home distinct closed inside written found scopes
  refine (Scene.means_eq_ok_iff (splits.endsAtRoot_ref nested known)
    (splits.isUsable_home distinct usable)).mpr ⟨sources', scopes', ?_⟩
  -- The nodes around the place come first, there as here.
  have around : after.surroundings (σ.ref node) kind sources' =
      (before.surroundings node kind sources).map σ.ref := by
    unfold Scene.surroundings
    simp only [show (σ.ref node).source = σ.home node from rfl, head]
    split
    · exact splits.enclosers_ref nested known
    · rfl
  have inner : ∀ place ∈ before.surroundings node kind sources,
      place ∈ before.nodeRefs ∧ place.node ≠ rootId := by
    intro place listed
    unfold Scene.surroundings at listed
    split at listed
    · obtain ⟨above, below⟩ := List.mem_filter.mp listed
      exact ⟨Scene.mem_nodeRefs_of_mem_ancestors nested above, by simpa using below⟩
    · cases listed
  rw [around, Scene.firstNamed?_append, splits.firstNamed?_ref inner]
  rw [Scene.firstNamed?_append] at first
  cases enclosed : before.firstNamed? [kind] name.name
      (before.surroundings node kind sources) with
  | some other =>
      rw [enclosed, Option.some_or] at first
      obtain rfl := Option.some.inj first
      rfl
  | none =>
      rw [enclosed, Option.none_or] at first
      obtain ⟨source, among, isUsable, first⟩ := Scene.exists_root first
      obtain ⟨rfl, first'⟩ := splits.firstNamed?_root first
      exact Scene.firstNamed?_roots (unambiguous.scopes scopes') (reaches among)
        (splits.isUsable_home distinct isUsable) first'

end

theorem wording_ref (known : node ∈ before.nodeRefs) {found : SchemaNode}
    (isNode : before.node? node = some found) :
    ∃ found', after.node? (σ.ref node) = some found' ∧
      found'.wording = found.wording := by
  have same := splits.wording node known
  rw [isNode, Option.map_some] at same
  exact Option.map_eq_some_iff.mp same

theorem typeAt?_ref {place : TypePlace} {use : TypeUse}
    (declared : before.typeAt? place = some use) :
    ∃ use', after.typeAt? ⟨σ.ref place.node, place.member⟩ = some use' ∧
      use.Matches use' := by
  obtain ⟨construct, isConstruct, declared⟩ := Option.bind_eq_some_iff.mp declared
  obtain ⟨found, isNode, rfl⟩ := Option.map_eq_some_iff.mp isConstruct
  obtain ⟨found', isNode', same⟩ :=
    splits.wording_ref (Scene.mem_nodeRefs_of_node? isNode) isNode
  have types : (found'.construct.typeAt? place.member).map (·.text) =
      (found.construct.typeAt? place.member).map (·.text) := by
    cases place.member with
    | none => exact congrArg (·.type) same
    | some index =>
        rw [Construct.typeAt?_some, Construct.typeAt?_some, ← List.getElem?_map,
          ← List.getElem?_map]
        exact congrArg (·.members[index]?) same
  rw [declared, Option.map_some] at types
  obtain ⟨use', declared', text⟩ := Option.map_eq_some_iff.mp types
  refine ⟨use', ?_, text⟩
  simp only [Scene.typeAt?, Scene.construct?, isNode', Option.map_some,
    Option.bind_some, declared']

omit splits in
/-- The names in a type are among those of the scene. -/
theorem mem_writings_of_typeAt? {place : TypePlace} {use : TypeUse}
    (declared : before.typeAt? place = some use) :
    place.node ∈ before.nodeRefs ∧ use.writings place.node ⊆ before.writings := by
  obtain ⟨construct, isConstruct, declared⟩ := Option.bind_eq_some_iff.mp declared
  obtain ⟨found, isNode, rfl⟩ := Option.map_eq_some_iff.mp isConstruct
  refine ⟨Scene.mem_nodeRefs_of_node? isNode, fun writing listed => ?_⟩
  have among : use ∈
      found.construct.type?.toList ++ found.construct.unionMembers := by
    cases member : place.member with
    | none =>
        rw [member] at declared
        exact List.mem_append_left _ (Option.mem_toList.mpr declared)
    | some index =>
        rw [member, Construct.typeAt?_some] at declared
        exact List.mem_append_right _ (List.mem_of_getElem? declared)
  obtain ⟨tree, isTree, inTree⟩ := Option.bind_eq_some_iff.mp isNode
  obtain ⟨unit, member, rfl, source⟩ := Scene.tree?_mem isTree
  have isConstruct : unit.tree.construct? place.node.node =
      some found.construct := by
    rw [SchemaTree.construct?, inTree, Option.map_some]
  refine List.mem_flatMap.mpr ⟨unit, member, List.mem_append_left _
    (List.mem_flatMap.mpr ⟨place.node.node,
      List.mem_range.mpr (SchemaTree.lt_size_of_node? inTree), ?_⟩)⟩
  rw [isConstruct, Option.elim_some, source]
  exact List.mem_flatMap.mpr ⟨use, among, listed⟩

/-- What encloses a node there has enclosed it before. -/
theorem mem_ancestors_of_ref (nested : before.IsNestedAt node.source)
    (known : node ∈ before.nodeRefs) {target : NodeRef} (known' : target ∈ before.nodeRefs)
    (around : σ.ref target ∈ after.ancestors (σ.ref node)) :
    target ∈ before.ancestors node := by
  rw [splits.enclosing node known] at around
  obtain ⟨enclosing, above, same⟩ := List.mem_map.mp around
  have isKnown := Scene.mem_nodeRefs_of_mem_ancestors nested above
  unfold Splitting.around at same
  split at same
  next top =>
    have source : enclosing.source = node.source := by
      unfold Scene.ancestors at above
      split at above
      · obtain ⟨_, -, rfl⟩ := List.mem_map.mp above
        rfl
      · cases above
    have top' := splits.node_eq_root_of_ref known'
      (congrArg (·.node) same).symm
    have home : σ.home node = σ.home target := congrArg (·.source) same
    obtain part | stays := σ.home_eq node
    · rw [part] at same
      exact absurd same.symm (splits.ref_ne_part known')
    obtain part | stays' := σ.home_eq target
    · rw [home, part] at same
      exact absurd same.symm (splits.ref_ne_part known')
    · obtain ⟨targetSource, targetNode⟩ := target
      obtain ⟨enclosingSource, enclosingNode⟩ := enclosing
      obtain rfl : enclosingNode = targetNode := top.trans top'.symm
      obtain rfl : enclosingSource = targetSource :=
        source.trans (stays.symm.trans (home.trans stays'))
      exact above
  · rwa [← splits.injective isKnown known' same]

/-- All names mean the same as before, where they stand then. -/
theorem relocates (distinct : (after.units.map (·.source)).Nodup)
    (closed : σ.IsClosed before) (inside : σ.IsPrivate before)
    (nested : ∀ source, before.IsNestedAt source)
    (usable : ∀ node ∈ before.nodeRefs, before.isUsable node.source = true)
    (unambiguous : after.IsUnambiguous) :
    before.Relocates after σ.ref fun place kind name =>
      place ∈ before.nodeRefs ∧ ⟨place, kind, name⟩ ∈ before.writings where
  means written found :=
    splits.means distinct closed inside written.2 found (nested _) written.1
      (usable _ written.1) unambiguous
  types := splits.typeAt?_ref
  typeNames declared := by
    obtain ⟨known, among⟩ := mem_writings_of_typeAt? declared
    refine ⟨⟨known, among List.mem_cons_self⟩, fun base isBase =>
      ⟨known, among (List.mem_cons_of_mem _ ?_)⟩⟩
    simp [isBase]
  injective known known' same := by
    obtain ⟨_, known⟩ := Option.isSome_iff_exists.mp known
    obtain ⟨_, known'⟩ := Option.isSome_iff_exists.mp known'
    exact splits.injective (Scene.mem_nodeRefs_of_node? known)
      (Scene.mem_nodeRefs_of_node? known') same
  around known known' around := by
    obtain ⟨_, known⟩ := Option.isSome_iff_exists.mp known
    obtain ⟨_, known'⟩ := Option.isSome_iff_exists.mp known'
    exact splits.mem_ancestors_of_ref (nested _)
      (Scene.mem_nodeRefs_of_node? known) (Scene.mem_nodeRefs_of_node? known')
      around

end Splitting.Splits

end YangSchema
