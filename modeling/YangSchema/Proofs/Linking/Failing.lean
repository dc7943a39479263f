import YangSchema.Proofs.Linking.Anticipating

/-!
# Names beside a unit that has failed

A lookup survives the failure of a unit if what it has found is still found or the
lookup is blocked.  A name is searched for in one source after the other, and a unit
that has failed is passed over.  So if no two of these units declare the same at
their top levels, nothing else is found in its place, and what other units look up
survives.
-/

namespace YangSchema

/-- The kinds and names of the nodes at the top level of a tree. -/
def SchemaTree.topNames (tree : SchemaTree) : List (ConstructKind × String) :=
  (tree.children rootId).filterMap fun id =>
    (tree.node? id).map fun node => (node.kind, node.name)

theorem SchemaTree.mem_topNames_iff {tree : SchemaTree} {kind : ConstructKind}
    {name : String} : (kind, name) ∈ tree.topNames ↔
      (tree.findChild? rootId kind name).isSome = true := by
  simp only [topNames, findChild?, List.mem_filterMap, Option.map_eq_some_iff,
    List.find?_isSome, Prod.mk.injEq]
  refine exists_congr fun id => and_congr_right fun _ => ?_
  cases tree.node? id <;> simp

theorem SchemaTree.SameOutline.topNames {before after : SchemaTree}
    (same : before.SameOutline after) : after.topNames = before.topNames := by
  unfold SchemaTree.topNames
  rw [same.children]
  refine List.filterMap_congr fun id _ => ?_
  have outline := congrArg (Option.map fun node => (node.kind, node.name))
    (same.outline id)
  simp only [Option.map_map] at outline
  exact outline

/-- The sources in which a unit looks up its own names. -/
def LinkUnit.ownSources (unit : LinkUnit) : List SourceId :=
  unit.source :: unit.tree.header?.elim [] fun header =>
    header.includes.filterMap (·.resolved)

namespace Scene

variable {scene before after : Scene} {source failing : SourceId}
  {kind : ConstructKind} {name : String} {target : NodeRef}

/-- The kinds and names of what a source declares at its top level. -/
def topNames (scene : Scene) (source : SourceId) :
    List (ConstructKind × String) :=
  (scene.tree? source).elim [] (·.topNames)

/-- Sources that declare different things at their top levels. -/
def AreDisjoint (scene : Scene) (sources : List SourceId) : Prop :=
  sources.Pairwise fun first second =>
    ∀ declared ∈ scene.topNames first, declared ∉ scene.topNames second

instance (scene : Scene) : DecidablePred scene.AreDisjoint :=
  fun sources => inferInstanceAs (Decidable (sources.Pairwise _))

/-- No unit declares at its top level what a submodule that it includes declares,
too, and neither do two of these submodules. -/
def IsUnambiguous (scene : Scene) : Prop :=
  ∀ unit ∈ scene.units, scene.AreDisjoint unit.ownSources

instance : DecidablePred IsUnambiguous :=
  fun scene => inferInstanceAs (Decidable (∀ unit ∈ scene.units, _))

/-- Names are looked up in sources that declare different things. -/
theorem IsUnambiguous.scopes (unambiguous : scene.IsUnambiguous)
    {qualifier : Option String} {sources : List SourceId}
    (found : scene.scopes source qualifier = .ok sources) :
    scene.AreDisjoint sources := by
  unfold Scene.scopes at found
  split at found
  · simp at found
  next header declared =>
    split at found
    · split at found
      · obtain rfl := Except.ok.inj found
        exact List.pairwise_singleton _ _
      · obtain ⟨tree, isTree, inTree⟩ := Option.bind_eq_some_iff.mp declared
        obtain ⟨unit, member, rfl, rfl⟩ := tree?_mem isTree
        obtain rfl := Except.ok.inj found
        have disjoint := unambiguous unit member
        rwa [LinkUnit.ownSources, inTree] at disjoint
    · split at found
      · simp at found
      · split at found
        · obtain rfl := Except.ok.inj found
          exact List.pairwise_singleton _ _
        · simp at found

theorem mem_topNames_of_findChild? {unit : LinkUnit} {id : NodeId}
    (known : scene.unit? source = some unit)
    (found : unit.tree.findChild? rootId kind name = some id) :
    (kind, name) ∈ scene.topNames source := by
  simp only [topNames, tree?, known, Option.map_some, Option.elim_some]
  exact SchemaTree.mem_topNames_iff.mpr (by rw [found]; rfl)

theorem AgreeAt.topNames (agree : before.AgreeAt after source) :
    after.topNames source = before.topNames source := by
  unfold Scene.topNames tree?
  cases agree with
  | missing old new => rw [old, new]
  | found old new resembles =>
      simp only [old, new, Option.map_some, Option.elim_some,
        resembles.outline.topNames]

/-- Linking does not change what units declare. -/
theorem isUnambiguous_of_evolves {phase : LinkPhase}
    {units units' : List LinkUnit} (distinct : (units.map (·.source)).Nodup)
    (evolves : Linking.Evolves units units')
    (unambiguous : (ofUnits units' phase).IsUnambiguous) :
    (ofUnits units phase).IsUnambiguous := by
  intro unit member
  obtain ⟨place, known⟩ := List.mem_iff_getElem?.mp member
  obtain ⟨unit', known', evolved⟩ := evolves.unit known
  have disjoint := unambiguous unit' (List.mem_of_getElem? known')
  have source : unit'.source = unit.source := evolved.text.source
  rw [LinkUnit.ownSources, source, evolved.text.header?] at disjoint
  unfold AreDisjoint at disjoint ⊢
  simp only [(agreeAt_of_evolves distinct evolves _).topNames] at disjoint
  exact disjoint

/-- A search that has passed a failed unit and finds nothing is blocked. -/
theorem searchFrom_blocked {sources : List SourceId}
    (undeclared : ∀ source ∈ sources, scene.isUsable source = true →
      (kind, name) ∉ scene.topNames source) :
    scene.searchFrom kind name true sources = .error .blocked := by
  induction sources with
  | nil => rfl
  | cons first rest ih =>
      obtain ⟨here, others⟩ := List.forall_mem_cons.mp undeclared
      unfold searchFrom
      split
      · exact ih others
      next unit known =>
        split
        · exact ih others
        next usable =>
          have isUsable : scene.isUsable first = true :=
            isUsable_iff.mpr ⟨unit, known, by simpa using usable⟩
          split
          next id found =>
            exact absurd (mem_topNames_of_findChild? known found)
              (here isUsable)
          · exact ih others

/-- What has been found early is found late, unless the late lookup is blocked. -/
def Survives {α : Type} (early late : Lookup α) : Prop :=
  ∀ value, early = .ok value → late = .ok value ∨ late = .error .blocked

def surviving : LookupRelation where
  holds := Survives
  refl _ _ found := .inl found
  bind {_ _ early late next next'} first others := by
    intro value found
    obtain ⟨middle, early, found⟩ := bind_eq_ok_iff.mp found
    obtain late | late := first middle early
    · rw [late]
      exact others middle early late value found
    · exact .inr (by rw [late]; rfl)
  unique first early late := by
    obtain late' | late' := first _ early
    · exact Except.ok.inj (late.symm.trans late')
    · simp [late'] at late

/-- One unit has failed in the later scene; otherwise the scenes have the same
units. -/
structure FailsAt (before after : Scene) (failing : SourceId) : Prop where
  failed : ∃ unit, after.unit? failing = some unit ∧ unit.usable = false
  others : ∀ {source}, source ≠ failing →
    after.unit? source = before.unit? source
  phase : after.phase = before.phase

namespace FailsAt

variable (fails : before.FailsAt after failing)
include fails

theorem isUsable_failing : after.isUsable failing = false := by
  obtain ⟨unit, found, unusable⟩ := fails.failed
  simp [isUsable, found, unusable]

theorem ne_of_isUsable (usable : after.isUsable source = true) :
    source ≠ failing := by
  rintro rfl
  simp [fails.isUsable_failing] at usable

theorem topNames_eq (other : source ≠ failing) :
    after.topNames source = before.topNames source := by
  unfold topNames tree?
  rw [fails.others other]

theorem searchFrom {sources : List SourceId}
    (disjoint : before.AreDisjoint sources) {passed passed' : Bool}
    (found : before.searchFrom kind name passed sources = .ok target) :
    after.searchFrom kind name passed' sources = .ok target ∨
      after.searchFrom kind name passed' sources = .error .blocked := by
  induction sources generalizing passed passed' with
  | nil => simp [Scene.searchFrom] at found
  | cons first rest ih =>
      obtain ⟨apart, disjoint⟩ := List.pairwise_cons.mp disjoint
      unfold Scene.searchFrom at found ⊢
      by_cases here : first = failing
      · subst here
        obtain ⟨unit', known', unusable⟩ := fails.failed
        simp only [known', unusable, Bool.not_false, if_true]
        split at found
        · exact ih disjoint found
        next unit known =>
          split at found
          · exact ih disjoint found
          · split at found
            next id inside =>
              -- What the failed unit declares is declared nowhere else.
              refine .inr (searchFrom_blocked fun other listed usable => ?_)
              rw [fails.topNames_eq (fails.ne_of_isUsable usable)]
              exact apart other listed _ (mem_topNames_of_findChild? known inside)
            · exact ih disjoint found
      · rw [fails.others here]
        split at found
        · exact ih disjoint found
        next unit _ =>
          split at found
          next unusable =>
            rw [if_pos unusable]
            exact ih disjoint found
          next usable =>
            rw [if_neg usable]
            split at found
            · exact .inl found
            · exact ih disjoint found

theorem scopes (other : source ≠ failing) (qualifier : Option String) :
    Survives (before.scopes source qualifier)
      (after.scopes source qualifier) := by
  intro sources found
  unfold Scene.scopes at found ⊢
  simp only [tree?, fails.others other, fails.phase] at found ⊢
  split at found
  · simp at found
  · split at found
    · exact .inl found
    · split at found
      · simp at found
      next imported _ =>
        split at found
        · by_cases reached : after.isUsable imported = true
          · rw [if_pos reached]
            exact .inl found
          · rw [if_neg reached]
            exact .inr rfl
        · simp at found

variable (unambiguous : before.IsUnambiguous)
include unambiguous

theorem topLevel (other : source ≠ failing) (name : QualifiedName)
    (kind : ConstructKind) :
    Survives (before.topLevel source name kind)
      (after.topLevel source name kind) :=
  surviving.bind (fails.scopes other _) fun _ scopes _ _ found =>
    fails.searchFrom (unambiguous.scopes scopes) found

theorem lexical {place : NodeRef} (other : place.source ≠ failing)
    (name : QualifiedName) (kind : ConstructKind) :
    Survives (before.lexical place name kind)
      (after.lexical place name kind) := by
  refine surviving.bind (fails.scopes other _) fun sources scopes _ => ?_
  have same : after.enclosing? place kind name.name =
      before.enclosing? place kind name.name := by
    unfold enclosing? tree?
    rw [fails.others other]
  rw [same]
  dsimp only
  split
  · exact surviving.refl _
  · exact fun _ found => fails.searchFrom (unambiguous.scopes scopes) found

/-- Names in the units that can still be used survive. -/
theorem relates (apart : ∀ unit ∈ before.units, unit.usable = true →
    unit.tree.HasApartMembers) :
    Relates surviving before after after.IsLive where
  agree {place} live := by
    have other := fails.others (fails.ne_of_isUsable live.usable)
    obtain ⟨unit, found, -⟩ := live.unit?
    exact .found (other.symm.trans found) found ⟨rfl, .refl unit.tree⟩
  lexical live :=
    fails.lexical unambiguous (fails.ne_of_isUsable live.usable)
  topLevel live :=
    fails.topLevel unambiguous (fails.ne_of_isUsable live.usable)
  found live _ found := lexical_isLive live found
  members {typedef id} live _ item slot typedefs := by
    have other := fails.others (fails.ne_of_isUsable live.usable)
    obtain ⟨unit, known, usable, -⟩ := live.unit?
    have member := (unit?_mem (other.symm.trans known)).1
    have isTree : before.tree? typedef.source = some unit.tree := by
      rw [tree?, ← other, known, Option.map_some]
    have isTree' : after.tree? typedef.source = some unit.tree := by
      rw [tree?, known, Option.map_some]
    -- There is room enough for the unit of the typedef in both scenes.
    have enough {count : Nat} (room : unit.tree.size ≤ count) :
        before.memberReferences item slot typedefs (count + 1)
            ⟨typedef.source, id⟩ =
          before.memberReferences item slot typedefs (unit.tree.size + 1)
            ⟨typedef.source, id⟩ := by
      obtain ⟨more, rfl⟩ := Nat.exists_eq_add_of_le room
      rw [Nat.add_right_comm]
      exact memberReferences_add (@members_endsWithin_size before
        ⟨typedef.source, id⟩ unit.tree isTree (apart unit member usable))
        more
    rw [enough (size_le_nodeCount isTree'), enough (size_le_nodeCount isTree)]

end FailsAt

end Scene

end YangSchema
