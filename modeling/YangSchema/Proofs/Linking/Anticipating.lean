import YangSchema.Proofs.Linking.Costs
import YangSchema.Proofs.Linking.Growing

/-!
# What is found early is what is found late

A lookup decides a later one if the later one gives the same unless nothing was
found at first.  Linking writes links only, and lookups of groupings, typedefs,
identities and features read none.  So what is found for such a name among some
units is found at any later time, and what is found in a unit that is alone is
found when it is put among others, for only further sources are searched then.
-/

namespace YangSchema

/-- Whether a reference looks a name up; the others follow paths. -/
def ReferenceKind.isName : ReferenceKind → Bool
  | .leafref _ | .augment => false
  | _ => true

/-- The end of a chain without the links of its types. -/
def ChainEnd.unlinked (ending : ChainEnd) : ChainEnd :=
  { ending with layers := ending.layers.map (·.unlinked) }

namespace Scene

/-- Unless an early lookup finds nothing, a late one gives the same. -/
def Decides {α : Type} (early late : Lookup α) : Prop :=
  early ≠ .error .notFound → late = early

theorem Decides.refl {α : Type} (lookup : Lookup α) : Decides lookup lookup :=
  fun _ => rfl

/-- Two lookups that decide each other are the same. -/
theorem Decides.antisymm {α : Type} {early late : Lookup α}
    (first : Decides early late) (second : Decides late early) :
    late = early := by
  by_cases found : early = .error .notFound
  · by_cases found' : late = .error .notFound
    · rw [found, found']
    · exact (second found').symm
  · exact first found

/-- What holds between an early and a late lookup if it holds at every step. -/
structure LookupRelation where
  holds : {α : Type} → Lookup α → Lookup α → Prop
  refl : ∀ {α : Type} (lookup : Lookup α), holds lookup lookup
  bind : ∀ {α β : Type} {early late : Lookup α} {next next' : α → Lookup β},
    holds early late →
      (∀ value, early = .ok value → late = .ok value →
        holds (next value) (next' value)) →
      holds (early >>= next) (late >>= next')
  unique : ∀ {α : Type} {early late : Lookup α} {value value' : α},
    holds early late → early = .ok value → late = .ok value' → value' = value

def deciding : LookupRelation where
  holds := Decides
  refl := Decides.refl
  bind {_ _ early late next next'} first others := by
    intro found
    cases early with
    | error miss =>
        have same : late = .error miss :=
          first fun none => found (by rw [none]; rfl)
        rw [same]
        rfl
    | ok value =>
        have same := first (by simp)
        rw [same]
        exact others value rfl same found
  unique first early late := by
    have same := first (by simp [early])
    rw [early, late] at same
    exact Except.ok.inj same

variable {before after : Scene} {place : NodeRef}

namespace AgreeAt

theorem symm {source : SourceId} (agree : before.AgreeAt after source) :
    after.AgreeAt before source := by
  cases agree with
  | missing old new => exact .missing new old
  | found old new resembles =>
      exact .found new old ⟨resembles.usable.symm, resembles.outline.symm⟩

variable (agree : before.AgreeAt after place.source)
include agree

theorem outline : (after.node? place).map (·.outline) =
    (before.node? place).map (·.outline) := by
  unfold Scene.node? tree?
  cases agree with
  | missing old new => rw [old, new]
  | found old new resembles =>
      simp only [old, new, Option.map_some, Option.bind_some,
        resembles.outline.outline]

theorem nameOf : after.nameOf place = before.nameOf place := by
  have name (scene : Scene) : scene.nameOf place =
      (((scene.node? place).map (·.outline)).map (·.name)).getD "" := by
    unfold Scene.nameOf
    cases scene.node? place <;> rfl
  rw [name, name, agree.outline]

theorem ancestors : after.ancestors place = before.ancestors place := by
  unfold Scene.ancestors tree?
  cases agree with
  | missing old new => rw [old, new]
  | found old new resembles =>
      simp only [old, new, Option.map_some, resembles.outline.ancestors]

theorem typeAt? (member : Option Nat) :
    ((after.construct? place).bind (·.typeAt? member)).map (·.unlinked) =
      ((before.construct? place).bind (·.typeAt? member)).map
        (·.unlinked) := by
  have types := congrArg (·.bind (·.typeAt? member)) agree.outline
  simp only [Option.bind_map] at types
  simp only [construct?, Option.bind_map, Option.map_bind]
  exact types

theorem type? : (after.type? place).map (·.unlinked) =
    (before.type? place).map (·.unlinked) :=
  agree.typeAt? none

/-- The members of a union are the same but for their links. -/
theorem union {members : List TypeUse}
    (isUnion : before.construct? place = some (.union members)) :
    ∃ members', after.construct? place = some (.union members') ∧
      members'.map (·.unlinked) = members.map (·.unlinked) := by
  obtain ⟨node, known, construct⟩ := Option.map_eq_some_iff.mp isUnion
  have outline := agree.outline
  rw [known, Option.map_some] at outline
  obtain ⟨node', known', same⟩ := Option.map_eq_some_iff.mp outline
  have kind : node'.kind = .union := by
    have kind : node'.kind = node.kind := congrArg (·.kind) same
    rw [kind, SchemaNode.kind, construct]
    rfl
  have found : after.construct? place = some node'.construct := by
    rw [construct?, known', Option.map_some]
  cases construct' : node'.construct with
  | union members' =>
      rw [construct'] at found
      refine ⟨members', found, List.ext_getElem? fun member => ?_⟩
      simpa [found, isUnion, Construct.typeAt?] using
        agree.typeAt? (some member)
  | _ => simp [SchemaNode.kind, construct', Construct.kind] at kind

end AgreeAt

/-- What the members of a union bring in does not depend on links. -/
theorem memberReferences_congr {item : Reference} {slot : TypeSlot}
    {typedefs : List NodeRef} {union : NodeRef}
    (agree : before.AgreeAt after union.source) (bound : Nat) :
    after.memberReferences item slot typedefs bound union =
      before.memberReferences item slot typedefs bound union := by
  induction bound generalizing union with
  | zero => rfl
  | succ bound ih =>
      unfold memberReferences
      split
      next members' isUnion =>
        obtain ⟨members, isUnion', same⟩ := agree.symm.union isUnion
        have nested (id : NodeId) :
            after.memberReferences item slot typedefs bound
                ⟨union.source, id⟩ =
              before.memberReferences item slot typedefs bound
                ⟨union.source, id⟩ :=
          @ih ⟨union.source, id⟩ agree
        simp only [isUnion', nested]
        -- Each member is read without its links.
        have unlinked (members : List TypeUse)
            (make : TypeUse × Nat → List Reference)
            (erased : ∀ use member,
              make (use, member) = make (use.unlinked, member)) :
            members.zipIdx.flatMap make =
              (members.map (·.unlinked)).zipIdx.flatMap make := by
          rw [List.zipIdx_map, List.flatMap_map]
          exact List.flatMap_congr fun entry _ => erased entry.1 entry.2
        rw [unlinked members', unlinked members, same]
        all_goals exact fun _ _ => rfl
      next other =>
        split
        next members isUnion =>
          obtain ⟨members', isUnion', -⟩ := agree.union isUnion
          exact absurd isUnion' (other members')
        · rfl

/-- What is found in two scenes from the nodes that they are asked about. -/
structure Relates (relation : LookupRelation) (before after : Scene)
    (asked : NodeRef → Prop) : Prop where
  agree : ∀ {place}, asked place → before.AgreeAt after place.source
  lexical : ∀ {place}, asked place → ∀ name kind,
    relation.holds (before.lexical place name kind)
      (after.lexical place name kind)
  topLevel : ∀ {place}, asked place → ∀ name kind,
    relation.holds (before.topLevel place.source name kind)
      (after.topLevel place.source name kind)
  found : ∀ {place name kind target}, asked place →
    before.lexical place name kind = .ok target →
      after.lexical place name kind = .ok target → asked target
  members : ∀ {typedef id}, asked typedef →
    (before.type? typedef).bind (·.members) = some id →
      ∀ item slot typedefs,
        before.memberReferences item slot typedefs (after.nodeCount + 1)
            ⟨typedef.source, id⟩ =
          before.memberReferences item slot typedefs (before.nodeCount + 1)
            ⟨typedef.source, id⟩

/-- From the nodes that an early scene is asked about, it finds what a late scene
finds. -/
abbrev Anticipates (before after : Scene) (asked : NodeRef → Prop) : Prop :=
  Relates deciding before after asked

theorem ofLayers_unlinked (builtin : BuiltinType) (layers : List TypeUse) :
    EffectiveType.ofLayers builtin (layers.map (·.unlinked)) =
      EffectiveType.ofLayers builtin layers := by
  simp only [EffectiveType.ofLayers, List.foldlM_reverse, List.foldrM_map,
    List.getLast?_map, Option.bind_map]
  rfl

theorem getLastD_unlinked (layers : List TypeUse) (use : TypeUse) :
    (layers.map (·.unlinked)).getLastD use.unlinked =
      (layers.getLastD use).unlinked := by
  rw [List.getLastD_eq_getLast?, List.getLastD_eq_getLast?, List.getLast?_map]
  cases layers.getLast? <;> rfl

/-- A derivation depends on the chain of typedefs, but not on their links. -/
theorem derive_eq (scene : Scene) (place : NodeRef) (use : TypeUse) :
    scene.derive place use = (do
      let first ← scene.lexical place use.unlinked.name .typedef
      let found ← ChainEnd.unlinked <$>
        scene.chainEnd (scene.nodeCount + 1) first [first] [use]
      let effective ← EffectiveType.ofLayers found.builtin found.layers
      let base := found.layers.getLastD use.unlinked
      let identity ← scene.baseIdentity found.typedef base found.builtin
      return {
        typedef := first
        effective :=
          if found.builtin.hasMembers then
            { effective with membersFrom := some found.typedef }
          else
            effective
        identity
        leafref := if found.builtin = .leafref then base.path else none }) := by
  simp only [derive, bind_map_left, ChainEnd.unlinked, ofLayers_unlinked,
    getLastD_unlinked]
  rfl

namespace Relates

variable {relation : LookupRelation} {asked : NodeRef → Prop}
  (relates : Relates relation before after asked)
include relates

/-- Both chains go through the same typedefs. -/
theorem asked_chainEnd {bound : Nat} {chain : List NodeRef}
    {layers layers' : List TypeUse} {ending ending' : ChainEnd}
    (isAsked : asked place)
    (reached : before.chainEnd bound place chain layers = .ok ending)
    (reached' : after.chainEnd bound place chain layers' = .ok ending') :
    asked ending.typedef := by
  induction bound generalizing place chain layers layers' with
  | zero => simp [chainEnd] at reached
  | succ bound ih =>
      have types := (relates.agree isAsked).type?
      unfold chainEnd at reached reached'
      split at reached
      · simp at reached
      next use declared =>
        rw [declared, Option.map_some] at types
        obtain ⟨use', declared', unlinked⟩ := Option.map_eq_some_iff.mp types
        have builtin : use'.builtin = use.builtin :=
          congrArg (·.builtin) unlinked
        have name : use'.name = use.name := congrArg (·.name) unlinked
        simp only [declared', builtin, name] at reached'
        dsimp only at reached
        split at reached
        · obtain rfl := Except.ok.inj reached
          exact isAsked
        next derived =>
          obtain ⟨next, found, reached⟩ := bind_eq_ok_iff.mp reached
          simp only [derived] at reached'
          obtain ⟨next', found', reached'⟩ := bind_eq_ok_iff.mp reached'
          obtain rfl := relation.unique (relates.lexical isAsked _ _) found found'
          split at reached
          · simp at reached
          next fresh =>
            rw [if_neg fresh] at reached'
            exact ih (relates.found isAsked found found') reached reached'

theorem chainEnd_of_bound {bound : Nat} {chain : List NodeRef}
    {layers layers' : List TypeUse} (isAsked : asked place)
    (chainAsked : ∀ typedef ∈ chain, asked typedef)
    (same : layers'.map (·.unlinked) = layers.map (·.unlinked)) :
    relation.holds
      (ChainEnd.unlinked <$> before.chainEnd bound place chain layers)
      (ChainEnd.unlinked <$> after.chainEnd bound place chain layers') := by
  induction bound generalizing place chain layers layers' with
  | zero => exact relation.refl _
  | succ bound ih =>
      have declared' := (relates.agree isAsked).type?
      unfold Scene.chainEnd
      cases declared : before.type? place with
      | none =>
          rw [declared, Option.map_none, Option.map_eq_none_iff] at declared'
          rw [declared']
          exact relation.refl _
      | some use =>
          rw [declared, Option.map_some] at declared'
          obtain ⟨use', declared', unlinked⟩ :=
            Option.map_eq_some_iff.mp declared'
          have builtin : use'.builtin = use.builtin :=
            congrArg (·.builtin) unlinked
          have name : use'.name = use.name := congrArg (·.name) unlinked
          have longer : (layers' ++ [use']).map (·.unlinked) =
              (layers ++ [use]).map (·.unlinked) := by
            simp [same, unlinked]
          simp only [declared', builtin, name]
          cases use.builtin with
          | some builtin =>
              have ending : ChainEnd.unlinked ⟨place, builtin, layers' ++ [use']⟩ =
                  ChainEnd.unlinked ⟨place, builtin, layers ++ [use]⟩ := by
                simp [ChainEnd.unlinked, longer]
              simp only [Except.map_ok, ending]
              exact relation.refl _
          | none =>
              simp only [map_bind]
              refine relation.bind (relates.lexical isAsked _ _)
                fun next found found' => ?_
              have nextAsked := relates.found isAsked found found'
              have names : (next :: chain).map after.nameOf =
                  (next :: chain).map before.nameOf :=
                List.map_congr_left fun typedef listed =>
                  (relates.agree (List.forall_mem_cons.mpr
                    ⟨nextAsked, chainAsked⟩ typedef listed)).nameOf
              obtain ⟨nameOfNext, namesOfChain⟩ := List.cons.inj names
              split
              · rw [nameOfNext, namesOfChain]
                exact relation.refl _
              · refine ih nextAsked ?_ longer
                exact List.forall_mem_append.mpr
                  ⟨chainAsked, by simpa using nextAsked⟩

/-- Chains from a typedef, whatever room there is in the two scenes. -/
theorem chainEnd {layers layers' : List TypeUse} (isAsked : asked place)
    (same : layers'.map (·.unlinked) = layers.map (·.unlinked)) :
    relation.holds
        (ChainEnd.unlinked <$>
          before.chainEnd (before.nodeCount + 1) place [place] layers)
        (ChainEnd.unlinked <$>
          after.chainEnd (after.nodeCount + 1) place [place] layers') ∧
      ∀ ending ending',
        before.chainEnd (before.nodeCount + 1) place [place] layers =
            .ok ending →
          after.chainEnd (after.nodeCount + 1) place [place] layers' =
            .ok ending' → asked ending.typedef := by
  have early := chainEnd_add (@chain_endsWithin before place)
    after.nodeCount layers
  have late := chainEnd_add (@chain_endsWithin after place)
    before.nodeCount layers'
  rw [show after.nodeCount + 1 + before.nodeCount =
    before.nodeCount + 1 + after.nodeCount by omega] at late
  rw [← early, ← late]
  exact ⟨relates.chainEnd_of_bound isAsked (by simpa using isAsked) same,
    fun _ _ => relates.asked_chainEnd isAsked⟩

theorem baseIdentity (isAsked : asked place) (use : TypeUse)
    (builtin : BuiltinType) :
    relation.holds (before.baseIdentity place use builtin)
      (after.baseIdentity place use builtin) := by
  unfold Scene.baseIdentity
  split
  · exact relation.bind (relates.topLevel isAsked _ _) fun _ _ _ =>
      relation.refl _
  · exact relation.refl _

theorem derive {use use' : TypeUse} (isAsked : asked place)
    (same : use'.unlinked = use.unlinked) :
    relation.holds (before.derive place use) (after.derive place use') := by
  rw [derive_eq, derive_eq, same]
  refine relation.bind (relates.lexical isAsked _ _) fun first found found' => ?_
  obtain ⟨chains, ends⟩ := @chainEnd _ _ first relation asked relates [use] [use']
    (relates.found isAsked found found') (by simp [same])
  refine relation.bind chains fun ending reached reached' => ?_
  obtain ⟨_, chain, rfl⟩ := map_eq_ok_iff.mp reached
  obtain ⟨_, chain', -⟩ := map_eq_ok_iff.mp reached'
  have endAsked := ends _ _ chain chain'
  refine relation.bind (relation.refl _) fun effective _ _ => ?_
  exact relation.bind (relates.baseIdentity endAsked _ _) fun _ _ _ =>
    relation.refl _

theorem unionReferences {typedef : NodeRef} (isAsked : asked typedef)
    (item : Reference) (slot : TypeSlot) :
    relation.holds (before.unionReferences item slot typedef)
      (after.unionReferences item slot typedef) := by
  have agree := relates.agree isAsked
  have members : (after.type? typedef).bind (·.members) =
      (before.type? typedef).bind (·.members) := by
    have members := congrArg (·.bind (·.members)) agree.type?
    simp only [Option.bind_map] at members
    exact members
  unfold Scene.unionReferences
  dsimp only
  split
  · rw [agree.nameOf]
    exact relation.refl _
  · rw [members]
    split
    · exact relation.refl _
    next id inNode =>
      have same (typedefs : List NodeRef) :
          after.memberReferences item slot typedefs (after.nodeCount + 1)
              ⟨typedef.source, id⟩ =
            before.memberReferences item slot typedefs (before.nodeCount + 1)
              ⟨typedef.source, id⟩ :=
        (@memberReferences_congr before after item slot typedefs
          ⟨typedef.source, id⟩ agree _).trans
          (relates.members isAsked inNode item slot typedefs)
      rw [same]
      exact relation.refl _

theorem grouping (isAsked : asked place) (name : QualifiedName) :
    relation.holds (before.grouping place name) (after.grouping place name) := by
  refine relation.bind (relates.lexical isAsked _ _) fun target _ _ => ?_
  rw [(relates.agree isAsked).ancestors]
  exact relation.refl _

variable {source : SourceId} {item : Reference} (own : item.origin = none)
  (placeAsked : asked ⟨source, item.place⟩)
include own placeAsked

theorem derivedOutcome {slot : TypeSlot} (kind : item.kind = .derivedType slot) :
    relation.holds (before.derivedOutcome source item slot)
      (after.derivedOutcome source item slot) := by
  simp only [Reference.place, kind] at placeAsked
  have declared' := (relates.agree placeAsked).typeAt? slot.member
  unfold Scene.derivedOutcome
  simp only [derivedUse_of_own _ own, typeAt?]
  cases declared : (before.construct? ⟨source, slot.node⟩).bind
      (·.typeAt? slot.member) with
  | none =>
      rw [declared, Option.map_none, Option.map_eq_none_iff] at declared'
      rw [declared']
      exact relation.refl _
  | some use =>
      rw [declared, Option.map_some] at declared'
      obtain ⟨use', declared', unlinked⟩ := Option.map_eq_some_iff.mp declared'
      rw [declared']
      refine relation.bind (relates.derive placeAsked unlinked)
        fun derivation derived derived' => ?_
      split
      next typedef ends builtin =>
        obtain ⟨ending, along⟩ := derive_eq_ok derived
        obtain ⟨ending', along'⟩ := derive_eq_ok derived'
        have endAsked : asked typedef := by
          have name : use'.name = use.name := congrArg (·.name) unlinked
          have found' := along'.found
          rw [name] at found'
          rw [along.membersFrom] at ends
          obtain rfl : ending.typedef = typedef := by
            split at ends <;> simp_all
          exact (relates.chainEnd (relates.found placeAsked along.found found')
            (by simp [unlinked])).2 ending ending' along.reached along'.reached
        exact relation.bind (relates.unionReferences endAsked item slot)
          fun _ _ _ => relation.refl _
      · exact relation.refl _

/-- What is found for a name. -/
theorem lookupReference (named : item.kind.isName = true)
    (consumerAsked : asked ⟨source, item.consumer⟩) :
    relation.holds (before.lookupReference source item)
      (after.lookupReference source item) := by
  have byName {make make' : QualifiedName → Lookup Outcome}
      (each : ∀ name, relation.holds (make name) (make' name)) :
      relation.holds (referenceName item >>= make)
        (referenceName item >>= make') :=
    relation.bind (relation.refl _) fun name _ _ => each name
  have at_consumer : referencePlace source item = ⟨source, item.consumer⟩ := by
    simp [referencePlace, own]
  unfold Scene.lookupReference
  simp only [at_consumer]
  cases kind : item.kind with
  | uses =>
      exact byName fun name =>
        relation.bind (relates.grouping consumerAsked name) fun _ _ _ =>
          relation.refl _
  | derivedType slot => exact relates.derivedOutcome own placeAsked kind
  | base | identityref slot | ifFeature index =>
      exact byName fun name =>
        relation.bind (relates.topLevel consumerAsked name _) fun _ _ _ =>
          relation.refl _
  | leafref slot => simp [kind, ReferenceKind.isName] at named
  | augment => simp [kind, ReferenceKind.isName] at named

end Relates

theorem outcome_ne_pending_iff {scene : Scene} {source : SourceId}
    {item : Reference} : scene.outcome source item ≠ .pending ↔
      scene.lookupReference source item ≠ .error .notFound := by
  unfold outcome
  cases looked : scene.lookupReference source item with
  | error miss => cases miss <;> simp [Outcome.ofMiss]
  | ok outcome =>
      have found := lookupReference_found looked
      cases found <;> simp

/-- An outcome that has been found stands. -/
theorem outcome_eq_of_decides {source : SourceId} {item : Reference}
    (decides : Decides (before.lookupReference source item)
      (after.lookupReference source item))
    (settles : before.outcome source item ≠ .pending) :
    after.outcome source item = before.outcome source item := by
  rw [outcome, outcome, decides (outcome_ne_pending_iff.mp settles)]

section

variable (agree : ∀ source, before.AgreeAt after source)
include agree

theorem searchFrom_congr (kind : ConstructKind) (name : String)
    (blocked : Bool) (sources : List SourceId) :
    after.searchFrom kind name blocked sources =
      before.searchFrom kind name blocked sources := by
  induction sources generalizing blocked with
  | nil => rfl
  | cons source rest ih =>
      unfold searchFrom
      cases agree source with
      | missing old new => simp only [old, new, ih]
      | found old new resembles =>
          simp only [old, new, resembles.usable, resembles.outline.findChild?,
            ih]

variable (scopes : ∀ source qualifier,
    after.scopes source qualifier = before.scopes source qualifier)
  (size : after.nodeCount = before.nodeCount)
include scopes size

/-- Scenes in which every name is looked up in the same units. -/
theorem Anticipates.of_scopes : before.Anticipates after fun _ => True where
  agree _ := agree _
  lexical {place} _ name kind := by
    have same : after.lexical place name kind =
        before.lexical place name kind := by
      simp only [Scene.lexical, scopes, enclosing?_congr (agree place.source),
        searchFrom_congr agree]
    exact same ▸ Decides.refl _
  topLevel {place} _ name kind := by
    have same : after.topLevel place.source name kind =
        before.topLevel place.source name kind := by
      simp only [Scene.topLevel, scopes, searchFrom_congr agree]
    exact same ▸ Decides.refl _
  found _ _ _ := trivial
  members _ _ item slot typedefs := by rw [size]

/-- In such scenes a name means the same. -/
theorem outcome_of_scopes (source : SourceId) {item : Reference}
    (own : item.origin = none) (named : item.kind.isName = true) :
    after.outcome source item = before.outcome source item := by
  have later := Anticipates.of_scopes agree scopes size
  have earlier := Anticipates.of_scopes (fun source => (agree source).symm)
    (fun source qualifier => (scopes source qualifier).symm) size.symm
  have same : after.lookupReference source item =
      before.lookupReference source item :=
    (later.lookupReference own trivial named trivial).antisymm
      (earlier.lookupReference own trivial named trivial)
  rw [outcome, outcome, same]

end

section

variable {phase : LinkPhase} {units units' : List LinkUnit}
  (distinct : (units.map (·.source)).Nodup)
  (evolves : Linking.Evolves units units')
include distinct evolves

/-- While units evolve, names are looked up in the same units. -/
theorem evolves_looks_up :
    (∀ source, (ofUnits units phase).AgreeAt (ofUnits units' phase) source) ∧
    (∀ source qualifier, (ofUnits units' phase).scopes source qualifier =
      (ofUnits units phase).scopes source qualifier) ∧
    (ofUnits units' phase).nodeCount = (ofUnits units phase).nodeCount :=
  ⟨agreeAt_of_evolves distinct evolves, scopes_congr evolves.map_front,
    Linking.nodeTotal_eq evolves⟩

/-- Linking does not change what a name means. -/
theorem outcome_of_evolves (source : SourceId) {item : Reference}
    (own : item.origin = none) (named : item.kind.isName = true) :
    (ofUnits units' phase).outcome source item =
      (ofUnits units phase).outcome source item := by
  obtain ⟨agree, scopes, size⟩ := @evolves_looks_up phase _ _ distinct evolves
  exact outcome_of_scopes agree scopes size source own named

end

section

variable {unit unit' : LinkUnit} {units : List LinkUnit} {phase : LinkPhase}

/-- In a unit that is alone nothing is blocked. -/
theorem scopes_alone_raises (unbound : unit.IsUnbound)
    (qualifier : Option String) :
    Raises (· = .notFound)
      ((ofUnits [unit] .intraFile).scopes unit.source qualifier) := by
  have tree : (ofUnits [unit] .intraFile).tree? unit.source =
      some unit.tree := by
    simp [tree?, unit?, ofUnits]
  simp only [scopes, tree, Option.bind_some]
  split
  · simp
  next header declared =>
    split
    · exact raises_ok _
    next foreign _ =>
      split
      · simp
      next imported bound =>
        obtain ⟨declaration, listed, resolved⟩ := Option.bind_eq_some_iff.mp bound
        have unresolved := unbound header declared declaration
          (List.mem_of_find?_eq_some listed)
        simp [unresolved] at resolved

theorem searchFrom_alone_raises (usable : unit.usable = true)
    (kind : ConstructKind) (name : String) :
    Raises (· = .notFound) ((ofUnits [unit] .intraFile).searchFrom kind name
      false [unit.source]) := by
  have found : (ofUnits [unit] .intraFile).unit? unit.source = some unit := by
    simp [unit?, ofUnits]
  simp only [searchFrom, found, usable, Bool.not_true, Bool.false_eq_true,
    if_false]
  split <;> simp

theorem decides_of_raises {α : Type} {early late : Lookup α}
    (raises : Raises (· = .notFound) early)
    (found : ∀ value, early = .ok value → late = .ok value) :
    Decides early late := by
  intro settles
  cases early with
  | error miss => exact absurd (congrArg _ (raises miss rfl)) settles
  | ok value => exact found value rfl

/-- What a unit finds alone it finds among others. -/
theorem anticipates_of_alone (connected : Linking.IsConnected .intraFile [unit])
    (usable : unit.usable = true) (unbound : unit.IsUnbound)
    (found : (ofUnits units phase).unit? unit.source = some unit')
    (resembles : unit.Resembles unit')
    (qualifier : unit'.tree.ownQualifier? = unit.tree.ownQualifier?) :
    (ofUnits [unit] .intraFile).Anticipates (ofUnits units phase)
      (ofUnits [unit] .intraFile).IsLive := by
  have growth := grows_of_alone unbound found resembles qualifier
  have single := List.mem_singleton_self unit
  have only {place : NodeRef} (live : (ofUnits [unit] .intraFile).IsLive place) :
      place.source = unit.source := by
    obtain ⟨other, known, -⟩ := live.unit?
    obtain ⟨member, source⟩ := unit?_mem known
    rw [← source, List.mem_singleton.mp member]
  have tree : (ofUnits units phase).tree? unit.source = some unit'.tree := by
    simp [tree?, found]
  have searched {q : Option String} {sources : List SourceId}
      (scopes : (ofUnits [unit] .intraFile).scopes unit.source q = .ok sources) :
      sources = [unit.source] ∧ ∃ more,
        (ofUnits units phase).scopes unit.source q =
          .ok (unit.source :: more) := by
    obtain ⟨rfl, own, named, mine⟩ := scopes_alone unbound scopes
    exact ⟨rfl, scopes_own tree (qualifier.trans named) mine⟩
  have room : (ofUnits [unit] .intraFile).nodeCount ≤
      (ofUnits units phase).nodeCount := by
    have size := size_le_nodeCount tree
    rw [resembles.outline.size_eq] at size
    simpa [nodeCount, ofUnits] using size
  exact
    { agree := fun live => growth.agree live.usable
      lexical := fun {place} live name kind => by
        refine decides_of_raises ?_ fun target named => growth.lexical live named
        refine raises_bind_iff.mpr
          ⟨only live ▸ scopes_alone_raises unbound _, fun sources scopes => ?_⟩
        rw [only live] at scopes
        obtain ⟨rfl, -⟩ := searched scopes
        dsimp only
        split
        · exact raises_pure _
        · exact searchFrom_alone_raises usable kind name.name
      topLevel := fun {place} live name kind => by
        rw [only live]
        refine decides_of_raises ?_ fun target named => ?_
        · refine raises_bind_iff.mpr
            ⟨scopes_alone_raises unbound _, fun sources scopes => ?_⟩
          obtain ⟨rfl, -⟩ := searched scopes
          exact searchFrom_alone_raises usable kind name.name
        · obtain ⟨sources, scopes, named⟩ := bind_eq_ok_iff.mp named
          obtain ⟨rfl, more, scopes'⟩ := searched scopes
          refine bind_eq_ok_iff.mpr ⟨_, scopes', ?_⟩
          refine @searchFrom_append _ _ _ _ _ _ [unit.source] more ?_ named
          simpa using growth.agree (only live ▸ live.usable)
      found := fun live named _ => lexical_isLive live named
      members := fun {typedef id} live _ item slot typedefs => by
        obtain ⟨more, room⟩ := Nat.exists_eq_add_of_le room
        rw [room, Nat.add_right_comm]
        refine memberReferences_add (members_endsWithin fun tree isTree => ?_) more
        obtain ⟨other, member, rfl, -⟩ := tree?_mem isTree
        obtain rfl : other = unit := List.mem_singleton.mp member
        exact (connected.units other single usable).members }

end

end Scene

end YangSchema
