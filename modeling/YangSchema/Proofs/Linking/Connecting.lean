import YangSchema.Proofs.Linking.Liveness
import YangSchema.Proofs.Linking.Settling

/-!
# Writing outcomes down keeps units connected

What is found among connected units is live and of the right kind, so a unit
stays connected when an outcome is written down:  the links that it gets suit it,
and its new references name live nodes.  All this is about one scene, that of the
units before anything is written down.
-/

namespace YangSchema

namespace Scene

variable {scene : Scene} {place : NodeRef}

/-- Following a chain to its end. -/
theorem chainEnd_ends {bound : Nat} {chain : List NodeRef}
    {layers : List TypeUse} {found : ChainEnd}
    (reached : scene.chainEnd bound place chain layers = .ok found) :
    scene.ChainEnds place found.typedef found.builtin := by
  induction bound generalizing place chain layers with
  | zero => simp [chainEnd] at reached
  | succ bound ih =>
      unfold chainEnd at reached
      split at reached
      · simp at reached
      next use declared =>
        dsimp only at reached
        split at reached
        next builtin named =>
          obtain rfl := Except.ok.inj reached
          exact .here declared named
        next derived =>
          obtain ⟨next, found, reached⟩ := bind_eq_ok_iff.mp reached
          split at reached
          · simp at reached
          · exact .next declared derived found (ih reached)

/-- What a type is derived from is what its name and the chain behind it say. -/
theorem DerivesAlong.derives {use : TypeUse} {derivation : Derivation}
    {ending : ChainEnd}
    (along : scene.DerivesAlong place use derivation ending) :
    scene.Derives place use.name derivation.typedef derivation.effective := by
  have ends := chainEnd_ends along.reached
  rw [← along.builtin] at ends
  refine ⟨along.found, ending.typedef, ends, fun holder from' => ?_⟩
  rw [along.membersFrom] at from'
  split at from'
  · exact (Option.some.inj from').symm
  · simp at from'

end Scene

namespace LinkUnit

variable {unit : LinkUnit} {scene : Scene} {item : Reference} {index : Nat}
  {outcome : Outcome}

/-- An outcome of a reference of a unit that a scene bears out. -/
inductive IsSuited (unit : LinkUnit) (scene : Scene) (item : Reference) :
    Outcome → Prop
  | pending : IsSuited unit scene item .pending
  | blocked : IsSuited unit scene item .blocked
  | failed (failure : LinkFailure) :
      IsSuited unit scene item (.failed failure)
  | target {target : NodeRef} (isTarget : scene.IsTarget item.kind target)
      (suits : item.origin = none →
        scene.Suits ⟨unit.source, item.place⟩ item.kind target) :
      IsSuited unit scene item (.target target)
  | derived {slot : TypeSlot} {derivation : Derivation}
      {members : List Reference} (kind : item.kind = .derivedType slot)
      (typedef : scene.IsTarget item.kind derivation.typedef)
      (identity : ∀ target, derivation.identity = some target →
        scene.IsTarget (.identityref slot) target)
      (derives : item.origin = none → ∀ use,
        unit.tree.typeAt? slot = some use →
          scene.Derives ⟨unit.source, slot.node⟩ use.name derivation.typedef
            derivation.effective)
      (named : ∀ {reference ref}, reference ∈ members →
        reference.Names unit.source ref → scene.IsLive ref) :
      IsSuited unit scene item (.derived derivation members)

/-- The reference at a place of the queue can have an outcome. -/
def IsSuitedAt (unit : LinkUnit) (scene : Scene) (index : Nat)
    (outcome : Outcome) : Prop :=
  ∃ item, unit.queue[index]? = some item ∧ unit.IsSuited scene item outcome

theorem IsSuitedAt.evolves {before after : LinkUnit}
    (suited : before.IsSuitedAt scene index outcome)
    (evolves : before.Evolves after) : after.IsSuitedAt scene index outcome := by
  obtain ⟨item, found, suited⟩ := suited
  obtain ⟨state, found'⟩ := evolves.queue found
  have source : after.source = before.source := evolves.text.source
  refine ⟨{ item with state }, found', ?_⟩
  cases suited with
  | pending => exact .pending
  | blocked => exact .blocked
  | failed failure => exact .failed failure
  | target isTarget suits => exact .target isTarget (by rwa [source])
  | derived kind typedef identity derives named =>
      refine .derived kind typedef identity (fun own use' declared => ?_)
        (by rwa [source])
      obtain ⟨use, known, unlinked⟩ := evolves.text.outline.typeAt? declared
      have name : use.name = use'.name := congrArg (·.name) unlinked
      rw [source, ← name]
      exact derives own use known

/-- A unit stays connected if its new links suit it and its new references name
live nodes. -/
theorem IsConnectedIn.of_outline {tree : SchemaTree} {queue : ReferenceQueue}
    (whole : unit.IsConnectedIn scene) (same : unit.tree.SameOutline tree)
    (links : ∀ {id kind target}, tree.Links id kind target →
      unit.tree.Links id kind target ∨
        scene.Suits ⟨unit.source, id⟩ kind target)
    (derived : ∀ {slot use typedef}, tree.typeAt? slot = some use →
      use.links.typedef = some typedef → ∃ effective,
        use.links.effective = some effective ∧
          scene.Derives ⟨unit.source, slot.node⟩ use.name typedef effective)
    (named : ∀ {item ref}, item ∈ queue → item.Names unit.source ref →
      scene.IsLive ref) :
    IsConnectedIn { unit with tree, queue } scene := by
  have source : LinkUnit.source { unit with tree, queue } = unit.source :=
    same.source
  exact
    { rooted := Nat.lt_of_lt_of_eq whole.rooted same.size_eq.symm
      nested := same.isNested whole.nested
      members := same.hasApartMembers whole.members
      links := fun linked => by
        rw [source]
        exact (links linked).elim whole.links (fun suits => suits)
      derived := by
        rw [source]
        exact derived
      named := by
        rw [source]
        exact named
      deferred := fun list deferred =>
        Nat.lt_of_lt_of_eq (whole.deferred list deferred) same.size_eq.symm }

/-- The nodes that a reference names do not depend on its state, but for what it
is resolved to. -/
theorem names_withState {source : SourceId} {state : ReferenceState}
    {ref : NodeRef}
    (named : Reference.Names { item with state } source ref) :
    item.Names source ref ∨ state = .resolved ref := by
  cases named with
  | consumer => exact .inl .consumer
  | place => exact .inl .place
  | resolved state => exact .inr state
  | union origin => exact .inl (.union origin)
  | typedef origin expanded => exact .inl (.typedef origin expanded)
  | leaf origin => exact .inl (.leaf origin)
  | uses origin instantiates => exact .inl (.uses origin instantiates)

/-- A reference that has been settled still names live nodes. -/
theorem named_setState {queue : ReferenceQueue} {source : SourceId}
    {state : ReferenceState}
    (named : ∀ {item ref}, item ∈ queue → item.Names source ref →
      scene.IsLive ref)
    (live : ∀ target, state = .resolved target → scene.IsLive target)
    {item : Reference} {ref : NodeRef}
    (queued : item ∈ queue.setState index state)
    (names : item.Names source ref) : scene.IsLive ref := by
  obtain ⟨place, found⟩ := List.mem_iff_getElem?.mp queued
  rw [ReferenceQueue.getElem?_setState] at found
  split at found
  · obtain ⟨old, known, rfl⟩ := Option.map_eq_some_iff.mp found
    obtain before | settled := names_withState names
    · exact named (List.mem_of_getElem? known) before
    · exact live ref settled
  · exact named (List.mem_of_getElem? found) names

/-- The leafref at the end of a chain names what the derived type names. -/
theorem chainLeafref_names {slot : TypeSlot} {derivation : Derivation}
    {reference : Reference} {source : SourceId} {ref : NodeRef}
    (kind : item.kind = .derivedType slot)
    (made : reference ∈ chainLeafref item slot derivation)
    (named : reference.Names source ref) : item.Names source ref := by
  unfold chainLeafref at made
  split at made
  · simp at made
  · obtain rfl := List.mem_singleton.mp made
    cases named with
    | consumer => exact .consumer
    | place =>
        have place : item.place = slot.node := by simp [Reference.place, kind]
        have named : item.Names source ⟨source, item.place⟩ := .place
        rwa [place] at named
    | resolved state => simp [Reference.ofText] at state
    | union origin => exact .union origin
    | typedef origin expanded => exact .typedef origin expanded
    | leaf origin => exact .leaf origin
    | uses origin instantiates => exact .uses origin instantiates

/-- Only derivations change what a type is derived from. -/
theorem typeAt?_bindTarget {tree : SchemaTree} {target : NodeRef}
    {slot : TypeSlot} {use : TypeUse}
    (declared : (bindTarget tree item target).typeAt? slot = some use) :
    ∃ before, tree.typeAt? slot = some before ∧ before.name = use.name ∧
      before.links.typedef = use.links.typedef ∧
        before.links.effective = use.links.effective := by
  unfold bindTarget at declared
  split at declared
  · exact ⟨use, declared, rfl, rfl, rfl⟩
  · cases kind : item.kind with
    | uses | augment | base =>
        rw [kind] at declared
        rw [SchemaTree.typeAt?_modifyConstruct] at declared
        · exact ⟨use, declared, rfl, rfl, rfl⟩
        · intro construct _
          cases construct <;> rfl
    | ifFeature index =>
        rw [kind] at declared
        dsimp only at declared
        rw [SchemaTree.typeAt?_modifyMetadata] at declared
        exact ⟨use, declared, rfl, rfl, rfl⟩
    | identityref bound | leafref bound =>
        rw [kind] at declared
        dsimp only at declared
        rw [SchemaTree.typeAt?_modifyLinks] at declared
        split at declared
        · obtain ⟨before, written, rfl⟩ := Option.map_eq_some_iff.mp declared
          exact ⟨before, written, rfl, rfl, rfl⟩
        · exact ⟨use, declared, rfl, rfl, rfl⟩
    | derivedType bound =>
        rw [kind] at declared
        exact ⟨use, declared, rfl, rfl, rfl⟩

/-- A unit stays connected when an outcome that suits it is written down. -/
theorem IsConnectedIn.apply (whole : unit.IsConnectedIn scene)
    (suited : unit.IsSuitedAt scene index outcome) :
    (unit.apply index outcome).IsConnectedIn scene := by
  obtain ⟨item, found, suited⟩ := suited
  have queued := List.mem_of_getElem? found
  simp only [LinkUnit.apply, found]
  cases suited with
  | pending => exact whole
  | blocked | failed failure =>
      exact whole.of_outline (.refl unit.tree) .inl whole.derived
        (named_setState whole.named (by simp))
  | @target target isTarget suits =>
      refine whole.of_outline
        (sameText_bindTarget unit.tree item target).outline
        (fun linked => ?_) (fun declared bound => ?_)
        (named_setState whole.named ?_)
      · obtain old | ⟨own, rfl, rfl, rfl⟩ := links_bindTarget linked
        · exact .inl old
        · exact .inr (suits own)
      · obtain ⟨before, written, name, typedef, effective⟩ :=
          typeAt?_bindTarget declared
        rw [← name, ← effective]
        exact whole.derived written (typedef.trans bound)
      · rintro other settled
        obtain rfl := ReferenceState.resolved.inj settled
        exact isTarget.live
  | @derived slot derivation members kind typedef identity derives named =>
      rw [kind]
      refine whole.of_outline
        (sameText_bindDerivation unit.tree item slot derivation).outline
        (fun linked => ?_) (fun declared bound => ?_) (named_setState ?_ ?_)
      · obtain old | ⟨own, rfl, ⟨rfl, rfl⟩ | ⟨rfl, is⟩⟩ :=
          links_bindDerivation linked
        · exact .inl old
        · exact .inr ⟨kind ▸ typedef, by simp, by simp⟩
        · exact .inr ⟨identity _ is, by simp, by simp⟩
      · unfold bindDerivation at declared
        split at declared
        · exact whole.derived declared bound
        next own =>
          rw [SchemaTree.typeAt?_modifyLinks] at declared
          split at declared
          next same =>
            subst same
            obtain ⟨before, written, rfl⟩ :=
              Option.map_eq_some_iff.mp declared
            obtain rfl := Option.some.inj bound
            exact ⟨derivation.effective, rfl,
              derives (by simpa using own) before written⟩
          · exact whole.derived declared bound
      · intro reference ref listed names
        obtain old | new := List.mem_append.mp listed
        · exact whole.named old names
        · obtain made | made := List.mem_append.mp (List.mem_filter.mp new).1
          · exact named made names
          · exact whole.named queued (chainLeafref_names kind made names)
      · rintro other settled
        obtain rfl := ReferenceState.resolved.inj settled
        exact typedef.live

end LinkUnit

namespace Linking.IsConnected

open Scene LinkUnit

variable {phase : LinkPhase} {units : List LinkUnit} {unit : LinkUnit}
  {item : Reference}

theorem tree? (connected : IsConnected phase units) (member : unit ∈ units) :
    (ofUnits units phase).tree? unit.source = some unit.tree := by
  have found : (ofUnits units phase).unit? unit.source = some unit :=
    @unit?_of_mem (ofUnits units phase) connected.distinct unit member
  simp [Scene.tree?, found]

/-- A target that is found for a reference of a connected unit suits it. -/
theorem target_isSuited (connected : IsConnected phase units)
    (member : unit ∈ units) (usable : unit.usable = true)
    (queued : item ∈ unit.queue) {target : NodeRef}
    (found : (ofUnits units phase).Found unit.source item (.target target)) :
    unit.IsSuited (.ofUnits units phase) item (.target target) := by
  obtain ⟨looks, ofKind⟩ := found.target_looks
    (fun named => .queued member usable queued named)
  have isTarget : (ofUnits units phase).IsTarget item.kind target :=
    ⟨connected.isLive looks, ofKind⟩
  refine .target isTarget fun own => ?_
  have place : referencePlace unit.source item =
      ⟨unit.source, item.consumer⟩ := by
    simp [referencePlace, own]
  cases found with
  | uses kind grouping =>
      have outside := (grouping_eq_ok_iff.mp grouping).2
      rw [place] at outside
      exact ⟨isTarget, fun _ => by simpa [Reference.place, kind] using outside,
        by simp [kind]⟩
  | base kind _ other =>
      rw [place] at other
      exact ⟨isTarget, by simp [kind],
        fun _ => by simpa [Reference.place, kind] using other⟩
  | _ => exact ⟨isTarget, by simp [*], by simp [*]⟩

/-- A derivation that is found for a reference of a connected unit suits it. -/
theorem derived_isSuited (connected : IsConnected phase units)
    (member : unit ∈ units) (usable : unit.usable = true)
    (queued : item ∈ unit.queue) {derivation : Derivation}
    {members : List Reference}
    (found : (ofUnits units phase).Found unit.source item
      (.derived derivation members)) :
    unit.IsSuited (.ofUnits units phase) item
      (.derived derivation members) := by
  have looks {ref : NodeRef} (named : item.Names unit.source ref) :
      (ofUnits units phase).LooksAt ref := .queued member usable queued named
  have membersLook {reference : Reference} {ref : NodeRef}
      (made : reference ∈ members) (named : reference.Names unit.source ref) :
      (ofUnits units phase).LooksAt ref := found.members_looks looks made named
  have kindOf {kind : ConstructKind} {target : NodeRef} {name : String}
      (found : ∃ node, (ofUnits units phase).node? target = some node ∧
        node.kind = kind ∧ node.name = name) :
      (ofUnits units phase).kind? target = some kind := by
    obtain ⟨node, known, rfl, -⟩ := found
    simp [kind?, known]
  cases found with
  | @derived slot place use _ _ kind written derived made =>
      obtain ⟨ending, along⟩ := derive_eq_ok derived
      obtain ⟨typedefLooks, -, identityLooks⟩ :=
        (derivedUse_looks looks kind written).derive along
      refine .derived kind ?_ (fun target is => ?_) (fun own use' declared => ?_)
        fun made named => connected.isLive (membersLook made named)
      · rw [kind]
        exact ⟨connected.isLive typedefLooks, _, List.mem_singleton_self _,
          kindOf (lexical_names along.found)⟩
      · obtain ⟨name, found⟩ := along.identity target is
        exact ⟨connected.isLive (identityLooks target is), _,
          List.mem_singleton_self _, kindOf (topLevel_names found)⟩
      · simp only [derivedUse, own, connected.tree? member, Option.bind_some,
          declared, Prod.mk.injEq, Option.some.injEq] at written
        obtain ⟨rfl, rfl⟩ := written
        exact along.derives

/-- What is found for a reference of a connected unit suits it. -/
theorem outcome_isSuited (connected : IsConnected phase units)
    (member : unit ∈ units) (usable : unit.usable = true)
    (queued : item ∈ unit.queue) :
    unit.IsSuited (.ofUnits units phase) item
      ((ofUnits units phase).outcome unit.source item) := by
  unfold outcome
  split
  next outcome ok =>
    have found := lookupReference_found ok
    cases outcome with
    | target target => exact connected.target_isSuited member usable queued found
    | derived derivation members =>
        exact connected.derived_isSuited member usable queued found
    | pending | blocked | failed => cases found
  next miss _ =>
    cases miss with
    | notFound => exact .pending
    | blocked => exact .blocked
    | failed failure => exact .failed failure

end Linking.IsConnected

end YangSchema
