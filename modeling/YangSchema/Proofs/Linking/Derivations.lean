import Mathlib.Tactic.Common
import YangSchema.Proofs.Linking.Unblocked
import YangSchema.Proofs.Schema.Types

/-!
# What a derived type amounts to

A name finds a definition that is called so.  As no typedef is called like a
built-in type, only types that name no built-in one are ever derived.  The type
at the end of a chain is complete, so an identityref there has an identity and a
leafref a path.
-/

namespace YangSchema

/-- A derivation has what its effective type refers to. -/
structure Derivation.IsComplete (derivation : Derivation) : Prop where
  identity : derivation.effective.builtin = .identityref →
    derivation.identity.isSome
  leafref : derivation.effective.builtin = .leafref →
    derivation.leafref.isSome

theorem SchemaTree.findChild?_eq_some {tree : SchemaTree} {parent id : NodeId}
    {kind : ConstructKind} {name : String}
    (found : tree.findChild? parent kind name = some id) :
    ∃ node, tree.node? id = some node ∧ node.kind = kind ∧
      node.name = name := by
  have named := List.find?_some found
  split at named
  next node known => exact ⟨node, known, by simpa using named⟩
  · simp at named

namespace Scene

variable {scene : Scene} {place : NodeRef} {use : TypeUse}

theorem searchFrom_names {kind : ConstructKind} {name : String}
    {blocked : Bool} {sources : List SourceId} {target : NodeRef}
    (found : scene.searchFrom kind name blocked sources = .ok target) :
    ∃ node, scene.node? target = some node ∧ node.kind = kind ∧
      node.name = name := by
  induction sources generalizing blocked with
  | nil => simp [searchFrom] at found
  | cons source rest ih =>
      unfold searchFrom at found
      split at found
      · exact ih found
      next unit known =>
        split at found
        · exact ih found
        · split at found
          next id child =>
            obtain rfl := Except.ok.inj found
            obtain ⟨node, inTree, named⟩ := SchemaTree.findChild?_eq_some child
            exact ⟨node, by simp [node?, tree?, known, inTree], named⟩
          · exact ih found

/-- A name at the top level finds a definition that is called so. -/
theorem topLevel_names {source : SourceId} {name : QualifiedName}
    {kind : ConstructKind} {target : NodeRef}
    (found : scene.topLevel source name kind = .ok target) :
    ∃ node, scene.node? target = some node ∧ node.kind = kind ∧
      node.name = name.name := by
  obtain ⟨sources, _, found⟩ := bind_eq_ok_iff.mp found
  exact searchFrom_names found

theorem lexical_names {name : QualifiedName} {kind : ConstructKind}
    {target : NodeRef} (found : scene.lexical place name kind = .ok target) :
    ∃ node, scene.node? target = some node ∧ node.kind = kind ∧
      node.name = name.name := by
  obtain ⟨sources, _, found⟩ := bind_eq_ok_iff.mp found
  dsimp only at found
  split at found
  next nested enclosed =>
    obtain rfl := pure_eq_ok_iff.mp found
    split at enclosed
    · unfold enclosing? at enclosed
      split at enclosed
      · simp at enclosed
      next tree known =>
        obtain ⟨id, inside, rfl⟩ := Option.map_eq_some_iff.mp enclosed
        obtain ⟨ancestor, _, child⟩ := List.exists_of_findSome?_eq_some inside
        obtain ⟨node, inTree, named⟩ := SchemaTree.findChild?_eq_some child
        exact ⟨node, by simp [node?, known, inTree], named⟩
    · simp at enclosed
  · exact searchFrom_names found

variable (sound : ∀ unit ∈ scene.units, unit.tree.IsSound)
include sound

theorem node?_isSound {node : SchemaNode}
    (found : scene.node? place = some node) : node.IsSound := by
  obtain ⟨tree, known, found⟩ := Option.bind_eq_some_iff.mp found
  obtain ⟨unit, inScene, rfl, -⟩ := tree?_mem known
  exact sound unit inScene found

theorem type?_isComplete (declared : scene.type? place = some use) :
    use.IsComplete := by
  obtain ⟨construct, placed, declared⟩ := Option.bind_eq_some_iff.mp declared
  obtain ⟨node, found, rfl⟩ := Option.map_eq_some_iff.mp placed
  have declared : node.construct.typeAt? none = some use := declared
  exact (node?_isSound sound found).types declared

omit sound in
/-- The last layer of a chain is the type that names the built-in one. -/
theorem chainEnd_last {bound : Nat} {chain : List NodeRef}
    {layers : List TypeUse} {found : ChainEnd}
    (reached : scene.chainEnd bound place chain layers = .ok found) :
    ∃ use, found.layers.getLast? = some use ∧
      scene.type? found.typedef = some use ∧
      use.builtin = some found.builtin := by
  induction bound generalizing place chain layers with
  | zero => simp [chainEnd] at reached
  | succ bound ih =>
      unfold chainEnd at reached
      split at reached
      · simp at reached
      next use declared =>
        dsimp only at reached
        split at reached
        next builtin named =>
          obtain rfl := by simpa using reached
          exact ⟨use, by simp, declared, named⟩
        · obtain ⟨next, _, reached⟩ := bind_eq_ok_iff.mp reached
          split at reached
          · simp at reached
          · exact ih reached

omit sound in
theorem ofLayers_eq_ok {builtin : BuiltinType} {layers : List TypeUse}
    {effective : EffectiveType}
    (merged : EffectiveType.ofLayers builtin layers = .ok effective) :
    effective.builtin = builtin ∧ effective.membersFrom = none := by
  simp only [EffectiveType.ofLayers, bind_eq_ok_iff, pure_eq_ok_iff] at merged
  obtain ⟨space, _, rfl⟩ := merged
  exact ⟨rfl, rfl⟩

/-- How a derivation comes by the nodes that it names. -/
structure DerivesAlong (scene : Scene) (place : NodeRef) (use : TypeUse)
    (derivation : Derivation) (ending : ChainEnd) : Prop where
  found : scene.lexical place use.name .typedef = .ok derivation.typedef
  reached : scene.chainEnd (scene.nodeCount + 1) derivation.typedef
    [derivation.typedef] [use] = .ok ending
  builtin : derivation.effective.builtin = ending.builtin
  membersFrom : derivation.effective.membersFrom =
    if ending.builtin.hasMembers then some ending.typedef else none
  identity : ∀ identity, derivation.identity = some identity → ∃ name,
    scene.topLevel ending.typedef.source name .identity = .ok identity

omit sound in
theorem derive_eq_ok {derivation : Derivation}
    (derived : scene.derive place use = .ok derivation) :
    ∃ ending, scene.DerivesAlong place use derivation ending := by
  simp only [derive, bind_eq_ok_iff, pure_eq_ok_iff] at derived
  obtain ⟨first, found, ending, reached, effective, merged, identity, base,
    rfl⟩ := derived
  obtain ⟨builtin, memberless⟩ := ofLayers_eq_ok merged
  refine ⟨ending, found, reached, ?_, ?_, fun target is => ?_⟩
  · dsimp only
    split <;> exact builtin
  · dsimp only
    split
    · rfl
    · exact memberless
  · unfold baseIdentity at base
    split at base
    next name _ _ =>
      simp only [bind_eq_ok_iff, pure_eq_ok_iff] at base
      obtain ⟨bound, found, rfl⟩ := base
      obtain rfl := Option.some.inj is
      exact ⟨name, found⟩
    · obtain rfl := Except.ok.inj base
      simp at is

/-- Deriving a type finds all that its effective type refers to, and it finds a
typedef, so the type does not name a built-in one. -/
theorem derive_isComplete {derivation : Derivation}
    (derived : scene.derive place use = .ok derivation)
    (named : use.IsNamed) :
    use.builtin = none ∧ derivation.IsComplete := by
  simp only [derive, bind_eq_ok_iff, pure_eq_ok_iff] at derived
  obtain ⟨first, found, ending, reached, effective, merged, identity, base,
    rfl⟩ := derived
  obtain ⟨node, known, isTypedef, name⟩ := lexical_names found
  obtain ⟨last, isLast, declared, builtin⟩ := chainEnd_last reached
  have complete := type?_isComplete sound declared
  have lastLayer : ending.layers.getLastD use = last := by
    rw [List.getLastD_eq_getLast?, isLast, Option.getD_some]
  have effectiveBuiltin := (ofLayers_eq_ok merged).1
  rw [lastLayer] at base
  refine ⟨named.isDerived
    (name ▸ (node?_isSound sound known).typedef isTypedef), ?_, ?_⟩
  · intro isIdentityref
    have isIdentityref : ending.builtin = .identityref := by
      split at isIdentityref <;> simp_all
    rw [isIdentityref] at builtin
    have needed := complete.required _ builtin _ rfl
    obtain ⟨name, declared⟩ := Option.isSome_iff_exists.mp needed
    simp only [baseIdentity, declared, isIdentityref, bind_eq_ok_iff,
      pure_eq_ok_iff] at base
    obtain ⟨target, _, rfl⟩ := base
    rfl
  · intro isLeafref
    have isLeafref : ending.builtin = .leafref := by
      split at isLeafref <;> simp_all
    rw [isLeafref] at builtin
    have needed : last.path.isSome := complete.required _ builtin _ rfl
    rw [lastLayer]
    simpa [isLeafref] using needed

end Scene

end YangSchema

/-!
## Typedef chains end

A recursion that is cut off at a bound ends by itself if its calls are never
nested so deep.  They are not if something gets smaller from each call to the
next one.

No typedef comes twice in a chain, and all of them are nodes of the scene, so
there are fewer calls than nodes:  the bound on the length of a chain is never
reached, whether the chain ends in a built-in type or runs in a circle.
-/

namespace YangSchema

section

variable {α : Type} {calls : α → α → Prop}

/-- Calls are nested less deep than a bound, counting the first one. -/
inductive EndsWithin (calls : α → α → Prop) : Nat → α → Prop
  | intro {bound : Nat} {state : α}
      (each : ∀ next, calls state next → EndsWithin calls bound next) :
      EndsWithin calls (bound + 1) state

namespace EndsWithin

variable {state : α} {bound : Nat}

theorem next {next : α} (ends : EndsWithin calls (bound + 1) state)
    (call : calls state next) : EndsWithin calls bound next := by
  cases ends with
  | intro each => exact each next call

theorem mono {more : Nat} (ends : EndsWithin calls bound state)
    (less : bound ≤ more) : EndsWithin calls more state := by
  induction ends generalizing more with
  | intro _ ih =>
      cases more with
      | zero => exact absurd less (Nat.not_succ_le_zero _)
      | succ more =>
          exact .intro fun next call =>
            ih next call (Nat.le_of_succ_le_succ less)

/-- The measure need only get smaller where the calls are orderly. -/
theorem of_measure (orderly : α → Prop) (measure : α → Nat)
    (step : ∀ state next, orderly state → calls state next →
      orderly next ∧ measure next < measure state)
    (start : orderly state) (room : measure state < bound) :
    EndsWithin calls bound state := by
  induction bound generalizing state with
  | zero => exact absurd room (Nat.not_lt_zero _)
  | succ bound ih =>
      refine .intro fun next call => ?_
      obtain ⟨orderly, falls⟩ := step state next start call
      exact ih orderly (Nat.lt_of_lt_of_le falls (Nat.le_of_lt_succ room))

end EndsWithin

end

namespace Scene

variable {scene : Scene}

/-- The call after that for a typedef, with the typedefs met so far. -/
inductive ChainCalls (scene : Scene) :
    NodeRef × List NodeRef → NodeRef × List NodeRef → Prop
  | next {current next : NodeRef} {chain : List NodeRef} {use : TypeUse}
      (declared : scene.type? current = some use)
      (derived : use.builtin = none)
      (found : scene.lexical current use.name .typedef = .ok next)
      (fresh : next ∉ chain) :
      ChainCalls scene (current, chain) (next, chain ++ [next])

theorem chainEnd_add {bound : Nat} {current : NodeRef} {chain : List NodeRef}
    (ends : EndsWithin scene.ChainCalls bound (current, chain)) (more : Nat)
    (layers : List TypeUse) :
    scene.chainEnd (bound + more) current chain layers =
      scene.chainEnd bound current chain layers := by
  induction bound generalizing current chain layers with
  | zero => cases ends
  | succ bound ih =>
      rw [Nat.add_right_comm]
      unfold chainEnd
      split
      · rfl
      next use declared =>
        dsimp only
        split
        · rfl
        next derived =>
          cases found : scene.lexical current use.name .typedef with
          | error miss => rfl
          | ok next =>
              simp only [bind, Except.bind]
              split
              · rfl
              next fresh =>
                exact ih (ends.next (.next declared derived found
                  (by simpa using fresh))) _

/-- A chain ends before its bound is reached. -/
theorem chain_endsWithin (first : NodeRef) :
    EndsWithin scene.ChainCalls (scene.nodeCount + 1) (first, [first]) := by
  by_cases known : first ∈ scene.nodeRefs
  · refine .of_measure
      (fun state => state.2.Nodup ∧ state.2 ⊆ scene.nodeRefs)
      (fun state => scene.nodeCount - state.2.length) ?_ (by simpa using known)
      (Nat.lt_succ_of_le (Nat.sub_le _ _))
    rintro _ _ ⟨distinct, among⟩ ⟨-, -, found, fresh⟩
    obtain ⟨node, known, -⟩ := lexical_names found
    have distinct' := List.Nodup.concat fresh distinct
    rw [List.concat_eq_append] at distinct'
    have among' := List.append_subset.mpr
      ⟨among, List.cons_subset.mpr
        ⟨mem_nodeRefs_of_node? known, List.nil_subset _⟩⟩
    have room := length_le_nodeCount distinct' among'
    refine ⟨⟨distinct', among'⟩, ?_⟩
    simp only [List.length_append, List.length_singleton] at room ⊢
    omega
  · refine .intro fun next call => ?_
    obtain ⟨declared, -⟩ := call
    obtain ⟨construct, found, -⟩ := Option.bind_eq_some_iff.mp declared
    obtain ⟨node, found, -⟩ := Option.map_eq_some_iff.mp found
    exact absurd (mem_nodeRefs_of_node? found) known

end Scene

end YangSchema
