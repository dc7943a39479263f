import YangSchema.Proofs.Linking.Binding

/-!
# Writing outcomes down

A unit is sound if its queue accounts for its tree, all its types are complete
and none of its references is blocked.  The outcomes that are found among sound
units which can all be used are accepted by their unit: writing one down leaves
it sound.  An accepted outcome stays accepted while others are written down, for
these touch nothing but links and states.
-/

namespace YangSchema

/-- Every gap of a unit has a reference that waits to fill it, and nothing
stands in the way of linking. -/
structure LinkUnit.IsSound (unit : LinkUnit) : Prop where
  accounts : unit.queue.AccountsFor unit.tree
  nodes : unit.tree.IsSound
  unblocked : ∀ item ∈ unit.queue, item.state ≠ .blocked

namespace ReferenceQueue

variable {queue : ReferenceQueue} {kind : ReferenceKind} {id : NodeId}

theorem getElem?_setState (queue : ReferenceQueue) (index : Nat)
    (state : ReferenceState) (other : Nat) :
    (queue.setState index state)[other]? =
      if index = other then
        queue[other]?.map fun item => { item with state }
      else queue[other]? := by
  rw [setState, List.getElem?_modify]
  split <;> simp

/-- A reference still waits if it is not the one that has been resolved. -/
theorem Awaits.setState {index : Nat} {state : ReferenceState}
    (awaits : queue.Awaits kind id)
    (another : ∀ item, queue[index]? = some item → item.origin = none →
      item.place = id → item.kind = kind → ∀ target, state ≠ .resolved target) :
    (queue.setState index state).Awaits kind id := by
  obtain ⟨item, member, ofKind, placed, own, waiting⟩ := awaits
  obtain ⟨other, found⟩ := List.mem_iff_getElem?.mp member
  by_cases same : index = other
  · subst same
    refine ⟨{ item with state }, ?_, ofKind, placed, own,
      another item found own placed ofKind⟩
    exact List.mem_iff_getElem?.mpr ⟨index, by
      rw [getElem?_setState, if_pos rfl, found]; rfl⟩
  · exact ⟨item, List.mem_iff_getElem?.mpr ⟨other, by
      rw [getElem?_setState, if_neg same, found]⟩, ofKind, placed, own, waiting⟩

theorem mem_setState {index : Nat} {state : ReferenceState} {item : Reference}
    (member : item ∈ queue.setState index state) :
    item ∈ queue ∨ item.state = state := by
  obtain ⟨other, found⟩ := List.mem_iff_getElem?.mp member
  rw [getElem?_setState] at found
  split at found
  · obtain ⟨old, _, rfl⟩ := Option.map_eq_some_iff.mp found
    exact .inr rfl
  · exact .inl (List.mem_of_getElem? found)

end ReferenceQueue

namespace LinkUnit

variable {unit : LinkUnit} {item : Reference} {index : Nat}
  {outcome : Outcome}

/-- An outcome of a reference that the unit can write down. -/
inductive Accepts (unit : LinkUnit) (item : Reference) : Outcome → Prop
  | pending : Accepts unit item .pending
  | failed (failure : LinkFailure) : Accepts unit item (.failed failure)
  | target (target : NodeRef) (direct : ∀ slot, item.kind ≠ .derivedType slot) :
      Accepts unit item (.target target)
  | derived {slot : TypeSlot} {derivation : Derivation}
      {members : List Reference} (kind : item.kind = .derivedType slot)
      (complete : item.origin = none → derivation.IsComplete)
      (derived : item.origin = none → ∀ use,
        unit.tree.typeAt? slot = some use → use.builtin = none)
      (fresh : ∀ member ∈ members, member.state = .unresolved) :
      Accepts unit item (.derived derivation members)

/-- The reference at a place of the queue can have an outcome. -/
def AcceptsAt (unit : LinkUnit) (index : Nat) (outcome : Outcome) : Prop :=
  ∃ item, unit.queue[index]? = some item ∧ unit.Accepts item outcome

/-- One unit has become another by linking. -/
structure Evolves (before after : LinkUnit) : Prop where
  text : before.tree.SameText after.tree
  usable : after.usable = before.usable
  deferred : after.deferredKeys = before.deferredKeys
  queue : ∀ {index : Nat} {item : Reference},
    before.queue[index]? = some item →
      ∃ state, after.queue[index]? = some { item with state }

theorem AcceptsAt.evolves {before after : LinkUnit}
    (accepts : before.AcceptsAt index outcome)
    (evolves : before.Evolves after) : after.AcceptsAt index outcome := by
  obtain ⟨item, found, accepts⟩ := accepts
  obtain ⟨state, found'⟩ := evolves.queue found
  refine ⟨{ item with state }, found', ?_⟩
  cases accepts with
  | pending => exact .pending
  | failed failure => exact .failed failure
  | target target direct => exact .target target direct
  | derived kind complete derived fresh =>
      refine .derived kind complete ?_ fresh
      intro own use' declared
      obtain ⟨use, known, unlinked⟩ := evolves.text.outline.typeAt? declared
      have builtin : use.builtin = use'.builtin :=
        congrArg (·.builtin) unlinked
      rw [← builtin]
      exact derived own use known

theorem evolves_setState (tree : SchemaTree) (more : ReferenceQueue)
    (state : ReferenceState) (text : unit.tree.SameText tree) :
    unit.Evolves
      { unit with
        tree
        queue := ReferenceQueue.setState (unit.queue ++ more) index state } where
  text := text
  usable := rfl
  deferred := rfl
  queue := by
    intro other item found
    rw [ReferenceQueue.getElem?_setState]
    have inside : (unit.queue ++ more)[other]? = some item := by
      rwa [List.getElem?_append_left (List.getElem?_eq_some_iff.mp found).1]
    split
    · exact ⟨state, by rw [inside]; rfl⟩
    · exact ⟨item.state, inside⟩

theorem Evolves.refl (unit : LinkUnit) : unit.Evolves unit :=
  ⟨.refl unit.tree, rfl, rfl, fun {_ item} found => ⟨item.state, found⟩⟩

theorem evolves_state (tree : SchemaTree) (state : ReferenceState)
    (text : unit.tree.SameText tree) :
    unit.Evolves
      { unit with tree, queue := unit.queue.setState index state } := by
  simpa using evolves_setState tree [] state text

theorem apply_evolves (unit : LinkUnit) (index : Nat) (outcome : Outcome) :
    unit.Evolves (unit.apply index outcome) := by
  unfold apply
  split
  · exact .refl unit
  next item found =>
    cases outcome with
    | pending => exact .refl unit
    | blocked => exact evolves_state unit.tree _ (.refl unit.tree)
    | failed failure => exact evolves_state unit.tree _ (.refl unit.tree)
    | target target =>
        exact evolves_state _ _ (sameText_bindTarget unit.tree item target)
    | derived derivation members =>
        dsimp only
        split
        · exact evolves_setState _ _ _ (sameText_bindDerivation _ item _ _)
        · exact .refl unit

/-- What is left of the types and states after a change of links. -/
theorem IsSound.of_sameText {after : LinkUnit} (sound : unit.IsSound)
    (text : unit.tree.SameText after.tree)
    (accounts : after.queue.AccountsFor after.tree)
    (unblocked : ∀ item ∈ after.queue,
      item ∈ unit.queue ∨ item.state ≠ .blocked) : after.IsSound where
  accounts := accounts
  nodes := text.isSound sound.nodes
  unblocked item member :=
    (unblocked item member).elim (sound.unblocked item) id

theorem chainLeafref_unresolved {slot : TypeSlot} {derivation : Derivation}
    {reference : Reference}
    (made : reference ∈ chainLeafref item slot derivation) :
    reference.state = .unresolved := by
  unfold chainLeafref at made
  split at made
  · simp at made
  · obtain rfl := List.mem_singleton.mp made
    rfl

/-- The leafref at the end of a chain is queued unless it waits for a `uses`. -/
theorem followUps_awaits {tree : SchemaTree} {slot : TypeSlot}
    {derivation : Derivation} (members : List Reference)
    (own : item.origin = none) (refers : derivation.leafref.isSome)
    (outside : ¬ tree.IsInGrouping slot.node) :
    ReferenceQueue.Awaits (followUps tree item slot derivation members)
      (.leafref slot) slot.node := by
  obtain ⟨path, refers⟩ := Option.isSome_iff_exists.mp refers
  refine ⟨{ Reference.ofText (.leafref slot) path item.consumer item.position
    item.span with origin := item.origin }, ?_, rfl, rfl, own, by
      simp [Reference.ofText]⟩
  rw [← SchemaTree.isWithin_grouping_iff, Bool.not_eq_true] at outside
  simp [followUps, chainLeafref, refers, waitsForUses, outside]

/-- A target is written down at the reference that waits for it. -/
theorem bindTarget_accounts (target : NodeRef)
    (accounts : unit.queue.AccountsFor unit.tree)
    (found : unit.queue[index]? = some item)
    (direct : ∀ slot, item.kind ≠ .derivedType slot) :
    (unit.queue.setState index (.resolved target)).AccountsFor
      (bindTarget unit.tree item target) := by
  intro id kind gap
  cases own : item.origin with
  | none =>
      have fills : unit.tree.Fills (bindTarget unit.tree item target)
          item.kind item.place := bindTarget_fills target own direct
      refine (accounts (fills.old gap)).setState ?_
      intro other same _ placed ofKind
      obtain rfl := Option.some.inj (found.symm.trans same)
      exact absurd (ofKind ▸ placed ▸ gap) fills.filled
  | some origin =>
      simp only [bindTarget, own, Option.isSome_some, if_true] at gap
      refine (accounts gap).setState ?_
      intro other same own'
      obtain rfl := Option.some.inj (found.symm.trans same)
      simp [own] at own'

/-- A derivation is written down at the reference that waits for it, and the
leafref that it may bring in waits from now on. -/
theorem bindDerivation_accounts {slot : TypeSlot} {derivation : Derivation}
    (members : List Reference) (accounts : unit.queue.AccountsFor unit.tree)
    (found : unit.queue[index]? = some item)
    (kind : item.kind = .derivedType slot)
    (complete : item.origin = none → derivation.IsComplete)
    (derived : item.origin = none → ∀ use,
      unit.tree.typeAt? slot = some use → use.builtin = none) :
    let tree := bindDerivation unit.tree item slot derivation
    let queue := unit.queue ++ followUps tree item slot derivation members
    (ReferenceQueue.setState queue index
      (.resolved derivation.typedef)).AccountsFor tree := by
  intro tree queue id gapKind gap
  have queued : queue[index]? = some item := by
    rwa [List.getElem?_append_left (List.getElem?_eq_some_iff.mp found).1]
  cases own : item.origin with
  | none =>
      obtain ⟨another, gap⟩ :=
        hasGap_bindDerivation own (complete own) (derived own) gap
      have awaits : queue.Awaits gapKind id := by
        obtain old | ⟨rfl, rfl, refers, outside⟩ := gap
        · exact (accounts old).append_left _
        · exact .append_right _ (followUps_awaits members own refers outside)
      refine awaits.setState ?_
      intro other same _ _ ofKind
      obtain rfl := Option.some.inj (queued.symm.trans same)
      exact absurd (ofKind.symm.trans kind) another
  | some origin =>
      have unchanged : tree = unit.tree := by simp [tree, bindDerivation, own]
      rw [unchanged] at gap
      refine ((accounts gap).append_left _).setState ?_
      intro other same own'
      obtain rfl := Option.some.inj (queued.symm.trans same)
      simp [own] at own'

theorem followUps_unresolved {tree : SchemaTree} {slot : TypeSlot}
    {derivation : Derivation} {members : List Reference}
    (fresh : ∀ member ∈ members, member.state = .unresolved)
    {reference : Reference}
    (made : reference ∈ followUps tree item slot derivation members) :
    reference.state = .unresolved := by
  obtain member | chained := List.mem_append.mp (List.mem_filter.mp made).1
  · exact fresh reference member
  · exact chainLeafref_unresolved chained

/-- A unit stays sound when an accepted outcome is written down. -/
theorem apply_isSound (sound : unit.IsSound)
    (accepts : unit.AcceptsAt index outcome) :
    (unit.apply index outcome).IsSound := by
  obtain ⟨item, found, accepts⟩ := accepts
  simp only [apply, found]
  cases accepts with
  | pending => exact sound
  | failed failure =>
      refine sound.of_sameText (.refl unit.tree) ?_ fun other member => ?_
      · exact fun gap => (sound.accounts gap).setState (by simp)
      · exact (ReferenceQueue.mem_setState member).imp id (by simp +contextual)
  | target target direct =>
      refine sound.of_sameText (sameText_bindTarget unit.tree item target)
        (bindTarget_accounts target sound.accounts found direct)
        fun other member => ?_
      exact (ReferenceQueue.mem_setState member).imp id (by simp +contextual)
  | derived kind complete derived fresh =>
      rw [kind]
      refine sound.of_sameText (sameText_bindDerivation _ item _ _)
        (bindDerivation_accounts _ sound.accounts found kind complete derived)
        fun other member => ?_
      obtain member | resolved := ReferenceQueue.mem_setState member
      · obtain member | added := List.mem_append.mp member
        · exact .inl member
        · exact .inr (by simp [followUps_unresolved fresh added])
      · exact .inr (by simp [resolved])

end LinkUnit

end YangSchema
