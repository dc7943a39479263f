import YangSchema.Proofs.Draft.Following

/-!
# Statements that close a block

Closing a block takes its frame off the stack.  What the frame holds moves into
the frame or the node below it, which is all that changes there.
-/

namespace YangSchema

namespace Draft

/-- What holds between the drafts before and after a block has been closed. -/
structure Closes (before after : Draft) : Prop where
  sound : before.IsSound → after.IsSound
  stack : ∃ (top : Frame) (rest : FrameStack),
    before.stack = top :: rest ∧ rest.Becomes after.stack
  keeps : before.tree.Keeps after.tree
  unlinked : after.stack ≠ [] → before.IsSound → before.IsUnlinked →
    after.IsUnlinked
  asks : after.stack ≠ [] → before.IsSound → before.IsUnlinked →
    before.Asks [] after

variable {draft popped after result : Draft} {statement : Statement}

theorem IsSound.pop (sound : draft.IsSound) {top : Frame}
    {rest : FrameStack} (stack : draft.stack = top :: rest) :
    IsSound { draft with stack := rest } :=
  sound.of_same rfl rfl
    (fun frame member => by
      rw [stack]
      exact List.mem_cons_of_mem top member)
    fun _ => .inl

theorem IsUnlinked.pop (unlinked : draft.IsUnlinked) {top : Frame}
    {rest : FrameStack} (stack : draft.stack = top :: rest) :
    IsUnlinked { draft with stack := rest } := by
  have fits := unlinked.fits
  rw [stack] at fits
  exact unlinked.withStack fits.of_cons

theorem closes_of_follows {top : Frame} {rest : FrameStack}
    (stack : draft.stack = top :: rest)
    (follows : Follows { draft with stack := rest } after) :
    draft.Closes after where
  sound sound := follows.sound (sound.pop stack)
  stack := ⟨top, rest, stack, follows.stack⟩
  keeps := follows.keeps
  unlinked held sound unlinked :=
    follows.unlinked held (sound.pop stack) (unlinked.pop stack)
  asks held sound unlinked :=
    have asks := follows.asks held (sound.pop stack) (unlinked.pop stack)
    ⟨fun place repeatable inside => by
      simpa using asks.old place repeatable inside, asks.new⟩

/-- What a frame holds may be used where it moves to. -/
theorem closes_of_content {top : Frame} {rest : FrameStack}
    (stack : draft.stack = top :: rest)
    (follows : top.IsSound → Follows { draft with stack := rest } after)
    (becomes : rest.Becomes after.stack)
    (keeps : draft.tree.Keeps after.tree) : draft.Closes after where
  sound sound := by
    have content : top.IsSound := sound.frames top (by simp [stack])
    exact (closes_of_follows stack (follows content)).sound sound
  stack := ⟨top, rest, stack, becomes⟩
  keeps := keeps
  unlinked held sound unlinked := by
    have content : top.IsSound := sound.frames top (by simp [stack])
    exact (closes_of_follows stack (follows content)).unlinked held sound
      unlinked
  asks held sound unlinked := by
    have content : top.IsSound := sound.frames top (by simp [stack])
    exact (closes_of_follows stack (follows content)).asks held sound unlinked

theorem closeFrame_eq_ok {α : Type} {expected : FrameKind}
    {content? : Frame → Option α} {content : α}
    (closed : draft.closeFrame statement expected content? =
      .ok (content, popped)) :
    ∃ top rest, draft.stack = top :: rest ∧ content? top = some content ∧
      popped = { draft with stack := rest } := by
  cases stack : draft.stack with
  | nil => simp [closeFrame, FrameStack.take, stack] at closed
  | cons top rest =>
      cases found : content? top with
      | none => simp [closeFrame, FrameStack.take, stack, found] at closed
      | some content' =>
          simp only [closeFrame, FrameStack.take, stack, found,
            bind_eq_ok_iff, Except.ok.injEq, exists_eq_left', pure_eq_ok_iff,
            Prod.mk.injEq] at closed
          obtain ⟨rfl, rfl⟩ := closed
          exact ⟨top, rest, rfl, found, rfl⟩

theorem popNode_eq_ok {stack rest : FrameStack} {id : NodeId}
    (popped : stack.popNode statement id = .ok rest) :
    stack = .node id :: rest := by
  cases stack with
  | nil => simp [FrameStack.popNode] at popped
  | cons top below =>
      simp only [FrameStack.popNode] at popped
      split at popped
      next same =>
        obtain rfl : below = rest := by simpa using popped
        cases top <;> simp_all [Frame.node?]
      · simp at popped

theorem closeNode_eq_ok {id : NodeId}
    (closed : draft.closeNode statement = .ok (id, popped)) :
    ∃ rest, draft.stack = .node id :: rest ∧
      popped = { draft with stack := rest } := by
  simp only [closeNode, bind_eq_ok_iff] at closed
  obtain ⟨top, _, closed⟩ := closed
  split at closed
  next found =>
    split at closed
    · simp at closed
    · simp only [bind_eq_ok_iff, pure_eq_ok_iff, Prod.mk.injEq] at closed
      obtain ⟨rest, taken, rfl, rfl⟩ := closed
      exact ⟨rest, popNode_eq_ok taken, rfl⟩
  · simp at closed

theorem closes_of_closeNode {id : NodeId}
    (closed : draft.closeNode statement = .ok (id, popped)) :
    draft.Closes popped := by
  obtain ⟨rest, stack, rfl⟩ := closeNode_eq_ok closed
  exact closes_of_follows stack (.refl _)

theorem Closes.follows (closes : draft.Closes popped)
    (follows : popped.Follows after) : draft.Closes after := by
  obtain ⟨top, rest, stack, becomes⟩ := closes.stack
  refine ⟨fun sound => follows.sound (closes.sound sound),
    ⟨top, rest, stack, becomes.trans follows.stack⟩,
    closes.keeps.trans follows.keeps,
    fun held sound unlinked => follows.unlinked held (closes.sound sound)
      (closes.unlinked (follows.held.mp held) sound unlinked), ?_⟩
  intro held sound unlinked
  have open' := follows.held.mp held
  have unlinked' := closes.unlinked open' sound unlinked
  exact (closes.asks open' sound unlinked).trans_nil
    (follows.asks held (closes.sound sound) unlinked') closes.keeps

theorem closePlainNode_closes
    (ok : closePlainNode draft statement = .ok after) :
    draft.Closes after := by
  simp only [closePlainNode, bind_eq_ok_iff, pure_eq_ok_iff] at ok
  obtain ⟨⟨id, popped⟩, closed, rfl⟩ := ok
  exact closes_of_closeNode closed

/-- What a node must contain is checked when it is closed. -/
theorem closeTypedef_eq_ok (ok : closeTypedef draft statement = .ok after) :
    ∃ id, draft.closeNode statement = .ok (id, after) := by
  simp only [closeTypedef, bind_eq_ok_iff] at ok
  obtain ⟨⟨id, popped⟩, closed, ok⟩ := ok
  have same : popped = after := by
    split at ok
    · split at ok <;> simp_all
    · simpa using ok
  exact ⟨id, same ▸ closed⟩

theorem closeTypedef_closes (ok : closeTypedef draft statement = .ok after) :
    draft.Closes after := by
  obtain ⟨id, closed⟩ := closeTypedef_eq_ok ok
  exact closes_of_closeNode closed

theorem closeLeaf_eq_ok (ok : closeLeaf draft statement = .ok after) :
    ∃ id, draft.closeNode statement = .ok (id, after) := by
  simp only [closeLeaf, bind_eq_ok_iff] at ok
  obtain ⟨⟨id, popped⟩, closed, ok⟩ := ok
  have same : popped = after := by
    split at ok
    · split at ok <;> simp_all
    · simpa using ok
  exact ⟨id, same ▸ closed⟩

theorem closeLeaf_closes (ok : closeLeaf draft statement = .ok after) :
    draft.Closes after := by
  obtain ⟨id, closed⟩ := closeLeaf_eq_ok ok
  exact closes_of_closeNode closed

theorem closeLeafList_eq_ok (ok : closeLeafList draft statement = .ok after) :
    ∃ id, draft.closeNode statement = .ok (id, after) := by
  simp only [closeLeafList, bind_eq_ok_iff] at ok
  obtain ⟨⟨id, popped⟩, closed, ok⟩ := ok
  have same : popped = after := by
    split at ok
    · simp only [bind_eq_ok_iff, pure_eq_ok_iff] at ok
      grind
    · simpa using ok
  exact ⟨id, same ▸ closed⟩

theorem closeLeafList_closes (ok : closeLeafList draft statement = .ok after) :
    draft.Closes after := by
  obtain ⟨id, closed⟩ := closeLeafList_eq_ok ok
  exact closes_of_closeNode closed

theorem closeChoice_eq_ok (ok : closeChoice draft statement = .ok after) :
    ∃ id, draft.closeNode statement = .ok (id, after) := by
  simp only [closeChoice, bind_eq_ok_iff] at ok
  obtain ⟨⟨id, popped⟩, closed, ok⟩ := ok
  have same : popped = after := by
    split at ok
    · split at ok
      · simpa using ok
      · split at ok
        · simp at ok
        · split at ok <;> simp_all
    · simpa using ok
  exact ⟨id, same ▸ closed⟩

theorem closeChoice_closes (ok : closeChoice draft statement = .ok after) :
    draft.Closes after := by
  obtain ⟨id, closed⟩ := closeChoice_eq_ok ok
  exact closes_of_closeNode closed

theorem closeAugment_eq_ok (ok : closeAugment draft statement = .ok after) :
    ∃ id, draft.closeNode statement = .ok (id, after) := by
  simp only [closeAugment, bind_eq_ok_iff] at ok
  obtain ⟨⟨id, popped⟩, closed, ok⟩ := ok
  have same : popped = after := by
    split at ok <;> simp_all
  exact ⟨id, same ▸ closed⟩

theorem closeAugment_closes (ok : closeAugment draft statement = .ok after) :
    draft.Closes after := by
  obtain ⟨id, closed⟩ := closeAugment_eq_ok ok
  exact closes_of_closeNode closed

/-- A list whose keys cannot be checked yet is noted. -/
theorem follows_deferredKeys {list : NodeId} (inside : list < draft.tree.size) :
    draft.Follows
      { draft with deferredKeys := draft.deferredKeys ++ [list] } :=
  ⟨fun sound => sound.of_same rfl rfl (fun _ => id) fun _ => .inl, .refl _,
    .refl _, fun _ _ unlinked =>
      { unlinked with
        deferred := List.forall_mem_append.mpr
          ⟨unlinked.deferred, List.forall_mem_singleton.mpr inside⟩ },
    fun _ _ unlinked => .of_queue unlinked rfl⟩

/-- The keys of a list are checked when it is closed, or noted. -/
theorem closeList_eq_ok (ok : closeList draft statement = .ok after) :
    ∃ id popped, draft.closeNode statement = .ok (id, popped) ∧
      (after = popped ∨ id < popped.tree.size ∧
        after =
          { popped with deferredKeys := popped.deferredKeys ++ [id] }) := by
  simp only [closeList, bind_eq_ok_iff] at ok
  obtain ⟨⟨id, popped⟩, closed, ok⟩ := ok
  refine ⟨id, popped, closed, ?_⟩
  split at ok
  next body found =>
    split at ok
    · simp at ok
    · simp only [bind_eq_ok_iff] at ok
      obtain ⟨_, _, ok⟩ := ok
      split at ok
      · split at ok <;> simp_all
      · split at ok
        · obtain rfl := pure_eq_ok_iff.mp ok
          obtain ⟨list, known, -⟩ := SchemaTree.construct?_eq_some_iff.mp found
          exact .inr ⟨SchemaTree.lt_size_of_node? known, rfl⟩
        · simp only [bind_eq_ok_iff, pure_eq_ok_iff] at ok
          obtain ⟨_, _, rfl⟩ := ok
          exact .inl rfl
  · exact .inl (pure_eq_ok_iff.mp ok).symm

theorem closeList_closes (ok : closeList draft statement = .ok after) :
    draft.Closes after := by
  obtain ⟨id, popped, closed, rfl | ⟨inside, rfl⟩⟩ := closeList_eq_ok ok
  · exact closes_of_closeNode closed
  · exact (closes_of_closeNode closed).follows (follows_deferredKeys inside)

/-- A declaration that is not bound yet moves into the header. -/
theorem closes_of_declaration {top : Frame} {rest : FrameStack}
    (stack : draft.stack = top :: rest) {change : ModuleHeader → ModuleHeader}
    (filled : fillHeader { draft with stack := rest } statement change =
      .ok after)
    (bindings : top.IsSound → ∀ header, ∀ binding ∈ (change header).bindings,
      binding ∈ header.bindings ∨ binding = none) : draft.Closes after := by
  simp only [fillHeader, bind_eq_ok_iff, pure_eq_ok_iff] at filled
  obtain ⟨id, _, rfl⟩ := filled
  exact closes_of_content stack
    (fun unbound => modifyHeader_follows (bindings unbound)) (.refl rest)
    (keeps_modifyHeader id change)

theorem closeImport_closes (ok : closeImport draft statement = .ok after) :
    draft.Closes after := by
  simp only [closeImport, bind_eq_ok_iff] at ok
  obtain ⟨⟨declaration, popped⟩, closed, filled⟩ := ok
  obtain ⟨top, rest, stack, content, rfl⟩ := closeFrame_eq_ok closed
  split at content
  next declaration' =>
    obtain rfl : declaration' = declaration := by simpa using content
    refine closes_of_declaration stack filled fun unbound header binding => ?_
    have unbound : declaration'.resolved = none := unbound
    simp only [ModuleHeader.bindings, List.map_append, List.map_cons,
      List.map_nil, List.mem_append, List.mem_singleton, unbound]
    tauto
  · simp at content

theorem closeInclude_closes (ok : closeInclude draft statement = .ok after) :
    draft.Closes after := by
  simp only [closeInclude, bind_eq_ok_iff] at ok
  obtain ⟨⟨declaration, popped⟩, closed, filled⟩ := ok
  obtain ⟨top, rest, stack, content, rfl⟩ := closeFrame_eq_ok closed
  split at content
  next declaration' =>
    obtain rfl : declaration' = declaration := by simpa using content
    refine closes_of_declaration stack filled fun unbound header binding => ?_
    have unbound : declaration'.resolved = none := unbound
    simp only [ModuleHeader.bindings, List.map_append, List.map_cons,
      List.map_nil, List.mem_append, List.mem_singleton, unbound]
    tauto
  · simp at content

theorem closeBelongsTo_closes
    (ok : closeBelongsTo draft statement = .ok after) : draft.Closes after := by
  simp only [closeBelongsTo, bind_eq_ok_iff] at ok
  obtain ⟨⟨belongsTo, popped⟩, closed, filled⟩ := ok
  obtain ⟨top, rest, stack, _, rfl⟩ := closeFrame_eq_ok closed
  exact closes_of_follows stack
    (fillHeader_follows filled fun header declaration => .inl)

theorem closeRevision_closes (ok : closeRevision draft statement = .ok after) :
    draft.Closes after := by
  simp only [closeRevision, bind_eq_ok_iff] at ok
  obtain ⟨⟨revision, popped⟩, closed, filled⟩ := ok
  obtain ⟨top, rest, stack, _, rfl⟩ := closeFrame_eq_ok closed
  exact closes_of_follows stack
    (fillHeader_follows filled fun header declaration => .inl)

theorem closeArgument_closes (ok : closeArgument draft statement = .ok after) :
    draft.Closes after := by
  simp only [closeArgument, bind_eq_ok_iff] at ok
  obtain ⟨⟨argument, popped⟩, closed, holder, _, ok⟩ := ok
  obtain ⟨top, rest, stack, _, rfl⟩ := closeFrame_eq_ok closed
  apply closes_of_follows stack
  split at ok <;> obtain rfl := pure_eq_ok_iff.mp ok
  · apply follows_modifyConstruct
    intro construct _
    cases construct with
    | extension argument => exact ⟨rfl, rfl, rfl, rfl, fun _ => .inl⟩
    | _ => exact .refl _
  · exact .refl _

theorem closeMust_closes (ok : closeMust draft statement = .ok after) :
    draft.Closes after := by
  simp only [closeMust, bind_eq_ok_iff] at ok
  obtain ⟨⟨must, popped⟩, closed, holder, found, ok⟩ := ok
  obtain ⟨top, rest, stack, _, rfl⟩ := closeFrame_eq_ok closed
  apply closes_of_follows stack
  split at ok <;> obtain rfl := pure_eq_ok_iff.mp ok
  · cases rest with
    | nil => simp [FrameStack.top] at found
    | cons below rest =>
        obtain rfl : below = .refine _ := by simpa [FrameStack.top] using found
        exact follows_frame rfl rfl id
  · exact follows_modifyMetadata fun _ => rfl
  · exact .refl _

theorem closeWhen_closes (ok : closeWhen draft statement = .ok after) :
    draft.Closes after := by
  simp only [closeWhen, bind_eq_ok_iff] at ok
  obtain ⟨⟨condition, popped⟩, closed, holder, _, ok⟩ := ok
  obtain ⟨top, rest, stack, _, rfl⟩ := closeFrame_eq_ok closed
  apply closes_of_follows stack
  split at ok <;> obtain rfl := pure_eq_ok_iff.mp ok
  · exact follows_modifyMetadata fun _ => rfl
  · exact .refl _

/-- Refinements of a `uses` are of no concern to linking. -/
theorem addRefine_follows (id : NodeId) (changes : Refine) :
    draft.Follows <| draft.modifyConstruct id fun
      | .uses body => .uses { body with refines := body.refines ++ [changes] }
      | construct => construct := by
  apply follows_modifyConstruct
  intro construct _
  cases construct with
  | uses body => exact ⟨rfl, rfl, rfl, rfl, fun _ => .inl⟩
  | _ => exact .refl _

theorem closeRefine_closes (ok : closeRefine draft statement = .ok after) :
    draft.Closes after := by
  simp only [closeRefine, bind_eq_ok_iff] at ok
  obtain ⟨⟨changes, popped⟩, closed, ok⟩ := ok
  obtain ⟨top, rest, stack, _, rfl⟩ := closeFrame_eq_ok closed
  apply closes_of_follows stack
  split at ok
  · simp only [bind_eq_ok_iff] at ok
    obtain ⟨_, _, holder, _, ok⟩ := ok
    split at ok <;> obtain rfl := pure_eq_ok_iff.mp ok
    · exact addRefine_follows _ changes
    · exact .refl _
  · simp only [bind_eq_ok_iff] at ok
    obtain ⟨holder, _, ok⟩ := ok
    split at ok <;> obtain rfl := pure_eq_ok_iff.mp ok
    · exact addRefine_follows _ changes
    · exact .refl _

/-- The type on top of the stack is replaced. -/
theorem fillType_eq_ok {change : TypeUse → TypeUse}
    (filled : draft.fillType statement change = .ok result) :
    ∃ use rest, draft.stack = .type use :: rest ∧
      result = { draft with stack := .type (change use) :: rest } := by
  cases stack : draft.stack with
  | nil => simp [fillType, fill, FrameStack.top, stack] at filled
  | cons top rest =>
      cases top with
      | type use =>
          simp only [fillType, fill, FrameStack.top, stack, bind_eq_ok_iff,
            Except.ok.injEq, exists_eq_left', pure_eq_ok_iff] at filled
          exact ⟨use, rest, rfl, filled.symm⟩
      | node id => simp [fillType, fill, FrameStack.top, stack] at filled
      | _ => simp [fillType, fill, FrameStack.top, stack] at filled

/-- Writing into a type, which neither renames it nor takes anything away. -/
theorem fillType_follows {change : TypeUse → TypeUse}
    (filled : draft.fillType statement change = .ok result)
    (builtin : ∀ use, (change use).builtin = use.builtin)
    (members : ∀ use, (change use).members = use.members)
    (has : ∀ use keyword, TypeUse.Has use keyword →
      (change use).Has keyword)
    (content : ∀ use, (Frame.type use).IsSound →
      (Frame.type (change use)).IsSound) : draft.Follows result := by
  obtain ⟨use, rest, stack, rfl⟩ := fillType_eq_ok filled
  exact follows_frame stack
    ⟨change use, rfl, builtin use, members use, has use⟩
    (content use)

theorem closeRange_closes (ok : closeRange draft statement = .ok after) :
    draft.Closes after := by
  simp only [closeRange, bind_eq_ok_iff] at ok
  obtain ⟨⟨restriction, popped⟩, closed, filled⟩ := ok
  obtain ⟨top, rest, stack, content, rfl⟩ := closeFrame_eq_ok closed
  split at content
  next restriction' =>
    obtain rfl : restriction' = restriction := by simpa using content
    obtain ⟨use, below, rfl, rfl⟩ := fillType_eq_ok filled
    have becomes : (Frame.type use).Becomes
        (.type { use with range := some restriction' }) :=
      ⟨_, rfl, rfl, rfl, fun keyword has => by cases keyword <;> exact has⟩
    refine closes_of_content stack (fun read => follows_frame rfl becomes ?_)
      (.top becomes) (.refl _)
    rintro ⟨named, unlinked, others⟩
    refine ⟨named, unlinked, fun kind declared is => ?_⟩
    cases kind with
    | range =>
        obtain rfl : restriction' = declared := by
          simpa [TypeUse.restriction?] using is
        exact read
    | length => exact others .length declared is
  · simp at content

theorem closeLength_closes (ok : closeLength draft statement = .ok after) :
    draft.Closes after := by
  simp only [closeLength, bind_eq_ok_iff] at ok
  obtain ⟨⟨restriction, popped⟩, closed, filled⟩ := ok
  obtain ⟨top, rest, stack, content, rfl⟩ := closeFrame_eq_ok closed
  split at content
  next restriction' =>
    obtain rfl : restriction' = restriction := by simpa using content
    obtain ⟨use, below, rfl, rfl⟩ := fillType_eq_ok filled
    have becomes : (Frame.type use).Becomes
        (.type { use with length := some restriction' }) :=
      ⟨_, rfl, rfl, rfl, fun keyword has => by cases keyword <;> exact has⟩
    refine closes_of_content stack (fun read => follows_frame rfl becomes ?_)
      (.top becomes) (.refl _)
    rintro ⟨named, unlinked, others⟩
    refine ⟨named, unlinked, fun kind declared is => ?_⟩
    cases kind with
    | range => exact others .range declared is
    | length =>
        obtain rfl : restriction' = declared := by
          simpa [TypeUse.restriction?] using is
        exact read
  · simp at content

theorem closePattern_closes (ok : closePattern draft statement = .ok after) :
    draft.Closes after := by
  simp only [closePattern, bind_eq_ok_iff] at ok
  obtain ⟨⟨pattern, popped⟩, closed, filled⟩ := ok
  obtain ⟨top, rest, stack, _, rfl⟩ := closeFrame_eq_ok closed
  exact closes_of_follows stack <| fillType_follows filled (fun _ => rfl)
    (fun _ => rfl) (fun _ keyword has => by cases keyword <;> exact has) (fun _ => id)

/-- Members of a type are of no concern to linking. -/
theorem closeEnum_closes (ok : closeEnum draft statement = .ok after) :
    draft.Closes after := by
  simp only [closeEnum, bind_eq_ok_iff] at ok
  obtain ⟨⟨member, popped⟩, closed, parent, _, ok⟩ := ok
  obtain ⟨top, rest, stack, _, rfl⟩ := closeFrame_eq_ok closed
  apply closes_of_follows stack
  split at ok
  next members found =>
    simp only [bind_eq_ok_iff, pure_eq_ok_iff] at ok
    obtain ⟨members', _, rfl⟩ := ok
    apply follows_modifyConstruct
    intro construct known
    obtain rfl : construct = .enumeration members := by
      simpa [known] using found
    exact ⟨rfl, rfl, rfl, rfl, fun _ => .inl⟩
  · obtain rfl := pure_eq_ok_iff.mp ok
    exact .refl _

theorem closeBit_closes (ok : closeBit draft statement = .ok after) :
    draft.Closes after := by
  simp only [closeBit, bind_eq_ok_iff] at ok
  obtain ⟨⟨member, popped⟩, closed, parent, _, ok⟩ := ok
  obtain ⟨top, rest, stack, _, rfl⟩ := closeFrame_eq_ok closed
  apply closes_of_follows stack
  split at ok
  next members found =>
    simp only [bind_eq_ok_iff, pure_eq_ok_iff] at ok
    obtain ⟨members', _, rfl⟩ := ok
    apply follows_modifyConstruct
    intro construct known
    obtain rfl : construct = .bits members := by
      simpa [known] using found
    exact ⟨rfl, rfl, rfl, rfl, fun _ => .inl⟩
  · obtain rfl := pure_eq_ok_iff.mp ok
    exact .refl _

end Draft

end YangSchema
