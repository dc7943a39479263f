import YangSchema.Proofs.Draft.Closing
import YangSchema.Proofs.Draft.Opening

/-!
# Statements that write into their holder

Most of these statements change nothing that linking looks at.  An `if-feature`
and the `base` of an identity leave a gap and queue a reference for it.
-/

namespace YangSchema

variable {top top' : Frame}

/-- What is written into a frame that is neither a node nor a type nor an import
can be anything. -/
def Frame.IsFilled (top top' : Frame) : Prop :=
  top.Becomes top' ∧ (top.IsSound → top'.IsSound)

theorem Frame.isFilled_none (top top' : Frame)
    (filled : (none : Option Frame) = some top') : top.IsFilled top' := by
  simp at filled

theorem Frame.explain?_isFilled (change : Explanation → Explanation)
    (filled : top.explain? change = some top') : top.IsFilled top' := by
  cases top <;> simp only [explain?, Option.some.injEq, reduceCtorEq] at filled
  all_goals
    subst filled
    exact ⟨rfl, id⟩

theorem Frame.document?_isFilled {part : DocumentationPart} {text : String}
    (filled : top.document? part text = some top') : top.IsFilled top' := by
  cases top
  case revision | enum | bit | when | refine =>
    simp only [document?, Option.some.injEq] at filled
    subst filled
    exact ⟨rfl, id⟩
  all_goals
    exact explain?_isFilled (part.writeExplanation text) filled

theorem Frame.refine?_isFilled {change : Refine → Refine}
    (filled : top.refine? change = some top') : top.IsFilled top' := by
  cases top <;> simp only [refine?, Option.some.injEq, reduceCtorEq] at filled
  subst filled
  exact ⟨rfl, id⟩

namespace Draft

variable {draft result : Draft} {statement : Statement}

theorem readYangVersion_follows
    (ok : readYangVersion draft statement = .ok result) :
    draft.Follows result := by
  obtain ⟨version, _, filled⟩ := bind_eq_ok_iff.mp ok
  exact fillHeader_follows filled fun _ _ => .inl

theorem readNamespace_follows
    (ok : readNamespace draft statement = .ok result) :
    draft.Follows result := by
  simp only [readNamespace, bind_eq_ok_iff, pure_eq_ok_iff] at ok
  obtain ⟨uri, _, id, _, rfl⟩ := ok
  exact modifyHeader_follows fun _ _ => .inl

theorem readOrganization_follows
    (ok : readOrganization draft statement = .ok result) :
    draft.Follows result := by
  obtain ⟨text, _, filled⟩ := bind_eq_ok_iff.mp ok
  exact fillHeader_follows filled fun _ _ => .inl

theorem readContact_follows (ok : readContact draft statement = .ok result) :
    draft.Follows result := by
  obtain ⟨text, _, filled⟩ := bind_eq_ok_iff.mp ok
  exact fillHeader_follows filled fun _ _ => .inl

theorem readQualifier_follows
    (ok : readQualifier draft statement = .ok result) :
    draft.Follows result := by
  obtain ⟨qualifier, _, filled⟩ := bind_eq_ok_iff.mp ok
  apply fill_follows filled
  · intro top top' filled
    cases top <;> simp only [Option.some.injEq, reduceCtorEq] at filled
    all_goals
      subst filled
      exact ⟨rfl, id⟩
  · intro holder holder' filled
    cases holder <;> simp only [Option.some.injEq, reduceCtorEq] at filled
    subst filled
    exact ⟨rfl, rfl, rfl, rfl, fun _ => .inl⟩

theorem readRevisionDate_follows
    (ok : readRevisionDate draft statement = .ok result) :
    draft.Follows result := by
  obtain ⟨date, _, filled⟩ := bind_eq_ok_iff.mp ok
  apply fill_follows filled _ (by simp)
  intro top top' filled
  cases top <;> simp only [Option.some.injEq, reduceCtorEq] at filled
  all_goals
    subst filled
    exact ⟨rfl, id⟩

theorem readDocumentation_follows {part : DocumentationPart}
    (ok : readDocumentation part draft statement = .ok result) :
    draft.Follows result := by
  obtain ⟨text, _, written⟩ := bind_eq_ok_iff.mp ok
  exact annotate_follows written (fun _ _ => Frame.document?_isFilled)
    fun _ => rfl

theorem readStatus_follows (ok : readStatus draft statement = .ok result) :
    draft.Follows result := by
  obtain ⟨status, _, written⟩ := bind_eq_ok_iff.mp ok
  apply annotate_follows written _ fun _ => rfl
  intro top top' filled
  cases top <;> simp only [Option.some.injEq, reduceCtorEq] at filled
  all_goals
    subst filled
    exact ⟨rfl, id⟩

theorem readYinElement_follows
    (ok : readYinElement draft statement = .ok result) :
    draft.Follows result := by
  obtain ⟨value, _, filled⟩ := bind_eq_ok_iff.mp ok
  apply fill_follows filled _ (by simp)
  intro top top' filled
  cases top <;> simp only [Option.some.injEq, reduceCtorEq] at filled
  subst filled
  exact ⟨rfl, id⟩

theorem readUnits_follows (ok : readUnits draft statement = .ok result) :
    draft.Follows result := by
  obtain ⟨text, _, filled⟩ := bind_eq_ok_iff.mp ok
  apply fill_follows filled Frame.isFilled_none
  intro holder holder' filled
  cases holder <;> simp only [Option.some.injEq, reduceCtorEq] at filled
  all_goals
    subst filled
    exact ⟨rfl, rfl, rfl, rfl, fun _ => .inl⟩

theorem readDefault_follows (ok : readDefault draft statement = .ok result) :
    draft.Follows result := by
  obtain ⟨value, _, ok⟩ := bind_eq_ok_iff.mp ok
  have filled := eq_ok_of_checked ok
  apply fill_follows filled fun _ _ => Frame.refine?_isFilled
  intro holder holder' filled
  cases holder <;> simp only [Option.some.injEq, reduceCtorEq] at filled
  all_goals
    subst filled
    exact ⟨rfl, rfl, rfl, rfl, fun _ => .inl⟩

theorem readConfig_follows (ok : readConfig draft statement = .ok result) :
    draft.Follows result := by
  obtain ⟨value, _, filled⟩ := bind_eq_ok_iff.mp ok
  apply fill_follows filled fun _ _ => Frame.refine?_isFilled
  intro holder holder' filled
  split at filled
  · obtain rfl := Option.some.inj filled
    exact .refl holder
  · simp at filled

theorem readMandatory_follows
    (ok : readMandatory draft statement = .ok result) :
    draft.Follows result := by
  obtain ⟨mandatory, _, filled⟩ := bind_eq_ok_iff.mp ok
  apply fill_follows filled fun _ _ => Frame.refine?_isFilled
  intro holder holder' filled
  cases holder <;> simp only [Option.some.injEq, reduceCtorEq] at filled
  all_goals
    subst filled
    exact ⟨rfl, rfl, rfl, rfl, fun _ => .inl⟩

theorem readPresence_follows (ok : readPresence draft statement = .ok result) :
    draft.Follows result := by
  obtain ⟨text, _, filled⟩ := bind_eq_ok_iff.mp ok
  apply fill_follows filled fun _ _ => Frame.refine?_isFilled
  intro holder holder' filled
  cases holder <;> simp only [Option.some.injEq, reduceCtorEq] at filled
  subst filled
  exact ⟨rfl, rfl, rfl, rfl, fun _ => .inl⟩

theorem readMinElements_follows
    (ok : readMinElements draft statement = .ok result) :
    draft.Follows result := by
  obtain ⟨minElements, _, filled⟩ := bind_eq_ok_iff.mp ok
  apply fill_follows filled fun _ _ => Frame.refine?_isFilled
  intro holder holder' filled
  cases holder <;> simp only [Option.some.injEq, reduceCtorEq] at filled
  all_goals
    subst filled
    exact ⟨rfl, rfl, rfl, rfl, fun _ => .inl⟩

theorem readMaxElements_follows
    (ok : readMaxElements draft statement = .ok result) :
    draft.Follows result := by
  obtain ⟨maxElements, _, filled⟩ := bind_eq_ok_iff.mp ok
  apply fill_follows filled fun _ _ => Frame.refine?_isFilled
  intro holder holder' filled
  cases holder <;> simp only [Option.some.injEq, reduceCtorEq] at filled
  all_goals
    subst filled
    exact ⟨rfl, rfl, rfl, rfl, fun _ => .inl⟩

theorem readOrderedBy_follows
    (ok : readOrderedBy draft statement = .ok result) :
    draft.Follows result := by
  obtain ⟨orderedBy, _, filled⟩ := bind_eq_ok_iff.mp ok
  apply fill_follows filled Frame.isFilled_none
  intro holder holder' filled
  cases holder <;> simp only [Option.some.injEq, reduceCtorEq] at filled
  all_goals
    subst filled
    exact ⟨rfl, rfl, rfl, rfl, fun _ => .inl⟩

theorem readKey_follows (ok : readKey draft statement = .ok result) :
    draft.Follows result := by
  obtain ⟨keys, _, filled⟩ := bind_eq_ok_iff.mp ok
  apply fill_follows filled Frame.isFilled_none
  intro holder holder' filled
  cases holder <;> simp only [Option.some.injEq, reduceCtorEq] at filled
  subst filled
  exact ⟨rfl, rfl, rfl, rfl, fun _ => .inl⟩

theorem readUnique_follows (ok : readUnique draft statement = .ok result) :
    draft.Follows result := by
  obtain ⟨paths, _, filled⟩ := bind_eq_ok_iff.mp ok
  apply fill_follows filled Frame.isFilled_none
  intro holder holder' filled
  cases holder <;> simp only [Option.some.injEq, reduceCtorEq] at filled
  subst filled
  exact ⟨rfl, rfl, rfl, rfl, fun _ => .inl⟩

theorem readErrorMessage_follows
    (ok : readErrorMessage draft statement = .ok result) :
    draft.Follows result := by
  obtain ⟨text, _, filled⟩ := bind_eq_ok_iff.mp ok
  exact fill_follows filled (fun _ _ => Frame.explain?_isFilled _) (by simp)

theorem readErrorAppTag_follows
    (ok : readErrorAppTag draft statement = .ok result) :
    draft.Follows result := by
  obtain ⟨text, _, filled⟩ := bind_eq_ok_iff.mp ok
  exact fill_follows filled (fun _ _ => Frame.explain?_isFilled _) (by simp)

theorem readValue_follows (ok : readValue draft statement = .ok result) :
    draft.Follows result := by
  obtain ⟨number, _, ok⟩ := bind_eq_ok_iff.mp ok
  split at ok
  · simp at ok
  apply fill_follows ok _ (by simp)
  intro top top' filled
  cases top <;> simp only [Option.some.injEq, reduceCtorEq] at filled
  subst filled
  exact ⟨rfl, id⟩

theorem readPosition_follows (ok : readPosition draft statement = .ok result) :
    draft.Follows result := by
  obtain ⟨number, _, ok⟩ := bind_eq_ok_iff.mp ok
  split at ok
  · simp at ok
  apply fill_follows ok _ (by simp)
  intro top top' filled
  cases top <;> simp only [Option.some.injEq, reduceCtorEq] at filled
  subst filled
  exact ⟨rfl, id⟩

theorem readRequireInstance_follows
    (ok : readRequireInstance draft statement = .ok result) :
    draft.Follows result := by
  obtain ⟨value, _, use, _, filled⟩ := by
    simpa only [readRequireInstance, bind_eq_ok_iff] using ok
  exact fillType_follows filled (fun _ => rfl) (fun _ => rfl)
    (fun _ keyword has => by cases keyword <;> exact has) (fun _ => id)

/-- The statement writes the part of a type that is called like it. -/
theorem fillType_reads {change : TypeUse → TypeUse}
    (filled : draft.fillType statement change = .ok result)
    (builtin : ∀ use, (change use).builtin = use.builtin)
    (members : ∀ use, (change use).members = use.members)
    (has : ∀ use keyword, TypeUse.Has use keyword →
      (change use).Has keyword)
    (content : ∀ use, (Frame.type use).IsSound →
      (Frame.type (change use)).IsSound)
    (written : ∀ use, (change use).Has statement.known) :
    draft.Reads [statement] result := by
  refine ⟨(fillType_follows filled builtin members has content).asking _, ?_⟩
  intro other member use rest stack use' rest' stack'
  obtain rfl := List.mem_singleton.mp member
  obtain ⟨use'', rest'', -, rfl⟩ := fillType_eq_ok filled
  obtain ⟨⟨rfl⟩, rfl⟩ := List.cons.inj stack'
  exact written use''

theorem readFractionDigits_reads (known : statement.known = .fractionDigits)
    (ok : readFractionDigits draft statement = .ok result) :
    draft.Reads [statement] result := by
  obtain ⟨digits, _, use, _, filled⟩ := by
    simpa only [readFractionDigits, bind_eq_ok_iff] using ok
  refine fillType_reads filled (fun _ => rfl) (fun _ => rfl) ?_ (fun _ => id) ?_
  · intro use keyword has
    cases keyword <;> first | exact has | rfl
  · rw [known]
    exact fun _ => rfl

theorem readPath_reads (known : statement.known = .path)
    (ok : readPath draft statement = .ok result) :
    draft.Reads [statement] result := by
  obtain ⟨_, _, path, _, use, _, filled⟩ := by
    simpa only [readPath, bind_eq_ok_iff] using ok
  refine fillType_reads filled (fun _ => rfl) (fun _ => rfl) ?_ (fun _ => id) ?_
  · intro use keyword has
    cases keyword <;> first | exact has | rfl
  · rw [known]
    exact fun _ => rfl

/-- An identity that gets a base waits for the target of that base. -/
theorem addBase_follows {id : NodeId}
    (held : draft.nodeHolder statement (· == .identity) = .ok id)
    (base : QualifiedName) (text : String) :
    draft.FollowsAsking [.base] <| (draft.modifyConstruct id fun
      | .identity body => .identity { body with base := some base }
      | construct => construct).enqueue statement .base text id where
  sound sound := by
    have sameKind (construct : Construct) :
        (match construct with
          | .identity body => .identity { body with base := some base }
          | construct => construct : Construct).kind = construct.kind := by
      cases construct <;> rfl
    have keeps : draft.tree.Keeps (draft.tree.modifyConstruct id _) :=
      .modifyConstruct fun construct _ => sameKind construct
    refine ⟨?_, ?_, sound.frames,
      List.forall_mem_append.mpr ⟨sound.unblocked, by simp [Reference.ofText]⟩,
      sound.nested.modifyConstruct fun construct _ => sameKind construct,
      fun id member => ?_, sound.warned⟩
    · intro place kind gap
      obtain old | ⟨rfl, construct, found, gap⟩ :=
        SchemaTree.hasGap_modifyConstruct (fun construct _ =>
          sameKind construct) gap
      · exact (sound.accounts old).append_left _
      obtain ⟨node, known, rfl⟩ := SchemaTree.construct?_eq_some_iff.mp found
      cases shape : node.construct with
      | identity body =>
          rw [shape] at gap
          have missing := Construct.missingTarget?_of_hasGap
            (fun member => by cases member <;> rfl) gap
          obtain rfl : kind = .base := by
            simp only [Construct.missingTarget?] at missing
            split at missing <;> simp_all
          exact (ReferenceQueue.awaits_ofText _ _ _ _ _).append_right
                draft.queue
      | _ =>
          rw [shape] at gap
          have old : draft.tree.HasGap place kind := .construct known <| by
            rw [shape]
            exact gap.mono (keeps.isTemplate known) (keeps.isInGrouping known)
          exact (sound.accounts old).append_left _
    · refine SchemaTree.forall_node_modifyConstruct sound.nodes ?_
      intro node known
      apply (sound.nodes known).withConstruct (sameKind node.construct)
      · cases node.construct <;> rfl
      · cases node.construct <;> exact fun _ => .inl
    · change id < (draft.tree.modifyConstruct _ _).size
      rw [SchemaTree.size_modifyConstruct]
      exact sound.known id member
  stack := .refl draft.stack
  keeps := by
    dsimp only [enqueue, modifyConstruct]
    refine .modifyConstruct fun construct _ => ?_
    cases construct <;> rfl
  unlinked _ _ unlinked := by
    have inside : id < (draft.tree.modifyConstruct id fun
        | .identity body => .identity { body with base := some base }
        | construct => construct).size := by
      rw [SchemaTree.size_modifyConstruct]
      exact nodeHolder_lt held
    have changed : (draft.modifyConstruct id fun
        | .identity body => .identity { body with base := some base }
        | construct => construct).IsUnlinked := by
      refine unlinked.modifyConstruct (fun construct _ => ?_)
        fun construct _ => ?_
      all_goals cases construct <;> rfl
    exact changed.enqueue statement text inside inside inside
      fun unique => by simp [ReferenceKind.linkPlace, LinkPlace.isRepeatable]
        at unique
  asks _ _ unlinked := by
    obtain ⟨kind, rest, stack, known, identity⟩ := nodeHolder_eq_ok held
    obtain rfl : kind = .identity := by simpa using identity
    have added (place : LinkPlace) :
        ((draft.modifyConstruct id fun
          | .identity body => .identity { body with base := some base }
          | construct => construct).enqueue statement .base text
            id).queue.asked place =
          draft.queue.asked place + if .base id = place then 1 else 0 :=
      (ReferenceQueue.asked_append _ _ place).trans
        (congrArg _ (ReferenceQueue.asked_singleton _ place))
    refine ⟨fun place _ _ => ?_, fun place repeatable outside => ?_⟩
    · rw [added]
      refine Nat.add_le_add_left ?_ _
      split
      next same =>
        subst same
        simp [allowance, LinkPlace.node, stack, known, ConstructKind.asking?]
      · exact Nat.zero_le _
    · rw [added, unlinked.asked_eq_zero_of_le repeatable outside]
      split <;> exact Nat.le_of_ble_eq_true rfl

theorem readBase_reads (known : statement.known = .base)
    (ok : readBase draft statement = .ok result) :
    draft.Reads [statement] result := by
  simp only [readBase, bind_eq_ok_iff] at ok
  obtain ⟨base, _, top, found, ok⟩ := ok
  split at ok
  · simp only [bind_eq_ok_iff] at ok
    obtain ⟨use, _, filled⟩ := ok
    refine fillType_reads filled (fun _ => rfl) (fun _ => rfl) ?_ (fun _ => id) ?_
    · intro use keyword has
      cases keyword <;> first | exact has | rfl
    · rw [known]
      exact fun _ => rfl
  next other =>
    simp only [bind_eq_ok_iff, pure_eq_ok_iff] at ok
    obtain ⟨id, held, rfl⟩ := ok
    have follows := addBase_follows held base base.text
    rw [← known] at follows
    refine ⟨follows, fun _ _ use rest stack => ?_⟩
    simp only [FrameStack.top, stack, Except.ok.injEq] at found
    exact absurd found.symm (other use)

/-- A node that gets another if-feature waits for the target of that one. -/
theorem addIfFeature_follows {id : NodeId} {change : Metadata → Metadata}
    {name : QualifiedName} {index : Nat} (held : id < draft.tree.size)
    (text : String)
    (adds : ∀ metadata, (change metadata).ifFeatures =
      metadata.ifFeatures ++ [⟨name, none⟩])
    (counted : ∀ node, draft.tree.node? id = some node →
      index = node.metadata.ifFeatures.length) :
    draft.Follows <| (draft.modifyMetadata id change).enqueue statement
      (.ifFeature index) text id where
  sound sound := by
    refine ⟨?_, ?_, sound.frames, List.forall_mem_append.mpr
      ⟨sound.unblocked, by simp [Reference.ofText]⟩,
      sound.nested.modifyMetadata id change, fun id member => ?_,
      sound.warned⟩
    · intro place kind gap
      replace gap : (draft.tree.modifyMetadata id change).HasGap place kind :=
        gap
      obtain old | ⟨rfl, node, known, gap⟩ :=
        SchemaTree.hasGap_modifyMetadata gap
      · exact (sound.accounts old).append_left _
      cases gap with
      | @ifFeature place' feature listed missing =>
          rw [adds, List.getElem?_append] at listed
          split at listed
          · exact (sound.accounts (.metadata known (.ifFeature listed missing))
              ).append_left _
          · rw [List.getElem?_singleton] at listed
            split at listed
            next last =>
              obtain rfl : index = place' := by
                have := counted node known
                omega
              exact (ReferenceQueue.awaits_ofText _ _ _ _ _).append_right
                draft.queue
            · simp at listed
    · exact SchemaTree.forall_node_modifyMetadata sound.nodes fun known =>
        ⟨⟨(sound.nodes known).sound.typedef, (sound.nodes known).sound.types⟩,
          (sound.nodes known).unbound⟩
    · change id < (draft.tree.modifyMetadata _ _).size
      rw [SchemaTree.size_modifyMetadata]
      exact sound.known id member
  stack := .refl draft.stack
  keeps := .modifyMetadata draft.tree id change
  unlinked _ _ unlinked := by
    have inside : id < (draft.tree.modifyMetadata id change).size := by
      rwa [SchemaTree.size_modifyMetadata]
    have changed : (draft.modifyMetadata id change).IsUnlinked := by
      refine unlinked.modifyMetadata (fun metadata => by simp [adds])
        fun node known => ?_
      rw [adds, List.forall_mem_append]
      exact ⟨(unlinked.nodes known).features, by simp⟩
    obtain ⟨node, known⟩ : ∃ node, draft.tree.node? id = some node :=
      ⟨_, Array.getElem?_eq_getElem held⟩
    obtain rfl := counted node known
    refine changed.enqueue statement text inside inside ?_ fun _ => ?_
    · simp [ReferenceKind.linkPlace, SchemaTree.HasPlace,
        SchemaTree.featureAt?, modifyMetadata, SchemaTree.node?_modifyMetadata,
        known, adds]
    · refine unlinked.asked_eq_zero fun there => ?_
      simp [ReferenceKind.linkPlace, SchemaTree.HasPlace,
        SchemaTree.featureAt?, known] at there
  asks _ _ unlinked := by
    have same (place : LinkPlace) (repeatable : place.isRepeatable = true) :
        ((draft.modifyMetadata id change).enqueue statement
          (.ifFeature index) text id).queue.asked place =
            draft.queue.asked place := by
      refine (ReferenceQueue.asked_append _ _ place).trans ?_
      rw [ReferenceQueue.asked_singleton, if_neg]
      · rfl
      · rintro rfl
        simp [Reference.linkPlace, Reference.ofText, ReferenceKind.linkPlace,
          LinkPlace.isRepeatable] at repeatable
    refine ⟨fun place repeatable _ => ?_, fun place repeatable outside => ?_⟩
    · rw [same place repeatable]
      exact Nat.le_add_right _ _
    · rw [same place repeatable,
        unlinked.asked_eq_zero_of_le repeatable outside]
      exact Nat.zero_le 1

theorem readIfFeature_follows
    (ok : readIfFeature draft statement = .ok result) :
    draft.Follows result := by
  simp only [readIfFeature, bind_eq_ok_iff, pure_eq_ok_iff] at ok
  obtain ⟨name, _, id, held, rfl⟩ := ok
  exact addIfFeature_follows (nodeHolder_lt held) name.text (fun _ => rfl) fun node known => by
    simp [known]

end Draft

end YangSchema
