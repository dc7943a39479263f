import YangSchema.Proofs.Draft.Mirroring
import YangSchema.Proofs.Draft.Moments

/-!
# Every keyword mirrors its statements

Each keyword writes an entry, builds a part or introduces a node, so by induction
over the statements everything that is read inside a unit mirrors the
statements.  An instance of an extension leaves the draft as it is.
-/

namespace YangSchema

/-- No part has a place for instances of extensions. -/
theorem Frame.extension_not_mem (frame : Frame) :
    Keyword.extensionInstance ∉ frame.attributes.keywords := by
  cases frame <;>
    simp [attributes, Attributes.keywords, Attributes.singleKeywords,
      Attributes.ofValues, Attribute.text, Attribute.qualifier, Attribute.status,
      Attribute.flag, Attribute.documentation, Explanation.attributes,
      NumberedMember.attributes]

namespace Draft

variable {before opened inner after draft : Draft} {statement : Statement}

/-- A type opens a part, and the node for its members if it has any. -/
theorem openType_cases (ok : openType before statement = .ok opened) :
    ∃ use, opened = before.push (.type use) ∨
      ∃ holder construct name,
        before.OpensNode statement holder construct name opened ∧
        opened.stack =
          .node before.tree.size :: .type use :: before.stack ∧
        construct.kind.isAnonymousType = true ∧ construct.config? = none := by
  simp only [openType, bind_eq_ok_iff] at ok
  obtain ⟨name, -, _, -, holder, held, ok⟩ := ok
  split at ok
  next construct ending members =>
    obtain rfl := pure_eq_ok_iff.mp ok
    obtain ⟨_, rest, stack, -, -⟩ := nodeHolder_eq_ok held
    obtain ⟨initial, configless, anonymous, single⟩ := membersOf_isPlain members
    exact ⟨_, .inr ⟨holder, construct, _, ⟨⟨rest, stack⟩, rfl, initial,
      by simp [single], by simp [configless]⟩, rfl, anonymous, configless⟩⟩
  next plain =>
    obtain rfl := pure_eq_ok_iff.mp ok
    exact ⟨_, .inl rfl⟩

/-- The blocks and entries of a keyword. -/
inductive Role.HasShape (keyword : Keyword) : Role → Prop
  | unit {construct : Construct}
      (introduces : keyword.introduces? = some construct.kind)
      (initial : construct.attributes.IsInitial)
      (named : keyword ∉ [Keyword.type, .input, .output]) :
      HasShape keyword (.block (openUnit construct) closeUnit)
  | part {openBlock closeBlock : Step}
      (isPart : IsPartBlock keyword openBlock closeBlock)
      (plain : isPlain keyword = true) :
      HasShape keyword (.block openBlock closeBlock)
  | node {openBlock closeBlock : Step}
      (isNode : IsNodeBlock keyword openBlock closeBlock) :
      HasShape keyword (.block openBlock closeBlock)
  | type (isType : keyword = .type) :
      HasShape keyword (.block openType closeType)
  | entry {write : Step} (plain : isPlain keyword = true)
      (fills : ∀ {draft result statement}, statement.known = keyword →
        write draft statement = .ok result → draft.Fills statement result) :
      HasShape keyword (.entry write)
  | foreign (extension : keyword = .extensionInstance) :
      HasShape keyword .foreign
  | refused (error : Statement → StatementError) :
      HasShape keyword (.refused error)

theorem role_shape (keyword : Keyword) : (role keyword).HasShape keyword := by
  cases keyword with
  | module | submodule => exact .unit rfl (isInitial_of_check rfl rfl rfl) (by decide)
  | yangVersion => exact .entry rfl readYangVersion_fills
  | namespaceUri => exact .entry rfl readNamespace_fills
  | prefixName => exact .entry rfl readQualifier_fills
  | importModule => exact .part import_isPartBlock rfl
  | includeSubmodule => exact .part include_isPartBlock rfl
  | revisionDate => exact .entry rfl readRevisionDate_fills
  | belongsTo => exact .part belongsTo_isPartBlock rfl
  | organization => exact .entry rfl readOrganization_fills
  | contact => exact .entry rfl readContact_fills
  | description => exact .entry rfl (readDocumentation_fills .description)
  | reference => exact .entry rfl (readDocumentation_fills .reference)
  | revision => exact .part revision_isPartBlock rfl
  | extensionDefinition | identity | feature | grouping | case | rpc
    | notification =>
      exact .node <| definition_isNodeBlock rfl (by decide)
        closePlainNode_closesNode (by decide) rfl
        (isInitial_of_check rfl rfl rfl) rfl rfl
  | argument => exact .part argument_isPartBlock rfl
  | yinElement => exact .entry rfl readYinElement_fills
  | base => exact .entry rfl readBase_fills
  | ifFeature => exact .entry rfl readIfFeature_fills
  | typedef => exact .node typedef_isNodeBlock
  | type => exact .type rfl
  | units => exact .entry rfl readUnits_fills
  | default => exact .entry rfl readDefault_fills
  | status => exact .entry rfl readStatus_fills
  | config => exact .entry rfl readConfig_fills
  | mandatory => exact .entry rfl readMandatory_fills
  | presence => exact .entry rfl readPresence_fills
  | orderedBy => exact .entry rfl readOrderedBy_fills
  | must => exact .part must_isPartBlock rfl
  | errorMessage => exact .entry rfl readErrorMessage_fills
  | errorAppTag => exact .entry rfl readErrorAppTag_fills
  | minElements => exact .entry rfl readMinElements_fills
  | maxElements => exact .entry rfl readMaxElements_fills
  | value => exact .entry rfl readValue_fills
  | container | anyxml =>
      exact .node <| dataNode_isNodeBlock rfl (by decide)
        closePlainNode_closesNode (by decide) (fun _ => rfl)
        (fun _ => isInitial_of_check rfl rfl rfl) (fun _ => rfl) rfl fun _ => rfl
  | leaf =>
      exact .node <| dataNode_isNodeBlock rfl (by decide)
        (closesNode_of_closeNode closeLeaf_eq_ok) (by decide) (fun _ => rfl)
        (fun _ => isInitial_of_check rfl rfl rfl) (fun _ => rfl) rfl fun _ => rfl
  | leafList =>
      exact .node <| dataNode_isNodeBlock rfl (by decide)
        (closesNode_of_closeNode closeLeafList_eq_ok) (by decide) (fun _ => rfl)
        (fun _ => isInitial_of_check rfl rfl rfl) (fun _ => rfl) rfl fun _ => rfl
  | list =>
      exact .node <| dataNode_isNodeBlock rfl (by decide)
        closeList_closesNode (by decide) (fun _ => rfl)
        (fun _ => isInitial_of_check rfl rfl rfl) (fun _ => rfl) rfl fun _ => rfl
  | key => exact .entry rfl readKey_fills
  | unique => exact .entry rfl readUnique_fills
  | choice =>
      exact .node <| dataNode_isNodeBlock rfl (by decide)
        (closesNode_of_closeNode closeChoice_eq_ok) (by decide) (fun _ => rfl)
        (fun _ => isInitial_of_check rfl rfl rfl) (fun _ => rfl) rfl fun _ => rfl
  | uses => exact .node uses_isNodeBlock
  | refine => exact .part refine_isPartBlock rfl
  | augment => exact .node augment_isNodeBlock
  | when => exact .part when_isPartBlock rfl
  | input => exact .node (rpcPart_isNodeBlock (.inl ⟨rfl, rfl⟩))
  | output => exact .node (rpcPart_isNodeBlock (.inr ⟨rfl, rfl⟩))
  | range => exact .part range_isPartBlock rfl
  | length => exact .part length_isPartBlock rfl
  | pattern => exact .part pattern_isPartBlock rfl
  | enum => exact .part enum_isPartBlock rfl
  | bit => exact .part bit_isPartBlock rfl
  | position => exact .entry rfl readPosition_fills
  | path => exact .entry rfl readPath_fills
  | requireInstance => exact .entry rfl readRequireInstance_fills
  | fractionDigits => exact .entry rfl readFractionDigits_fills
  | deviation | deviate => exact .refused unsupportedStatement
  | extensionInstance => exact .foreign rfl
  | unknown => exact .refused unknownStatement

/-- What a role does with the statements of its keyword. -/
inductive Role.Mirrors (keyword : Keyword) : Role → Prop
  | block {openBlock closeBlock : Step}
      (mirrors : ∀ {before opened inner after statement},
        statement.known = keyword → before.IsSound → before.stack ≠ [] →
        openBlock before statement = .ok opened →
        opened.Mirrors statement.substatements inner →
        before.tree.Keeps inner.tree → inner.tree.IsNested →
        closeBlock inner statement = .ok after →
          before.Mirrors [statement] after) :
      Mirrors keyword (.block openBlock closeBlock)
  | entry {write : Step} (plain : isPlain keyword = true)
      (fills : ∀ {draft result statement}, statement.known = keyword →
        write draft statement = .ok result → draft.Fills statement result) :
      Mirrors keyword (.entry write)
  | foreign (extension : keyword = .extensionInstance) :
      Mirrors keyword .foreign
  | refused (error : Statement → StatementError) :
      Mirrors keyword (.refused error)

section

variable {keyword : Keyword}

/-- A unit is opened at the top level only. -/
theorem mirrors_unit (construct : Construct) :
    (Role.block (openUnit construct) closeUnit).Mirrors keyword :=
  .block fun _ _ open' opening _ _ _ _ => by
    obtain ⟨_, -, -, unopened, -⟩ := openUnit_eq_ok opening
    exact absurd unopened open'

theorem mirrors_part {openBlock closeBlock : Step}
    (isPart : IsPartBlock keyword openBlock closeBlock)
    (plain : isPlain keyword = true) :
    (Role.block openBlock closeBlock).Mirrors keyword :=
  .block fun known sound _ opening inside keeps nested closing =>
    part_mirrors isPart plain known sound opening inside keeps nested closing

theorem mirrors_node {openBlock closeBlock : Step}
    (isNode : IsNodeBlock keyword openBlock closeBlock) :
    (Role.block openBlock closeBlock).Mirrors keyword :=
  .block fun known sound _ opening inside _ nested closing =>
    node_mirrors isNode known sound opening inside nested closing

end

theorem role_mirrors (keyword : Keyword) : (role keyword).Mirrors keyword := by
  have shape := role_shape keyword
  generalize role keyword = itsRole at shape ⊢
  cases shape with
  | unit => exact mirrors_unit _
  | part isPart plain => exact mirrors_part isPart plain
  | node isNode => exact mirrors_node isNode
  | type isType =>
      subst isType
      exact .block fun known sound _ opening inside _ nested closing =>
        type_mirrors known sound opening inside nested closing
  | entry plain fills => exact .entry plain fills
  | foreign extension => exact .foreign extension
  | refused error => exact .refused error

/-- An instance of an extension is stored nowhere. -/
theorem passOver_fills (known : statement.known = .extensionInstance)
    (sound : before.IsSound) (open' : before.stack ≠ []) :
    before.Fills statement (before.passOver statement) := by
  have unchanged {attributes : Attributes}
      (foreign : statement.known ∉ attributes.keywords) :
      Attributes.Takes statement none attributes attributes :=
    Attributes.takes_of_not_mem foreign (by simp [known, attributeKeywords])
  obtain ⟨frame, rest, stack⟩ := List.exists_cons_of_ne_nil open'
  obtain ⟨warnings, passed⟩ := passOver_eq before statement
  rw [passed]
  by_cases node : frame.kind = .node
  · cases frame with
    | node id =>
        have inTree := sound.known id (by simp [stack])
        have found : before.tree.node? id = some before.tree.nodes[id] :=
          Array.getElem?_eq_getElem inTree
        have foreign : statement.known ∉
            before.tree.nodes[id].attributes.keywords := fun listed =>
          absurd (SchemaNode.keywords_subset _ listed)
            (by simp [known, attributeKeywords])
        refine .node stack rfl found (fun other => ?_) (.refl _)
          (unchanged foreign)
        split
        next is => rw [← is, found]
        · rfl
    | _ => simp [Frame.kind] at node
  · exact .frame stack stack (fun _ => rfl)
      ⟨rfl, node, unchanged (known ▸ frame.extension_not_mem)⟩

theorem passOver_mirrors (known : statement.known = .extensionInstance)
    (sound : before.IsSound) (open' : before.stack ≠ []) :
    before.Mirrors [statement] (before.passOver statement) := by
  refine mirrors_of_fills before rfl (fun _ _ => id)
    (passOver_fills known sound open') sound.nested sound.known
    fun _ _ _ _ _ _ => ?_
  rw [Statement.introductions_of_extension known]
  exact .nil before.tree

mutual

/-- A statement inside a unit mirrors itself. -/
theorem read_mirrors {draft : Draft} (sound : draft.IsSound)
    (open' : draft.stack ≠ []) : {statement : Statement} →
    (read draft statement).error = none →
      draft.Mirrors [statement] (read draft statement).draft
  | ⟨keyword, argument, span, block, substatements⟩, whole => by
      unfold read at whole ⊢
      dsimp only at whole ⊢
      generalize is :
        (⟨keyword, argument, span, block, substatements⟩ : Statement) =
          statement at whole ⊢
      have mirrors := role_mirrors statement.known
      have unwinds := role_unwinds statement.known
      split at whole
      next openBlock closeBlock isBlock =>
        simp only [isBlock] at mirrors unwinds ⊢
        cases unwinds with
        | block _ opens _ =>
        cases mirrors with
        | block mirrors =>
            obtain ⟨opening, whole, same⟩ := Progress.andThen_error whole
            obtain ⟨inside, closing, same'⟩ := Progress.andThen_error whole
            rw [same, same']
            have ok := Progress.ofStep_error opening
            obtain ⟨frames, isOpening, pushed⟩ := opens rfl ok
            have sound' := pushed.sound sound
            have read := readAll_mirrors sound' (pushed.held isOpening.ne_nil)
              inside
            have follows := (readAll_reads inside).follows
            subst is
            exact mirrors rfl sound open' ok read
              (pushed.keeps.trans follows.keeps) (follows.sound sound').nested
              (Progress.ofStep_error closing)
      next write isEntry =>
        simp only [isEntry] at mirrors ⊢
        cases mirrors with
        | entry plain fills =>
            obtain ⟨written, whole, same⟩ := Progress.andThen_error whole
            rw [same]
            obtain ⟨extensions, warnings, passed⟩ := readForeign_eq whole
            rw [passed]
            subst is
            exact entry_mirrors sound plain extensions <|
              (fills rfl (Progress.ofStep_error written)).of_same rfl rfl
      next isForeign =>
        simp only [isForeign] at mirrors ⊢
        cases mirrors with
        | foreign known => exact passOver_mirrors known sound open'
      next isRefused => simp at whole

/-- Statements inside a unit mirror themselves. -/
theorem readAll_mirrors {draft : Draft} (sound : draft.IsSound)
    (open' : draft.stack ≠ []) : {statements : List Statement} →
    (readAll draft statements).error = none →
      draft.Mirrors statements (readAll draft statements).draft
  | [], _ => .refl draft
  | statement :: rest, whole => by
      unfold readAll at whole ⊢
      obtain ⟨first, others, same⟩ := Progress.andThen_error whole
      rw [same]
      have follows := (read_reads first).follows
      have sound' := follows.sound sound
      exact .cons (read_mirrors sound open' first)
        (readAll_mirrors sound' (follows.held.mpr open') others) open'
        sound.known sound'.nested

end

end Draft

end YangSchema
