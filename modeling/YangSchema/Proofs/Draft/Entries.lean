import YangSchema.Proofs.Draft.Filling

/-!
# What statements without a block store

Each of them stores the value of its argument in the place of its keyword, be its
holder a node or a frame.  An `if-feature`, a `unique` and the `config` of a node
have no such place and change none.
-/

namespace YangSchema

variable {statement : Statement} {part : Option Frame}

theorem Construct.keywords_subset (construct : Construct) :
    construct.attributes.keywords ⊆ attributeKeywords := by
  cases construct <;>
    simp [attributes, Attributes.keywords, Attributes.singleKeywords,
      Attributes.ofValues, Attribute.text, Attribute.flag, Attribute.qualifier,
      Attribute.elements, ModuleHeader.lists, attributeKeywords]

theorem SchemaNode.keywords_subset (node : SchemaNode) :
    node.attributes.keywords ⊆ attributeKeywords := by
  intro keyword listed
  obtain listed | listed := Attributes.mem_keywords_append.mp listed
  · exact node.construct.keywords_subset listed
  · have own : metadataKeywords ⊆ attributeKeywords := by decide
    exact own (node.metadata.keywords_subset node.kind listed)

/-- A statement of no place leaves a construct as it is. -/
theorem Construct.takes_other {construct construct' : Construct}
    (other : statement.known ∉ attributeKeywords)
    (kind : construct'.kind = construct.kind)
    (config : construct'.config? = construct.config?)
    (same : construct'.attributes = construct.attributes) :
    construct.Takes statement part construct' where
  kind := kind
  config := config
  takes := by
    rw [same]
    exact Attributes.takes_of_not_mem
      (fun listed => other (construct.keywords_subset listed)) other
  own := fun listed => by
    have own : metadataKeywords ⊆ attributeKeywords := by decide
    exact other (own listed)

section

variable {top top' : Frame} {value : AttributeValue}

theorem Frame.takes_none (filled : (none : Option Frame) = some top') :
    top.Takes statement part top' := by
  simp at filled

theorem Frame.explain?_takes {change : Explanation → Explanation}
    {keyword : Keyword} (known : statement.known = keyword)
    (given : statement.attribute? = some value)
    (same : ∀ explanation, (change explanation).attributes =
      explanation.attributes.put keyword (some value) none)
    (listed : [Keyword.errorMessage, .errorAppTag, .description,
      .reference].contains keyword = true)
    (filled : top.explain? change = some top') :
    top.Takes statement none top' := by
  cases top <;> simp only [explain?, Option.some.injEq, reduceCtorEq] at filled
  all_goals
    subst filled
    exact takes_value known given rfl (same _) listed rfl

theorem Frame.refine?_takes {change : Refine → Refine} {keyword : Keyword}
    (known : statement.known = keyword)
    (given : statement.attribute? = some value)
    (bare : ∀ changes, (Frame.refine (change changes)).bare =
      (Frame.refine changes).bare)
    (same : ∀ changes, (Frame.refine (change changes)).attributes =
      (Frame.refine changes).attributes.put keyword (some value) none)
    (listed : [Keyword.description, .reference, .config, .mandatory, .presence,
      .default, .minElements, .maxElements].contains keyword = true)
    (filled : top.refine? change = some top') :
    top.Takes statement none top' := by
  cases top <;> simp only [refine?, Option.some.injEq, reduceCtorEq] at filled
  subst filled
  refine takes_value known given (bare _) (same _) listed ?_
  rw [← Bool.not_eq_true, List.contains_iff_mem] at *
  intro is
  obtain rfl := List.mem_singleton.mp is
  simp at listed

end

/-- The keyword of the statement that gives a text. -/
def DocumentationPart.keyword : DocumentationPart → Keyword
  | .description => .description
  | .reference => .reference

theorem Frame.document?_takes {top top' : Frame} {text : String}
    {part : DocumentationPart} (known : statement.known = part.keyword)
    (given : statement.attribute? = some (.text text))
    (filled : top.document? part text = some top') :
    top.Takes statement none top' := by
  cases top
  case revision | enum | bit | when | refine =>
    simp only [document?, Option.some.injEq] at filled
    subst filled
    cases part <;> exact takes_value known given rfl rfl rfl rfl
  all_goals
    refine explain?_takes known given (fun explanation => ?_) ?_
      (show explain? (part.writeExplanation text) _ = _ from filled)
    all_goals cases part <;> rfl

theorem Metadata.document_takes (metadata : Metadata) {kind : ConstructKind}
    {text : String} {part : DocumentationPart}
    (known : statement.known = part.keyword)
    (given : statement.attribute? = some (.text text))
    (accepted : Draft.takesDocumentation kind = true) :
    Attributes.Takes statement none (metadata.attributes kind)
      ((part.writeMetadata text metadata).attributes kind) := by
  cases part <;> cases kind <;>
    first
    | exact absurd accepted (by decide)
    | exact Attributes.takes_value known given rfl rfl rfl

namespace Draft

variable {draft result : Draft}

theorem readYangVersion_fills (known : statement.known = .yangVersion)
    (ok : readYangVersion draft statement = .ok result) :
    draft.Fills statement result := by
  obtain ⟨version, read, filled⟩ := bind_eq_ok_iff.mp ok
  have given : statement.attribute? = some (.text version) := by
    simp [Statement.attribute?, known, read, Except.toOption]
  exact fillHeader_fills filled
    (fun _ => Construct.takes_value known given rfl rfl rfl rfl rfl)
    fun _ => Construct.takes_value known given rfl rfl rfl rfl rfl

theorem readOrganization_fills (known : statement.known = .organization)
    (ok : readOrganization draft statement = .ok result) :
    draft.Fills statement result := by
  obtain ⟨text, read, filled⟩ := bind_eq_ok_iff.mp ok
  have given : statement.attribute? = some (.text text) := by
    simp [Statement.attribute?, known, read, Except.toOption]
  exact fillHeader_fills filled
    (fun _ => Construct.takes_value known given rfl rfl rfl rfl rfl)
    fun _ => Construct.takes_value known given rfl rfl rfl rfl rfl

theorem readContact_fills (known : statement.known = .contact)
    (ok : readContact draft statement = .ok result) :
    draft.Fills statement result := by
  obtain ⟨text, read, filled⟩ := bind_eq_ok_iff.mp ok
  have given : statement.attribute? = some (.text text) := by
    simp [Statement.attribute?, known, read, Except.toOption]
  exact fillHeader_fills filled
    (fun _ => Construct.takes_value known given rfl rfl rfl rfl rfl)
    fun _ => Construct.takes_value known given rfl rfl rfl rfl rfl

/-- The header of a module gets its namespace. -/
theorem readNamespace_fills (known : statement.known = .namespaceUri)
    (ok : readNamespace draft statement = .ok result) :
    draft.Fills statement result := by
  simp only [readNamespace, bind_eq_ok_iff, pure_eq_ok_iff] at ok
  obtain ⟨uri, read, id, held, rfl⟩ := ok
  have given : statement.attribute? = some (.text uri) := by
    simp [Statement.attribute?, known, read, Except.toOption]
  obtain ⟨kind, rest, stack, is, isModule⟩ := nodeHolder_eq_ok held
  obtain ⟨node, found, rfl⟩ := Option.map_eq_some_iff.mp is
  refine fills_modifyConstruct none stack found ?_
  cases construct : node.construct with
  | module header =>
      exact Construct.takes_value known given rfl rfl rfl rfl rfl
  | _ => simp [SchemaNode.kind, construct, Construct.kind] at isModule

theorem readQualifier_fills (known : statement.known = .prefixName)
    (ok : readQualifier draft statement = .ok result) :
    draft.Fills statement result := by
  obtain ⟨qualifier, read, filled⟩ := bind_eq_ok_iff.mp ok
  have given : statement.attribute? = some (.text qualifier) := by
    simp [Statement.attribute?, known, read, Except.toOption]
  apply fill_fills filled
  · intro top top' filled
    cases top <;> simp only [Option.some.injEq, reduceCtorEq] at filled
    all_goals
      subst filled
      exact Frame.takes_value known given rfl rfl rfl rfl
  · intro holder holder' filled
    cases holder <;> simp only [Option.some.injEq, reduceCtorEq] at filled
    subst filled
    exact Construct.takes_value known given rfl rfl rfl rfl rfl

theorem readRevisionDate_fills (known : statement.known = .revisionDate)
    (ok : readRevisionDate draft statement = .ok result) :
    draft.Fills statement result := by
  obtain ⟨date, read, filled⟩ := bind_eq_ok_iff.mp ok
  have given : statement.attribute? = some (.text date) := by
    simp [Statement.attribute?, known, read, Except.toOption]
  apply fill_fills filled _ (by simp)
  intro top top' filled
  cases top <;> simp only [Option.some.injEq, reduceCtorEq] at filled
  all_goals
    subst filled
    exact Frame.takes_value known given rfl rfl rfl rfl

theorem readDocumentation_fills (part : DocumentationPart)
    (known : statement.known = part.keyword)
    (ok : readDocumentation part draft statement = .ok result) :
    draft.Fills statement result := by
  obtain ⟨text, read, written⟩ := bind_eq_ok_iff.mp ok
  have given : statement.attribute? = some (.text text) := by
    cases part <;>
      simp [Statement.attribute?, known, read, Except.toOption,
        DocumentationPart.keyword]
  refine annotate_fills written (fun _ _ => Frame.document?_takes known given)
    (fun _ metadata => metadata.document_takes known given) ?_
  cases part <;> simp [known, DocumentationPart.keyword, metadataKeywords]

theorem readStatus_fills (known : statement.known = .status)
    (ok : readStatus draft statement = .ok result) :
    draft.Fills statement result := by
  obtain ⟨status, read, written⟩ := bind_eq_ok_iff.mp ok
  have given : statement.attribute? = some (.status status) := by
    simp [Statement.attribute?, known, read, Except.toOption]
  refine annotate_fills written (fun top top' filled => ?_)
    (fun kind metadata accepted => ?_) (by simp [known, metadataKeywords])
  · cases top <;> simp only [Option.some.injEq, reduceCtorEq] at filled
    all_goals
      subst filled
      exact Frame.takes_value known given rfl rfl rfl rfl
  · cases kind <;>
      first
      | exact absurd accepted (by decide)
      | exact Attributes.takes_value known given rfl rfl rfl

theorem readYinElement_fills (known : statement.known = .yinElement)
    (ok : readYinElement draft statement = .ok result) :
    draft.Fills statement result := by
  obtain ⟨yinElement, read, filled⟩ := bind_eq_ok_iff.mp ok
  have given : statement.attribute? = some (.flag yinElement) := by
    simp [Statement.attribute?, known, read, Except.toOption]
  apply fill_fills filled _ (by simp)
  intro top top' filled
  cases top <;> simp only [Option.some.injEq, reduceCtorEq] at filled
  subst filled
  exact Frame.takes_value known given rfl rfl rfl rfl

theorem readUnits_fills (known : statement.known = .units)
    (ok : readUnits draft statement = .ok result) :
    draft.Fills statement result := by
  obtain ⟨text, read, filled⟩ := bind_eq_ok_iff.mp ok
  have given : statement.attribute? = some (.text text) := by
    simp [Statement.attribute?, known, read, Except.toOption]
  apply fill_fills filled fun _ _ => Frame.takes_none
  intro holder holder' filled
  cases holder <;> simp only [Option.some.injEq, reduceCtorEq] at filled
  all_goals
    subst filled
    exact Construct.takes_value known given rfl rfl rfl rfl rfl

theorem readDefault_fills (known : statement.known = .default)
    (ok : readDefault draft statement = .ok result) :
    draft.Fills statement result := by
  obtain ⟨text, read, ok⟩ := bind_eq_ok_iff.mp ok
  have filled := eq_ok_of_checked ok
  have given : statement.attribute? = some (.text text) := by
    simp [Statement.attribute?, known, read, Except.toOption]
  apply fill_fills filled fun _ _ =>
    Frame.refine?_takes known given (fun _ => rfl) (fun _ => rfl) rfl
  intro holder holder' filled
  cases holder <;> simp only [Option.some.injEq, reduceCtorEq] at filled
  all_goals
    subst filled
    exact Construct.takes_value known given rfl rfl rfl rfl rfl

/-- A node with a config keeps the one that it was opened with. -/
theorem readConfig_fills (known : statement.known = .config)
    (ok : readConfig draft statement = .ok result) :
    draft.Fills statement result := by
  obtain ⟨value, read, filled⟩ := bind_eq_ok_iff.mp ok
  have given : statement.attribute? = some (.flag value) := by
    simp [Statement.attribute?, known, read, Except.toOption]
  apply fill_fills filled fun _ _ =>
    Frame.refine?_takes known given (fun _ => rfl) (fun _ => rfl) rfl
  intro holder holder' filled
  split at filled
  · obtain rfl := Option.some.inj filled
    exact Construct.takes_other (by simp [known, attributeKeywords]) rfl rfl rfl
  · simp at filled

theorem readMandatory_fills (known : statement.known = .mandatory)
    (ok : readMandatory draft statement = .ok result) :
    draft.Fills statement result := by
  obtain ⟨mandatory, read, filled⟩ := bind_eq_ok_iff.mp ok
  have given : statement.attribute? = some (.flag mandatory) := by
    simp [Statement.attribute?, known, read, Except.toOption]
  apply fill_fills filled fun _ _ =>
    Frame.refine?_takes known given (fun _ => rfl) (fun _ => rfl) rfl
  intro holder holder' filled
  cases holder <;> simp only [Option.some.injEq, reduceCtorEq] at filled
  all_goals
    subst filled
    exact Construct.takes_value known given rfl rfl rfl rfl rfl

theorem readPresence_fills (known : statement.known = .presence)
    (ok : readPresence draft statement = .ok result) :
    draft.Fills statement result := by
  obtain ⟨text, read, filled⟩ := bind_eq_ok_iff.mp ok
  have given : statement.attribute? = some (.text text) := by
    simp [Statement.attribute?, known, read, Except.toOption]
  apply fill_fills filled fun _ _ =>
    Frame.refine?_takes known given (fun _ => rfl) (fun _ => rfl) rfl
  intro holder holder' filled
  cases holder <;> simp only [Option.some.injEq, reduceCtorEq] at filled
  subst filled
  exact Construct.takes_value known given rfl rfl rfl rfl rfl

theorem readMinElements_fills (known : statement.known = .minElements)
    (ok : readMinElements draft statement = .ok result) :
    draft.Fills statement result := by
  obtain ⟨minElements, read, filled⟩ := bind_eq_ok_iff.mp ok
  have given : statement.attribute? = some (.count minElements) := by
    simp [Statement.attribute?, known, read, Except.toOption]
  apply fill_fills filled fun _ _ =>
    Frame.refine?_takes known given (fun _ => rfl) (fun _ => rfl) rfl
  intro holder holder' filled
  cases holder <;> simp only [Option.some.injEq, reduceCtorEq] at filled
  all_goals
    subst filled
    exact Construct.takes_value known given rfl rfl rfl rfl rfl

theorem readMaxElements_fills (known : statement.known = .maxElements)
    (ok : readMaxElements draft statement = .ok result) :
    draft.Fills statement result := by
  obtain ⟨maxElements, read, filled⟩ := bind_eq_ok_iff.mp ok
  have given : statement.attribute? = some (.bound maxElements) := by
    simp [Statement.attribute?, known, read, Except.toOption]
  apply fill_fills filled fun _ _ =>
    Frame.refine?_takes known given (fun _ => rfl) (fun _ => rfl) rfl
  intro holder holder' filled
  cases holder <;> simp only [Option.some.injEq, reduceCtorEq] at filled
  all_goals
    subst filled
    exact Construct.takes_value known given rfl rfl rfl rfl rfl

theorem readOrderedBy_fills (known : statement.known = .orderedBy)
    (ok : readOrderedBy draft statement = .ok result) :
    draft.Fills statement result := by
  obtain ⟨orderedBy, read, filled⟩ := bind_eq_ok_iff.mp ok
  have given : statement.attribute? = some (.order orderedBy) := by
    simp [Statement.attribute?, known, read, Except.toOption]
  apply fill_fills filled fun _ _ => Frame.takes_none
  intro holder holder' filled
  cases holder <;> simp only [Option.some.injEq, reduceCtorEq] at filled
  all_goals
    subst filled
    exact Construct.takes_value known given rfl rfl rfl rfl rfl

theorem readKey_fills (known : statement.known = .key)
    (ok : readKey draft statement = .ok result) :
    draft.Fills statement result := by
  obtain ⟨keys, read, filled⟩ := bind_eq_ok_iff.mp ok
  have given : statement.attribute? = some (.names keys) := by
    simp [Statement.attribute?, known, read, Except.toOption]
  apply fill_fills filled fun _ _ => Frame.takes_none
  intro holder holder' filled
  cases holder <;> simp only [Option.some.injEq, reduceCtorEq] at filled
  subst filled
  exact Construct.takes_value known given rfl rfl rfl rfl rfl

theorem readUnique_fills (known : statement.known = .unique)
    (ok : readUnique draft statement = .ok result) :
    draft.Fills statement result := by
  obtain ⟨paths, _, filled⟩ := bind_eq_ok_iff.mp ok
  apply fill_fills filled fun _ _ => Frame.takes_none
  intro holder holder' filled
  cases holder <;> simp only [Option.some.injEq, reduceCtorEq] at filled
  subst filled
  exact Construct.takes_other (by simp [known, attributeKeywords]) rfl rfl rfl

theorem readErrorMessage_fills (known : statement.known = .errorMessage)
    (ok : readErrorMessage draft statement = .ok result) :
    draft.Fills statement result := by
  obtain ⟨text, read, filled⟩ := bind_eq_ok_iff.mp ok
  have given : statement.attribute? = some (.text text) := by
    simp [Statement.attribute?, known, read, Except.toOption]
  exact fill_fills filled
    (fun _ _ => Frame.explain?_takes known given (fun _ => rfl) rfl) (by simp)

theorem readErrorAppTag_fills (known : statement.known = .errorAppTag)
    (ok : readErrorAppTag draft statement = .ok result) :
    draft.Fills statement result := by
  obtain ⟨text, read, filled⟩ := bind_eq_ok_iff.mp ok
  have given : statement.attribute? = some (.text text) := by
    simp [Statement.attribute?, known, read, Except.toOption]
  exact fill_fills filled
    (fun _ _ => Frame.explain?_takes known given (fun _ => rfl) rfl) (by simp)

theorem readValue_fills (known : statement.known = .value)
    (ok : readValue draft statement = .ok result) :
    draft.Fills statement result := by
  obtain ⟨number, read, ok⟩ := bind_eq_ok_iff.mp ok
  have given : statement.attribute? = some (.number number) := by
    simp [Statement.attribute?, known, read, Except.toOption]
  split at ok
  · simp at ok
  apply fill_fills ok _ (by simp)
  intro top top' filled
  cases top <;> simp only [Option.some.injEq, reduceCtorEq] at filled
  subst filled
  exact Frame.takes_value known given rfl rfl rfl rfl

theorem readPosition_fills (known : statement.known = .position)
    (ok : readPosition draft statement = .ok result) :
    draft.Fills statement result := by
  obtain ⟨number, read, ok⟩ := bind_eq_ok_iff.mp ok
  have given : statement.attribute? = some (.number number) := by
    simp [Statement.attribute?, known, read, Except.toOption]
  split at ok
  · simp at ok
  apply fill_fills ok _ (by simp)
  intro top top' filled
  cases top <;> simp only [Option.some.injEq, reduceCtorEq] at filled
  subst filled
  exact Frame.takes_value known given rfl rfl rfl rfl

theorem readFractionDigits_fills (known : statement.known = .fractionDigits)
    (ok : readFractionDigits draft statement = .ok result) :
    draft.Fills statement result := by
  obtain ⟨digits, read, use, _, filled⟩ := by
    simpa only [readFractionDigits, bind_eq_ok_iff] using ok
  have given : statement.attribute? = some (.count digits) := by
    simp [Statement.attribute?, known, read, Except.toOption]
  exact fillType_fills filled fun _ =>
    Frame.takes_value known given rfl rfl rfl rfl

theorem readPath_fills (known : statement.known = .path)
    (ok : readPath draft statement = .ok result) :
    draft.Fills statement result := by
  obtain ⟨_, _, path, read, use, _, filled⟩ := by
    simpa only [readPath, bind_eq_ok_iff] using ok
  have given : statement.attribute? = some (.text path) := by
    simp [Statement.attribute?, known, read, Except.toOption]
  exact fillType_fills filled fun _ =>
    Frame.takes_value known given rfl rfl rfl rfl

theorem readRequireInstance_fills (known : statement.known = .requireInstance)
    (ok : readRequireInstance draft statement = .ok result) :
    draft.Fills statement result := by
  obtain ⟨value, read, use, _, filled⟩ := by
    simpa only [readRequireInstance, bind_eq_ok_iff] using ok
  have given : statement.attribute? = some (.flag value) := by
    simp [Statement.attribute?, known, read, Except.toOption]
  exact fillType_fills filled fun _ =>
    Frame.takes_value known given rfl rfl rfl rfl

/-- The queue is no part of what is stored. -/
theorem Fills.enqueue (fills : draft.Fills statement result)
    (kind : ReferenceKind) (text : String) (consumer : NodeId) :
    draft.Fills statement (result.enqueue statement kind text consumer) := by
  cases fills with
  | node stack same found nodes head takes =>
      exact .node stack same found nodes head takes
  | frame stack same nodes takes => exact .frame stack same nodes takes

theorem readBase_fills (known : statement.known = .base)
    (ok : readBase draft statement = .ok result) :
    draft.Fills statement result := by
  simp only [readBase, bind_eq_ok_iff] at ok
  obtain ⟨base, read, top, _, ok⟩ := ok
  have given : statement.attribute? = some (.name base) := by
    simp [Statement.attribute?, known, read, Except.toOption]
  split at ok
  · simp only [bind_eq_ok_iff] at ok
    obtain ⟨use, _, filled⟩ := ok
    exact fillType_fills filled fun _ =>
      Frame.takes_value known given rfl rfl rfl rfl
  · simp only [bind_eq_ok_iff, pure_eq_ok_iff] at ok
    obtain ⟨id, held, rfl⟩ := ok
    obtain ⟨kind, rest, stack, is, isIdentity⟩ := nodeHolder_eq_ok held
    obtain ⟨node, found, rfl⟩ := Option.map_eq_some_iff.mp is
    apply Fills.enqueue
    refine fills_modifyConstruct none stack found ?_
    cases construct : node.construct with
    | identity body =>
        exact Construct.takes_value known given rfl rfl rfl rfl rfl
    | _ => simp [SchemaNode.kind, construct, Construct.kind] at isIdentity

theorem readIfFeature_fills (known : statement.known = .ifFeature)
    (ok : readIfFeature draft statement = .ok result) :
    draft.Fills statement result := by
  simp only [readIfFeature, bind_eq_ok_iff, pure_eq_ok_iff] at ok
  obtain ⟨name, _, id, held, rfl⟩ := ok
  obtain ⟨kind, rest, stack, is, -⟩ := nodeHolder_eq_ok held
  obtain ⟨node, found, rfl⟩ := Option.map_eq_some_iff.mp is
  have other : statement.known ∉ attributeKeywords := by
    simp [known, attributeKeywords]
  apply Fills.enqueue
  let node' : SchemaNode := { node with
    metadata := { node.metadata with
      ifFeatures := node.metadata.ifFeatures ++ [⟨name, none⟩] } }
  have unchanged : Attributes.Takes statement none node.attributes
      node'.attributes :=
    Attributes.takes_of_not_mem
      (fun listed => other (node.keywords_subset listed)) other
  refine .node stack rfl found (fun id' => ?_)
    (show node.SameHead node' from ⟨rfl, rfl, rfl, rfl, rfl, rfl⟩) unchanged
  simp only [modifyMetadata, SchemaTree.node?_modifyMetadata]
  split
  next same =>
    subst same
    simp [found, node']
  · rfl

end Draft

end YangSchema
