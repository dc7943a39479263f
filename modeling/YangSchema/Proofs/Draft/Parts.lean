import YangSchema.Proofs.Draft.Entries

/-!
# Blocks that build a part of their holder

Such a block pushes a frame in which nothing has been stored yet.  When the block
ends, the frame is taken off and stored in what was on top before.
-/

namespace YangSchema

variable {statement : Statement}

/-- Nothing is stored in a frame that has just been opened. -/
theorem Frame.isInitial_bare (frame : Frame) :
    frame.bare.attributes.IsInitial := by
  cases frame <;> constructor <;>
    simp [bare, attributes, Attributes.ofValues, Explanation.attributes,
      Explanation.empty, NumberedMember.attributes, Attribute.documentation,
      Attribute.text, Attribute.flag, Attribute.status, Attribute.qualifier,
      TypeUse.ofName, Refine.ofTarget]

theorem Construct.takes_part {construct construct' : Construct} {frame : Frame}
    {keyword : Keyword} (known : statement.known = keyword)
    (built : Built statement frame)
    (kind : construct'.kind = construct.kind)
    (config : construct'.config? = construct.config?)
    (same : ∀ value, construct'.attributes =
      construct.attributes.put keyword value (some frame))
    (listed : (construct.attributes.singles.map (·.1) ++
      construct.attributes.lists.map (·.1)).contains keyword = true)
    (apart : (construct.attributes.values.map (·.keyword)).contains keyword =
      false) :
    construct.Takes statement (some frame) construct' where
  kind := kind
  config := config
  takes := Attributes.takes_part known built same listed apart
  own := fun is => by
    refine construct.not_mem_keywords is ?_
    rw [known]
    rw [List.contains_iff_mem] at listed
    obtain listed | listed := List.mem_append.mp listed <;>
      simp [Attributes.keywords, Attributes.singleKeywords, listed]

theorem Frame.takes_part {top top' frame : Frame} {keyword : Keyword}
    (known : statement.known = keyword) (built : Built statement frame)
    (bare : top'.bare = top.bare)
    (same : ∀ value, top'.attributes =
      top.attributes.put keyword value (some frame))
    (listed : (top.attributes.singles.map (·.1) ++
      top.attributes.lists.map (·.1)).contains keyword = true)
    (apart : (top.attributes.values.map (·.keyword)).contains keyword = false) :
    top.Takes statement (some frame) top' where
  bare := bare
  other := by
    cases top with
    | node id => simp [attributes, Attributes.ofValues] at listed
    | _ => simp [Frame.kind]
  takes := Attributes.takes_part known built same listed apart

theorem Metadata.must_takes (metadata : Metadata) {kind : ConstructKind}
    {condition : Must} (known : statement.known = .must)
    (built : Built statement (.must condition))
    (accepted : Draft.takesMust kind = true) :
    Attributes.Takes statement (some (.must condition))
      (metadata.attributes kind)
      ({ metadata with musts := metadata.musts ++ [condition] }.attributes
        kind) := by
  cases kind <;>
    first
    | exact absurd accepted (by decide)
    | refine Attributes.takes_part known built (fun value => ?_) rfl rfl
  all_goals
    simp [attributes, Attributes.put, Attribute.put, Attribute.documentation,
      Attribute.text, Attribute.status, Draft.takesDocumentation,
      Draft.takesStatus, Draft.takesWhen, Draft.takesMust]

theorem Metadata.when_takes (metadata : Metadata) {kind : ConstructKind}
    {condition : When} (known : statement.known = .when)
    (built : Built statement (.when condition))
    (accepted : Draft.takesWhen kind = true) :
    Attributes.Takes statement (some (.when condition))
      (metadata.attributes kind)
      ({ metadata with when := some condition }.attributes kind) := by
  cases kind <;>
    first
    | exact absurd accepted (by decide)
    | exact Attributes.takes_part known built (fun _ => rfl) rfl rfl

theorem FrameStack.top_eq_ok {stack : FrameStack} {phase : Phase}
    {frame : Frame} (isTop : stack.top statement phase = .ok frame) :
    ∃ rest, stack = frame :: rest := by
  cases stack with
  | nil => simp [top] at isTop
  | cons other rest =>
      obtain rfl := Except.ok.inj isTop
      exact ⟨rest, rfl⟩

namespace Draft

variable {before opened inner after : Draft}

/-- A block that builds a part of its holder. -/
structure IsPartBlock (keyword : Keyword) (openBlock closeBlock : Step) :
    Prop where
  opens : ∀ {before opened statement}, statement.known = keyword →
    openBlock before statement = .ok opened →
      ∃ frame, opened = before.push frame ∧ statement.frame? = some frame ∧
        frame.bare = frame ∧ frame.kind ≠ .node ∧
        Cardinality.check statement = .ok ()
  closes : ∀ {before opened inner after statement frame},
    statement.known = keyword → openBlock before statement = .ok opened →
    before.tree.Keeps inner.tree → inner.stack = frame :: before.stack →
    Built statement frame → closeBlock inner statement = .ok after →
      Fills statement { inner with stack := before.stack } after

/-- The frame that is taken off is the one on top. -/
theorem closeFrame_of_stack {α : Type} {expected : FrameKind}
    {content? : Frame → Option α} {content : α} {draft popped : Draft}
    {frame : Frame} {rest : FrameStack} (stack : draft.stack = frame :: rest)
    (closed : draft.closeFrame statement expected content? =
      .ok (content, popped)) :
    content? frame = some content ∧ popped = { draft with stack := rest } := by
  obtain ⟨top, below, stack', content, rfl⟩ := closeFrame_eq_ok closed
  obtain ⟨rfl, rfl⟩ := List.cons.inj (stack.symm.trans stack')
  exact ⟨content, rfl⟩

/-- A header lists what a declaration has built. -/
theorem fillHeader_declares {draft result : Draft} {keyword : Keyword}
    {frame : Frame} {change : ModuleHeader → ModuleHeader}
    (filled : draft.fillHeader statement change = .ok result)
    (known : statement.known = keyword) (built : Built statement frame)
    (own : keyword ∈ [Keyword.importModule, .includeSubmodule, .revision])
    (lists : ∀ header, (change header).lists =
      header.lists.map fun (own, held) =>
        (own, if keyword = own then held ++ [frame] else held))
    (others : ∀ header, { change header with
      imports := header.imports
      includes := header.includes
      revisions := header.revisions } = header) :
    draft.Fills statement result := by
  have fields (header : ModuleHeader) :
      (change header).yangVersion = header.yangVersion ∧
        (change header).namespaceUri = header.namespaceUri ∧
        (change header).qualifier = header.qualifier ∧
        (change header).organization = header.organization ∧
        (change header).contact = header.contact ∧
        (change header).belongsTo = header.belongsTo := by
    have same := others header
    generalize change header = header' at same
    rw [← same]
    exact ⟨rfl, rfl, rfl, rfl, rfl, rfl⟩
  simp only [List.mem_cons, List.not_mem_nil, or_false] at own
  obtain rfl | rfl | rfl := own
  all_goals
    refine fillHeader_fills filled
      (fun header => Construct.takes_part known built rfl rfl ?_ rfl rfl)
      fun header => Construct.takes_part known built rfl rfl ?_ rfl rfl
    all_goals
      intro value
      simp [Construct.attributes, Attributes.put, Attribute.put, Attribute.text,
        Attribute.qualifier, fields, lists]

theorem import_isPartBlock :
    IsPartBlock .importModule openImport closeImport where
  opens known ok := by
    simp only [openImport, bind_eq_ok_iff, pure_eq_ok_iff] at ok
    obtain ⟨module, read, _, checked, _, _, rfl⟩ := ok
    exact ⟨_, rfl, by simp [Statement.frame?, known, read, Except.toOption],
      rfl, by simp [Frame.kind], checked⟩
  closes known _ _ stack built ok := by
    simp only [closeImport, bind_eq_ok_iff] at ok
    obtain ⟨⟨declaration, popped⟩, closed, filled⟩ := ok
    obtain ⟨content, rfl⟩ := closeFrame_of_stack stack closed
    split at content
    next declaration' =>
      obtain rfl := Option.some.inj content
      exact fillHeader_declares filled known built.unlinked (by simp)
        (fun _ => by simp [ModuleHeader.lists]) fun _ => rfl
    · simp at content

theorem include_isPartBlock :
    IsPartBlock .includeSubmodule openInclude closeInclude where
  opens known ok := by
    simp only [openInclude, bind_eq_ok_iff, pure_eq_ok_iff] at ok
    obtain ⟨submodule, read, _, checked, _, _, rfl⟩ := ok
    exact ⟨_, rfl, by simp [Statement.frame?, known, read, Except.toOption],
      rfl, by simp [Frame.kind], checked⟩
  closes known _ _ stack built ok := by
    simp only [closeInclude, bind_eq_ok_iff] at ok
    obtain ⟨⟨declaration, popped⟩, closed, filled⟩ := ok
    obtain ⟨content, rfl⟩ := closeFrame_of_stack stack closed
    split at content
    next declaration' =>
      obtain rfl := Option.some.inj content
      exact fillHeader_declares filled known built.unlinked (by simp)
        (fun _ => by simp [ModuleHeader.lists]) fun _ => rfl
    · simp at content

theorem revision_isPartBlock :
    IsPartBlock .revision openRevision closeRevision where
  opens known ok := by
    simp only [openRevision, bind_eq_ok_iff, pure_eq_ok_iff] at ok
    obtain ⟨date, read, _, checked, _, _, rfl⟩ := ok
    exact ⟨_, rfl, by simp [Statement.frame?, known, read, Except.toOption],
      rfl, by simp [Frame.kind], checked⟩
  closes known _ _ stack built ok := by
    simp only [closeRevision, bind_eq_ok_iff] at ok
    obtain ⟨⟨entry, popped⟩, closed, filled⟩ := ok
    obtain ⟨content, rfl⟩ := closeFrame_of_stack stack closed
    split at content
    next entry' =>
      obtain rfl := Option.some.inj content
      exact fillHeader_declares filled known built (by simp)
        (fun _ => by simp [ModuleHeader.lists]) fun _ => rfl
    · simp at content

/-- The node that a block was opened in is there when it is closed. -/
theorem holder_of_keeps {accepts : ConstructKind → Bool} {id : NodeId}
    (held : before.nodeHolder statement accepts = .ok id)
    (keeps : before.tree.Keeps inner.tree) :
    ∃ node rest, before.stack = .node id :: rest ∧
      inner.tree.node? id = some node ∧ accepts node.kind = true := by
  obtain ⟨kind, rest, stack, known, accepted⟩ := nodeHolder_eq_ok held
  obtain ⟨node, found, rfl⟩ := Option.map_eq_some_iff.mp (keeps.kind? known)
  exact ⟨node, rest, stack, found, accepted⟩

/-- The header of a submodule is all that takes a `belongs-to`. -/
theorem belongsTo_isPartBlock :
    IsPartBlock .belongsTo openBelongsTo closeBelongsTo where
  opens known ok := by
    simp only [openBelongsTo, bind_eq_ok_iff, pure_eq_ok_iff] at ok
    obtain ⟨module, read, _, checked, _, _, rfl⟩ := ok
    exact ⟨_, rfl, by simp [Statement.frame?, known, read, Except.toOption],
      rfl, by simp [Frame.kind], checked⟩
  closes known opening keeps stack built ok := by
    simp only [openBelongsTo, bind_eq_ok_iff] at opening
    obtain ⟨_, _, _, _, id, held, _⟩ := opening
    obtain ⟨node, rest, below, found, isSubmodule⟩ := holder_of_keeps held keeps
    simp only [closeBelongsTo, bind_eq_ok_iff] at ok
    obtain ⟨⟨declared, popped⟩, closed, filled⟩ := ok
    obtain ⟨content, rfl⟩ := closeFrame_of_stack stack closed
    split at content
    next declared' =>
      obtain rfl := Option.some.inj content
      simp only [fillHeader, rootHolder, bind_eq_ok_iff, pure_eq_ok_iff]
        at filled
      obtain ⟨id', held', rfl⟩ := filled
      obtain ⟨_, _, stack', -⟩ := nodeHolder_eq_ok held'
      obtain rfl := Frame.node.inj (List.cons.inj (below.symm.trans stack')).1
      refine fills_modifyConstruct (some (.belongsTo declared')) below found ?_
      cases construct : node.construct with
      | submodule header =>
          exact Construct.takes_part known built rfl rfl (fun _ => rfl) rfl rfl
      | _ => simp [SchemaNode.kind, construct, Construct.kind] at isSubmodule
    · simp at content

theorem argument_isPartBlock :
    IsPartBlock .argument openArgument closeArgument where
  opens known ok := by
    simp only [openArgument, bind_eq_ok_iff, pure_eq_ok_iff] at ok
    obtain ⟨name, read, _, checked, _, _, rfl⟩ := ok
    exact ⟨_, rfl, by simp [Statement.frame?, known, read, Except.toOption],
      rfl, by simp [Frame.kind], checked⟩
  closes known opening keeps stack built ok := by
    simp only [openArgument, bind_eq_ok_iff] at opening
    obtain ⟨_, _, _, _, id, held, _⟩ := opening
    obtain ⟨node, rest, below, found, isExtension⟩ := holder_of_keeps held keeps
    simp only [closeArgument, bind_eq_ok_iff] at ok
    obtain ⟨⟨declared, popped⟩, closed, top, isTop, ok⟩ := ok
    obtain ⟨content, rfl⟩ := closeFrame_of_stack stack closed
    split at content
    next declared' =>
      obtain rfl := Option.some.inj content
      obtain rfl : .node id = top := by
        simpa [below, FrameStack.top] using isTop
      obtain rfl := pure_eq_ok_iff.mp ok
      refine fills_modifyConstruct (some (.argument declared')) below found ?_
      cases construct : node.construct with
      | extension argument =>
          exact Construct.takes_part known built rfl rfl (fun _ => rfl) rfl rfl
      | _ => simp [SchemaNode.kind, construct, Construct.kind] at isExtension
    · simp at content

theorem must_isPartBlock : IsPartBlock .must openMust closeMust where
  opens {before opened _} known ok := by
    simp only [openMust, bind_eq_ok_iff] at ok
    obtain ⟨condition, read, _, checked, top, _, ok⟩ := ok
    have pushed : opened = before.push (.must ⟨condition, .empty⟩) := by
      split at ok
      · exact (pure_eq_ok_iff.mp ok).symm
      · simp only [bind_eq_ok_iff, pure_eq_ok_iff] at ok
        obtain ⟨_, _, pushed⟩ := ok
        exact pushed.symm
    exact ⟨_, pushed, by simp [Statement.frame?, known, read, Except.toOption],
      rfl, by simp [Frame.kind], checked⟩
  closes {before _ _ _ statement _} known opening keeps stack built ok := by
    simp only [openMust, bind_eq_ok_iff] at opening
    obtain ⟨_, _, _, _, holder, isHolder, opening⟩ := opening
    obtain ⟨rest, below⟩ := FrameStack.top_eq_ok isHolder
    simp only [closeMust, bind_eq_ok_iff] at ok
    obtain ⟨⟨condition, popped⟩, closed, top, isTop, ok⟩ := ok
    obtain ⟨content, rfl⟩ := closeFrame_of_stack stack closed
    obtain rfl : holder = top := by
      simpa [below, FrameStack.top] using isTop
    split at content
    next condition' =>
      obtain rfl := Option.some.inj content
      split at opening
      next changes =>
        obtain rfl := pure_eq_ok_iff.mp ok
        have stored : Frame.Takes statement (some (.must condition')) (.refine changes)
            (.refine
              { changes with musts := changes.musts ++ [condition'] }) := by
          refine Frame.takes_part known built rfl (fun value => ?_) rfl rfl
          simp [Frame.attributes, Attributes.put, Attribute.put,
            Attribute.documentation, Attribute.text]
        exact .frame below (by simp [below]) (fun _ => rfl) stored
      · simp only [bind_eq_ok_iff] at opening
        obtain ⟨id, held, _⟩ := opening
        obtain ⟨node, rest', below', found, accepted⟩ :=
          holder_of_keeps held keeps
        obtain rfl := (List.cons.inj (below.symm.trans below')).1
        obtain rfl := pure_eq_ok_iff.mp ok
        exact fills_modifyMetadata (some (.must condition')) below found
          (node.metadata.must_takes known built accepted)
          (by simp [known, metadataKeywords])
    · simp at content

theorem when_isPartBlock : IsPartBlock .when openWhen closeWhen where
  opens known ok := by
    simp only [openWhen, bind_eq_ok_iff, pure_eq_ok_iff] at ok
    obtain ⟨condition, read, _, checked, _, _, rfl⟩ := ok
    exact ⟨_, rfl, by simp [Statement.frame?, known, read, Except.toOption],
      rfl, by simp [Frame.kind], checked⟩
  closes known opening keeps stack built ok := by
    simp only [openWhen, bind_eq_ok_iff] at opening
    obtain ⟨_, _, _, _, id, held, _⟩ := opening
    obtain ⟨node, rest, below, found, accepted⟩ := holder_of_keeps held keeps
    simp only [closeWhen, bind_eq_ok_iff] at ok
    obtain ⟨⟨condition, popped⟩, closed, top, isTop, ok⟩ := ok
    obtain ⟨content, rfl⟩ := closeFrame_of_stack stack closed
    split at content
    next condition' =>
      obtain rfl := Option.some.inj content
      obtain rfl : .node id = top := by
        simpa [below, FrameStack.top] using isTop
      obtain rfl := pure_eq_ok_iff.mp ok
      exact fills_modifyMetadata (some (.when condition')) below found
        (node.metadata.when_takes known built accepted)
        (by simp [known, metadataKeywords])
    · simp at content

/-- A `uses` lists what a `refine` has built. -/
theorem addRefine_fills {draft : Draft} {id : NodeId} {rest : FrameStack}
    {node : SchemaNode} {changes : Refine} (known : statement.known = .refine)
    (built : Built statement (.refine changes))
    (stack : draft.stack = .node id :: rest)
    (found : draft.tree.node? id = some node)
    (isUses : (node.kind == .uses) = true) :
    draft.Fills statement <| draft.modifyConstruct id fun
      | .uses body => .uses { body with refines := body.refines ++ [changes] }
      | construct => construct := by
  refine fills_modifyConstruct (some (.refine changes)) stack found ?_
  cases construct : node.construct with
  | uses body =>
      refine Construct.takes_part known built rfl rfl (fun value => ?_) rfl rfl
      simp [Construct.attributes, Attributes.put]
  | _ => simp [SchemaNode.kind, construct, Construct.kind] at isUses

theorem refine_isPartBlock : IsPartBlock .refine openRefine closeRefine where
  opens known ok := by
    simp only [openRefine, bind_eq_ok_iff, pure_eq_ok_iff] at ok
    obtain ⟨_, _, _, checked, _, _, target, read, rfl⟩ := ok
    exact ⟨_, rfl, by simp [Statement.frame?, known, read, Except.toOption],
      rfl, by simp [Frame.kind], checked⟩
  closes known opening keeps stack built ok := by
    simp only [openRefine, bind_eq_ok_iff] at opening
    obtain ⟨_, _, _, _, id, held, _⟩ := opening
    obtain ⟨node, rest, below, found, isUses⟩ := holder_of_keeps held keeps
    simp only [closeRefine, bind_eq_ok_iff] at ok
    obtain ⟨⟨changes, popped⟩, closed, ok⟩ := ok
    obtain ⟨content, rfl⟩ := closeFrame_of_stack stack closed
    split at content
    next changes' =>
      obtain rfl := Option.some.inj content
      -- The check of the bounds comes first and changes nothing.
      split at ok
      · obtain ⟨_, _, top, isTop, ok⟩ := by
          simpa only [bind_eq_ok_iff] using ok
        obtain rfl : .node id = top := by
          simpa [below, FrameStack.top] using isTop
        obtain rfl := pure_eq_ok_iff.mp ok
        exact addRefine_fills known built below found isUses
      · obtain ⟨top, isTop, ok⟩ := bind_eq_ok_iff.mp ok
        obtain rfl : .node id = top := by
          simpa [below, FrameStack.top] using isTop
        obtain rfl := pure_eq_ok_iff.mp ok
        exact addRefine_fills known built below found isUses
    · simp at content

theorem range_isPartBlock : IsPartBlock .range openRange closeRange where
  opens known ok := by
    simp only [openRange, bind_eq_ok_iff, pure_eq_ok_iff] at ok
    obtain ⟨intervals, read, _, checked, _, _, rfl⟩ := ok
    exact ⟨_, rfl, by simp [Statement.frame?, known, read, Except.toOption],
      rfl, by simp [Frame.kind], checked⟩
  closes known _ _ stack built ok := by
    simp only [closeRange, bind_eq_ok_iff] at ok
    obtain ⟨⟨restriction, popped⟩, closed, filled⟩ := ok
    obtain ⟨content, rfl⟩ := closeFrame_of_stack stack closed
    split at content
    next restriction' =>
      obtain rfl := Option.some.inj content
      exact fillType_fills filled fun _ =>
        Frame.takes_part known built rfl (fun _ => rfl) rfl rfl
    · simp at content

theorem length_isPartBlock : IsPartBlock .length openLength closeLength where
  opens known ok := by
    simp only [openLength, bind_eq_ok_iff, pure_eq_ok_iff] at ok
    obtain ⟨intervals, read, _, checked, _, _, rfl⟩ := ok
    exact ⟨_, rfl, by simp [Statement.frame?, known, read, Except.toOption],
      rfl, by simp [Frame.kind], checked⟩
  closes known _ _ stack built ok := by
    simp only [closeLength, bind_eq_ok_iff] at ok
    obtain ⟨⟨restriction, popped⟩, closed, filled⟩ := ok
    obtain ⟨content, rfl⟩ := closeFrame_of_stack stack closed
    split at content
    next restriction' =>
      obtain rfl := Option.some.inj content
      exact fillType_fills filled fun _ =>
        Frame.takes_part known built rfl (fun _ => rfl) rfl rfl
    · simp at content

theorem pattern_isPartBlock :
    IsPartBlock .pattern openPattern closePattern where
  opens known ok := by
    simp only [openPattern, bind_eq_ok_iff, pure_eq_ok_iff] at ok
    obtain ⟨regex, read, _, checked, _, _, rfl⟩ := ok
    exact ⟨_, rfl, by simp [Statement.frame?, known, read, Except.toOption],
      rfl, by simp [Frame.kind], checked⟩
  closes known _ _ stack built ok := by
    simp only [closePattern, bind_eq_ok_iff] at ok
    obtain ⟨⟨restriction, popped⟩, closed, filled⟩ := ok
    obtain ⟨content, rfl⟩ := closeFrame_of_stack stack closed
    split at content
    next restriction' =>
      obtain rfl := Option.some.inj content
      refine fillType_fills filled fun _ =>
        Frame.takes_part known built rfl (fun value => ?_) rfl rfl
      simp [Frame.attributes, Attributes.put, Attribute.put, Attribute.text]
    · simp at content

/-- The member that is appended differs from the one that was read in its number
at most, and only if it declares none. -/
theorem appendMember_eq_ok {numbering : Numbering}
    {members members' : List NumberedMember} {member : NumberedMember}
    (ok : appendMember statement numbering members member = .ok members') :
    ∃ number, members' = members ++ [{ member with number }] ∧
      (member.explicit = true → number = member.number) := by
  simp only [appendMember, Numbering.append] at ok
  cases numbered : numbering.number members member with
  | error error => simp [numbered, Except.map, Except.mapError] at ok
  | ok number =>
      simp only [numbered, Except.map, Except.mapError, Except.ok.injEq] at ok
      refine ⟨number, ok.symm, fun explicit => ?_⟩
      unfold Numbering.number at numbered
      split at numbered <;> grind

theorem enum_isPartBlock : IsPartBlock .enum openEnum closeEnum where
  opens known ok := by
    simp only [openEnum, bind_eq_ok_iff, pure_eq_ok_iff] at ok
    obtain ⟨name, read, _, checked, _, _, _, _, rfl⟩ := ok
    exact ⟨_, rfl, by simp [Statement.frame?, known, read, Except.toOption],
      rfl, by simp [Frame.kind], checked⟩
  closes {_ _ _ _ statement _} known _ _ stack built ok := by
    simp only [closeEnum, bind_eq_ok_iff] at ok
    obtain ⟨⟨member, popped⟩, closed, parent, held, ok⟩ := ok
    obtain ⟨content, rfl⟩ := closeFrame_of_stack stack closed
    obtain ⟨kind, rest, below, is, isEnumeration⟩ := nodeHolder_eq_ok held
    obtain ⟨node, found, rfl⟩ := Option.map_eq_some_iff.mp is
    split at content
    next member' =>
      obtain rfl := Option.some.inj content
      cases construct : node.construct with
      | enumeration members =>
          have holds := SchemaTree.construct?_eq_some_iff.mpr
            ⟨node, found, construct⟩
          rw [holds] at ok
          simp only [bind_eq_ok_iff, pure_eq_ok_iff] at ok
          obtain ⟨members', appended, rfl⟩ := ok
          obtain ⟨number, rfl, explicit⟩ := appendMember_eq_ok appended
          have numbered : Built statement (.enum { member' with number }) := by
            refine built.of_same rfl ?_
            simp only [Frame.attributes, NumberedMember.attributes]
            split <;> simp_all
          refine fills_modifyConstruct (some (.enum { member' with number }))
            below found ?_
          rw [construct]
          refine Construct.takes_part known numbered rfl rfl (fun value => ?_)
            rfl rfl
          simp [Construct.attributes, Attributes.put]
      | _ => simp [SchemaNode.kind, construct, Construct.kind] at isEnumeration
    · simp at content

theorem bit_isPartBlock : IsPartBlock .bit openBit closeBit where
  opens known ok := by
    simp only [openBit, bind_eq_ok_iff, pure_eq_ok_iff] at ok
    obtain ⟨name, read, _, checked, _, _, _, _, rfl⟩ := ok
    exact ⟨_, rfl, by simp [Statement.frame?, known, read, Except.toOption],
      rfl, by simp [Frame.kind], checked⟩
  closes {_ _ _ _ statement _} known _ _ stack built ok := by
    simp only [closeBit, bind_eq_ok_iff] at ok
    obtain ⟨⟨member, popped⟩, closed, parent, held, ok⟩ := ok
    obtain ⟨content, rfl⟩ := closeFrame_of_stack stack closed
    obtain ⟨kind, rest, below, is, isBits⟩ := nodeHolder_eq_ok held
    obtain ⟨node, found, rfl⟩ := Option.map_eq_some_iff.mp is
    split at content
    next member' =>
      obtain rfl := Option.some.inj content
      cases construct : node.construct with
      | bits members =>
          have holds := SchemaTree.construct?_eq_some_iff.mpr
            ⟨node, found, construct⟩
          rw [holds] at ok
          simp only [bind_eq_ok_iff, pure_eq_ok_iff] at ok
          obtain ⟨members', appended, rfl⟩ := ok
          obtain ⟨number, rfl, explicit⟩ := appendMember_eq_ok appended
          have numbered : Built statement (.bit { member' with number }) := by
            refine built.of_same rfl ?_
            simp only [Frame.attributes, NumberedMember.attributes]
            split <;> simp_all
          refine fills_modifyConstruct (some (.bit { member' with number }))
            below found ?_
          rw [construct]
          refine Construct.takes_part known numbered rfl rfl (fun value => ?_)
            rfl rfl
          simp [Construct.attributes, Attributes.put]
      | _ => simp [SchemaNode.kind, construct, Construct.kind] at isBits
    · simp at content

end Draft

end YangSchema
