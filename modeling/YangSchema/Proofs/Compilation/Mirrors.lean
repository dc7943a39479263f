import YangSchema.Proofs.Compilation.Stages
import YangSchema.Proofs.Draft.Mirrored

/-!
# A source that has been read mirrors its statements

A source that is read without an error holds one unit, and around it extensions
only.  The unit is the first node, so its statements become the nodes of the
tree.  Linking the unit writes links and nothing that the statements say.
-/

namespace YangSchema

variable {statement : Statement} {statements : List Statement}

theorem SchemaNode.kind_unlinked (node : SchemaNode) :
    node.unlinked.kind = node.kind := by
  unfold kind unlinked
  cases node.construct <;> rfl

theorem Construct.config?_unlinked (construct : Construct) :
    construct.unlinked.config? = construct.config? := by
  cases construct <;> rfl

namespace SchemaTree

variable {tree before after : SchemaTree} {start : NodeId}
  {introductions : List Introduction}

theorem LinksFurther.config? (further : before.LinksFurther after)
    (id : NodeId) : after.config? id = before.config? id := by
  have same := congrArg (Option.bind · (·.construct.config?)) (further.nodes id)
  simpa [SchemaTree.config?, construct?, Option.bind_map, Function.comp_def,
    SchemaNode.unlinked, Construct.config?_unlinked] using same

theorem LinksFurther.keeps (further : before.LinksFurther after) :
    before.Keeps after := by
  refine ⟨further.source, fun {id node} found => ?_⟩
  have same := further.nodes id
  rw [found, Option.map_some] at same
  obtain ⟨node', found', same⟩ := Option.map_eq_some_iff.mp same
  refine ⟨node', found', ?_, congrArg (·.name) same, congrArg (·.ancestors) same⟩
  rw [← node'.kind_unlinked, same, node.kind_unlinked]

/-- What the statements say is not linked away. -/
theorem Mirrors.linksFurther (mirrors : before.Mirrors start introductions)
    (further : before.LinksFurther after) :
    after.Mirrors start introductions where
  size := by
    refine Eq.trans ?_ mirrors.size
    refine Nat.le_antisymm ?_ ?_
    · refine Nat.le_of_not_lt fun longer => ?_
      have found : after.node? before.size = some after.nodes[before.size] :=
        Array.getElem?_eq_getElem longer
      have same := further.nodes before.size
      simp [found, node?_size] at same
    · refine Nat.le_of_not_lt fun longer => ?_
      have found : before.node? after.size = some before.nodes[after.size] :=
        Array.getElem?_eq_getElem longer
      have same := further.nodes after.size
      simp [found, node?_size] at same
  node index introduction listed := by
    obtain ⟨node, found, introduced, stores⟩ :=
      mirrors.node index introduction listed
    have same := further.nodes (start + index)
    rw [found, Option.map_some] at same
    obtain ⟨node', found', same⟩ := Option.map_eq_some_iff.mp same
    have ancestors : node'.ancestors = node.ancestors :=
      congrArg (·.ancestors) same
    refine ⟨node', found', ⟨?_, ?_, ?_, ?_, ?_⟩, ?_, fun config declared => ?_⟩
    · exact (congrArg (·.name) same).trans introduced.name
    · rw [← node'.kind_unlinked, same, node.kind_unlinked, introduced.kind]
    · exact (congrArg (·.position) same).trans introduced.position
    · exact (congrArg (·.span) same).trans introduced.span
    · rw [ancestors, introduced.parent]
    · rw [← node'.attributes_unlinked, same, node.attributes_unlinked]
      exact stores.obeys
    · rw [ancestors, configAmong_congr fun id _ => further.config? id]
      refine stores.config config ?_
      rw [← Construct.config?_unlinked] at declared ⊢
      rwa [← show node'.construct.unlinked = node.construct.unlinked from
        congrArg (·.construct) same]

/-- All nodes of a tree that mirrors some introductions, in their order. -/
theorem Mirrors.forall₂ (mirrors : tree.Mirrors 0 introductions) :
    List.Forall₂ (fun node introduction => node.IsIntroduced introduction ∧
      tree.Stores introduction.statement node) tree.nodes.toList
        introductions := by
  have length : tree.nodes.toList.length = introductions.length := by
    simpa [SchemaTree.size] using mirrors.size
  refine List.forall₂_iff_get.mpr ⟨length, fun index inside inside' => ?_⟩
  obtain ⟨node, found, mirrored⟩ := mirrors.node index introductions[index]
    (List.getElem?_eq_getElem inside')
  rw [Nat.zero_add, node?, ← Array.getElem?_toList,
    List.getElem?_eq_getElem inside, Option.some.injEq] at found
  subst found
  exact mirrored

/-- Each node of a tree that mirrors some introductions has been introduced. -/
theorem Mirrors.exists_introduction (mirrors : tree.Mirrors 0 introductions)
    {id : NodeId} {node : SchemaNode} (found : tree.node? id = some node) :
    ∃ introduction, introductions[id]? = some introduction ∧
      node.IsIntroduced introduction ∧
        tree.Stores introduction.statement node := by
  have within := lt_size_of_node? found
  rw [mirrors.size, Nat.zero_add] at within
  obtain ⟨introduction, listed⟩ : ∃ introduction,
      introductions[id]? = some introduction :=
    ⟨_, List.getElem?_eq_getElem within⟩
  obtain ⟨node', found', mirrored⟩ := mirrors.node id introduction listed
  rw [Nat.zero_add] at found'
  obtain rfl := Option.some.inj (found.symm.trans found')
  exact ⟨introduction, listed, mirrored⟩

end SchemaTree

namespace Draft

variable {draft : Draft}

/-- Linking a unit that has been read takes it further. -/
theorem IsFinished.asUnit_linksFurther (finished : draft.IsFinished) :
    draft.asUnit.LinksFurther draft.linkInside.asUnit := by
  have tidy : Linking.Moment.IsTidy ⟨[draft.asUnit], []⟩ :=
    Linking.Moment.isTidy_of_units fun unit member _ => by
      obtain rfl := List.mem_singleton.mp member
      exact finished.isTidy.1
  obtain ⟨-, further⟩ := (Linking.link_steps .intraFile _).keeps tidy
  rw [(asUnit_linkInside draft).1] at further
  obtain ⟨linked, found, further⟩ := further.unit
    (show [draft.asUnit][0]? = some draft.asUnit from rfl)
  obtain rfl : draft.linkInside.asUnit = linked := Option.some.inj found
  exact further

theorem IsFinished.linksFurther (finished : draft.IsFinished) :
    draft.tree.LinksFurther draft.linkInside.tree :=
  finished.asUnit_linksFurther.tree

/-- A unit in which nothing has been stored yet. -/
theorem role_unit_isInitial
    (unit : statement.known ∈ [Keyword.module, .submodule]) :
    ∃ construct : Construct,
      role statement.known = .block (openUnit construct) closeUnit ∧
        statement.known.introduces? = some construct.kind ∧
        construct.attributes.IsInitial ∧ construct.config? = none ∧
        (construct.attributes.append
          (Metadata.empty.attributes construct.kind)).singleKeywords.all
            (Cardinality.boundsOnce statement.known) = true := by
  obtain known | known : statement.known = .module ∨
      statement.known = .submodule := by simpa using unit
  all_goals
    rw [known]
    exact ⟨_, rfl, rfl, isInitial_of_check rfl rfl rfl, rfl, rfl⟩

/-- The unit itself is the first node. -/
theorem unit_mirrors {opened inner : Draft} {openBlock closeBlock : Step}
    (unit : statement.known ∈ [Keyword.module, .submodule])
    (isBlock : role statement.known = .block openBlock closeBlock)
    (sound : draft.IsSound) (opening : openBlock draft statement = .ok opened)
    (inside : opened.Mirrors statement.substatements inner)
    (earlier : List Statement) :
    inner.tree.Mirrors 0 (Statement.introductions none earlier 0 statement) := by
  obtain ⟨construct, isUnit, introduces, initial, silent, bounded⟩ :=
    role_unit_isInitial unit
  obtain ⟨rfl, -⟩ := Role.block.inj (isBlock.symm.trans isUnit)
  obtain ⟨name, read, checked, -, empty, rfl⟩ := openUnit_eq_ok opening
  have named : statement.known ∉ [Keyword.input, .output] := by
    rcases List.mem_cons.mp unit with known | known <;> simp_all
  have introduced := introduces?_of_argument introduces rfl named
    (Statement.identifierArgument_eq_ok read) none earlier
  rw [Statement.introductions_of_some introduced]
  let root := SchemaNode.ofConstruct construct name statement.position
    statement.headSpan
  have size : (draft.tree.addRoot root).size = rootId + 1 := by
    rw [SchemaTree.size_addRoot, empty]
  have found := draft.tree.node?_addRoot root rootId
  rw [if_pos empty.symm] at found
  refine mirrors_of_opened rfl size found (sound.nested.addRoot root)
    (isInitial_append initial (isInitial_metadata _))
    (fun keyword listed => ?_) (fun config declared => ?_) rfl rfl inside
  · exact Cardinality.findAll_le_one checked
      (List.all_eq_true.mp bounded keyword listed)
  · simp [root, SchemaNode.ofConstruct, silent] at declared

/-- A unit that is read mirrors its statement, also when it has been linked. -/
theorem read_unit_mirrors
    (unit : statement.known ∈ [Keyword.module, .submodule])
    (sound : draft.IsSound) (unlinked : draft.IsUnlinked)
    (whole : (read draft statement).error = none) (earlier : List Statement) :
    (read draft statement).draft.tree.Mirrors 0
      (Statement.introductions none earlier 0 statement) := by
  obtain ⟨construct, isBlock, bare, named, -, complete⟩ := role_unit unit
  rw [read_of_block isBlock] at whole ⊢
  obtain ⟨opening, whole, same⟩ := Progress.andThen_error whole
  obtain ⟨inside, closing, same'⟩ := Progress.andThen_error whole
  rw [same, same']
  have ok := Progress.ofStep_error opening
  obtain ⟨-, -, ⟨root, stack⟩, finished⟩ := readAll_unit unit isBlock sound
    unlinked ok inside
  rw [closeUnit_eq_ok stack (Progress.ofStep_error closing)]
  refine SchemaTree.Mirrors.linksFurther ?_ finished.linksFurther
  obtain ⟨frame, -, opens⟩ := openUnit_opens bare named complete ok
  exact unit_mirrors unit isBlock sound ok
    (readAll_mirrors (opens.sound sound) (by simp [opens.stack]) inside) earlier

/-- A file that is read without an error mirrors its statements. -/
theorem readTopLevel_mirrors (sound : draft.IsSound)
    (unlinked : draft.IsUnlinked)
    (whole : (readTopLevel draft false statements).error = none)
    (earlier : List Statement) :
    (readTopLevel draft false statements).draft.tree.Mirrors 0
      (Statement.introductionsAll none earlier 0 statements) := by
  obtain ⟨before, unit, reads⟩ := exists_readsUnit sound unlinked whole
  obtain ⟨front, back, rfl, foreign⟩ := reads.around
  obtain ⟨inFront, behind⟩ := List.forall_mem_append.mp foreign
  have seen : (readTopLevel draft false (front ++ unit :: back)).draft.tree =
      (read before unit).draft.tree := congrArg (·.tree) reads.ends
  rw [seen, Statement.introductionsAll_behind inFront,
    Statement.introductionsAll,
    Statement.introductionsAll_of_extensions behind, List.append_nil]
  exact read_unit_mirrors reads.isUnit reads.sound reads.unlinked reads.whole _

end Draft

namespace Analysis

variable {source : SourceId}

theorem ofStatements_mirrors
    (whole : (ofStatements source statements).failed = false) :
    (ofStatements source statements).tree.Mirrors 0
      (Statement.introductionsAll none [] 0 statements) :=
  Draft.readTopLevel_mirrors (.empty source) (.empty source)
    (by simpa [ofStatements] using whole) []

/-- Each node holds what the sub-statements of its statement say:  no value is
given twice, and one that is not given is still the initial one. -/
theorem nodes_hold_substatements
    (whole : (ofStatements source statements).failed = false) :
    let tree := (ofStatements source statements).tree
    List.Forall₂
      (fun node introduction => tree.Stores introduction.statement node)
      tree.nodes.toList (Statement.introductionsAll none [] 0 statements) :=
  (ofStatements_mirrors whole).forall₂.imp fun _ _ => And.right

/-- A list of which some attributes are given and others are not. -/
theorem nodes_hold_substatements_list :
    ∃ parsed, parse .standard 0
        ("module m \x7b namespace \"u:m\"; prefix m; " ++
          "list l \x7b key k; config false; max-elements 3; " ++
          "leaf k \x7b type string \x7b length \"1..9\" " ++
          "\x7b error-message \"no\"; \x7d \x7d \x7d \x7d \x7d") =
            .ok parsed ∧
      let statements := Statement.ofTree parsed.tree
      let tree := (ofStatements 0 statements).tree
      tree.nodes.toList.map (·.kind) = [.module, .list, .leaf] ∧
      List.Forall₂
        (fun node introduction => tree.Stores introduction.statement node)
        tree.nodes.toList
        (Statement.introductionsAll none [] 0 statements) := by
  generalize written : (_ ++ _ : String) = text
  have checked : (parse .standard 0 text).toOption.any (fun parsed =>
      let analysis := ofStatements 0 (Statement.ofTree parsed.tree)
      !analysis.failed && analysis.tree.nodes.toList.map (·.kind) ==
        [.module, .list, .leaf]) = true := by
    subst written
    decide +kernel
  cases parsing : parse .standard 0 text with
  | error error => simp [parsing, Except.toOption] at checked
  | ok parsed =>
      simp only [parsing, Except.toOption, Option.any_some, Bool.and_eq_true,
        Bool.not_eq_true', beq_iff_eq] at checked
      obtain ⟨whole, listed⟩ := checked
      exact ⟨parsed, rfl, listed, nodes_hold_substatements whole⟩

end Analysis

end YangSchema
