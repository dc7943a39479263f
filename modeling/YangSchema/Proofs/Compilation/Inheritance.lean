import YangSchema.Proofs.Compilation.Phases
import YangSchema.Proofs.Draft.Inheriting

/-!
# The config of every node

A source that is read without an error contradicts nothing that is inherited, so
in its tree no node is configurable inside one that is not.  Linking writes links
only, so the config of a node stays what it was when the node was opened.
-/

namespace YangSchema

namespace SchemaTree

variable {tree : SchemaTree} {start id : NodeId}

/-- The nodes around a statement, from the inside out. -/
def enclosing (tree : SchemaTree) : Option Surrounding → List NodeId
  | some around => around.node :: tree.ancestors around.node
  | none => []

/-- From some number on, nodes of a tree are those that are introduced. -/
def Shows (tree : SchemaTree) (start : NodeId)
    (introductions : List Introduction) : Prop :=
  ∀ index introduction, introductions[index]? = some introduction →
    ∃ node, tree.node? (start + index) = some node ∧
      node.IsIntroduced introduction ∧ tree.Stores introduction.statement node

theorem LinksFurther.ancestors {before after : SchemaTree}
    (further : before.LinksFurther after) (id : NodeId) :
    after.ancestors id = before.ancestors id := by
  have same := congrArg (·.map (·.ancestors)) (further.nodes id)
  unfold SchemaTree.ancestors
  cases found : before.node? id <;> cases found' : after.node? id <;>
    simp_all [SchemaNode.unlinked]

/-- A node can be configured only where this is inherited. -/
def IsSettled (tree : SchemaTree) (id : NodeId) : Prop :=
  ∀ config, tree.config? id = some config → config.value = true →
    tree.configAmong (tree.ancestors id) = true

theorem Shows.append {first second : List Introduction}
    (shows : tree.Shows start (first ++ second)) :
    tree.Shows start first ∧ tree.Shows (start + first.length) second := by
  constructor
  · intro index introduction listed
    exact shows index introduction
      (List.getElem?_append_left (List.getElem?_eq_some_iff.mp listed).1 ▸ listed)
  · intro index introduction listed
    rw [Nat.add_assoc]
    refine shows _ introduction ?_
    rw [List.getElem?_append_right (Nat.le_add_right ..), Nat.add_sub_cancel_left,
      listed]

theorem Shows.cons {introduction : Introduction} {rest : List Introduction}
    (shows : tree.Shows start (introduction :: rest)) :
    (∃ node, tree.node? start = some node ∧ node.IsIntroduced introduction ∧
      tree.Stores introduction.statement node) ∧ tree.Shows (start + 1) rest := by
  obtain ⟨first, others⟩ := @Shows.append _ _ [introduction] rest shows
  exact ⟨first 0 introduction rfl, others⟩

/-- What is around an introduced node. -/
theorem ancestors_of_isIntroduced (nested : tree.IsNested) {node : SchemaNode}
    {introduction : Introduction} {around : Option Surrounding}
    (found : tree.node? id = some node)
    (introduced : node.IsIntroduced introduction)
    (inside : introduction.parent = around.map (·.node)) :
    tree.ancestors id = tree.enclosing around := by
  have parent := introduced.parent.trans inside
  have own : tree.ancestors id = node.ancestors := by rw [ancestors, found]
  rw [own]
  cases around with
  | none => exact List.head?_eq_none_iff.mp parent
  | some holder =>
      obtain ⟨rest, around⟩ := List.head?_eq_some_iff.mp parent
      rw [around, (nested id node found _ _ around).2]
      rfl

/-- What stands inside an introduced node inherits its config, if it has one. -/
theorem configAmong_of_isIntroduced {statement : Statement} {node : SchemaNode}
    {kind : ConstructKind} {name : String} {around : Option Surrounding}
    {earlier : List Statement}
    (introduced : statement.introduces? around earlier = some (kind, name))
    (found : tree.node? id = some node) (isKind : node.kind = kind)
    (stores : tree.Stores statement node) :
    tree.configAmong (id :: tree.ancestors id) =
      statement.configBelow (tree.configAmong (tree.ancestors id)) := by
  have own : tree.ancestors id = node.ancestors := by rw [ancestors, found]
  have config : tree.config? id = node.construct.config? := by
    rw [config?, construct?, found]
    rfl
  have bears := node.construct.isSome_config?
  rw [show node.construct.kind = kind from isKind,
    Statement.bearsConfig_of_introduces? introduced] at bears
  rw [configAmong, List.findSome?_cons, config]
  cases declared : node.construct.config? with
  | none =>
      rw [declared] at bears
      rw [Statement.configBelow_of_bare bears.symm]
      rfl
  | some config =>
      rw [declared] at bears
      rw [own, Statement.configBelow_of_configures bears.symm
        (stores.config config declared)]

/-- A node that contradicts nothing can be configured only where this is
inherited. -/
theorem isSettled_of_stores {statement : Statement} {node : SchemaNode}
    (bears : node.kind.bearsConfig = statement.known.bearsConfig)
    (found : tree.node? id = some node) (stores : tree.Stores statement node)
    (agrees : ¬ statement.Contradicts
      (tree.configAmong (tree.ancestors id))) : tree.IsSettled id := by
  intro config declared value
  have own : tree.ancestors id = node.ancestors := by rw [ancestors, found]
  have config : node.construct.config? = some config := by
    rw [config?, construct?, found] at declared
    exact declared
  have isSome := node.construct.isSome_config?
  rw [config, show node.construct.kind = node.kind from rfl, bears] at isSome
  have configures := stores.config _ config
  rw [← own] at configures
  by_contra other
  rw [Bool.not_eq_true] at other
  rw [other] at configures agrees
  exact agrees (Statement.contradicts_of_configures isSome.symm configures value)

end SchemaTree

namespace Statement

open SchemaTree (Shows)

variable {tree : SchemaTree}

mutual

/-- What a statement introduces can be configured only where this is inherited,
if nothing in the statement contradicts what is inherited around it. -/
theorem isSettled_of_introductions (nested : tree.IsNested)
    (around : Option Surrounding) (earlier : List Statement) (next : NodeId) :
    (statement : Statement) →
    tree.Shows next (introductions around earlier next statement) →
    ¬ statement.Contradicts (tree.configAmong (tree.enclosing around)) →
    ∀ index < (introductions around earlier next statement).length,
      tree.IsSettled (next + index)
  | ⟨keyword, argument, span, block, substatements⟩, shows, agrees => by
      generalize is :
        (⟨keyword, argument, span, block, substatements⟩ : Statement) =
          statement at shows agrees ⊢
      have inside : statement.substatements = substatements := by rw [← is]
      by_cases extension : statement.known = .extensionInstance
      · rw [introductions_of_extension extension]
        exact fun index absent => absurd absent (Nat.not_lt_zero index)
      have agree (part : Statement) (listed : part ∈ substatements) :
          ¬ part.Contradicts (statement.configBelow
            (tree.configAmong (tree.enclosing around))) := fun contradicts =>
        agrees (.inside extension (inside ▸ listed) contradicts)
      cases introduced : statement.introduces? around earlier with
      | none =>
          rw [introductions_of_none extension introduced, inside] at shows ⊢
          have same :
              statement.configBelow (tree.configAmong (tree.enclosing around)) =
                tree.configAmong (tree.enclosing around) :=
            configBelow_of_bare (bearsConfig_of_bare introduced)
          exact isSettled_of_introductionsAll nested around [] next substatements
            shows fun part listed => same ▸ agree part listed
      | some introduction =>
          obtain ⟨kind, name⟩ := introduction
          rw [introductions_of_some introduced, inside] at shows ⊢
          obtain ⟨⟨node, found, isIntroduced, stores⟩, shows⟩ := shows.cons
          have around' := SchemaTree.ancestors_of_isIntroduced nested found
            isIntroduced rfl
          rw [← around'] at agree agrees
          intro index within
          cases index with
          | zero =>
              exact SchemaTree.isSettled_of_stores
                (isIntroduced.kind ▸ bearsConfig_of_introduces? introduced) found
                stores agrees
          | succ index =>
              have settled := isSettled_of_introductionsAll nested
                (some ⟨next, name, kind⟩) [] (next + 1) substatements shows
                (fun part listed => by
                  rw [SchemaTree.enclosing, SchemaTree.configAmong_of_isIntroduced
                    introduced found isIntroduced.kind stores]
                  exact agree part listed)
              rw [Nat.add_comm index, ← Nat.add_assoc]
              exact settled index (Nat.lt_of_succ_lt_succ within)

theorem isSettled_of_introductionsAll (nested : tree.IsNested)
    (around : Option Surrounding) (earlier : List Statement) (next : NodeId) :
    (statements : List Statement) →
    tree.Shows next (introductionsAll around earlier next statements) →
    (∀ statement ∈ statements,
      ¬ statement.Contradicts (tree.configAmong (tree.enclosing around))) →
    ∀ index < (introductionsAll around earlier next statements).length,
      tree.IsSettled (next + index)
  | [], _, _ => fun index absent => absurd absent (Nat.not_lt_zero index)
  | statement :: rest, shows, agree => by
      obtain ⟨first, others⟩ := List.forall_mem_cons.mp agree
      rw [introductionsAll] at shows ⊢
      obtain ⟨shows, shows'⟩ := shows.append
      intro index inside
      by_cases early : index < (introductions around earlier next statement).length
      · exact isSettled_of_introductions nested around earlier next statement shows
          first index early
      · have settled := isSettled_of_introductionsAll nested around _ _ rest shows'
          others (index - (introductions around earlier next statement).length)
        rw [List.length_append] at inside
        rw [Nat.add_assoc, Nat.add_sub_cancel' (Nat.le_of_not_lt early)] at settled
        exact settled (by omega)

end

end Statement

namespace SchemaTree

variable {tree : SchemaTree}

/-- If each node is settled, then all around a node that can be configured can be
configured, too. -/
theorem value_of_configAmong (nested : tree.IsNested)
    (settled : ∀ id, id < tree.size → tree.IsSettled id) {id : NodeId}
    (inherited : tree.configAmong (id :: tree.ancestors id) = true) :
    ∀ around ∈ id :: tree.ancestors id, ∀ config,
      tree.config? around = some config → config.value = true := by
  induction id using Nat.strongRecOn with
  | ind id ih =>
      have outer : tree.configAmong (tree.ancestors id) = true := by
        cases declared : tree.config? id with
        | none =>
            rw [configAmong, List.findSome?_cons, declared] at inherited
            exact inherited
        | some config =>
            have within : id < tree.size := by
              obtain ⟨construct, known, -⟩ := Option.bind_eq_some_iff.mp declared
              obtain ⟨node, found, -⟩ := construct?_eq_some_iff.mp known
              exact lt_size_of_node? found
            refine settled id within config declared ?_
            rw [configAmong, List.findSome?_cons, declared] at inherited
            exact inherited
      intro around listed config declared
      obtain rfl | listed := List.mem_cons.mp listed
      · rw [configAmong, List.findSome?_cons, declared] at inherited
        exact inherited
      obtain ⟨parent, rest, above⟩ :=
        List.exists_cons_of_ne_nil (List.ne_nil_of_mem listed)
      obtain ⟨node, found, own⟩ : ∃ node, tree.node? id = some node ∧
          node.ancestors = parent :: rest := by
        unfold ancestors at above
        split at above
        next node found => exact ⟨node, found, above⟩
        · simp at above
      obtain ⟨before, rfl⟩ := nested id node found parent rest own
      rw [above] at outer listed
      exact ih parent before outer around listed config declared

/-- Each node that has a config has the one that its statement declares, or that
of the innermost node around with one.  None can be configured inside one that
cannot. -/
structure InheritsConfig (tree : SchemaTree)
    (introductions : List Introduction) : Prop where
  settled : ∀ id node, tree.node? id = some node →
    node.kind.bearsConfig = true → ∃ introduction config,
      introductions[id]? = some introduction ∧
      node.IsIntroduced introduction ∧ tree.config? id = some config ∧
      introduction.statement.Configures (tree.configAmong node.ancestors) config
  monotone : ∀ id around config outer, around ∈ tree.ancestors id →
    tree.config? id = some config → tree.config? around = some outer →
      config.value = true → outer.value = true

end SchemaTree

namespace Analysis

variable {source : SourceId} {statements : List Statement}

theorem ofStatements_isNested
    (whole : (ofStatements source statements).failed = false) :
    (ofStatements source statements).tree.IsNested := by
  obtain ⟨draft, finished, -, linked⟩ := LinkUnit.ofAnalysis_linkInside whole
  have same : (ofStatements source statements).tree = draft.linkInside.tree :=
    congrArg (·.tree) linked
  rw [same]
  exact (finished.linkInside_isConnected.units _ (List.mem_singleton_self _)
    rfl).nested

theorem ofStatements_agrees
    (whole : (ofStatements source statements).failed = false) :
    ∀ statement ∈ statements, ¬ statement.Contradicts true :=
  Draft.readTopLevel_agrees (.empty source) (.empty source)
    (by simpa [ofStatements] using whole)

theorem ofStatements_inheritsConfig
    (whole : (ofStatements source statements).failed = false) :
    (ofStatements source statements).tree.InheritsConfig
      (Statement.introductionsAll none [] 0 statements) := by
  have mirrors := ofStatements_mirrors whole
  have nested := ofStatements_isNested whole
  have agrees := ofStatements_agrees whole
  generalize (ofStatements source statements).tree = tree at mirrors nested ⊢
  have settled : ∀ id, id < tree.size → tree.IsSettled id := by
    intro id within
    have all := Statement.isSettled_of_introductionsAll nested none [] 0
      statements mirrors.node agrees id
      (by rwa [mirrors.size, Nat.zero_add] at within)
    rwa [Nat.zero_add] at all
  refine ⟨fun id node found bears => ?_, fun id around config outer inside
    declared declared' value => ?_⟩
  · obtain ⟨introduction, listed, introduced, stores⟩ :=
      mirrors.exists_introduction found
    have isSome := node.construct.isSome_config?
    rw [show node.construct.kind = node.kind from rfl, bears] at isSome
    obtain ⟨config, declared⟩ := Option.isSome_iff_exists.mp isSome
    refine ⟨introduction, config, listed, introduced, ?_,
      stores.config config declared⟩
    rw [SchemaTree.config?, SchemaTree.construct?, found]
    exact declared
  · refine tree.value_of_configAmong nested settled ?_ around
      (List.mem_cons_of_mem id inside) outer declared'
    rw [SchemaTree.configAmong, List.findSome?_cons, declared]
    exact value

end Analysis

namespace Compilation

theorem ofParsed_linksFurther (parsed : ParsedSources) :
    Linking.LinksFurther (ofParsed parsed).units
      (ofParsed parsed).linked.units := by
  have whole : ∀ unit ∈ (ofParsed parsed).units, unit.usable = true →
      unit.IsTidy ∧ unit.IsDetached := by
    intro unit member usable
    obtain ⟨draft, finished, rfl⟩ := ofParsed_isFinished parsed member usable
    exact ⟨finished.isPrepared.2.isTidy, finished.isPrepared.2.detached⟩
  obtain ⟨tidy, bound⟩ := Linking.bindSources_keeps whole
  exact bound.trans (Linking.Moment.Steps.keeps
    (Linking.link_steps .interFile _) (Linking.Moment.isTidy_of_units tidy)).2

/-- Every unit is what a source has been read as, linked further. -/
theorem exists_analysis {parsed : ParsedSources} {place : Nat} {unit : LinkUnit}
    (known : (ofParsed parsed).linked.units[place]? = some unit) :
    ∃ analysis, parsed.analyses[place]? = some analysis ∧
      (LinkUnit.ofAnalysis analysis).LinksFurther unit := by
  have further := ofParsed_linksFurther parsed
  have within := (List.getElem?_eq_some_iff.mp known).1
  rw [further.length] at within
  have before : (ofParsed parsed).units[place]? = some _ :=
    List.getElem?_eq_getElem within
  obtain ⟨_, same, further⟩ := further.unit before
  obtain rfl := Option.some.inj (known.symm.trans same)
  have mapped : (ofParsed parsed).units[place]? =
      (parsed.analyses[place]?).map LinkUnit.ofAnalysis :=
    List.getElem?_map
  obtain ⟨analysis, listed, isUnit⟩ :=
    Option.map_eq_some_iff.mp (mapped.symm.trans before)
  exact ⟨analysis, listed, isUnit ▸ further⟩

/-- A source in which `config true` is declared where false is inherited fails.
In any other that does not fail, the config of each node is the declared or the
inherited one, and it stays so when the units are linked. -/
theorem configs_are_inherited :
    (∀ (source : SourceId) (statements : List Statement),
      (∃ statement ∈ statements, statement.Contradicts true) →
        (Analysis.ofStatements source statements).failed = true) ∧
    (∀ (source : SourceId) (statements : List Statement),
      (Analysis.ofStatements source statements).failed = false →
        (Analysis.ofStatements source statements).tree.InheritsConfig
          (Statement.introductionsAll none [] 0 statements)) ∧
    ∀ (parsed : ParsedSources) (place : Nat) (unit : LinkUnit),
      (ofParsed parsed).linked.units[place]? = some unit →
        ∃ analysis, parsed.analyses[place]? = some analysis ∧
          ∀ id, unit.tree.config? id = analysis.tree.config? id ∧
            unit.tree.ancestors id = analysis.tree.ancestors id := by
  refine ⟨fun source statements => ?_, fun _ _ =>
    Analysis.ofStatements_inheritsConfig, fun parsed place unit known => ?_⟩
  · rintro ⟨statement, listed, contradicts⟩
    by_contra whole
    exact Analysis.ofStatements_agrees (Bool.not_eq_true _ ▸ whole) statement
      listed contradicts
  · obtain ⟨analysis, listed, further⟩ := exists_analysis known
    exact ⟨analysis, listed, fun id =>
      ⟨further.tree.config? id, further.tree.ancestors id⟩⟩

/-- What is measured in a state container cannot be configured. -/
theorem configs_are_inherited_state :
    let state := "module m \x7b namespace \"u:m\"; prefix m; " ++
      "container s \x7b config false; leaf x \x7b type string; \x7d \x7d \x7d"
    let contrary := "module m \x7b namespace \"u:m\"; prefix m; " ++
      "container s \x7b config false; " ++
      "leaf x \x7b type string; config true; \x7d \x7d \x7d"
    ∃ first second, parse .standard 0 state = .ok first ∧
      parse .standard 0 contrary = .ok second ∧
      (Analysis.ofStatements 0 (Statement.ofTree second.tree)).failed = true ∧
      let statements := Statement.ofTree first.tree
      let tree := (Analysis.ofStatements 0 statements).tree
      tree.InheritsConfig (Statement.introductionsAll none [] 0 statements) ∧
      (List.range 3).map tree.config? =
        [none, some ⟨false, true⟩, some ⟨false, false⟩] := by
  intro state contrary
  have checked : (((parse .standard 0 state).toOption.any fun parsed =>
        let analysis := Analysis.ofStatements 0 (Statement.ofTree parsed.tree)
        !analysis.failed && (List.range 3).map analysis.tree.config? ==
          [none, some ⟨false, true⟩, some ⟨false, false⟩]) &&
      ((parse .standard 0 contrary).toOption.any fun parsed =>
        (Statement.ofTree parsed.tree).any fun unit =>
          unit.known == .module && unit.substatements.any fun container =>
            container.known == .container &&
              container.configBelow true == false &&
              container.substatements.any fun leaf => leaf.known == .leaf &&
                leaf.substatements.any fun declared =>
                  declared.known == .config &&
                    declared.argumentValue == some "true")) = true := by
    decide +kernel
  cases parsing : parse .standard 0 state with
  | error error => simp [parsing, Except.toOption] at checked
  | ok first =>
      cases parsing' : parse .standard 0 contrary with
      | error error => simp [parsing', Except.toOption] at checked
      | ok second =>
          simp only [parsing, parsing', Except.toOption, Option.any_some,
            Bool.and_eq_true, Bool.not_eq_true', beq_iff_eq, List.any_eq_true]
            at checked
          obtain ⟨⟨whole, configs⟩, unit, listed, isUnit, container, inside,
            ⟨isContainer, stateful⟩, leaf, inside', isLeaf, declared, declares,
            isConfig, value⟩ := checked
          have contradicts : leaf.Contradicts false :=
            .here (by rw [isLeaf]; rfl) declares isConfig value
          have bare : unit.configBelow true = true :=
            Statement.configBelow_of_bare (by rw [isUnit]; rfl)
          have contradicts : unit.Contradicts true := by
            refine .inside (by simp [isUnit]) inside ?_
            rw [bare]
            refine .inside (by simp [isContainer]) inside' ?_
            rwa [stateful]
          obtain ⟨fails, inherits, -⟩ := configs_are_inherited
          exact ⟨first, second, rfl, rfl, fails _ _ ⟨unit, listed, contradicts⟩,
            inherits _ _ whole, configs⟩

end Compilation

end YangSchema
