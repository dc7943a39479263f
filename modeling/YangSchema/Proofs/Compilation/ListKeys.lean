import YangSchema.Proofs.Compilation.Completeness
import YangSchema.Proofs.Compilation.Inheritance
import YangSchema.Proofs.Draft.Keys
import YangSchema.Proofs.Instances.Deciding
import YangSchema.Proofs.Linking.Looking

/-!
# The keys of lists

The keys of a list are checked twice:  at its end among its own nodes, or, if it
uses groupings, after linking among all nodes that one step can name.  A list that
has been read keeps what the first check has seen, or it is noted for the second.

A list has the nodes that stand in it and those of the groupings that are used
there.  What one step below it can name is more than that, for a step also sees
through choices, cases and augments.
-/

namespace YangSchema

namespace Scene

variable {scene : Scene} {list place last : NodeRef}
  {overlay overlay' : List (NodeRef × NodeRef)} {trace : List NodeRef}

/-- A place has a leaf of a name among its nodes. -/
def HoldsLeaf (scene : Scene) (place : NodeRef) (name : String) : Prop :=
  ∃ leaf ∈ scene.children place,
    scene.kind? leaf = some .leaf ∧ scene.nameOf leaf = name

/-- The places whose nodes a list has:  it itself, the groupings that are used
there, and those that are used in them. -/
inductive BringsIn (scene : Scene) (list : NodeRef) : NodeRef → Prop
  | list : BringsIn scene list list
  | uses {place uses grouping : NodeRef} {body : UsesBody}
      (brings : BringsIn scene list place)
      (inside : uses ∈ scene.children place)
      (isUses : scene.construct? uses = some (.uses body))
      (target : body.target = some grouping) : BringsIn scene list grouping

/-- A step below a list sees a leaf of a name through a choice, a case or an
augment. -/
def HidesLeaf (scene : Scene) (list : NodeRef) (name : String) : Prop :=
  ∃ trace last overlay, scene.Visits list [] trace last overlay ∧
    (∃ entered ∈ trace, ∃ kind ∈ [ConstructKind.choice, .case, .augment],
      scene.kind? entered = some kind) ∧ scene.HoldsLeaf last name

/-- A way that enters neither a choice nor a case nor an augment leads to a place
whose nodes the list has. -/
theorem Visits.bringsIn
    (visits : scene.Visits place overlay trace last overlay')
    (augments : ∀ pair ∈ scene.augments ++ overlay,
      scene.kind? pair.2 = some .augment)
    (brings : scene.BringsIn list place) : scene.BringsIn list last ∨
      ∃ entered ∈ trace, ∃ kind ∈ [ConstructKind.choice, .case, .augment],
        scene.kind? entered = some kind := by
  induction visits with
  | here => exact .inl brings
  | @step place next last overlay overlay' overlay'' trace enters visits ih =>
      cases enters with
      | through inside transparent =>
          refine .inr ⟨next, List.mem_cons_self, ?_⟩
          rw [isTransparent, Bool.or_eq_true, beq_iff_eq, beq_iff_eq]
            at transparent
          exact transparent.elim (fun choice => ⟨_, by simp, choice⟩)
            fun case => ⟨_, by simp, case⟩
      | copy inside isUses target =>
          refine (ih (fun pair listed => ?_)
            (brings.uses inside isUses target)).imp_right ?_
          · rw [← List.append_assoc] at listed
            obtain old | new := List.mem_append.mp listed
            · exact augments pair old
            · obtain ⟨-, body, isAugment, -⟩ := mem_usesAugments_iff.mp new
              simp [kind?_eq, isAugment, Construct.kind]
          · rintro ⟨entered, listed, hides⟩
            exact ⟨entered, List.mem_cons_of_mem _ listed, hides⟩
      | addition active =>
          exact .inr ⟨next, List.mem_cons_self, .augment, by simp,
            augments _ (mem_of_mem_augmentsOf active)⟩

/-- No submodule shares the nodes of a list. -/
theorem stepChildren_of_list {walk : Walk} {body : ListBody}
    (isList : scene.construct? list = some (.list body)) :
    scene.stepChildren walk list =
      scene.collect walk scene.walkBound list [] [] := by
  have alone : scene.sharedRoots list = [] := by
    unfold sharedRoots
    split
    next root =>
      obtain ⟨tree, isTree, inTree⟩ := construct?_eq_some_iff.mp isList
      obtain ⟨node, found, is⟩ := SchemaTree.construct?_eq_some_iff.mp inTree
      rw [root] at found
      simp [isTree, SchemaTree.header?, SchemaTree.root?, found, is,
        Construct.header?]
    · rfl
  rw [stepChildren, alone, List.flatMap_singleton]

/-- What is found below a list is its own, is brought in or is hidden. -/
theorem bringsIn_or_hidesLeaf {body : ListBody} {leaf : NodeRef}
    (augments : ∀ pair ∈ scene.augments, scene.kind? pair.2 = some .augment)
    (isList : scene.construct? list = some (.list body))
    (found : leaf ∈ scene.stepChildren .data list)
    (isLeaf : scene.kind? leaf = some .leaf) :
    (∃ place, scene.BringsIn list place ∧
      scene.HoldsLeaf place (scene.nameOf leaf)) ∨
        scene.HidesLeaf list (scene.nameOf leaf) := by
  rw [stepChildren_of_list isList] at found
  obtain ⟨trace, last, overlay, visits, offers⟩ := visits_of_mem_collect found
  have holds : scene.HoldsLeaf last (scene.nameOf leaf) :=
    ⟨leaf, offers.inside, isLeaf, rfl⟩
  obtain brings | hides := visits.bringsIn (by simpa using augments) .list
  · exact .inl ⟨last, brings, holds⟩
  · exact .inr ⟨trace, last, overlay, visits, hides, holds⟩

/-- Whatever a list brings in is among places that are closed under `uses`. -/
theorem BringsIn.mem {places : List NodeRef}
    (brings : scene.BringsIn list place) (start : list ∈ places)
    (closed : ∀ place ∈ places, ∀ uses ∈ scene.children place, ∀ grouping,
      scene.usesTarget? uses = some grouping → grouping ∈ places) :
    place ∈ places := by
  induction brings with
  | list => exact start
  | uses brings inside isUses target ih =>
      exact closed _ ih _ inside _ (by simp [usesTarget?, isUses, target])

/-- Where nothing but groupings can be entered, no leaf is hidden. -/
theorem not_hidesLeaf {places : List NodeRef} (start : list ∈ places)
    (bare : scene.augments = [])
    (closed : ∀ place ∈ places,
      scene.kind? place ∉ [some .choice, some .case, some .augment] ∧
      ∀ child ∈ scene.children place, scene.isTransparent child = false ∧
        scene.usesAugments child = [] ∧ ∀ grouping,
          scene.usesTarget? child = some grouping → grouping ∈ places)
    (name : String) : ¬ scene.HidesLeaf list name := by
  have stays {place last : NodeRef} {overlay overlay' : List (NodeRef × NodeRef)}
      {trace : List NodeRef}
      (visits : scene.Visits place overlay trace last overlay')
      (among : place ∈ places) (none : overlay = []) :
      ∀ entered ∈ trace, entered ∈ places := by
    induction visits with
    | here => exact List.forall_mem_nil _
    | @step place next _ _ _ _ _ enters visits ih =>
        cases enters with
        | through inside transparent =>
            have visible := ((closed _ among).2 _ inside).1
            simp [transparent] at visible
        | copy inside isUses target =>
            obtain ⟨-, plain, used⟩ := (closed _ among).2 _ inside
            have grouping := used next (by simp [usesTarget?, isUses, target])
            exact List.forall_mem_cons.mpr
              ⟨grouping, ih grouping (by rw [none, plain]; rfl)⟩
        | addition active => simp [bare, none, augmentsOf] at active
  rintro ⟨trace, last, overlay, visits, ⟨entered, listed, kind, among, isKind⟩, -⟩
  refine (closed entered (stays visits start rfl entered listed)).1 ?_
  rw [isKind]
  simpa using among

end Scene

/-- The keys that a list declares. -/
def SchemaTree.keysOf? (tree : SchemaTree) (list : NodeId) :
    Option (List String) :=
  match tree.construct? list with
  | some (.list body) => some body.keys
  | _ => none

theorem SchemaTree.keysOf?_eq_some {tree : SchemaTree} {list : NodeId}
    {keys : List String} (declared : tree.keysOf? list = some keys) :
    ∃ body, tree.construct? list = some (.list body) ∧ body.keys = keys := by
  unfold keysOf? at declared
  split at declared
  next body isList => exact ⟨body, isList, Option.some.inj declared⟩
  · simp at declared

/-- A leaf of a list of a unit is one that its tree finds. -/
theorem Scene.holdsLeaf_iff {scene : Scene} {unit : LinkUnit} {id : NodeId}
    {name : String} (found : scene.unit? unit.source = some unit) :
    scene.HoldsLeaf ⟨unit.source, id⟩ name ↔
      (unit.tree.findChild? id .leaf name).isSome := by
  have isTree : scene.tree? unit.source = some unit.tree := by
    simp [tree?, found]
  rw [HoldsLeaf, SchemaTree.findChild?_isSome_iff]
  simp only [children, isTree, List.mem_map, exists_exists_and_eq_and, kind?,
    nameOf, node?, Option.bind_some]
  refine exists_congr fun child => and_congr_right fun _ => ?_
  cases unit.tree.node? child <;> simp

namespace LinkUnit

variable {unit after : LinkUnit}

/-- Each list of a unit has its keys, or it uses groupings and is noted. -/
def HasKeys (unit : LinkUnit) : Prop :=
  ∀ list body, unit.tree.construct? list = some (.list body) →
    unit.tree.HasKeys unit.deferredKeys list body

/-- Each list of a unit is what it is at its end. -/
def ClosesLists (unit : LinkUnit) : Prop :=
  ∀ list body, unit.tree.construct? list = some (.list body) →
    unit.tree.ClosesList unit.deferredKeys list body

/-- Linking neither changes a list nor takes a node away. -/
theorem ClosesLists.linksFurther (has : unit.ClosesLists)
    (further : unit.LinksFurther after) : after.ClosesLists := by
  intro list body isList
  refine (has list body ?_).mono further.tree.keeps
    (further.deferred ▸ List.Subset.refl _)
  obtain ⟨node', found', is⟩ := SchemaTree.construct?_eq_some_iff.mp isList
  have same := further.tree.nodes list
  rw [found', Option.map_some] at same
  obtain ⟨node, found, same⟩ := Option.map_eq_some_iff.mp same.symm
  have constructs := congrArg (·.construct) same
  refine SchemaTree.construct?_eq_some_iff.mpr ⟨node, found, ?_⟩
  simp only [SchemaNode.unlinked, is] at constructs
  cases isNode : node.construct <;> simp_all [Construct.unlinked]

end LinkUnit

namespace Draft

variable {draft : Draft} {statement : Statement}

/-- A unit is the first node, and it is no list. -/
theorem openUnit_tree {opened : Draft} {openBlock closeBlock : Step}
    (unit : statement.known ∈ [Keyword.module, .submodule])
    (isBlock : role statement.known = .block openBlock closeBlock)
    (ok : openBlock draft statement = .ok opened) :
    opened.tree.size = rootId + 1 ∧
      ∃ kind ≠ .list, opened.tree.kind? rootId = some kind := by
  obtain ⟨construct, isUnit, introduces, -⟩ := role_unit_isInitial unit
  obtain ⟨rfl, -⟩ := Role.block.inj (isBlock.symm.trans isUnit)
  obtain ⟨name, -, -, -, empty, rfl⟩ := openUnit_eq_ok ok
  refine ⟨by rw [SchemaTree.size_addRoot, empty], construct.kind, ?_, ?_⟩
  · intro isList
    rw [isList] at introduces
    rcases List.mem_cons.mp unit with known | known <;>
      simp_all [Keyword.introduces?]
  · rw [SchemaTree.kind?, SchemaTree.node?_addRoot, if_pos empty.symm]
    rfl

/-- In a unit that has been read each list is what it is at its end. -/
theorem read_unit_closesLists
    (unit : statement.known ∈ [Keyword.module, .submodule])
    (sound : draft.IsSound) (unlinked : draft.IsUnlinked)
    (whole : (read draft statement).error = none) :
    (read draft statement).draft.asUnit.ClosesLists := by
  obtain ⟨construct, isBlock, bare, named, -, complete⟩ := role_unit unit
  rw [read_of_block isBlock] at whole ⊢
  obtain ⟨opening, whole, same⟩ := Progress.andThen_error whole
  obtain ⟨inside, closing, same'⟩ := Progress.andThen_error whole
  rw [same, same']
  have ok := Progress.ofStep_error opening
  generalize (Progress.ofStep draft (openUnit construct draft statement)).draft =
    opened at inside closing ok ⊢
  obtain ⟨size, kind, other, isRoot⟩ := openUnit_tree unit isBlock ok
  obtain ⟨frame, ⟨unopened, rfl, -⟩, opens⟩ :=
    openUnit_opens bare named complete ok
  have stack : opened.stack = [.node rootId] := by rw [opens.stack, unopened]; rfl
  have held : opened.stack ≠ [] := by simp [stack]
  have has : opened.ClosesLists := by
    intro list body closed isList
    obtain ⟨node, found, -⟩ := SchemaTree.construct?_eq_some_iff.mp isList
    obtain rfl : list = rootId := by
      have within := size ▸ SchemaTree.lt_size_of_node? found
      exact Nat.le_zero.mp (Nat.le_of_lt_succ within)
    exact absurd (stack ▸ List.mem_singleton_self _) closed
  obtain ⟨-, -, ⟨root, stack'⟩, finished⟩ := readAll_unit unit isBlock sound
    unlinked ok inside
  obtain ⟨_, top, bare'⟩ :=
    (readAll_mirrors (opens.sound sound) held inside).top _ [] stack
  rw [closeUnit_eq_ok stack' (Progress.ofStep_error closing)]
  refine LinkUnit.ClosesLists.linksFurther (fun list body isList => ?_)
    finished.asUnit_linksFurther
  refine readAll_closesLists (opens.sound sound) held has inside list body ?_ isList
  rw [top, bare_eq_node_iff.mp bare', List.mem_singleton, Frame.node.injEq]
  rintro rfl
  -- The unit is still what it was when it was opened.
  have kept := (readAll_reads inside).follows.keeps.kind? isRoot
  obtain ⟨node, found, is⟩ := SchemaTree.construct?_eq_some_iff.mp isList
  have found : (readAll opened statement.substatements).draft.tree.node? rootId =
      some node := found
  rw [SchemaTree.kind?, found] at kept
  exact other (by simpa [SchemaNode.kind, is, Construct.kind] using kept.symm)

end Draft

/-- In a source that has been read without an error each list is what it is at its
end. -/
theorem LinkUnit.ofAnalysis_closesLists {source : SourceId}
    {statements : List Statement}
    (whole : (Analysis.ofStatements source statements).failed = false) :
    (ofAnalysis (.ofStatements source statements)).ClosesLists := by
  have quiet : (Draft.readTopLevel (.empty source) false statements).error =
      none := by
    simpa [Analysis.ofStatements] using whole
  obtain ⟨before, unit, reads⟩ :=
    Draft.exists_readsUnit (.empty source) (.empty source) quiet
  have has := Draft.read_unit_closesLists reads.isUnit reads.sound reads.unlinked
    reads.whole
  rw [← reads.ends] at has
  exact has

namespace Linking

/-- No key of a list that has been noted is missing if nothing is found wrong. -/
theorem mem_stepChildren_of_quiet {units : List LinkUnit}
    (quiet : (findings units).hasErrors = false) {unit : LinkUnit}
    (member : unit ∈ units) (usable : unit.usable = true) {list : NodeId}
    {body : ListBody} (noted : list ∈ unit.deferredKeys)
    (isList : unit.tree.construct? list = some (.list body))
    (bound : hasUnboundUses unit.tree list = false) {key : String}
    (listed : key ∈ body.keys) :
    let scene := Scene.ofUnits units .interFile
    ∃ leaf ∈ scene.stepChildren .data ⟨unit.source, list⟩,
      scene.nameOf leaf = key ∧ scene.kind? leaf = some .leaf := by
  intro scene
  obtain ⟨node, found, is⟩ := SchemaTree.construct?_eq_some_iff.mp isList
  by_contra missing
  have raised : keyError node body key ∈ keyErrors scene unit list := by
    simp only [keyErrors, found, is, bound]
    refine List.mem_map_of_mem (List.mem_filter.mpr ⟨listed, ?_⟩)
    simpa [List.any_eq_false] using missing
  have severe : (keyError node body key).IsSevere := rfl
  refine not_mem_unitErrors quiet member usable severe ?_
  simp only [unitErrors, List.mem_append]
  exact .inl (.inl (.inr (List.mem_flatMap.mpr ⟨list, noted, raised⟩)))

end Linking

namespace Compilation

variable {compilation : Compilation} {limits : ParseLimits} {sources : Sources}

/-- In every unit that can be used each list is what it is at its end. -/
theorem linked_closesLists {parsed : ParsedSources} {unit : LinkUnit}
    (member : unit ∈ (ofParsed parsed).linked.units)
    (usable : unit.usable = true) : unit.ClosesLists := by
  obtain ⟨place, known⟩ := List.mem_iff_getElem?.mp member
  obtain ⟨analysis, read, further⟩ := exists_analysis known
  have listed := List.mem_of_getElem? read
  rw [ParsedSources.analyses_eq] at listed
  obtain ⟨⟨source, statements⟩, -, rfl⟩ := List.mem_map.mp listed
  refine LinkUnit.ClosesLists.linksFurther (LinkUnit.ofAnalysis_closesLists ?_)
    further
  simpa [LinkUnit.ofAnalysis] using further.usable usable

/-- In every unit that can be used each list has its keys. -/
theorem linked_hasKeys {parsed : ParsedSources} {unit : LinkUnit}
    (member : unit ∈ (ofParsed parsed).linked.units)
    (usable : unit.usable = true) : unit.HasKeys := fun list body isList =>
  (linked_closesLists member usable list body isList).keys

/-- In a valid set every key of a list is a leaf of the list or of a grouping that
it brings in, or else the list uses a grouping and the leaf is hidden.  So if no
leaf is hidden and no grouping has a leaf of the name, then the keys pass the check
at the end of the list, and of any other one that has the same leaves. -/
theorem keys_are_found (compiled : compile limits sources = .ok compilation)
    (valid : compilation.isValid = true) :
    let scene := Scene.ofUnits compilation.units .interFile
    ∀ unit ∈ compilation.units, ∀ list body,
      unit.tree.construct? list = some (.list body) →
      let ref : NodeRef := ⟨unit.source, list⟩
      (∀ key ∈ body.keys,
        (∃ place, scene.BringsIn ref place ∧ scene.HoldsLeaf place key) ∨
          Draft.hasChildOf unit.tree list (· == .uses) = true ∧
            scene.HidesLeaf ref key) ∧
      ((∀ key ∈ body.keys, ¬ scene.HidesLeaf ref key ∧
          ∀ place, scene.BringsIn ref place → scene.HoldsLeaf place key →
            place = ref) →
        ∀ tree' list', (∀ name,
            (unit.tree.findChild? list .leaf name).isSome →
              (tree'.findChild? list' .leaf name).isSome) →
          ∀ statement,
            Draft.checkKeys tree' statement list' body = .ok ()) := by
  intro scene unit member list body isList ref
  obtain ⟨length, placed, linked⟩ : ∃ length,
      compilation.units.map (·.source) = List.range length ∧
        ∀ unit ∈ compilation.units, unit.IsLinked := by
    simp only [compile, bind_eq_ok_iff, pure_eq_ok_iff] at compiled
    obtain ⟨parsed, -, rfl⟩ := compiled
    exact ⟨_, ofParsed_isLinked valid⟩
  have distinct : (compilation.units.map (·.source)).Nodup :=
    placed ▸ List.nodup_range
  have found := @Scene.unit?_of_mem scene distinct unit member
  have usable := (linked unit member).usable
  have quiet := findings_of_isValid compiled valid
  have has : unit.tree.HasKeys unit.deferredKeys list body := by
    simp only [compile, bind_eq_ok_iff, pure_eq_ok_iff] at compiled
    obtain ⟨parsed, -, rfl⟩ := compiled
    exact linked_hasKeys member usable list body isList
  have direct {name : String} :
      scene.HoldsLeaf ref name ↔ (unit.tree.findChild? list .leaf name).isSome :=
    Scene.holdsLeaf_iff found
  have first : ∀ key ∈ body.keys,
      (∃ place, scene.BringsIn ref place ∧ scene.HoldsLeaf place key) ∨
        Draft.hasChildOf unit.tree list (· == .uses) = true ∧
          scene.HidesLeaf ref key := by
    intro key listed
    obtain all | ⟨noted, uses⟩ := has
    · exact .inl ⟨ref, .list, direct.mpr (all key listed)⟩
    have bound : Linking.hasUnboundUses unit.tree list = false := by
      refine List.any_eq_false.mpr fun child _ => ?_
      split
      next target isUses =>
        simpa [Option.isSome_iff_ne_none]
          using (linked unit member).uses child target isUses
      · simp
    obtain ⟨leaf, seen, rfl, isLeaf⟩ := Linking.mem_stepChildren_of_quiet quiet
      member usable noted isList bound listed
    have isTree : scene.tree? ref.source = some unit.tree := by
      simp [Scene.tree?, ref, found]
    have isList' : scene.construct? ref = some (.list body) :=
      Scene.construct?_eq_some_iff.mpr ⟨unit.tree, isTree, isList⟩
    have augments : ∀ pair ∈ scene.augments,
        scene.kind? pair.2 = some .augment := by
      rintro ⟨target, augment⟩ listed
      exact Scene.kind?_of_boundTo?
        (Linking.boundTo?_of_mem_augments distinct listed)
    exact (Scene.bringsIn_or_hidesLeaf augments isList' seen isLeaf).imp_right
      (And.intro uses)
  refine ⟨first, fun own tree' list' same statement =>
    Draft.checkKeys_of_forall fun key listed => same key ?_⟩
  obtain ⟨visible, alone⟩ := own key listed
  obtain ⟨place, brings, holds⟩ | ⟨-, hidden⟩ := first key listed
  · exact direct.mp (alone place brings holds ▸ holds)
  · exact absurd hidden visible

/-- A list that uses groupings which do not have its key. -/
theorem keys_are_found_own :
    ∃ compilation, compile .standard
        [⟨.inline, "module m \x7b namespace \"u:m\"; prefix m; " ++
            "grouping g \x7b leaf a \x7b type string; \x7d \x7d " ++
            "grouping h \x7b uses g; leaf b \x7b type string; \x7d \x7d " ++
            "list l \x7b key k; uses h; " ++
            "leaf k \x7b type string; \x7d \x7d \x7d"⟩] = .ok compilation ∧
      compilation.isValid = true ∧
      let scene := Scene.ofUnits compilation.units .interFile
      ∃ unit ∈ compilation.units, ∃ list body,
        unit.tree.construct? list = some (.list body) ∧ body.keys = ["k"] ∧
        (∃ place, scene.BringsIn ⟨unit.source, list⟩ place ∧
          scene.HoldsLeaf place "k") ∧
        ∀ statement, Draft.checkKeys unit.tree statement list body = .ok () := by
  generalize written : ([_] : Sources) = sources
  have checked : (compile .standard sources).toOption.any (fun compilation =>
      let scene := Scene.ofUnits compilation.units .interFile
      let places : List NodeRef := [⟨0, 6⟩, ⟨0, 3⟩, ⟨0, 1⟩]
      compilation.isValid && scene.augments.isEmpty &&
        (compilation.units.any fun unit =>
          unit.source == 0 && unit.tree.keysOf? 6 == some ["k"]) &&
        (places.all fun place =>
          [some .list, some .grouping].contains (scene.kind? place) &&
            (scene.children place).all fun child =>
              !scene.isTransparent child && (scene.usesAugments child).isEmpty &&
                (scene.usesTarget? child).all (places.contains ·) &&
                (place == ⟨0, 6⟩ || scene.nameOf child != "k"))) = true := by
    subst written
    decide +kernel
  cases compiled : compile .standard sources with
  | error error => simp [compiled, Except.toOption] at checked
  | ok compilation =>
      simp only [compiled, Except.toOption, Option.any_some, Bool.and_eq_true,
        Bool.or_eq_true, Bool.not_eq_true', List.any_eq_true, List.all_eq_true,
        List.isEmpty_iff, beq_iff_eq, bne_iff_ne, Option.all_eq_true,
        List.contains_iff_mem] at checked
      obtain ⟨⟨⟨valid, bare⟩, unit, member, source, keys⟩, closed⟩ := checked
      obtain ⟨body, isList, declared⟩ := SchemaTree.keysOf?_eq_some keys
      obtain ⟨first, second⟩ := keys_are_found compiled valid unit member 6 body
        isList
      have start : (⟨unit.source, 6⟩ : NodeRef) ∈
          [⟨0, 6⟩, ⟨0, 3⟩, (⟨0, 1⟩ : NodeRef)] := source ▸ List.mem_cons_self
      have visible := Scene.not_hidesLeaf start bare (fun place among => by
        obtain ⟨kinds, inside⟩ := closed place among
        refine ⟨fun kind => ?_, fun child within => ?_⟩
        · simp only [List.mem_cons, List.not_mem_nil, or_false] at kinds kind
          rcases kinds with is | is <;> simp [is] at kind
        · obtain ⟨⟨⟨plain, silent⟩, used⟩, -⟩ := inside child within
          exact ⟨plain, silent, used⟩) "k"
      refine ⟨compilation, rfl, valid, unit, member, 6, body, isList, declared,
        ?_, second (fun key listed => ?_) unit.tree 6 fun _ => id⟩
      · exact (first "k" (by simp [declared])).resolve_right
          fun hidden => visible hidden.2
      · obtain rfl : key = "k" := by simpa [declared] using listed
        refine ⟨visible, fun place brings holds => ?_⟩
        have among := brings.mem start fun place among uses inside =>
          (((closed place among).2 uses inside).1).2
        obtain ⟨leaf, inside, -, name⟩ := holds
        rw [source]
        exact (((closed place among).2 leaf inside).2).resolve_right (absurd name)

/-- A key that is found only inside a choice is accepted, but only if the list uses
a grouping, too. -/
theorem compile_accepts_hidden_key :
    let listWith (uses : String) : String :=
      "module m \x7b namespace \"u:m\"; prefix m; " ++
        "grouping g \x7b leaf a \x7b type string; \x7d \x7d " ++
        "list l \x7b key k; " ++ uses ++
        "choice c \x7b leaf k \x7b type string; \x7d \x7d \x7d \x7d"
    (∃ compilation, compile .standard [⟨.inline, listWith "uses g; "⟩] =
        .ok compilation ∧ compilation.isValid = true ∧
      let scene := Scene.ofUnits compilation.units .interFile
      ∃ unit ∈ compilation.units, ∃ list body,
        unit.tree.construct? list = some (.list body) ∧ body.keys = ["k"] ∧
        ∀ place, scene.BringsIn ⟨unit.source, list⟩ place →
          ¬ scene.HoldsLeaf place "k") ∧
    ∃ compilation, compile .standard [⟨.inline, listWith ""⟩] =
        .ok compilation ∧ compilation.isValid = false := by
  intro listWith
  constructor
  · generalize written : ([_] : Sources) = sources
    have checked : (compile .standard sources).toOption.any (fun compilation =>
        let scene := Scene.ofUnits compilation.units .interFile
        let places : List NodeRef := [⟨0, 3⟩, ⟨0, 1⟩]
        compilation.isValid &&
          (compilation.units.any fun unit =>
            unit.source == 0 && unit.tree.keysOf? 3 == some ["k"]) &&
          (places.all fun place => (scene.children place).all fun child =>
            (scene.usesTarget? child).all (places.contains ·) &&
              scene.nameOf child != "k")) = true := by
      subst written
      decide +kernel
    cases compiled : compile .standard sources with
    | error error => simp [compiled, Except.toOption] at checked
    | ok compilation =>
        simp only [compiled, Except.toOption, Option.any_some, Bool.and_eq_true,
          List.any_eq_true, List.all_eq_true, beq_iff_eq, bne_iff_ne,
          Option.all_eq_true, List.contains_iff_mem] at checked
        obtain ⟨⟨valid, unit, member, source, keys⟩, closed⟩ := checked
        obtain ⟨body, isList, declared⟩ := SchemaTree.keysOf?_eq_some keys
        refine ⟨compilation, rfl, valid, unit, member, 3, body, isList, declared,
          fun place brings => ?_⟩
        have among := brings.mem (source ▸ List.mem_cons_self)
          fun place among uses inside => ((closed place among) uses inside).1
        rintro ⟨leaf, inside, -, name⟩
        exact (closed place among leaf inside).2 name
  · generalize written : ([_] : Sources) = sources
    have checked : (compile .standard sources).toOption.any
        (!·.isValid) = true := by
      subst written
      decide +kernel
    cases compiled : compile .standard sources with
    | error error => simp [compiled, Except.toOption] at checked
    | ok compilation =>
        exact ⟨compilation, rfl, by
          simpa [compiled, Except.toOption] using checked⟩

end Compilation

end YangSchema
