import Mathlib.Data.List.Induction
import YangSchema.Proofs.Compilation.Colliding

/-!
# Names in what has been read

Reading a block to its end means that each of its statements was opened after
those in front of it had been read, so their names differ.  Where reading ends
with an error about a name, some block was read up to a statement whose name is
taken, and what took it is in front of that statement.  Both hold for every block
of a source, whatever it contains, and so the nodes of a tree that has been read
have different names inside each node.
-/

namespace YangSchema

/-- Somewhere inside a statement, a name is introduced in a category in which a
statement in front has introduced it already, and an error is about that. -/
inductive Statement.Repeats (error : StatementError) : Statement → Prop
  | here {holder earlier statement : Statement} {kind : ConstructKind}
      {category : NameCategory} {name : String} {done rest : List Statement}
      (own : holder.kind? = some kind)
      (inside : holder.substatements = done ++ statement :: rest)
      (listed : earlier ∈ done) (first : earlier.Names kind category name)
      (again : statement.Names kind category name)
      (blames : ∃ related, error =
        { StatementError.of .duplicateIdentifier statement .entry name with
          related }) : Repeats error holder
  | inside {holder part : Statement} (listed : part ∈ holder.substatements)
      (repeats : Repeats error part) : Repeats error holder

namespace Draft

variable {draft opened : Draft} {statement : Statement}
  {statements done rest : List Statement} {id : NodeId} {kind : ConstructKind}
  {error : StatementError}

/-- Statements are read in two parts like in one. -/
theorem readAll_append (draft : Draft) (statements more : List Statement) :
    readAll draft (statements ++ more) =
      (readAll draft statements).andThen (readAll · more) := by
  induction statements generalizing draft with
  | nil =>
      rw [List.nil_append, readAll]
      rfl
  | cons statement rest ih =>
      rw [List.cons_append, readAll, readAll, Progress.andThen_assoc]
      simp only [ih]

/-- Each statement of those that have been read was read behind the ones before
it. -/
theorem readAll_error_of_append
    (whole : (readAll draft (done ++ statement :: rest)).error = none) :
    (readAll draft done).error = none ∧
      (read (readAll draft done).draft statement).error = none := by
  rw [readAll_append] at whole
  obtain ⟨before, whole, -⟩ := Progress.andThen_error whole
  rw [readAll] at whole
  exact ⟨before, (Progress.andThen_error whole).1⟩

/-- A statement that has been read had a name that was free, if it has one. -/
theorem grantsName_of_read (whole : (read draft statement).error = none) :
    draft.GrantsName statement := by
  have silent (none : ∀ holder, statement.known.category? holder = none) :
      draft.GrantsName statement := by
    intro _ kind _ _ _ own
    rw [none] at own
    cases own
  have disputes := role_disputes statement.known
  rw [read_eq] at whole
  split at whole
  next openBlock closeBlock isBlock =>
    rw [isBlock] at disputes
    obtain ⟨opening, -, -⟩ := Progress.andThen_error whole
    cases disputes with
    | block _ opens _ => exact opens rfl (Progress.ofStep_error opening)
  next write isEntry =>
    rw [isEntry] at disputes
    cases disputes with
    | entry none _ => exact silent none
  next isForeign =>
    rw [isForeign] at disputes
    cases disputes with
    | foreign none => exact silent none
  next => cases whole

/-- A block that has been opened is sound, and something is open. -/
theorem isSound_of_opening {openBlock closeBlock : Step}
    (isBlock : role statement.known = .block openBlock closeBlock)
    (sound : draft.IsSound) (ok : openBlock draft statement = .ok opened) :
    opened.IsSound ∧ opened.stack ≠ [] := by
  have unwinds := role_unwinds statement.known
  rw [isBlock] at unwinds
  cases unwinds with
  | block _ opens _ =>
      obtain ⟨frames, isOpening, pushed⟩ := opens rfl ok
      exact ⟨pushed.sound sound, pushed.held isOpening.ne_nil⟩

/-- An entry has no node. -/
theorem kind?_eq_none_of_entry {write : Step}
    (isEntry : role statement.known = .entry write) :
    statement.kind? = none := by
  have shape := role_shape statement.known
  rw [isEntry] at shape
  cases shape with
  | entry plain _ => exact kind?_eq_none_of_plain plain

theorem known_of_foreign (isForeign : role statement.known = .foreign) :
    statement.known = .extensionInstance := by
  have shape := role_shape statement.known
  rw [isForeign] at shape
  cases shape with
  | foreign known => exact known

/-- A statement without a node contains no statement with one. -/
theorem isShallow_of_read (sound : draft.IsSound)
    (whole : (read draft statement).error = none) : statement.IsShallow := by
  by_cases extension : statement.known = .extensionInstance
  · exact Statement.isShallow_of_extension extension
  intro plain
  rw [Statement.introductions_of_none extension
    (Statement.introduces?_eq_none plain)]
  rw [read_eq] at whole
  split at whole
  next openBlock closeBlock isBlock =>
    obtain ⟨opening, whole, -⟩ := Progress.andThen_error whole
    obtain ⟨inside, -, -⟩ := Progress.andThen_error whole
    have ok := Progress.ofStep_error opening
    obtain ⟨sound', held⟩ := isSound_of_opening isBlock sound ok
    exact (isPartBegun_of_opening plain isBlock ok).introductions
      (readAll_mirrors sound' held inside)
      ((readAll_reads inside).follows.sound sound').nested
  next write isEntry =>
    obtain ⟨-, whole, -⟩ := Progress.andThen_error whole
    exact Statement.introductionsAll_of_extensions (readForeign_eq whole).1
  next isForeign => exact absurd (known_of_foreign isForeign) extension
  next => cases whole

theorem isShallow_of_readAll (sound : draft.IsSound)
    (whole : (readAll draft statements).error = none) :
    ∀ statement ∈ statements, statement.IsShallow := by
  intro statement listed
  obtain ⟨done, rest, rfl⟩ := List.append_of_mem listed
  obtain ⟨before, first⟩ := readAll_error_of_append whole
  exact isShallow_of_read ((readAll_reads before).follows.sound sound) first

/-! ## Blocks that are read to their end -/

namespace IsBegun

variable (begun : opened.IsBegun id kind) (sound : opened.IsSound)
include begun sound

theorem recounts_of_readAll (whole : (readAll opened done).error = none) :
    (readAll opened done).draft.Recounts id kind done := by
  have held : opened.stack ≠ [] := by
    rintro empty
    simpa [empty] using begun.stack
  exact begun.recounts (readAll_mirrors sound held whole)
    ((readAll_reads whole).follows.sound sound).nested

/-- The statement behind some others introduces a name that is free. -/
theorem grantsName
    (whole : (readAll opened (done ++ statement :: rest)).error = none)
    {category : NameCategory}
    (own : statement.known.category? kind = some category) :
    ∃ name, statement.argumentValue = some name ∧
      ¬ NameCategory.IsTaken (readAll opened done).draft.tree id
        statement.position name category := by
  obtain ⟨before, first⟩ := readAll_error_of_append whole
  have recounts := begun.recounts_of_readAll sound before
  exact grantsName_of_read first id kind category recounts.top recounts.kind?
    own

theorem areNamed (whole : (readAll opened statements).error = none) :
    Statement.AreNamed kind statements := by
  intro statement listed category own
  obtain ⟨done, rest, rfl⟩ := List.append_of_mem listed
  obtain ⟨name, argument, -⟩ := begun.grantsName sound whole own
  exact ⟨name, argument⟩

/-- The statements of a block have different names, since each was read behind
those in front of it. -/
theorem areApart (whole : (readAll opened statements).error = none)
    (ordered : Statement.AreOrdered statements) :
    Statement.AreApart kind statements where
  named := begun.areNamed sound whole
  apart := by
    have siblings := ordered.siblings
    clear ordered
    induction statements using List.reverseRecOn with
    | nil => exact .nil
    | append_singleton done statement ih =>
        obtain ⟨before, -⟩ := readAll_error_of_append whole
        obtain ⟨inside, -, earlier⟩ := List.pairwise_append.mp siblings
        refine List.pairwise_append.mpr
          ⟨ih before inside, List.pairwise_singleton _ _, ?_⟩
        intro other listed last isLast category name names names'
        obtain rfl := List.mem_singleton.mp isLast
        obtain ⟨name', argument, free⟩ :=
          begun.grantsName sound whole names'.category
        obtain rfl : name' = name :=
          Option.some.inj (argument.symm.trans names'.argument)
        exact free <| (begun.recounts_of_readAll sound before).isTaken listed
          names (earlier other listed last isLast)

end IsBegun

mutual

/-- A statement that has been read keeps names apart. -/
theorem read_keepsNames {draft : Draft} (sound : draft.IsSound) :
    {statement : Statement} →
      Statement.AreOrdered statement.substatements →
      (read draft statement).error = none → statement.KeepsNames
  | ⟨keyword, argument, span, block, substatements⟩, ordered, whole => by
      generalize is :
        (⟨keyword, argument, span, block, substatements⟩ : Statement) =
          statement at ordered whole ⊢
      have below : statement.substatements = substatements := is ▸ rfl
      have shallow := isShallow_of_read sound whole
      rw [read_eq] at whole
      split at whole
      next openBlock closeBlock isBlock =>
        obtain ⟨opening, whole, -⟩ := Progress.andThen_error whole
        obtain ⟨inside, -, -⟩ := Progress.andThen_error whole
        have ok := Progress.ofStep_error opening
        obtain ⟨sound', -⟩ := isSound_of_opening isBlock sound ok
        refine .intro shallow (fun kind own => ?_) ?_
        · exact (isBegun_of_opening own isBlock ok).areApart sound' inside
            ordered
        · rw [below] at inside ordered ⊢
          exact readAll_keepsNames sound' ordered inside
      next write isEntry =>
        obtain ⟨-, whole, -⟩ := Progress.andThen_error whole
        have extensions := (readForeign_eq whole).1
        refine .intro shallow (fun kind own => ?_) fun part listed =>
          .foreign (extensions part listed)
        rw [kind?_eq_none_of_entry isEntry] at own
        cases own
      next isForeign => exact .foreign (known_of_foreign isForeign)
      next => cases whole

/-- Statements that have been read keep names apart. -/
theorem readAll_keepsNames {draft : Draft} (sound : draft.IsSound) :
    {statements : List Statement} → Statement.AreOrdered statements →
      (readAll draft statements).error = none →
        ∀ statement ∈ statements, statement.KeepsNames
  | [], _, _ => by simp
  | statement :: rest, ordered, whole => by
      rw [readAll] at whole
      obtain ⟨first, others, -⟩ := Progress.andThen_error whole
      have here := ordered.inside List.mem_cons_self
      have sound' := (read_reads first).follows.sound sound
      exact List.forall_mem_cons.mpr ⟨read_keepsNames sound here first,
        readAll_keepsNames sound' ordered.tail others⟩

end

/-- A file that has been read keeps names apart. -/
theorem readTopLevel_keepsNames {seen : Bool} (sound : draft.IsSound)
    (ordered : Statement.AreOrdered statements)
    (whole : (readTopLevel draft seen statements).error = none) :
    ∀ statement ∈ statements, statement.KeepsNames := by
  induction statements generalizing draft seen with
  | nil => simp
  | cons statement rest ih =>
      have step {seen' : Bool} (whole : ((read draft statement).andThen
          (readTopLevel · seen' rest)).error = none) :
          ∀ other ∈ statement :: rest, other.KeepsNames := by
        obtain ⟨first, others, -⟩ := Progress.andThen_error whole
        have here := ordered.inside List.mem_cons_self
        have sound' := (read_reads first).follows.sound sound
        exact List.forall_mem_cons.mpr
          ⟨read_keepsNames sound here first, ih sound' ordered.tail others⟩
      unfold readTopLevel at whole
      dsimp only at whole
      split at whole
      case h_3 => exact step whole
      case h_4 => cases whole
      all_goals
        split at whole
        · cases whole
        · exact step whole

/-! ## Blocks that are not read to their end -/

theorem readForeign_spares {holder : Statement}
    (stops : (readForeign holder draft statements).error = some error) :
    error.SparesNames := by
  induction statements generalizing draft with
  | nil => cases stops
  | cons statement rest ih =>
      unfold readForeign at stops
      split at stops
      · exact ih stops
      · obtain rfl := Option.some.inj stops
        exact sparesNames_unknown statement
      · obtain rfl := Option.some.inj stops
        exact StatementError.sparesNames_of (by decide)

/-- In a part no name is taken. -/
theorem IsPartBegun.not_disputes (part : opened.IsPartBegun)
    (sound : opened.IsSound) (held : opened.stack ≠ [])
    (whole : (readAll opened done).error = none) :
    ¬ (readAll opened done).draft.Disputes statement error := by
  rintro ⟨holder, _, _, _, names, -⟩
  obtain ⟨frame, rest, stack, other, -⟩ := part
  have mirrors := readAll_mirrors sound held whole
  have top := (mirrors.head? held holder).mp names.top
  obtain rfl : frame = .node holder := by simpa [stack] using top
  exact other rfl

/-- A name that is taken in a node was introduced since the node was begun. -/
theorem IsBegun.exists_names (begun : opened.IsBegun id kind)
    (sound : opened.IsSound) (whole : (readAll opened done).error = none)
    (disputes : (readAll opened done).draft.Disputes statement error) :
    ∃ earlier ∈ done, ∃ category name, earlier.Names kind category name ∧
      statement.Names kind category name ∧ ∃ related, error =
        { StatementError.of .duplicateIdentifier statement .entry name with
          related } := by
  obtain ⟨holder, kind', category, name, names, refused⟩ := disputes
  have recounts := begun.recounts_of_readAll sound whole
  obtain rfl : id = holder := by simpa [recounts.top] using names.top
  obtain rfl := Option.some.inj (recounts.kind?.symm.trans names.isKind)
  obtain ⟨taken, blames⟩ := NameCategory.checkFresh_eq_error refused
  obtain ⟨earlier, listed, first⟩ := recounts.exists_names
    (begun.areNamed sound whole) (isShallow_of_readAll sound whole) taken
  exact ⟨earlier, listed, category, name, first, names.names, blames⟩

/-- A name that is taken inside a statement is repeated there. -/
theorem repeats_of_inside {openBlock closeBlock : Step} {part : Statement}
    (isBlock : role statement.known = .block openBlock closeBlock)
    (sound : draft.IsSound) (ok : openBlock draft statement = .ok opened)
    (inside : statement.substatements = done ++ part :: rest)
    (whole : (readAll opened done).error = none)
    (disputes : (readAll opened done).draft.Disputes part error) :
    statement.Repeats error := by
  obtain ⟨sound', held⟩ := isSound_of_opening isBlock sound ok
  obtain ⟨-, begun⟩ | ⟨kind, own, begun⟩ := begins_of_opening isBlock ok
  · exact absurd disputes (begun.not_disputes sound' held whole)
  · obtain ⟨earlier, listed, category, name, first, again, blames⟩ :=
      begun.exists_names sound' whole disputes
    exact .here own inside listed first again blames

mutual

/-- Where reading a statement stops because of a name, the name is taken where
the statement is read, or one is repeated in the statement. -/
theorem read_disputes {draft : Draft} (sound : draft.IsSound) :
    {statement : Statement} → (read draft statement).error = some error →
      ¬ error.SparesNames →
        draft.Disputes statement error ∨ statement.Repeats error
  | ⟨keyword, argument, span, block, substatements⟩, stops, about => by
      generalize is :
        (⟨keyword, argument, span, block, substatements⟩ : Statement) =
          statement at stops ⊢
      have below : statement.substatements = substatements := is ▸ rfl
      have disputes := role_disputes statement.known
      rw [read_eq] at stops
      split at stops
      next openBlock closeBlock isBlock =>
        rw [isBlock] at disputes
        cases disputes with
        | block opening _ closing =>
            obtain refused | ⟨begins, stops⟩ := Progress.andThen_stops stops
            · have refused := Progress.ofStep_stops refused
              exact .inl ((opening rfl error refused).resolve_left about)
            have ok := Progress.ofStep_error begins
            generalize (Progress.ofStep draft (openBlock draft statement)).draft
              = opened at ok stops
            obtain ⟨sound', -⟩ := isSound_of_opening isBlock sound ok
            obtain stops | ⟨-, refused⟩ := Progress.andThen_stops stops
            · rw [below] at stops
              obtain ⟨done, part, rest, same, whole, disputes | repeats⟩ :=
                readAll_disputes sound' stops about
              · exact .inr <| repeats_of_inside isBlock sound ok
                  (below.trans same) whole disputes
              · refine .inr (.inside ?_ repeats)
                rw [below, same]
                exact List.mem_append_right done List.mem_cons_self
            · have refused := Progress.ofStep_stops refused
              exact absurd (closing _ statement error refused) about
      next write isEntry =>
        rw [isEntry] at disputes
        cases disputes with
        | entry _ writing =>
            obtain refused | ⟨-, stops⟩ := Progress.andThen_stops stops
            · have refused := Progress.ofStep_stops refused
              exact absurd (writing draft statement error refused) about
            · exact absurd (readForeign_spares stops) about
      next => cases stops
      next refuse isRefused =>
        rw [isRefused] at disputes
        obtain rfl := Option.some.inj stops
        cases disputes with
        | refused spares => exact absurd (spares statement) about

/-- Where reading statements stops because of a name, the statements in front have
been read, and the name is taken there, or one is repeated in the statement. -/
theorem readAll_disputes {draft : Draft} (sound : draft.IsSound) :
    {statements : List Statement} →
      (readAll draft statements).error = some error → ¬ error.SparesNames →
        ∃ done statement rest, statements = done ++ statement :: rest ∧
          (readAll draft done).error = none ∧
            ((readAll draft done).draft.Disputes statement error ∨
              statement.Repeats error)
  | [], stops, _ => by cases stops
  | statement :: rest, stops, about => by
      rw [readAll] at stops
      obtain first | ⟨first, stops⟩ := Progress.andThen_stops stops
      · exact ⟨[], statement, rest, rfl, rfl, read_disputes sound first about⟩
      · have sound' := (read_reads first).follows.sound sound
        obtain ⟨done, other, rest, rfl, whole, disputes⟩ :=
          readAll_disputes sound' stops about
        refine ⟨statement :: done, other, rest, rfl, ?_⟩
        rw [readAll, Progress.andThen, first]
        exact ⟨whole, disputes⟩

end

/-- Where reading a file stops because of a name, it is repeated in one of the
statements. -/
theorem readTopLevel_repeats {seen : Bool} (sound : draft.IsSound)
    (unwound : draft.stack = [])
    (stops : (readTopLevel draft seen statements).error = some error)
    (about : ¬ error.SparesNames) :
    ∃ statement ∈ statements, statement.Repeats error := by
  induction statements generalizing draft seen with
  | nil =>
      unfold readTopLevel at stops
      split at stops
      · cases stops
      · obtain rfl := Option.some.inj stops
        exact absurd (fun is => absurd is (by decide)) about
  | cons statement rest ih =>
      have step {seen' : Bool} (stops : ((read draft statement).andThen
          (readTopLevel · seen' rest)).error = some error) :
          ∃ other ∈ statement :: rest, other.Repeats error := by
        obtain first | ⟨first, others⟩ := Progress.andThen_stops stops
        · obtain disputes | repeats := read_disputes sound first about
          · -- Nothing is open that could have the name.
            obtain ⟨_, _, _, _, names, -⟩ := disputes
            have top := names.top
            rw [unwound] at top
            cases top
          · exact ⟨statement, List.mem_cons_self, repeats⟩
        · have follows := (read_reads first).follows
          obtain ⟨other, listed, repeats⟩ :=
            ih (follows.sound sound) (follows.unwound unwound) others
          exact ⟨other, List.mem_cons_of_mem _ listed, repeats⟩
      have refused {detail : String} (is : StatementError.of .invalidHolder
          statement .entry detail = error) :
          ∃ other ∈ statement :: rest, other.Repeats error := by
        subst is
        exact absurd (StatementError.sparesNames_of (by decide)) about
      unfold readTopLevel at stops
      dsimp only at stops
      split at stops
      case h_3 => exact step stops
      case h_4 => exact refused (Option.some.inj stops)
      all_goals
        split at stops
        · exact refused (Option.some.inj stops)
        · exact step stops

end Draft

/-- Inside a node of a tree no name stands twice in one category. -/
structure SchemaTree.HasUniqueNames (tree : SchemaTree) : Prop where
  children : ∀ (parent child other : NodeId) (holder node node' : SchemaNode)
    (category : NameCategory), tree.node? parent = some holder →
    child ∈ tree.children parent → other ∈ tree.children parent →
    child ≠ other → tree.node? child = some node →
    tree.node? other = some node' →
    NameCategory.of? node.kind holder.kind = some category →
    NameCategory.of? node'.kind holder.kind = some category →
      node.name ≠ node'.name
  enumMembers : ∀ (id : NodeId) (members : List NumberedMember),
    tree.construct? id = some (.enumeration members) →
      (members.map (·.name)).Nodup
  bitMembers : ∀ (id : NodeId) (members : List NumberedMember),
    tree.construct? id = some (.bits members) → (members.map (·.name)).Nodup

namespace SchemaTree.Mirrors

variable {tree : SchemaTree} {statements : List Statement}
  (mirrors : tree.Mirrors 0 (Statement.introductionsAll none [] 0 statements))
  (keeps : ∀ statement ∈ statements, statement.KeepsNames)
include mirrors

theorem areKinds : Statement.AreKinds tree.kind? 0
    (Statement.introductionsAll none [] 0 statements) := by
  intro index introduction listed
  obtain ⟨node, found, introduced, -⟩ := mirrors.node index introduction listed
  rw [SchemaTree.kind?, found, Option.map_some, introduced.kind]

include keeps

/-- The members of a node were introduced by different names. -/
theorem nodup_members {id : NodeId} {construct : Construct} {keyword : Keyword}
    {category : NameCategory} {members : List NumberedMember}
    {frame : NumberedMember → Frame}
    (within : tree.construct? id = some construct)
    (listed : (keyword, members.map frame) ∈ construct.attributes.lists)
    (is : ∀ member, frame member = .enum member ∨ frame member = .bit member)
    (own : keyword.category? construct.kind = some category) :
    (members.map (·.name)).Nodup := by
  obtain ⟨node, found, rfl⟩ := SchemaTree.construct?_eq_some_iff.mp within
  obtain ⟨introduction, made, introduced, stores⟩ :=
    mirrors.exists_introduction found
  obtain ⟨kind?, keeps⟩ := Statement.introductionsAll_keepsNames keeps
    introduction (List.mem_of_getElem? made)
  have kind? := kind?.trans (congrArg some introduced.kind.symm)
  have among (other : Statement) (found : other ∈
      introduction.statement.substatements.filter (·.known == keyword)) :
      other.known.category? node.kind = some category := by
    rw [beq_iff_eq.mp (List.mem_filter.mp found).2]
    exact own
  have built : List.Forall₂ Built
      (introduction.statement.substatements.filter (·.known == keyword))
      (members.map frame) := by
    cases stores.obeys with
    | intro _ _ lists => exact lists keyword _ (List.mem_append_left _ listed)
  exact nodup_of_isMember (forall₂_isMember built is) among
    ((keeps.areApart kind?).apart.filter _)

theorem hasUniqueNames : tree.HasUniqueNames where
  children parent child other holder node node' category above inside inside'
    different found found' own own' := by
    have pairwise := List.pairwise_iff_getElem.mp <|
      Statement.introductionsAll_pairwise keeps (by simp) mirrors.areKinds
    obtain ⟨first, made, introduced, -⟩ := mirrors.exists_introduction found
    obtain ⟨second, made', introduced', -⟩ := mirrors.exists_introduction found'
    have apart : first.IsApart tree.kind? second := by
      obtain ⟨within, rfl⟩ := List.getElem?_eq_some_iff.mp made
      obtain ⟨within', rfl⟩ := List.getElem?_eq_some_iff.mp made'
      obtain before | behind := Nat.lt_or_gt_of_ne different
      · exact pairwise child other within within' before
      · exact (pairwise other child within' within behind).symm
    obtain ⟨_, same, within⟩ := SchemaTree.mem_children_iff.mp inside
    obtain rfl := Option.some.inj (found.symm.trans same)
    obtain ⟨_, same', within'⟩ := SchemaTree.mem_children_iff.mp inside'
    obtain rfl := Option.some.inj (found'.symm.trans same')
    rw [introduced.kind] at own
    rw [introduced'.kind] at own'
    rw [introduced.name, introduced'.name]
    exact apart parent holder.kind category
      (introduced.parent.symm.trans within)
      (introduced'.parent.symm.trans within')
      (by rw [SchemaTree.kind?, above, Option.map_some]) own own'
  enumMembers id members within :=
    mirrors.nodup_members keeps within List.mem_cons_self (fun _ => .inl rfl)
      rfl
  bitMembers id members within :=
    mirrors.nodup_members keeps within List.mem_cons_self (fun _ => .inr rfl)
      rfl

end SchemaTree.Mirrors

namespace Analysis

/-- Where a source is read without an error, no name stands twice in one category
inside a node.  And where an error is about a name other than the prefix of an
import, the statement that it is about repeats a name of its category which a
statement in front of it has introduced in the same node. -/
theorem names_are_unique {limits : ParseLimits} {id : SourceId}
    {source : String} {parsed : Parsed}
    (ok : parse limits id source = .ok parsed) :
    let statements := Statement.ofTree parsed.tree
    ((ofStatements id statements).failed = false →
      (ofStatements id statements).tree.HasUniqueNames) ∧
    ∀ error, (Draft.readTopLevel (.empty id) false statements).error =
        some error →
      error.kind = .duplicateIdentifier → error.keyword ≠ "import" →
        ∃ statement ∈ statements, statement.Repeats error := by
  intro statements
  refine ⟨fun whole => ?_, fun error stops about other => ?_⟩
  · have keeps := Draft.readTopLevel_keepsNames (.empty id)
      (areOrdered_of_parse ok) (by simpa [ofStatements] using whole)
    exact (ofStatements_mirrors whole).hasUniqueNames keeps
  · exact Draft.readTopLevel_repeats (.empty id) rfl stops fun spares =>
      other (spares about)

/-- A leaf may be called like a grouping, but not like a container. -/
theorem names_are_unique_leaf :
    (∃ parsed, parse .standard 0
        ("module m \x7b namespace \"u:m\"; prefix m; grouping x; leaf x " ++
          "\x7b type enumeration \x7b enum up; enum down; \x7d \x7d \x7d") =
            .ok parsed ∧
      let analysis := ofStatements 0 (Statement.ofTree parsed.tree)
      analysis.failed = false ∧ analysis.tree.HasUniqueNames) ∧
    ∃ parsed, parse .standard 0
        ("module m \x7b namespace \"u:m\"; prefix m; leaf x " ++
          "\x7b type string; \x7d container x; \x7d") = .ok parsed ∧
      let statements := Statement.ofTree parsed.tree
      ∃ error, (Draft.readTopLevel (.empty 0) false statements).error =
          some error ∧
        error.kind = .duplicateIdentifier ∧ error.keyword = "container" ∧
        ∃ statement ∈ statements, statement.Repeats error := by
  constructor
  · generalize written : (_ ++ _ : String) = text
    have checked : (parse .standard 0 text).toOption.any (fun parsed =>
        !(ofStatements 0 (Statement.ofTree parsed.tree)).failed) = true := by
      subst written
      decide +kernel
    cases parsing : parse .standard 0 text with
    | error error => simp [parsing, Except.toOption] at checked
    | ok parsed =>
        simp only [parsing, Except.toOption, Option.any_some,
          Bool.not_eq_true'] at checked
        exact ⟨parsed, rfl, checked, (names_are_unique parsing).1 checked⟩
  · generalize written : (_ ++ _ : String) = text
    have checked : (parse .standard 0 text).toOption.any (fun parsed =>
        (Draft.readTopLevel (.empty 0) false
          (Statement.ofTree parsed.tree)).error.any fun error =>
            error.kind == .duplicateIdentifier &&
              error.keyword == "container") = true := by
      subst written
      decide +kernel
    cases parsing : parse .standard 0 text with
    | error error => simp [parsing, Except.toOption] at checked
    | ok parsed =>
        simp only [parsing, Except.toOption, Option.any_some,
          Option.any_eq_true, Bool.and_eq_true, beq_iff_eq] at checked
        obtain ⟨error, stops, about, keyword⟩ := checked
        have repeats := (names_are_unique parsing).2 error stops about
          (by simp [keyword])
        exact ⟨parsed, rfl, error, stops, about, keyword, repeats⟩

end Analysis

end YangSchema
