import YangSchema.Proofs.Draft.Mirrored
import YangSchema.Proofs.Draft.Naming

/-!
# Nodes of one holder

Introductions are listed in the order of the statements, and each of them knows
the number of the innermost node around it.  The introductions inside one node
are those of the sub-statements of its statement, as long as no statement without
a node hides one that has a node.  So where the sub-statements of each statement
have different names, the nodes inside one node have different names.
-/

namespace YangSchema

variable {statement : Statement} {statements earlier : List Statement}
  {around : Option Surrounding} {next : NodeId} {introduction : Introduction}
  {kind holder : ConstructKind} {category : NameCategory} {name : String}

namespace Statement

/-- The kind of the node that a statement introduces. -/
def kind? (statement : Statement) : Option ConstructKind :=
  match statement.known with
  | .type => statement.memberNode?.map (·.1)
  | keyword => keyword.introduces?

theorem map_introduces? (statement : Statement) (around : Option Surrounding)
    (earlier : List Statement) :
    (statement.introduces? around earlier).map (·.1) = statement.kind? := by
  unfold introduces? kind?
  split
  next known => simp [known, Function.comp_def]
  next known => simp [known, Keyword.introduces?]
  next known => simp [known, Keyword.introduces?]
  next type _ _ =>
    split
    next known => exact absurd known type
    · simp [Function.comp_def]

theorem introduces?_eq_none (plain : statement.kind? = none) :
    statement.introduces? around earlier = none := by
  rw [← Option.map_eq_none_iff, map_introduces?, plain]

theorem exists_introduces? (own : statement.kind? = some kind)
    (around : Option Surrounding) (earlier : List Statement) :
    ∃ name, statement.introduces? around earlier = some (kind, name) := by
  rw [← statement.map_introduces? around earlier] at own
  obtain ⟨⟨kind', name⟩, found, rfl⟩ := Option.map_eq_some_iff.mp own
  exact ⟨name, found⟩

/-- The category of a node is that of its statement. -/
theorem category?_of_introduces?
    (introduced : statement.introduces? around earlier = some (kind, name))
    (own : NameCategory.of? kind holder = some category) :
    statement.known.category? holder = some category ∧
      statement.argumentValue.getD "" = name := by
  unfold introduces? at introduced
  split at introduced
  · obtain ⟨⟨kind', ending⟩, member, same⟩ :=
      Option.map_eq_some_iff.mp introduced
    obtain ⟨rfl, -⟩ := Prod.mk.inj same
    unfold memberNode? at member
    split at member
    · obtain ⟨rfl, -⟩ := Prod.mk.inj (Option.some.inj member)
      simp [NameCategory.of?] at own
    · split at member
      · obtain ⟨rfl, -⟩ := Prod.mk.inj (Option.some.inj member)
        simp [NameCategory.of?] at own
      · split at member
        · obtain ⟨rfl, -⟩ := Prod.mk.inj (Option.some.inj member)
          simp [NameCategory.of?] at own
        · simp at member
  · obtain ⟨rfl, -⟩ := Prod.mk.inj (Option.some.inj introduced)
    simp [NameCategory.of?] at own
  · obtain ⟨rfl, -⟩ := Prod.mk.inj (Option.some.inj introduced)
    simp [NameCategory.of?] at own
  · obtain ⟨kind', found, same⟩ := Option.map_eq_some_iff.mp introduced
    obtain ⟨rfl, rfl⟩ := Prod.mk.inj same
    refine ⟨?_, rfl⟩
    unfold Keyword.category?
    split
    next known => simp [known, Keyword.introduces?] at found
    next known => simp [known, Keyword.introduces?] at found
    · rw [found, Option.bind_some, own]

/-- A name is that of a member or of a node. -/
theorem introduces?_of_category?
    (own : statement.known.category? holder = some category) :
    statement.known = .enum ∧ category = .enumMember ∨
      statement.known = .bit ∧ category = .bitMember ∨
        ∃ kind, statement.kind? = some kind ∧
          NameCategory.of? kind holder = some category := by
  unfold Keyword.category? at own
  split at own
  next known => exact .inl ⟨known, (Option.some.inj own).symm⟩
  next known => exact .inr (.inl ⟨known, (Option.some.inj own).symm⟩)
  · obtain ⟨kind, found, own⟩ := Option.bind_eq_some_iff.mp own
    refine .inr (.inr ⟨kind, ?_, own⟩)
    unfold kind?
    split
    next known => simp [known, Keyword.introduces?] at found
    · exact found

end Statement

/-- The innermost node around an introduction is a given one, or one of those
numbered from `start` up to `stop`. -/
def Introduction.StandsIn (introduction : Introduction)
    (around : Option NodeId) (start stop : Nat) : Prop :=
  introduction.parent = around ∨
    ∃ id : Nat, introduction.parent = some id ∧ start ≤ id ∧ id < stop

theorem Introduction.StandsIn.mono {around : Option NodeId}
    {start stop start' stop' : Nat}
    (stands : introduction.StandsIn around start stop)
    (least : start' ≤ start) (most : stop ≤ stop') :
    introduction.StandsIn around start' stop' := by
  obtain around | ⟨id, inside, above, below⟩ := stands
  · exact .inl around
  · exact .inr ⟨id, inside, by omega, by omega⟩

/-- The only node that two introductions can stand in one behind the other is the
one around both. -/
theorem Introduction.StandsIn.around_of_behind {around : Option NodeId}
    {start middle stop : Nat} {second : Introduction} {id : NodeId}
    (stands : introduction.StandsIn around start middle)
    (stands' : second.StandsIn around middle stop)
    (parent : introduction.parent = some id)
    (parent' : second.parent = some id) : around = some id := by
  obtain own | ⟨inner, inside, -, below⟩ := stands
  · exact own.symm.trans parent
  obtain own | ⟨inner', inside', above, -⟩ := stands'
  · exact own.symm.trans parent'
  obtain rfl : inner = inner' := Option.some.inj <|
    (inside.symm.trans parent).trans (parent'.symm.trans inside')
  exact absurd below (Nat.not_lt_of_le above)

namespace Statement

mutual

/-- What a statement introduces is inside the node around it or inside another
node that the statement introduces. -/
theorem introductions_standIn {around : Option Surrounding}
    {earlier : List Statement} {next : Nat} :
    (statement : Statement) →
      ∀ introduction ∈ introductions around earlier next statement,
        introduction.StandsIn (around.map (·.node)) next
          (next + (introductions around earlier next statement).length)
  | ⟨keyword, argument, span, block, substatements⟩, introduction, listed => by
      generalize is :
        (⟨keyword, argument, span, block, substatements⟩ : Statement) =
          statement at listed ⊢
      have below : statement.substatements = substatements := is ▸ rfl
      by_cases known : statement.known = .extensionInstance
      · rw [introductions_of_extension known] at listed
        cases listed
      cases introduced : statement.introduces? around earlier with
      | none =>
          rw [introductions_of_none known introduced, below] at listed ⊢
          exact introductionsAll_standIn substatements introduction listed
      | some made =>
          obtain ⟨kind, name⟩ := made
          rw [introductions_of_some introduced, below] at listed ⊢
          obtain rfl | listed := List.mem_cons.mp listed
          · exact .inl rfl
          rw [List.length_cons]
          have inside :=
            introductionsAll_standIn substatements introduction listed
          obtain own | ⟨id, own, above, before⟩ := inside
          · exact .inr ⟨next, own, by omega, by omega⟩
          · exact .inr ⟨id, own, by omega, by omega⟩

theorem introductionsAll_standIn {around : Option Surrounding}
    {earlier : List Statement} {next : Nat} :
    (statements : List Statement) →
      ∀ introduction ∈ introductionsAll around earlier next statements,
        introduction.StandsIn (around.map (·.node)) next
          (next + (introductionsAll around earlier next statements).length)
  | [], introduction, listed => by simp [introductionsAll] at listed
  | statement :: rest, introduction, listed => by
      rw [introductionsAll] at listed ⊢
      rw [List.length_append]
      obtain listed | listed := List.mem_append.mp listed
      · have first := introductions_standIn statement introduction listed
        exact first.mono (by omega) (by omega)
      · have others := introductionsAll_standIn rest introduction listed
        exact others.mono (by omega) (by omega)

end

mutual

theorem length_introductions {around around' : Option Surrounding}
    {earlier earlier' : List Statement} {next next' : Nat} :
    (statement : Statement) →
      (introductions around earlier next statement).length =
        (introductions around' earlier' next' statement).length
  | ⟨keyword, argument, span, block, substatements⟩ => by
      generalize is :
        (⟨keyword, argument, span, block, substatements⟩ : Statement) =
          statement
      have below : statement.substatements = substatements := is ▸ rfl
      by_cases known : statement.known = .extensionInstance
      · rw [introductions_of_extension known, introductions_of_extension known]
      cases own : statement.kind? with
      | none =>
          rw [introductions_of_none known (introduces?_eq_none own),
            introductions_of_none known (introduces?_eq_none own), below]
          exact length_introductionsAll substatements
      | some kind =>
          obtain ⟨name, introduced⟩ := exists_introduces? own around earlier
          obtain ⟨name', introduced'⟩ :=
            exists_introduces? own around' earlier'
          rw [introductions_of_some introduced,
            introductions_of_some introduced', below, List.length_cons,
            List.length_cons, length_introductionsAll substatements]

/-- How many nodes are introduced does not depend on where that is. -/
theorem length_introductionsAll {around around' : Option Surrounding}
    {earlier earlier' : List Statement} {next next' : Nat} :
    (statements : List Statement) →
      (introductionsAll around earlier next statements).length =
        (introductionsAll around' earlier' next' statements).length
  | [] => by rw [introductionsAll, introductionsAll]
  | statement :: rest => by
      rw [introductionsAll, introductionsAll, List.length_append,
        List.length_append, length_introductions statement,
        length_introductionsAll rest]

end

/-- A statement without a node hides none that has a node. -/
def IsShallow (statement : Statement) : Prop :=
  statement.kind? = none → introductions none [] 0 statement = []

theorem IsShallow.introductions_eq_nil (shallow : statement.IsShallow)
    (plain : statement.kind? = none) :
    introductions around earlier next statement = [] := by
  have length := @length_introductions around none earlier [] next 0 statement
  rw [shallow plain, List.length_nil] at length
  exact List.eq_nil_of_length_eq_zero length

theorem isShallow_of_extension (known : statement.known = .extensionInstance) :
    statement.IsShallow :=
  fun _ => introductions_of_extension known

/-- What is introduced inside the node around some statements is introduced by
these statements themselves. -/
theorem mem_of_parent {holder : Surrounding} {next : Nat}
    (behind : holder.node < next)
    (shallow : ∀ statement ∈ statements, statement.IsShallow)
    (listed : introduction ∈
      introductionsAll (some holder) earlier next statements)
    (inside : introduction.parent = some holder.node) :
    introduction.statement ∈ statements ∧
      ∃ before, introduction.statement.introduces? (some holder) before =
        some (introduction.kind, introduction.name) := by
  induction statements generalizing earlier next with
  | nil => simp [introductionsAll] at listed
  | cons statement rest ih =>
      rw [introductionsAll] at listed
      obtain listed | listed := List.mem_append.mp listed
      · cases introduced : statement.introduces? (some holder) earlier with
        | none =>
            have plain : statement.kind? = none := by
              rw [← statement.map_introduces? (some holder) earlier, introduced,
                Option.map_none]
            rw [(shallow statement (by simp)).introductions_eq_nil plain]
              at listed
            cases listed
        | some made =>
            rw [introductions_of_some introduced] at listed
            obtain rfl | listed := List.mem_cons.mp listed
            · exact ⟨by simp, earlier, introduced⟩
            -- All others stand inside the new node or behind it.
            have deeper := introductionsAll_standIn _ introduction listed
            obtain own | ⟨id, own, above, -⟩ := deeper
            · have same : holder.node = next := by simpa [inside] using own
              exact absurd same (Nat.ne_of_lt behind)
            · have same : holder.node = id := by simpa [inside] using own
              exact absurd same (Nat.ne_of_lt (Nat.lt_trans behind above))
      · have others := ih (Nat.lt_add_right _ behind)
          (fun other later => shallow other (by simp [later])) listed
        exact ⟨List.mem_cons_of_mem statement others.1, others.2⟩

/-- Each statement that has a node introduces it inside the node around it. -/
theorem exists_introduction {holder : Surrounding} {next : Nat}
    (own : statement.kind? = some kind) (listed : statement ∈ statements) :
    ∃ introduction ∈ introductionsAll (some holder) earlier next statements,
      introduction.statement = statement ∧
        introduction.parent = some holder.node ∧
          ∃ before, statement.introduces? (some holder) before =
            some (introduction.kind, introduction.name) := by
  induction statements generalizing earlier next with
  | nil => cases listed
  | cons first rest ih =>
      rw [introductionsAll]
      obtain rfl | listed := List.mem_cons.mp listed
      · obtain ⟨name, introduced⟩ :=
          exists_introduces? own (some holder) earlier
        rw [introductions_of_some introduced]
        exact ⟨_, List.mem_append_left _ List.mem_cons_self, rfl, rfl, earlier,
          introduced⟩
      · obtain ⟨introduction, made, rest⟩ := ih listed
        exact ⟨introduction, List.mem_append_right _ made, rest⟩

/-- Statements that introduce a name inside a node of some kind have one. -/
def AreNamed (holder : ConstructKind) (statements : List Statement) : Prop :=
  ∀ statement ∈ statements, ∀ category,
    statement.known.category? holder = some category →
      ∃ name, statement.argumentValue = some name

/-- Inside a node of some kind, statements introduce different names in each
category. -/
structure AreApart (holder : ConstructKind) (statements : List Statement) :
    Prop where
  named : AreNamed holder statements
  apart : statements.Pairwise fun earlier later => ∀ category name,
    earlier.Names holder category name → ¬ later.Names holder category name

/-- Wherever a statement contains others, they introduce different names. -/
inductive KeepsNames : Statement → Prop
  | foreign {statement : Statement}
      (known : statement.known = .extensionInstance) : KeepsNames statement
  | intro {statement : Statement} (shallow : statement.IsShallow)
      (apart : ∀ kind, statement.kind? = some kind →
        AreApart kind statement.substatements)
      (inside : ∀ part ∈ statement.substatements, KeepsNames part) :
      KeepsNames statement

theorem KeepsNames.isShallow (keeps : statement.KeepsNames) :
    statement.IsShallow := by
  cases keeps with
  | foreign known => exact isShallow_of_extension known
  | intro shallow _ _ => exact shallow

theorem KeepsNames.areApart (keeps : statement.KeepsNames)
    (own : statement.kind? = some kind) :
    AreApart kind statement.substatements := by
  cases keeps with
  | foreign known => simp [kind?, known, Keyword.introduces?] at own
  | intro _ apart _ => exact apart kind own

theorem KeepsNames.inside (keeps : statement.KeepsNames)
    (own : statement.kind? = some kind) :
    ∀ part ∈ statement.substatements, part.KeepsNames := by
  cases keeps with
  | foreign known => simp [kind?, known, Keyword.introduces?] at own
  | intro _ _ inside => exact inside

mutual

/-- The statement of an introduction has a node of that kind, and it keeps names
apart. -/
theorem introductions_keepsNames {around : Option Surrounding}
    {earlier : List Statement} {next : Nat} : {statement : Statement} →
      statement.KeepsNames →
        ∀ introduction ∈ introductions around earlier next statement,
          introduction.statement.kind? = some introduction.kind ∧
            introduction.statement.KeepsNames
  | ⟨keyword, argument, span, block, substatements⟩, keeps, introduction,
    listed => by
      generalize is :
        (⟨keyword, argument, span, block, substatements⟩ : Statement) =
          statement at keeps listed
      have below : statement.substatements = substatements := is ▸ rfl
      cases own : statement.kind? with
      | none =>
          rw [keeps.isShallow.introductions_eq_nil own] at listed
          cases listed
      | some kind =>
          obtain ⟨name, introduced⟩ := exists_introduces? own around earlier
          have inside := keeps.inside own
          rw [introductions_of_some introduced, below] at listed
          rw [below] at inside
          obtain rfl | listed := List.mem_cons.mp listed
          · exact ⟨own, keeps⟩
          · exact introductionsAll_keepsNames inside introduction listed

theorem introductionsAll_keepsNames {around : Option Surrounding}
    {earlier : List Statement} {next : Nat} : {statements : List Statement} →
      (∀ statement ∈ statements, statement.KeepsNames) →
        ∀ introduction ∈ introductionsAll around earlier next statements,
          introduction.statement.kind? = some introduction.kind ∧
            introduction.statement.KeepsNames
  | [], _, introduction, listed => by simp [introductionsAll] at listed
  | statement :: rest, keeps, introduction, listed => by
      obtain ⟨first, others⟩ := List.forall_mem_cons.mp keeps
      rw [introductionsAll] at listed
      obtain listed | listed := List.mem_append.mp listed
      · exact introductions_keepsNames first introduction listed
      · exact introductionsAll_keepsNames others introduction listed

end

end Statement

/-- Two nodes inside one node have different names if they are of one
category. -/
def Introduction.IsApart (kindOf : NodeId → Option ConstructKind)
    (first second : Introduction) : Prop :=
  ∀ id kind category, first.parent = some id → second.parent = some id →
    kindOf id = some kind →
    NameCategory.of? first.kind kind = some category →
    NameCategory.of? second.kind kind = some category →
      first.name ≠ second.name

theorem Introduction.IsApart.symm {kindOf : NodeId → Option ConstructKind}
    {first second : Introduction} (apart : first.IsApart kindOf second) :
    second.IsApart kindOf first :=
  fun id kind category parent parent' isKind own own' =>
    (apart id kind category parent' parent isKind own' own).symm

namespace Statement

variable {kindOf : NodeId → Option ConstructKind}

/-- Nodes that different statements introduce in one node have different
names. -/
theorem AreApart.isApart {holder : Surrounding} {first second : Introduction}
    {rest before before' : List Statement}
    (apart : AreApart holder.kind (first.statement :: rest))
    (later : second.statement ∈ rest)
    (kindOf_holder : kindOf holder.node = some holder.kind)
    (inside : first.parent = some holder.node)
    (introduced : first.statement.introduces? (some holder) before =
      some (first.kind, first.name))
    (introduced' : second.statement.introduces? (some holder) before' =
      some (second.kind, second.name)) :
    first.IsApart kindOf second := by
  intro id kind category parent _ isKind own own' same
  obtain rfl : holder.node = id := Option.some.inj (inside.symm.trans parent)
  obtain rfl : holder.kind = kind :=
    Option.some.inj (kindOf_holder.symm.trans isKind)
  obtain ⟨category?, named⟩ := category?_of_introduces? introduced own
  obtain ⟨category?', named'⟩ := category?_of_introduces? introduced' own'
  obtain ⟨name, argument⟩ := apart.named _ (by simp) category category?
  obtain ⟨name', argument'⟩ :=
    apart.named _ (by simp [later]) category category?'
  rw [argument, Option.getD_some] at named
  rw [argument', Option.getD_some] at named'
  have renamed : name' = name := named'.trans (same.symm.trans named.symm)
  exact (List.pairwise_cons.mp apart.apart).1 _ later category name
    ⟨category?, argument⟩ ⟨category?', renamed ▸ argument'⟩

/-- The kinds of nodes are those that are introduced from some number on. -/
def AreKinds (kindOf : NodeId → Option ConstructKind) (start : Nat)
    (introductions : List Introduction) : Prop :=
  ∀ index introduction, introductions[index]? = some introduction →
    kindOf (start + index) = some introduction.kind

theorem AreKinds.tail {start : Nat} {first : Introduction}
    {introductions : List Introduction}
    (kinds : AreKinds kindOf start (first :: introductions)) :
    AreKinds kindOf (start + 1) introductions := by
  intro index introduction listed
  have kind := kinds (index + 1) introduction listed
  rwa [Nat.add_comm index, ← Nat.add_assoc] at kind

theorem AreKinds.of_append {start : Nat} {first others : List Introduction}
    (kinds : AreKinds kindOf start (first ++ others)) :
    AreKinds kindOf start first ∧
      AreKinds kindOf (start + first.length) others := by
  refine ⟨fun index introduction listed => kinds index introduction ?_,
    fun index introduction listed => ?_⟩
  · have within : index < first.length :=
      (List.getElem?_eq_some_iff.mp listed).1
    rw [List.getElem?_append_left within, listed]
  · have kind := kinds (first.length + index) introduction (by
      rw [List.getElem?_append_right (Nat.le_add_right ..),
        Nat.add_sub_cancel_left, listed])
    rwa [← Nat.add_assoc] at kind

/-- The node around some statements, inside which they introduce different
names. -/
structure IsHolder (kindOf : NodeId → Option ConstructKind) (next : Nat)
    (statements : List Statement) (holder : Surrounding) : Prop where
  behind : holder.node < next
  isKind : kindOf holder.node = some holder.kind
  apart : AreApart holder.kind statements

theorem AreApart.tail (apart : AreApart kind (statement :: statements)) :
    AreApart kind statements where
  named other listed := apart.named other (List.mem_cons_of_mem _ listed)
  apart := (List.pairwise_cons.mp apart.apart).2

/-- A name that is introduced by one statement and again behind it is not
introduced in one node. -/
theorem isApart_of_behind {next : Nat} {first second : Introduction}
    (shallow : ∀ other ∈ statement :: statements, other.IsShallow)
    (holders : ∀ holder, around = some holder →
      IsHolder kindOf next (statement :: statements) holder)
    (made : first ∈ introductions around earlier next statement)
    (made' : second ∈ introductionsAll around (earlier ++ [statement])
      (next + (introductions around earlier next statement).length)
      statements) : first.IsApart kindOf second := by
  intro id kind category parent parent' isKind own own'
  obtain ⟨holder, rfl, same⟩ := Option.map_eq_some_iff.mp <|
    (introductions_standIn statement first made).around_of_behind
      (introductionsAll_standIn statements second made') parent parent'
  have isHolder := holders holder rfl
  have single : first ∈ introductionsAll (some holder) earlier next
      [statement] := by
    simpa [introductionsAll] using made
  obtain ⟨isFirst, before, introduced⟩ := mem_of_parent isHolder.behind
    (fun other listed => shallow other (by simp_all)) single
    (parent.trans (congrArg some same.symm))
  obtain ⟨later, before', introduced'⟩ := mem_of_parent
    (Nat.lt_add_right _ isHolder.behind)
    (fun other listed => shallow other (by simp [listed])) made'
    (parent'.trans (congrArg some same.symm))
  have apart : AreApart holder.kind (first.statement :: statements) := by
    rw [List.mem_singleton.mp isFirst]
    exact isHolder.apart
  exact apart.isApart later isHolder.isKind
    (parent.trans (congrArg some same.symm)) introduced introduced' id kind
    category parent parent' isKind own own'

mutual

/-- The nodes that a statement introduces have different names wherever they are
inside one node. -/
theorem introductions_pairwise {around : Option Surrounding}
    {earlier : List Statement} {next : Nat} : {statement : Statement} →
      statement.KeepsNames → (∀ holder, around = some holder →
        holder.node < next) →
      AreKinds kindOf next (introductions around earlier next statement) →
        (introductions around earlier next statement).Pairwise
          (Introduction.IsApart kindOf)
  | ⟨keyword, argument, span, block, substatements⟩, keeps, behind, kinds => by
      generalize is :
        (⟨keyword, argument, span, block, substatements⟩ : Statement) =
          statement at keeps kinds ⊢
      have below : statement.substatements = substatements := is ▸ rfl
      cases own : statement.kind? with
      | none =>
          rw [keeps.isShallow.introductions_eq_nil own]
          exact .nil
      | some kind =>
          obtain ⟨name, introduced⟩ := exists_introduces? own around earlier
          have inside := keeps.inside own
          have apart := keeps.areApart own
          rw [introductions_of_some introduced, below] at kinds ⊢
          rw [below] at inside apart
          refine .cons (fun second listed id _ _ parent parent' => ?_) ?_
          · -- The new node is inside the one around it, all others are not.
            obtain ⟨holder, rfl, rfl⟩ := Option.map_eq_some_iff.mp parent
            have before := behind holder rfl
            have deeper := introductionsAll_standIn _ second listed
            obtain own | ⟨inner, own, above, -⟩ := deeper
            · have same : holder.node = next := by simpa [parent'] using own
              exact absurd same (Nat.ne_of_lt before)
            · have same : holder.node = inner := by simpa [parent'] using own
              exact absurd same (Nat.ne_of_lt (Nat.lt_trans before above))
          · refine introductionsAll_pairwise inside (fun holder isHolder => ?_)
              kinds.tail
            obtain rfl := Option.some.inj isHolder
            exact ⟨Nat.lt_succ_self next, kinds 0 _ rfl, apart⟩

theorem introductionsAll_pairwise {around : Option Surrounding}
    {earlier : List Statement} {next : Nat} : {statements : List Statement} →
      (∀ statement ∈ statements, statement.KeepsNames) →
      (∀ holder, around = some holder →
        IsHolder kindOf next statements holder) →
      AreKinds kindOf next (introductionsAll around earlier next statements) →
        (introductionsAll around earlier next statements).Pairwise
          (Introduction.IsApart kindOf)
  | [], _, _, _ => by
      rw [introductionsAll]
      exact .nil
  | statement :: rest, keeps, holders, kinds => by
      rw [introductionsAll] at kinds ⊢
      obtain ⟨first, others⟩ := kinds.of_append
      refine List.pairwise_append.mpr ⟨?_, ?_, fun first made second made' =>
        isApart_of_behind (fun other listed => (keeps other listed).isShallow)
          holders made made'⟩
      · exact introductions_pairwise (keeps statement (by simp))
          (fun holder is => (holders holder is).behind) first
      · refine introductionsAll_pairwise
          (fun other listed => keeps other (by simp [listed]))
          (fun holder is => ?_) others
        have isHolder := holders holder is
        exact ⟨Nat.lt_add_right _ isHolder.behind, isHolder.isKind,
          isHolder.apart.tail⟩

end

end Statement

end YangSchema
