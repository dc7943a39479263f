import Mathlib.Data.List.Basic
import Mathlib.Data.List.Find
import YangSchema.Draft.Types
import YangSchema.Proofs.Except

/-!
# Statements up to instances of extensions

A statement is looked into for two reasons:  its sub-statements with some
keyword are counted, and a declared `config` is read.  The keyword is never that
of an extension, and of the sub-statements that are found only the heads matter.
So nothing that is checked changes when instances of extensions are removed,
wherever they stand.
-/

namespace YangSchema

/-- No keyword of the language has a colon. -/
theorem Keyword.ofText_eq_extensionInstance {spelling : String}
    (colon : spelling.contains ':' = true) :
    ofText spelling = .extensionInstance := by
  have without : all.all (!·.text.contains ':') = true := by
    simp only [String.contains_char_eq]
    decide +kernel
  have none : all.find? (·.text == spelling) = none := by
    refine List.find?_eq_none.mpr fun keyword listed same => ?_
    obtain rfl := beq_iff_eq.mp same
    simpa [colon] using List.all_eq_true.mp without keyword listed
  rw [ofText, none]
  exact if_pos colon

namespace Statement

/-- Some instances of extensions are removed from a list of statements, with
everything below them.  All else remains as it is. -/
inductive Prunes : List Statement → List Statement → Prop
  | nil : Prunes [] []
  | drop {statement : Statement} {statements pruned : List Statement}
      (foreign : statement.keywordText.contains ':' = true)
      (others : Prunes statements pruned) :
      Prunes (statement :: statements) pruned
  | keep {statement : Statement}
      {substatements statements pruned : List Statement}
      (below : Prunes statement.substatements substatements)
      (others : Prunes statements pruned) :
      Prunes (statement :: statements)
        ({ statement with substatements } :: pruned)

/-- The statement without what stands below it. -/
def head (statement : Statement) : Statement :=
  { statement with substatements := [] }

/-- Only instances of extensions differ, and what stands below the others. -/
def AreAlike (first second : List Statement) : Prop :=
  ∀ keyword, keyword ≠ .extensionInstance →
    (first.filter (·.known == keyword)).map head =
      (second.filter (·.known == keyword)).map head

variable {statement : Statement}
  {substatements statements pruned : List Statement}

theorem Prunes.areAlike (prunes : Prunes statements pruned) :
    AreAlike statements pruned := by
  intro keyword own
  induction prunes with
  | nil => rfl
  | drop foreign _ others =>
      have known := Keyword.ofText_eq_extensionInstance foreign
      rw [List.filter_cons_of_neg (by simp [Statement.known, known, own.symm]),
        others]
  | @keep statement substatements _ _ _ _ _ others =>
      have known : { statement with substatements }.known =
        statement.known := rfl
      have heads : { statement with substatements }.head =
        statement.head := rfl
      simp only [List.filter_cons, known]
      split
      · rw [List.map_cons, List.map_cons, others, heads]
      · exact others

theorem AreAlike.find?_cases {keyword : Keyword}
    (alike : AreAlike statement.substatements substatements)
    (own : keyword ≠ .extensionInstance) :
    (statement.find? keyword = none ∧
      { statement with substatements }.find? keyword = none) ∨
    ∃ found found', statement.find? keyword = some found ∧
      { statement with substatements }.find? keyword = some found' ∧
        found'.head = found.head := by
  have heads := congrArg List.head? (alike keyword own)
  rw [List.head?_map, List.head?_map, List.head?_filter, List.head?_filter]
    at heads
  cases found : statement.find? keyword with
  | none =>
      rw [show statement.substatements.find? (·.known == keyword) = none
        from found] at heads
      exact .inl ⟨rfl, Option.map_eq_none_iff.mp heads.symm⟩
  | some first =>
      rw [show statement.substatements.find? (·.known == keyword) = some first
        from found] at heads
      obtain ⟨second, found', same⟩ := Option.map_eq_some_iff.mp heads.symm
      exact .inr ⟨first, second, rfl, found', same⟩

theorem AreAlike.has (alike : AreAlike statement.substatements substatements)
    {keyword : Keyword} (own : keyword ≠ .extensionInstance) :
    { statement with substatements }.has keyword = statement.has keyword := by
  have counted := congrArg List.length (alike keyword own)
  simp only [List.length_map] at counted
  simp [Statement.has, count, findAll, counted]

theorem keyNames_with (statement : Statement) (substatements : List Statement)
    (read : List String) (keys : List (List Char)) :
    keyNames { statement with substatements } read keys =
      keyNames statement read keys := by
  induction keys generalizing read with
  | nil => rfl
  | cons key rest ih =>
      simp only [keyNames, ih]
      rfl

end Statement

theorem StatementError.of_eq_of_head {first second : Statement}
    (kind : DiagnosticKind) (phase : Phase) (detail : String)
    (same : first.head = second.head) :
    of kind first phase detail = of kind second phase detail := by
  have heads : of kind first.head phase detail =
      of kind second.head phase detail := by
    rw [same]
  exact heads

namespace Cardinality

open Statement (AreAlike)

variable {statement : Statement} {substatements : List Statement}

/-- No extension is counted. -/
theorem ne_extensionInstance_of_mem_allRules {keyword : Keyword} {rule : Rule}
    (listed : rule ∈ allRules keyword) : rule.1 ≠ .extensionInstance := by
  have all : (allRules keyword).all (·.1 != .extensionInstance) = true := by
    cases keyword <;> rfl
  simpa using List.all_eq_true.mp all rule listed

theorem ne_extensionInstance_of_mem_families {keyword member : Keyword}
    {family : List Keyword} (listed : family ∈ families keyword)
    (inside : member ∈ family) : member ≠ .extensionInstance := by
  have all :
      (families keyword).all (·.all (· != .extensionInstance)) = true := by
    cases keyword <;> rfl
  have own := List.all_eq_true.mp all family listed
  simpa using List.all_eq_true.mp own member inside

theorem checkOne_alike (alike : AreAlike statement.substatements substatements)
    {rule : Rule} (own : rule.1 ≠ .extensionInstance) :
    checkOne { statement with substatements } rule =
      checkOne statement rule := by
  obtain ⟨keyword, cardinality⟩ := rule
  have heads : (statement.findAll keyword).map Statement.head =
      ({ statement with substatements }.findAll keyword).map Statement.head :=
    alike keyword own
  rcases found : statement.findAll keyword with
    _ | ⟨_, _ | ⟨second, _⟩⟩ <;>
  rcases found' : { statement with substatements }.findAll keyword with
    _ | ⟨_, _ | ⟨second', _⟩⟩ <;>
    simp only [found, found', List.map_nil, List.map_cons, List.cons.injEq,
      reduceCtorEq, and_false] at heads
  case nil.nil =>
    cases cardinality <;> simp only [checkOne, found, found'] <;> rfl
  case cons.nil.cons.nil =>
    cases cardinality <;> simp only [checkOne, found, found']
  case cons.cons.cons.cons =>
    have same := StatementError.of_eq_of_head .cardinalityViolation .entry
      s!"`{keyword.text}` may appear at most once under `{statement.known.text}`"
      heads.2.1
    cases cardinality <;> simp only [checkOne, found, found']
    · exact congrArg Except.error same.symm
    · exact congrArg Except.error same.symm

theorem presentFamilies_alike
    (alike : AreAlike statement.substatements substatements) :
    presentFamilies { statement with substatements } =
      presentFamilies statement := by
  refine List.filterMap_congr fun family listed => ?_
  refine List.find?_congr fun member inside => ?_
  exact alike.has (ne_extensionInstance_of_mem_families listed inside)

theorem ne_extensionInstance_of_mem_presentFamilies {keyword : Keyword}
    (listed : keyword ∈ presentFamilies statement) :
    keyword ≠ .extensionInstance := by
  obtain ⟨family, among, found⟩ := List.mem_filterMap.mp listed
  exact ne_extensionInstance_of_mem_families among
    (List.mem_of_find?_eq_some found)

theorem checkFamilies_alike
    (alike : AreAlike statement.substatements substatements) :
    checkFamilies { statement with substatements } =
      checkFamilies statement := by
  have known : { statement with substatements }.known = statement.known := rfl
  unfold checkFamilies
  rw [presentFamilies_alike alike]
  split
  next first second _ present =>
    have listed : second ∈ presentFamilies statement := by simp [present]
    have own := ne_extensionInstance_of_mem_presentFamilies listed
    have offenders :
        (({ statement with substatements }.find? second).getD
          { statement with substatements }).head =
            ((statement.find? second).getD statement).head := by
      obtain ⟨found, found'⟩ | ⟨_, _, found, found', same⟩ :=
        alike.find?_cases own
      · rw [found, found']
        rfl
      · rw [found, found']
        exact same
    exact congrArg Except.error (StatementError.of_eq_of_head _ _ _ offenders)
  · rfl

theorem check_alike (alike : AreAlike statement.substatements substatements) :
    check { statement with substatements } = check statement := by
  have known : { statement with substatements }.known = statement.known := rfl
  unfold check
  rw [checkFamilies_alike alike, known]
  refine congrArg (· >>= fun _ => checkFamilies statement) ?_
  exact forM_congr fun rule listed =>
    checkOne_alike alike (ne_extensionInstance_of_mem_allRules listed)

end Cardinality

namespace Draft

open Statement (AreAlike)

section

variable (draft : Draft) {statement : Statement}
  {substatements : List Statement}
  (alike : AreAlike statement.substatements substatements)
include alike

theorem configWithin_alike (parent : NodeId) :
    draft.configWithin { statement with substatements } parent =
      draft.configWithin statement parent := by
  unfold configWithin
  have own : Keyword.config ≠ .extensionInstance := nofun
  obtain ⟨found, found'⟩ | ⟨declared, declared', found, found', same⟩ :=
    alike.find?_cases own
  · rw [found, found']
  · rw [found, found']
    have reads : declared'.booleanArgument = declared.booleanArgument := by
      have heads : declared'.head.booleanArgument =
          declared.head.booleanArgument := by
        rw [same]
      exact heads
    simp only [reads, StatementError.of_eq_of_head _ _ _ same]

theorem checkTypeBody_alike (use : TypeUse) :
    checkTypeBody { statement with substatements } use =
      checkTypeBody statement use := by
  unfold checkTypeBody
  split
  · rfl
  next builtin _ =>
    cases required : requiredPart builtin with
    | none => rfl
    | some keyword =>
        have own : keyword ≠ .extensionInstance := by
          rintro rfl
          cases builtin <;> cases required
        have checked : Cardinality.checkOne { statement with substatements }
            (keyword, .nonZero) =
              Cardinality.checkOne statement (keyword, .nonZero) :=
          Cardinality.checkOne_alike alike own
        simp only [checked]

end

end Draft

end YangSchema
