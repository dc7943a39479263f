import YangSchema.Proofs.Draft.Overlooking
import YangSchema.Proofs.Draft.Reading
import YangSchema.SyntaxTree.Parser

/-!
# Instances of extensions leave no trace

Two readings of a source, with and without some instances of extensions, take
the same steps apart from those that pass over what has been removed, and such a
step does no more than to add a warning.  As no step looks at warnings, both
readings end with the same draft, up to the warnings about these instances, and
with the same error.
-/

namespace YangSchema

namespace Draft

open Statement (AreAlike)

variable {draft draft' : Draft} {statement : Statement}
  {substatements statements pruned : List Statement}

/-- A draft like another one, of whose warnings, all about instances of
extensions, it has some. -/
structure Forgets (draft' draft : Draft) : Prop where
  same : draft' = draft.withWarnings draft'.warnings
  fewer : draft'.warnings.Sublist draft.warnings
  skipped : ∀ warning ∈ draft.warnings, warning.kind = .extensionSkipped

/-- Two readings that end in such drafts, and with the same error if any. -/
structure Progress.Forgets (progress' progress : Progress) : Prop where
  error : progress'.error = progress.error
  draft : progress'.draft.Forgets progress.draft

theorem Progress.Forgets.andThen {progress' progress : Progress}
    {next' next : Draft → Progress} (forgets : progress'.Forgets progress)
    (onward : ∀ {draft' draft : Draft}, draft'.Forgets draft →
      (next' draft').Forgets (next draft)) :
    (progress'.andThen next').Forgets (progress.andThen next) := by
  unfold Progress.andThen
  rw [forgets.error]
  split
  · exact onward forgets.draft
  · exact forgets

/-- What a step makes of the two drafts differs in nothing else either. -/
theorem Overlooks.forgets {step : Step} (overlooks : Overlooks step)
    (alike : AreAlike statement.substatements substatements)
    (forgets : draft'.Forgets draft) :
    (Progress.ofStep draft'
        (step draft' { statement with substatements })).Forgets
      (.ofStep draft (step draft statement)) := by
  have kept := overlooks.warnings draft draft.warnings statement
  have fewer := overlooks.warnings draft draft'.warnings statement
  rw [overlooks.foreign draft' alike, forgets.same, fewer]
  cases made : step draft statement with
  | error error => exact ⟨rfl, forgets.same ▸ forgets⟩
  | ok next =>
      have same : next = next.withWarnings draft.warnings := by
        rw [show draft.withWarnings draft.warnings = draft from rfl, made]
          at kept
        exact Except.ok.inj kept
      have warnings : next.warnings = draft.warnings :=
        congrArg (·.warnings) same
      exact ⟨rfl, rfl, warnings ▸ forgets.fewer,
        warnings ▸ forgets.skipped⟩

/-- What passing over an instance adds to the warnings, whatever these are and
whatever stands below it. -/
theorem passOver_adds (draft : Draft) (statement : Statement) :
    ∃ added : Diagnostics,
      (∀ warning ∈ added, warning.kind = .extensionSkipped) ∧
      ∀ warnings substatements,
        (draft.withWarnings warnings).passOver
          { statement with substatements } =
            draft.withWarnings (warnings ++ added) := by
  refine ⟨((draft.withWarnings []).passOver statement).warnings, ?_, ?_⟩
  · intro warning listed
    unfold passOver at listed
    dsimp only at listed
    split at listed
    · cases listed
    · obtain rfl := List.mem_singleton.mp listed
      rfl
  · intro warnings substatements
    let qualifier :=
      String.ofList (statement.keywordText.toList.takeWhile (· ≠ ':'))
    cases declared : draft.isDeclared qualifier with
    | true =>
        have bare : (draft.withWarnings []).passOver statement =
          draft.withWarnings [] := if_pos declared
        rw [bare, show (draft.withWarnings []).warnings = [] from rfl,
          List.append_nil]
        exact if_pos declared
    | false =>
        have other := Bool.eq_false_iff.mp declared
        have bare : (draft.withWarnings []).passOver statement = _ :=
          if_neg other
        rw [bare]
        exact if_neg other

theorem Forgets.append (forgets : draft'.Forgets draft)
    {fewer added : Diagnostics} (listed : fewer.Sublist added)
    (skipped : ∀ warning ∈ added, warning.kind = .extensionSkipped) :
    (draft.withWarnings (draft'.warnings ++ fewer)).Forgets
      (draft.withWarnings (draft.warnings ++ added)) := by
  refine ⟨rfl, forgets.fewer.append listed, fun warning among => ?_⟩
  obtain earlier | last := List.mem_append.mp among
  · exact forgets.skipped warning earlier
  · exact skipped warning last

/-- The instance is passed over in both readings. -/
theorem Forgets.passOver (forgets : draft'.Forgets draft)
    (statement : Statement) (substatements : List Statement) :
    (draft'.passOver { statement with substatements }).Forgets
      (draft.passOver statement) := by
  obtain ⟨added, skipped, adds⟩ := draft.passOver_adds statement
  have passed : draft.passOver statement =
      draft.withWarnings (draft.warnings ++ added) :=
    adds draft.warnings statement.substatements
  rw [forgets.same, adds, passed]
  exact forgets.append (.refl _) skipped

/-- The instance is there in one reading only. -/
theorem Forgets.passedOver (forgets : draft'.Forgets draft)
    (statement : Statement) : draft'.Forgets (draft.passOver statement) := by
  obtain ⟨added, skipped, adds⟩ := draft.passOver_adds statement
  have passed : draft.passOver statement =
      draft.withWarnings (draft.warnings ++ added) :=
    adds draft.warnings statement.substatements
  rw [passed, forgets.same]
  simpa using forgets.append (List.nil_sublist added) skipped

theorem readForeign_with (holder : Statement) (substatements : List Statement)
    (draft : Draft) (statements : List Statement) :
    readForeign { holder with substatements } draft statements =
      readForeign holder draft statements := by
  induction statements generalizing draft with
  | nil => rfl
  | cons statement rest ih =>
      simp only [readForeign, ih]
      rfl

/-- Reading a statement, when that is so for what stands below it. -/
theorem read_forgets (alike : AreAlike statement.substatements substatements)
    (below : ∀ {draft' draft : Draft}, draft'.Forgets draft →
      (readAll draft' substatements).Forgets
        (readAll draft statement.substatements))
    (inside : ∀ {draft' draft : Draft}, draft'.Forgets draft →
      (readForeign statement draft' substatements).Forgets
        (readForeign statement draft statement.substatements))
    (forgets : draft'.Forgets draft) :
    (read draft' { statement with substatements }).Forgets
      (read draft statement) := by
  have overlooks := role_overlooks statement.known
  have known : { statement with substatements }.known = statement.known := rfl
  rw [read_eq, read_eq, known]
  split <;> simp only [*] at overlooks
  · refine (overlooks.1.forgets alike forgets).andThen fun forgets => ?_
    exact (below forgets).andThen (overlooks.2.forgets alike)
  · refine (overlooks.forgets alike forgets).andThen fun forgets => ?_
    rw [readForeign_with]
    exact inside forgets
  · exact ⟨rfl, forgets.passOver statement substatements⟩
  next error _ =>
    exact ⟨congrArg some (overlooks statement substatements), forgets⟩

/-- Reading statements with and without instances of extensions, whether they
are part of a block or stand below a statement that takes none. -/
theorem readAll_forgets (prunes : Statement.Prunes statements pruned) :
    (∀ {draft' draft : Draft}, draft'.Forgets draft →
      (readAll draft' pruned).Forgets (readAll draft statements)) ∧
    ∀ (holder : Statement) {draft' draft : Draft}, draft'.Forgets draft →
      (readForeign holder draft' pruned).Forgets
        (readForeign holder draft statements) := by
  induction prunes with
  | nil =>
      exact ⟨fun forgets => ⟨rfl, forgets⟩,
        fun _ _ _ forgets => ⟨rfl, forgets⟩⟩
  | @drop statement statements pruned foreign _ others =>
      have known : statement.known = .extensionInstance :=
        Keyword.ofText_eq_extensionInstance foreign
      refine ⟨fun {draft' draft} forgets => ?_,
        fun holder {draft' draft} forgets => ?_⟩
      · rw [readAll, read_of_extension known]
        exact others.1 (forgets.passedOver statement)
      · simp only [readForeign, known]
        exact others.2 holder (forgets.passedOver statement)
  | @keep statement substatements statements pruned below _ inside others =>
      refine ⟨fun {draft' draft} forgets => ?_,
        fun holder {draft' draft} forgets => ?_⟩
      · rw [readAll, readAll]
        exact (read_forgets below.areAlike inside.1 (inside.2 statement)
          forgets).andThen others.1
      · have known : { statement with substatements }.known =
          statement.known := rfl
        simp only [readForeign, known]
        split
        · exact others.2 holder (forgets.passOver statement substatements)
        · exact ⟨rfl, forgets⟩
        · exact ⟨rfl, forgets⟩

theorem readTopLevel_forgets (prunes : Statement.Prunes statements pruned)
    (seen : Bool) (forgets : draft'.Forgets draft) :
    (readTopLevel draft' seen pruned).Forgets
      (readTopLevel draft seen statements) := by
  induction prunes generalizing draft draft' seen with
  | nil => exact ⟨rfl, forgets⟩
  | @drop statement statements pruned foreign _ others =>
      have known : statement.known = .extensionInstance :=
        Keyword.ofText_eq_extensionInstance foreign
      simp only [readTopLevel, known, read_of_extension known]
      exact others seen (forgets.passedOver statement)
  | @keep statement substatements statements pruned below _ _ others =>
      have known : { statement with substatements }.known =
        statement.known := rfl
      have inside := readAll_forgets below
      have reads := read_forgets below.areAlike inside.1 (inside.2 statement)
        forgets
      simp only [readTopLevel, known]
      split
      · split
        · exact ⟨rfl, forgets⟩
        · exact reads.andThen (others true)
      · split
        · exact ⟨rfl, forgets⟩
        · exact reads.andThen (others true)
      · exact reads.andThen (others seen)
      · exact ⟨rfl, forgets⟩

end Draft

namespace Statement

mutual

/-- The statement without any instances of extensions below it. -/
def withoutForeign : Statement → Statement
  | ⟨keyword, argument, span, block, substatements⟩ =>
      ⟨keyword, argument, span, block, allWithoutForeign substatements⟩

/-- Statements without the instances of extensions among and below them. -/
def allWithoutForeign : List Statement → List Statement
  | [] => []
  | statement :: rest =>
      if ':' ∈ statement.keywordText.toList then
        allWithoutForeign rest
      else
        withoutForeign statement :: allWithoutForeign rest

end

mutual

theorem prunes_substatements : (statement : Statement) →
    Prunes statement.substatements (withoutForeign statement).substatements
  | ⟨_, _, _, _, substatements⟩ => by
      rw [withoutForeign]
      exact prunes_allWithoutForeign substatements

theorem prunes_allWithoutForeign : (statements : List Statement) →
    Prunes statements (allWithoutForeign statements)
  | [] => by
      rw [allWithoutForeign]
      exact .nil
  | statement :: rest => by
      rw [allWithoutForeign]
      split
      next colon =>
        refine .drop ?_ (prunes_allWithoutForeign rest)
        simpa [String.contains_char_eq] using colon
      · have kept : withoutForeign statement =
            { statement with
              substatements := (withoutForeign statement).substatements } := by
          cases statement
          rw [withoutForeign]
        rw [kept]
        exact .keep (prunes_substatements statement)
          (prunes_allWithoutForeign rest)

end

end Statement

namespace Analysis

/-- Removing instances of extensions from a source, with everything below them,
changes neither the tree nor what is queued or deferred, nor whether the source
is accepted or what is wrong with it.  Only some warnings about extensions that
are skipped go missing. -/
theorem extensions_leave_no_trace (source : SourceId)
    {statements pruned : List Statement}
    (prunes : Statement.Prunes statements pruned) :
    let before := ofStatements source statements
    let after := ofStatements source pruned
    after.tree = before.tree ∧ after.queue = before.queue ∧
      after.deferredKeys = before.deferredKeys ∧
      after.failed = before.failed ∧
      after.diagnostics.filter (·.isError) =
        before.diagnostics.filter (·.isError) ∧
      after.diagnostics.filter (·.kind ≠ .extensionSkipped) =
        before.diagnostics.filter (·.kind ≠ .extensionSkipped) ∧
      after.diagnostics.Sublist before.diagnostics := by
  intro before after
  have start : (Draft.empty source).Forgets (.empty source) :=
    ⟨rfl, .refl _, nofun⟩
  obtain ⟨error, same, fewer, skipped⟩ :=
    Draft.readTopLevel_forgets prunes false start
  have failed : after.failed = before.failed := congrArg (·.isSome) error
  -- What remains of the diagnostics where no warning of this kind is kept.
  have others (keeps : Diagnostic → Bool)
      (drops : ∀ warning : Diagnostic,
        warning.kind = .extensionSkipped → keeps warning = false) :
      after.diagnostics.filter keeps = before.diagnostics.filter keeps := by
    have none (warnings : Diagnostics)
        (skipped : ∀ warning ∈ warnings, warning.kind = .extensionSkipped) :
        warnings.filter keeps = [] :=
      List.filter_eq_nil_iff.mpr fun warning listed =>
        Bool.eq_false_iff.mp (drops warning (skipped warning listed))
    simp only [before, after, ofStatements, List.filter_append, error,
      none _ skipped, none _ fun warning listed =>
        skipped warning (fewer.mem listed)]
  refine ⟨congrArg (·.tree) same, congrArg (·.queue) same,
    congrArg (·.deferredKeys) same, failed, others _ ?_, others _ ?_, ?_⟩
  · intro warning is
    simp [Diagnostic.isError, Diagnostic.severity, is,
      DiagnosticKind.severity]
  · intro warning is
    simp [is]
  · simp only [before, after, ofStatements, error]
    exact fewer.append (.refl _)

/-- Instances at the top level, in a block and below a statement that takes
nothing else, of which two have a prefix that no `import` declares. -/
theorem extensions_leave_no_trace_everywhere :
    ∃ parsed, parse .none 0
        ("o:top; module m \x7b namespace \"u:m\"; prefix m; " ++
          "leaf x \x7b m:in \x7b type \"?\"; \x7d type string; " ++
          "description d \x7b o:below \x7b config; \x7d \x7d \x7d \x7d") =
            .ok parsed ∧
      let statements := Statement.ofTree parsed.tree
      let before := ofStatements 0 statements
      let after := ofStatements 0 (Statement.allWithoutForeign statements)
      after.failed = false ∧ after.diagnostics = [] ∧
      after.tree = before.tree ∧ after.queue = before.queue ∧
        after.deferredKeys = before.deferredKeys ∧
        after.failed = before.failed ∧
        after.diagnostics.filter (·.isError) =
          before.diagnostics.filter (·.isError) ∧
        after.diagnostics.filter (·.kind ≠ .extensionSkipped) =
          before.diagnostics.filter (·.kind ≠ .extensionSkipped) ∧
        after.diagnostics.Sublist before.diagnostics := by
  generalize written : (_ ++ _ : String) = text
  have checked : (parse .none 0 text).toOption.any (fun parsed =>
      let after := ofStatements 0
        (Statement.allWithoutForeign (Statement.ofTree parsed.tree))
      !after.failed && after.diagnostics.isEmpty) = true := by
    subst written
    decide +kernel
  cases parsing : parse .none 0 text with
  | error error => simp [parsing, Except.toOption] at checked
  | ok parsed =>
      simp only [parsing, Except.toOption, Option.any_some, Bool.and_eq_true,
        Bool.not_eq_true', List.isEmpty_iff] at checked
      exact ⟨parsed, rfl, checked.1, checked.2, extensions_leave_no_trace 0
        (Statement.prunes_allWithoutForeign (Statement.ofTree parsed.tree))⟩

end Analysis

end YangSchema
