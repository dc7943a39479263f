import YangSchema.Proofs.Except
import YangSchema.Proofs.SyntaxTree.Nodes
import YangSchema.SyntaxTree.Parser

/-!
# What the parser accepts

The parser always ends with a tree.  It has nothing to report exactly for the
sources whose significant tokens derive from the grammar of statements, and then
the statements of its tree are the derivation.

As long as nothing has been reported the parser has read the beginning of a
derivation:  whole statements before each open block and at the innermost level,
and a part of the current one.  What it reports is never taken back, so this
holds up to the end of a source without reports.  In the other direction the
parser has nothing to report while it reads the tokens of a derivation.
-/

namespace YangSchema

namespace Parser

variable {parser : Parser} {token : Token} {head : StatementHead}

/-! ## Reports -/

/-- Nothing has been reported. -/
structure IsQuiet (parser : Parser) : Prop where
  diagnostics : parser.diagnostics = []
  lastReported : parser.lastReported = none

theorem report_ne_nil (quiet : parser.lastReported = none)
    (diagnostic : Diagnostic) : (parser.report diagnostic).diagnostics ≠ [] := by
  simp [report, quiet]

theorem report_keeps (diagnostic : Diagnostic)
    (loud : parser.diagnostics ≠ []) :
    (parser.report diagnostic).diagnostics ≠ [] := by
  unfold report
  split
  · exact loud
  · simp

theorem readBetween_keeps (loud : parser.diagnostics ≠ []) :
    (parser.readBetween token).diagnostics ≠ [] := by
  have reject (kind : DiagnosticKind) :
      (parser.reject kind token).diagnostics ≠ [] := report_keeps _ loud
  unfold readBetween
  split
  · exact loud
  · split
    · exact loud
    · exact reject _
  · exact reject _
  · exact reject _
  · exact reject _

theorem readTerminator_keeps (loud : parser.diagnostics ≠ []) :
    (parser.readTerminator head token).diagnostics ≠ [] := by
  unfold readTerminator
  split
  · exact loud
  · exact loud
  · exact report_keeps _ loud
  · exact readBetween_keeps (report_keeps _ loud)

theorem read_keeps (loud : parser.diagnostics ≠ []) :
    (parser.read token).diagnostics ≠ [] := by
  unfold read
  split
  · exact readBetween_keeps loud
  · split
    · exact loud
    · split
      · exact loud
      · exact readTerminator_keeps loud
  · split
    · exact loud
    · exact readTerminator_keeps loud
  · split
    · exact loud
    · exact readTerminator_keeps (report_keeps _ loud)
  · exact readTerminator_keeps loud
  · split
    · exact loud
    · exact readBetween_keeps loud
    · exact readBetween_keeps loud
    · exact loud

theorem endLastStatement_keeps (stop : Span) (loud : parser.diagnostics ≠ []) :
    (parser.endLastStatement stop).diagnostics ≠ [] := by
  unfold endLastStatement
  split
  · exact loud
  · exact report_keeps _ loud
  · exact report_keeps _ loud
  · exact report_keeps _ loud
  · exact report_keeps _ (report_keeps _ loud)
  · exact loud

theorem closeAll_keeps (stop : Span) (blocks : List OpenBlock)
    (loud : parser.diagnostics ≠ []) :
    (closeAll stop blocks parser).diagnostics ≠ [] := by
  induction blocks generalizing parser with
  | nil => exact loud
  | cons block rest ih =>
      refine ih ?_
      show (parser.reportUnclosed block.brace.span stop).diagnostics ≠ []
      unfold reportUnclosed
      split
      · exact loud
      · simp

/-! ## The significant tokens of a source -/

/-- Reading tokens of which those in a list are significant. -/
inductive Runs : Parser → List Token → Parser → Prop
  | done {parser : Parser} : Runs parser [] parser
  | trivia {parser parser' : Parser} {token : Token} {tokens : List Token}
      (trivia : token.kind.isTrivia = true)
      (runs : Runs { parser with trivia := parser.trivia ++ [token] } tokens
        parser') :
      Runs parser tokens parser'
  | read {parser parser' : Parser} {token : Token} {tokens : List Token}
      (significant : token.kind.isTrivia = false)
      (runs : Runs (parser.read token) tokens parser') :
      Runs parser (token :: tokens) parser'

/-- The tokens that are not trivia. -/
def significant (tokens : List Token) : List Token :=
  tokens.filter fun token => !token.kind.isTrivia

/-- Without limits every source is read to its end. -/
theorem foldlM_step_none (tokens : List Token) (parser : Parser)
    (count : Nat) :
    ∃ parser' count', tokens.foldlM (step .none) (parser, count) =
        .ok (parser', count') ∧ Runs parser (significant tokens) parser' := by
  induction tokens generalizing parser count with
  | nil => exact ⟨parser, count, rfl, .done⟩
  | cons token tokens ih =>
      rw [List.foldlM_cons]
      cases trivia : token.kind.isTrivia with
      | true =>
          have rest : significant (token :: tokens) = significant tokens := by
            simp [significant, trivia]
          obtain ⟨parser', count', folded, runs⟩ :=
            ih { parser with trivia := parser.trivia ++ [token] } count
          refine ⟨parser', count', ?_, ?_⟩
          · simpa [step, trivia, bind, Except.bind] using folded
          · exact rest ▸ .trivia trivia runs
      | false =>
          have rest : significant (token :: tokens) =
              token :: significant tokens := by
            simp [significant, trivia]
          obtain ⟨parser', count', folded, runs⟩ :=
            ih (parser.read token) (count + 1)
          refine ⟨parser', count', ?_, ?_⟩
          · simpa [step, trivia, ParseLimits.none, bind, Except.bind]
              using folded
          · exact rest ▸ .read trivia runs

/-! ## What has been read without reports -/

/-- The open blocks, the innermost one first, with the tokens up to its
brace. -/
inductive AreBlocksRead : List OpenBlock → List Token → Prop
  | nil : AreBlocksRead [] []
  | cons {block : OpenBlock} {outer : List OpenBlock} {tokens : List Token}
      {phrases : List StatementPhrase} {keyword : Terminal .word}
      {argument : Option ArgumentPhrase} (blocks : AreBlocksRead outer tokens)
      (siblings : StatementPhrase.AreReadAs phrases
        (Statement.ofTrees block.siblings))
      (head : IsHeadRead block.head.children keyword argument)
      (brace : block.brace.kind = .braceOpen) :
      AreBlocksRead (block :: outer)
        (tokens ++ StatementPhrase.tokensOfAll phrases ++
          headTokens keyword argument ++ [block.brace])

/-- The tokens of the current statement. -/
inductive IsModeRead : ParserMode → List Token → Prop
  | betweenStatements : IsModeRead .betweenStatements []
  | afterKeyword {head : StatementHead} {keyword : Terminal .word}
      (read : IsHeadRead head.children keyword none) :
      IsModeRead (.afterKeyword head) (headTokens keyword none)
  | afterString {head : StatementHead} {keyword : Terminal .word}
      {argument : List SyntaxTree} {first : QuotedTerminal}
      {more : List (Terminal .plus × QuotedTerminal)}
      (read : IsHeadRead head.children keyword none)
      (inside : IsArgumentRead argument
        (ArgumentPhrase.strings first more).parts) :
      IsModeRead (.afterString head argument)
        (headTokens keyword (some (.strings first more)))
  | afterPlus {head : StatementHead} {keyword : Terminal .word}
      {argument : List SyntaxTree} {first : QuotedTerminal}
      {more : List (Terminal .plus × QuotedTerminal)} (plus : Terminal .plus)
      (read : IsHeadRead head.children keyword none)
      (inside : IsArgumentRead argument
        (ArgumentPhrase.strings first more).parts) :
      IsModeRead (.afterPlus head argument)
        (headTokens keyword (some (.strings first more)) ++ [plus.1])
  | afterArgument {head : StatementHead} {keyword : Terminal .word}
      {argument : ArgumentPhrase}
      (read : IsHeadRead head.children keyword (some argument)) :
      IsModeRead (.afterArgument head) (headTokens keyword (some argument))

/-- Whole statements in all open blocks have been read without reports. -/
inductive HasFinished (parser : Parser) (tokens : List Token) : Prop
  | intro {outer : List Token} {phrases : List StatementPhrase}
      (quiet : parser.IsQuiet)
      (trivia : ∀ token ∈ parser.trivia, token.kind.isTrivia = true)
      (blocks : AreBlocksRead parser.openBlocks outer)
      (children : StatementPhrase.AreReadAs phrases
        (Statement.ofTrees parser.children))
      (whole : outer ++ StatementPhrase.tokensOfAll phrases = tokens)

/-- Tokens that begin a derivation have been read without reports. -/
inductive HasRead (parser : Parser) (tokens : List Token) : Prop
  | intro {finished current : List Token}
      (before : parser.HasFinished finished)
      (mode : IsModeRead parser.mode current)
      (whole : finished ++ current = tokens)

theorem areAsides_trivia {tokens : List Token}
    (trivia : ∀ token ∈ tokens, token.kind.isTrivia = true) :
    AreAsides (tokens.map .token) := by
  intro tree member
  obtain ⟨token, listed, rfl⟩ := List.mem_map.mp member
  have isTrivia := trivia token listed
  refine ⟨token, rfl, ?_⟩
  cases kind : token.kind <;> simp_all [TokenKind.isTrivia] <;> rfl

theorem HasFinished.areAsides {tokens : List Token}
    (finished : parser.HasFinished tokens) :
    AreAsides (parser.trivia.map .token) := by
  obtain ⟨-, trivia, -, -, -⟩ := finished
  exact areAsides_trivia trivia

theorem HasFinished.isQuiet {tokens : List Token}
    (finished : parser.HasFinished tokens) : parser.IsQuiet := by
  obtain ⟨quiet, -, -, -, -⟩ := finished
  exact quiet

theorem HasFinished.proceed {tokens current : List Token} {next : ParserMode}
    (finished : parser.HasFinished tokens) (mode : IsModeRead next current) :
    (parser.proceed next).HasRead (tokens ++ current) := by
  obtain ⟨isQuiet, -, blocks, children, whole⟩ := finished
  exact .intro (.intro ⟨isQuiet.1, isQuiet.2⟩ (by simp [Parser.proceed])
    blocks children whole) mode rfl

/-- A terminator behind the head of a statement. -/
theorem readTerminator_hasRead {tokens : List Token} {keyword : Terminal .word}
    {argument : Option ArgumentPhrase} (finished : parser.HasFinished tokens)
    (read : IsHeadRead head.children keyword argument)
    (silent : (parser.readTerminator head token).diagnostics = []) :
    (parser.readTerminator head token).HasRead
      (tokens ++ (headTokens keyword argument ++ [token])) := by
  have quiet := finished.isQuiet.lastReported
  have asides := finished.areAsides
  unfold readTerminator at silent ⊢
  split at silent
  next semicolon =>
    obtain ⟨isQuiet, -, blocks, children, rfl⟩ := finished
    have aside : AreAsides [.token token] :=
      areAsides_token (by rw [semicolon]; rfl)
    have statement := (read.append_asides asides).ofNode_plain aside
      ⟨token, semicolon⟩
    have siblings := children.append statement
    rw [← Statement.ofTrees_append] at siblings
    refine .intro (.intro ⟨isQuiet.1, isQuiet.2⟩ (by simp) blocks siblings rfl)
      .betweenStatements ?_
    simp [StatementPhrase.tokensOfAll_append, StatementPhrase.tokensOfAll,
      StatementPhrase.tokens]
  next brace =>
    obtain ⟨isQuiet, -, blocks, children, rfl⟩ := finished
    have aside : AreAsides [.token token] :=
      areAsides_token (by rw [brace]; rfl)
    have inside : StatementPhrase.AreReadAs []
        (Statement.ofTrees [.token token]) := by
      rw [(Statement.of_asides aside).1]
      trivial
    refine .intro (.intro ⟨isQuiet.1, isQuiet.2⟩ (by simp)
      (.cons blocks children (read.append_asides asides) brace) inside rfl)
      .betweenStatements ?_
    simp [StatementPhrase.tokensOfAll]
  next => exact absurd silent (report_ne_nil quiet _)
  next => exact absurd silent (readBetween_keeps (report_ne_nil quiet _))

/-- A word that starts a statement, or the end of the innermost block. -/
theorem readBetween_hasRead {tokens : List Token}
    (finished : parser.HasFinished tokens)
    (between : parser.mode = .betweenStatements)
    (silent : (parser.readBetween token).diagnostics = []) :
    (parser.readBetween token).HasRead (tokens ++ [token]) := by
  have quiet := finished.isQuiet.lastReported
  have asides := finished.areAsides
  unfold readBetween at silent ⊢
  split at silent
  next word =>
    obtain ⟨isQuiet, -, blocks, children, rfl⟩ := finished
    rw [← asides.ofTrees_append] at children
    exact .intro (.intro ⟨isQuiet.1, isQuiet.2⟩ (by simp) blocks children rfl)
      (.afterKeyword (.start ⟨token, word⟩)) rfl
  next close =>
    split at silent
    next block rest opened =>
      obtain ⟨isQuiet, -, blocks, children, rfl⟩ := finished
      rw [opened] at blocks
      cases blocks with
      | cons blocks siblings head brace =>
          have aside : AreAsides [.token token] :=
            areAsides_token (by rw [close]; rfl)
          rw [← (asides.append aside).ofTrees_append, ← List.append_assoc]
            at children
          have whole := siblings.append
            (head.ofNode_block children ⟨_, brace⟩ ⟨token, close⟩)
          rw [← Statement.ofTrees_append] at whole
          refine .intro (.intro ⟨isQuiet.1, isQuiet.2⟩ (by simp) blocks whole
            rfl) (between ▸ IsModeRead.betweenStatements) ?_
          simp [StatementPhrase.tokensOfAll_append,
            StatementPhrase.tokensOfAll, StatementPhrase.tokens]
    next => exact absurd silent (report_ne_nil quiet _)
  next => exact absurd silent (report_ne_nil quiet _)
  next => exact absurd silent (report_ne_nil quiet _)
  next => exact absurd silent (report_ne_nil quiet _)

/-- A token behind the beginning of a derivation, if it is not reported. -/
theorem HasRead.read {tokens : List Token} (before : parser.HasRead tokens)
    (silent : (parser.read token).diagnostics = []) :
    (parser.read token).HasRead (tokens ++ [token]) := by
  obtain ⟨finished, mode, rfl⟩ := before
  have asides := finished.areAsides
  have quiet := finished.isQuiet.lastReported
  rw [List.append_assoc]
  generalize reading : parser.mode = current at mode
  simp only [Parser.read, reading] at silent ⊢
  cases mode with
  | betweenStatements => exact readBetween_hasRead finished reading silent
  | @afterKeyword head keyword read =>
      dsimp only at silent ⊢
      have inFront : IsHeadRead (parser.withTrivia head.children) keyword none :=
        read.append_asides asides
      by_cases word : token.kind = .word
      · rw [if_pos word]
        have part : token.kind.isArgumentPart = true := by
          rw [word]
          rfl
        have argument : IsHeadRead (endArgument
            { head with children := parser.withTrivia head.children }
            [.token token]).children keyword (some (.word ⟨token, word⟩)) :=
          inFront.append_argument (.part part)
        exact finished.proceed (.afterArgument argument)
      · rw [if_neg word] at silent ⊢
        by_cases quoted : token.kind.isQuoted = true
        · rw [if_pos quoted]
          have first : IsArgumentRead [.token token]
              (ArgumentPhrase.strings ⟨token, quoted⟩ []).parts :=
            .part (by simp [TokenKind.isArgumentPart, quoted])
          have mode : IsModeRead (.afterString
              { head with children := parser.withTrivia head.children }
              [.token token]) _ := .afterString inFront first
          exact finished.proceed mode
        · rw [if_neg quoted] at silent ⊢
          exact readTerminator_hasRead finished read silent
  | @afterString _ keyword _ first more read inside =>
      dsimp only at silent ⊢
      by_cases plus : token.kind = .plus
      · rw [if_pos plus]
        have aside : AreAsides [.token token] :=
          areAsides_token (by rw [plus]; rfl)
        exact finished.proceed (.afterPlus ⟨token, plus⟩ read
          ((inside.append_asides asides).append_asides aside))
      · rw [if_neg plus] at silent ⊢
        exact readTerminator_hasRead finished (read.append_argument inside)
          silent
  | @afterPlus _ keyword argument first more plus read inside =>
      dsimp only at silent ⊢
      by_cases quoted : token.kind.isQuoted = true
      · rw [if_pos quoted]
        have strings : IsArgumentRead (parser.withToken argument token)
            (ArgumentPhrase.strings first
              (more ++ [(plus, ⟨token, quoted⟩)])).parts := by
          have part : IsArgumentRead [.token token] [token] :=
            .part (by simp [TokenKind.isArgumentPart, quoted])
          have longer : IsArgumentRead (parser.withToken argument token) _ :=
            (inside.append_asides asides).append part
          simpa [ArgumentPhrase.parts] using longer
        have result := finished.proceed (.afterString read strings)
        simpa [headTokens, argumentTokens, ArgumentPhrase.tokens] using result
      · rw [if_neg quoted] at silent
        exact absurd silent (readTerminator_keeps (report_ne_nil quiet _))
  | afterArgument read => exact readTerminator_hasRead finished read silent

theorem Runs.keeps {parser' : Parser} {tokens : List Token}
    (runs : Runs parser tokens parser') (loud : parser.diagnostics ≠ []) :
    parser'.diagnostics ≠ [] := by
  induction runs with
  | done => exact loud
  | trivia _ _ ih => exact ih loud
  | read _ _ ih => exact ih (read_keeps loud)

/-- Whatever has been read without reports begins a derivation. -/
theorem Runs.hasRead {parser' : Parser} {before tokens : List Token}
    (runs : Runs parser tokens parser') (read : parser.HasRead before)
    (silent : parser'.diagnostics = []) : parser'.HasRead (before ++ tokens) := by
  induction runs generalizing before with
  | done => simpa using read
  | @trivia parser parser' token tokens trivia _ ih =>
      obtain ⟨⟨quiet, waiting, blocks, children, whole'⟩, mode, whole⟩ := read
      refine ih (.intro (.intro ⟨quiet.1, quiet.2⟩ ?_ blocks children whole')
        mode whole) silent
      simpa [or_imp, forall_and, trivia] using waiting
  | @read parser parser' token tokens _ runs ih =>
      have silentHere : (parser.read token).diagnostics = [] := by
        by_contra loud
        exact runs.keeps loud silent
      simpa using ih (read.read silentHere) silent

theorem finish_keeps (length : Nat) (loud : parser.diagnostics ≠ []) :
    (parser.finish length).diagnostics ≠ [] :=
  closeAll_keeps _ _ (endLastStatement_keeps _ loud)

/-- A source that ends without reports ends behind whole statements. -/
theorem HasRead.finish {tokens : List Token} {length : Nat}
    (read : parser.HasRead tokens)
    (silent : (parser.finish length).diagnostics = []) :
    ∃ phrases, StatementPhrase.tokensOfAll phrases = tokens ∧
      StatementPhrase.AreReadAs phrases
        (Statement.ofTree (parser.finish length).root) := by
  obtain ⟨finished, mode, rfl⟩ := read
  have asides := finished.areAsides
  obtain ⟨quiet, -, blocks, children, rfl⟩ := finished
  have loud (head : StatementHead) (stop : Span) :
      (parser.reportTerminator head stop).diagnostics ≠ [] :=
    report_ne_nil quiet.lastReported _
  generalize reading : parser.mode = current at mode
  simp only [Parser.finish, endLastStatement, reading] at silent ⊢
  cases mode with
  | betweenStatements =>
      cases opened : parser.openBlocks with
      | nil =>
          rw [opened] at blocks
          cases blocks
          simp only [closeAll, root, Statement.ofTree, withTrivia,
            asides.ofTrees_append]
          exact ⟨_, by simp, children⟩
      | cons block rest =>
          rw [opened, closeAll] at silent
          refine absurd silent (closeAll_keeps _ _ ?_)
          simp [closeBlock, reportUnclosed, quiet.lastReported]
  | afterKeyword | afterArgument =>
      exact absurd silent (closeAll_keeps _ _ (loud _ _))
  | afterString =>
      exact absurd silent (closeAll_keeps _ _ (loud _ _))
  | afterPlus =>
      exact absurd silent (closeAll_keeps _ _ (report_keeps _
        (report_ne_nil quiet.lastReported _)))

/-! ## Reading a derivation -/

/-- Two states between statements with the same open blocks and reports. -/
structure Passes (parser parser' : Parser) : Prop where
  between : parser'.mode = .betweenStatements
  openBlocks : parser'.openBlocks = parser.openBlocks
  diagnostics : parser'.diagnostics = parser.diagnostics

/-- A terminator can be read. -/
def awaitsTerminator : ParserMode → Bool
  | .afterKeyword _ | .afterString _ _ | .afterArgument _ => true
  | .betweenStatements | .afterPlus _ _ | .recovering _ _ => false

theorem Runs.nil {parser' : Parser} (runs : Runs parser [] parser') :
    ∃ trivia, parser' = { parser with trivia } := by
  generalize whole : ([] : List Token) = tokens at runs
  induction runs with
  | done => exact ⟨_, rfl⟩
  | trivia _ _ ih =>
      obtain ⟨trivia, rfl⟩ := ih whole
      exact ⟨trivia, rfl⟩
  | read => cases whole

/-- The next significant token is read behind some trivia. -/
theorem Runs.cons {parser' : Parser} {tokens : List Token}
    (runs : Runs parser (token :: tokens) parser') :
    ∃ trivia, Runs ({ parser with trivia }.read token) tokens parser' := by
  generalize whole : token :: tokens = all at runs
  induction runs with
  | done => cases whole
  | trivia _ _ ih =>
      obtain ⟨trivia, runs⟩ := ih whole
      exact ⟨trivia, runs⟩
  | @read parser _ _ _ _ runs =>
      obtain ⟨rfl, rfl⟩ := List.cons.inj whole
      exact ⟨parser.trivia, runs⟩

theorem readTerminator_semicolon (kind : token.kind = .semicolon) :
    parser.Passes (parser.readTerminator head token) := by
  simp only [readTerminator, kind]
  exact ⟨rfl, rfl, rfl⟩

theorem read_semicolon (kind : token.kind = .semicolon)
    (awaits : awaitsTerminator parser.mode = true) :
    parser.Passes (parser.read token) := by
  cases mode : parser.mode <;> simp [mode, awaitsTerminator] at awaits
  all_goals
    simp only [read, mode, kind, TokenKind.isQuoted, reduceCtorEq, if_false,
      Bool.false_eq_true]
    exact readTerminator_semicolon kind

/-- An opening brace puts one block more around what follows. -/
theorem read_braceOpen (kind : token.kind = .braceOpen)
    (awaits : awaitsTerminator parser.mode = true) :
    (parser.read token).mode = .betweenStatements ∧
      (parser.read token).openBlocks.tail = parser.openBlocks ∧
      (parser.read token).openBlocks ≠ [] ∧
      (parser.read token).diagnostics = parser.diagnostics := by
  cases mode : parser.mode <;> simp [mode, awaitsTerminator] at awaits
  all_goals
    simp [read, mode, kind, TokenKind.isQuoted, readTerminator]

theorem read_braceClose (kind : token.kind = .braceClose)
    (between : parser.mode = .betweenStatements)
    (opened : parser.openBlocks ≠ []) :
    (parser.read token).mode = .betweenStatements ∧
      (parser.read token).openBlocks = parser.openBlocks.tail ∧
      (parser.read token).diagnostics = parser.diagnostics := by
  obtain ⟨block, rest, blocks⟩ := List.exists_cons_of_ne_nil opened
  simp [read, between, readBetween, kind, blocks, closeBlock]

/-- Two states with the same open blocks and reports. -/
def SameOutside (parser parser' : Parser) : Prop :=
  parser'.openBlocks = parser.openBlocks ∧
    parser'.diagnostics = parser.diagnostics

theorem runs_more {parser' : Parser} {rest : List Token}
    {more : List (Terminal .plus × QuotedTerminal)}
    (mode : ∃ head argument, parser.mode = .afterString head argument)
    (runs : Runs parser
      ((more.flatMap fun (plus, string) => [plus.1, string.1]) ++ rest)
      parser') :
    ∃ middle, Runs middle rest parser' ∧
      awaitsTerminator middle.mode = true ∧ parser.SameOutside middle := by
  induction more generalizing parser with
  | nil =>
      obtain ⟨head, argument, mode⟩ := mode
      exact ⟨parser, runs, by simp [mode, awaitsTerminator], rfl, rfl⟩
  | cons pair more ih =>
      obtain ⟨plus, string⟩ := pair
      obtain ⟨head, argument, mode⟩ := mode
      simp only [List.flatMap_cons, List.cons_append, List.nil_append] at runs
      obtain ⟨trivia, runs⟩ := runs.cons
      obtain ⟨trivia', runs⟩ := runs.cons
      simp only [read, mode, plus.2, string.2, proceed, if_true] at runs
      obtain ⟨middle, runs, awaits, outside⟩ := ih ⟨_, _, rfl⟩ runs
      exact ⟨middle, runs, awaits, outside⟩

/-- After a keyword an argument is read up to the terminator. -/
theorem runs_argument {parser' : Parser} {rest : List Token}
    {argument : Option ArgumentPhrase}
    (mode : ∃ head, parser.mode = .afterKeyword head)
    (runs : Runs parser (argumentTokens argument ++ rest) parser') :
    ∃ middle, Runs middle rest parser' ∧
      awaitsTerminator middle.mode = true ∧ parser.SameOutside middle := by
  obtain ⟨head, mode⟩ := mode
  cases argument with
  | none => exact ⟨parser, runs, by simp [mode, awaitsTerminator], rfl, rfl⟩
  | some argument =>
      cases argument with
      | word word =>
          obtain ⟨trivia, runs⟩ := Runs.cons runs
          simp only [read, mode, word.2, proceed, if_true] at runs
          exact ⟨_, runs, rfl, rfl, rfl⟩
      | strings first more =>
          obtain ⟨trivia, runs⟩ := Runs.cons runs
          have other : first.1.kind ≠ .word := fun word => by
            have quoted := first.2
            simp [word, TokenKind.isQuoted] at quoted
          simp only [read, mode, first.2, other, proceed, if_true, if_false]
            at runs
          obtain ⟨middle, runs, awaits, outside⟩ :=
            runs_more ⟨_, _, rfl⟩ runs
          exact ⟨middle, runs, awaits, outside⟩

/-- A keyword and an argument are read up to the terminator. -/
theorem runs_head {parser' : Parser} {rest : List Token}
    {keyword : Terminal .word} {argument : Option ArgumentPhrase}
    (between : parser.mode = .betweenStatements)
    (runs : Runs parser (headTokens keyword argument ++ rest) parser') :
    ∃ middle, Runs middle rest parser' ∧
      awaitsTerminator middle.mode = true ∧ parser.SameOutside middle := by
  obtain ⟨trivia, runs⟩ := Runs.cons runs
  simp only [read, between, readBetween, keyword.2] at runs
  obtain ⟨middle, runs, awaits, outside⟩ := runs_argument ⟨_, rfl⟩ runs
  exact ⟨middle, runs, awaits, outside⟩

mutual

/-- A statement is read without reports. -/
theorem runs_statement {parser parser' : Parser} {rest : List Token}
    (phrase : StatementPhrase) (between : parser.mode = .betweenStatements)
    (runs : Runs parser (phrase.tokens ++ rest) parser') :
    ∃ middle, Runs middle rest parser' ∧ parser.Passes middle := by
  cases phrase with
  | plain keyword argument semicolon =>
      rw [StatementPhrase.tokens, List.append_assoc] at runs
      obtain ⟨middle, runs, awaits, blocks, diagnostics⟩ :=
        runs_head between runs
      obtain ⟨trivia, runs⟩ := Runs.cons runs
      have awaits : awaitsTerminator { middle with trivia }.mode = true := awaits
      have passes := read_semicolon semicolon.2 awaits
      exact ⟨_, runs, passes.1, passes.2.trans blocks,
        passes.3.trans diagnostics⟩
  | block keyword argument braceOpen substatements braceClose =>
      rw [StatementPhrase.tokens, List.append_assoc] at runs
      obtain ⟨middle, runs, awaits, blocks, diagnostics⟩ :=
        runs_head between runs
      obtain ⟨trivia, runs⟩ := Runs.cons runs
      have awaits : awaitsTerminator { middle with trivia }.mode = true := awaits
      obtain ⟨inside, outer, opened, silent⟩ :=
        read_braceOpen braceOpen.2 awaits
      rw [List.append_eq, List.append_assoc] at runs
      obtain ⟨last, runs, passes⟩ := runs_statements substatements inside runs
      obtain ⟨trivia', runs⟩ := Runs.cons runs
      have between : { last with trivia := trivia' }.mode =
        .betweenStatements := passes.1
      obtain ⟨between, closed, silent'⟩ :=
        read_braceClose braceClose.2 between (passes.2 ▸ opened)
      refine ⟨_, runs, between, ?_, ?_⟩
      · rw [closed, passes.2, outer, blocks]
      · rw [silent', passes.3, silent, diagnostics]

theorem runs_statements {parser parser' : Parser} {rest : List Token}
    (phrases : List StatementPhrase)
    (between : parser.mode = .betweenStatements)
    (runs : Runs parser (StatementPhrase.tokensOfAll phrases ++ rest) parser') :
    ∃ middle, Runs middle rest parser' ∧ parser.Passes middle := by
  cases phrases with
  | nil => exact ⟨parser, runs, between, rfl, rfl⟩
  | cons phrase phrases =>
      rw [StatementPhrase.tokensOfAll, List.append_assoc] at runs
      obtain ⟨middle, runs, passes⟩ := runs_statement phrase between runs
      obtain ⟨last, runs, passes'⟩ := runs_statements phrases passes.1 runs
      exact ⟨last, runs, passes'.1, passes'.2.trans passes.2,
        passes'.3.trans passes.3⟩

end

/-- A derivation is read to its end without reports. -/
theorem Runs.finish_silent {id : SourceId} {parser' : Parser} {length : Nat}
    {phrases : List StatementPhrase}
    (runs : Runs (initial id) (StatementPhrase.tokensOfAll phrases) parser') :
    (parser'.finish length).diagnostics = [] := by
  rw [← List.append_nil (StatementPhrase.tokensOfAll phrases)] at runs
  obtain ⟨last, runs, passes⟩ := runs_statements phrases rfl runs
  obtain ⟨trivia, rfl⟩ := runs.nil
  have between := passes.between
  have blocks : last.openBlocks = [] := passes.openBlocks
  simp only [finish, endLastStatement, between, blocks, closeAll]
  exact passes.diagnostics

theorem hasRead_initial (id : SourceId) : (initial id).HasRead [] := by
  have nothing : StatementPhrase.AreReadAs []
      (Statement.ofTrees (initial id).children) := trivial
  exact .intro (.intro ⟨rfl, rfl⟩ (by simp [initial]) .nil nothing rfl)
    .betweenStatements rfl

/-- What has been read without reports is a derivation, and the statements of the tree
are this derivation. -/
theorem Runs.finish_accepted {id : SourceId} {parser' : Parser} {length : Nat}
    {tokens : List Token} (runs : Runs (initial id) tokens parser')
    (silent : (parser'.finish length).diagnostics = []) :
    ∃ phrases, StatementPhrase.tokensOfAll phrases = tokens ∧
      StatementPhrase.AreReadAs phrases
        (Statement.ofTree (parser'.finish length).root) := by
  have silentBefore : parser'.diagnostics = [] := by
    by_contra loud
    exact finish_keeps _ loud silent
  exact (runs.hasRead (hasRead_initial id) silentBefore).finish silent

/-- The statements of a derivation are those of its tree. -/
theorem Runs.finish_read {id : SourceId} {parser' : Parser} {length : Nat}
    {phrases : List StatementPhrase}
    (runs : Runs (initial id) (StatementPhrase.tokensOfAll phrases) parser') :
    StatementPhrase.AreReadAs phrases
      (Statement.ofTree (parser'.finish length).root) := by
  obtain ⟨others, other, read⟩ := runs.finish_accepted runs.finish_silent
  exact StatementPhrase.tokensOfAll_injective other ▸ read

end Parser

/-- Without limits a source is parsed to its end. -/
theorem exists_parse_none (id : SourceId) (source : String) :
    ∃ parser, Parser.Runs (.initial id) (Parser.significant (lex source)) parser ∧
      parse .none id source = .ok
        { tree := (parser.finish source.utf8ByteSize).root
          diagnostics := (parser.finish source.utf8ByteSize).diagnostics
          tokensRead := 0 } := by
  obtain ⟨parser, count, folded, runs⟩ :=
    Parser.foldlM_step_none (lex source) (.initial id) 0
  refine ⟨parser, runs, ?_⟩
  simp only [parse, folded]
  rfl

/-- Without limits a source is parsed.  Nothing is reported exactly if its
significant tokens have a derivation; there is no other one then, and the
statements of the tree are that derivation. -/
theorem parse_silent_iff (id : SourceId) (source : String) :
    ∃ parsed, parse .none id source = .ok parsed ∧
      (parsed.diagnostics = [] ↔ ∃ phrases,
        StatementPhrase.tokensOfAll phrases =
          Parser.significant (lex source)) ∧
      ∀ phrases, StatementPhrase.tokensOfAll phrases =
          Parser.significant (lex source) →
        StatementPhrase.AreReadAs phrases (Statement.ofTree parsed.tree) ∧
          ∀ others, StatementPhrase.tokensOfAll others =
            Parser.significant (lex source) → others = phrases := by
  obtain ⟨parser, runs, parsed⟩ := exists_parse_none id source
  refine ⟨_, parsed, ⟨fun silent => ?_, ?_⟩, fun phrases whole => ?_⟩
  · obtain ⟨phrases, whole, -⟩ := runs.finish_accepted silent
    exact ⟨phrases, whole⟩
  · rintro ⟨phrases, whole⟩
    exact (whole ▸ runs).finish_silent
  · refine ⟨(whole ▸ runs).finish_read, fun others other => ?_⟩
    exact StatementPhrase.tokensOfAll_injective (other.trans whole.symm)

end YangSchema
