import YangSchema.Proofs.SyntaxTree.Reading

/-!
# The rules of recursive descent

A rule consumes tokens as the parser reads them that reads token by token, or
ends a statement earlier than that does, which comes to the same. Every loop
consumes a token in each round and looks ahead a few times only, so that no check
fails.
-/

namespace YangSchema

namespace Descent

variable {limits : ParseLimits} {state : Descent} {token : Token}
  {rest : List Token} {count lookaheads : Nat}

theorem bufferTrivia_eq
    (solid : ∀ token ∈ state.tokens.head?, token.kind.isTrivia = false) :
    state.bufferTrivia = state := by
  unfold bufferTrivia
  cases tokens : state.tokens with
  | nil => cases state; simp_all
  | cons token rest =>
      have solid : token.kind.isTrivia = false := by simpa [tokens] using solid
      cases state
      simp_all

/-- Looking at a token that is no trivia uses up one lookahead only. -/
theorem current_eq
    (solid : ∀ token ∈ state.tokens.head?, token.kind.isTrivia = false)
    (room : 0 < state.lookaheads) :
    state.current = .ok (state.tokens.head?.map (·.kind),
      { state with lookaheads := state.lookaheads - 1 }) := by
  have left : state.lookaheads ≠ 0 := by omega
  simp [current, bufferTrivia_eq solid, left]

theorem startNode_eq {kind : SyntaxKind} {children : List SyntaxTree}
    {outer : List (SyntaxKind × List SyntaxTree)} (inner : SyntaxKind)
    (inside : state.nodes = (kind, children) :: outer) :
    state.startNode inner = { state with
      trivia := []
      nodes := (inner, []) ::
        (kind, children ++ state.trivia.map .token) :: outer } := by
  simp [startNode, drainTrivia, add, inside]

theorem finishNode_eq {kind outer : SyntaxKind}
    {children siblings : List SyntaxTree}
    {rest : List (SyntaxKind × List SyntaxTree)}
    (inside : state.nodes = (kind, children) :: (outer, siblings) :: rest) :
    state.finishNode = .ok { state with
      nodes := (outer, siblings ++ [.node kind children]) :: rest } := by
  simp [finishNode, inside]

/-- A token that is no trivia is put behind the waiting trivia. -/
theorem bump_eq {kind : SyntaxKind} {children : List SyntaxTree}
    {outer : List (SyntaxKind × List SyntaxTree)}
    (next : state.tokens = token :: rest)
    (solid : token.kind.isTrivia = false)
    (inside : state.nodes = (kind, children) :: outer)
    (counted : state.tokensLeft = limits.tokens.map (· - count)) :
    state.bump = .ok { state with
      tokens := rest
      trivia := []
      lookaheads := stallLimit
      nodes := (kind,
        children ++ state.trivia.map .token ++ [.token token]) :: outer
      tokensLeft := limits.tokens.map (· - (count + 1))
      exceeded := state.exceeded.or (Reading.due limits count) } := by
  have settled : state.bufferTrivia = state :=
    bufferTrivia_eq (by simpa [next] using solid)
  unfold bump
  rw [settled]
  simp only [next]
  congr 1
  unfold spend
  cases bounded : limits.tokens with
  | none =>
      simp [counted, bounded, drainTrivia, add, inside, Reading.due]
  | some bound =>
      by_cases exhausted : bound ≤ count
      · have none : bound - count = 0 := by omega
        have none' : bound - (count + 1) = 0 := by omega
        simp [counted, bounded, drainTrivia, add, inside, Reading.due,
          exhausted, none, none', exceed]
      · obtain ⟨left, is⟩ : ∃ left, bound - count = left + 1 :=
          ⟨bound - count - 1, by omega⟩
        have is' : bound - (count + 1) = left := by omega
        simp [counted, bounded, drainTrivia, add, inside, Reading.due,
          exhausted, is, is']

variable {length least : Nat} {reading : Reading}

theorem bufferTrivia_descent (reading : Reading) :
    (reading.descent limits length lookaheads).bufferTrivia =
      reading.settle.descent limits length lookaheads :=
  rfl

theorem current_descent (reading : Reading) (room : 0 < lookaheads) :
    (reading.descent limits length lookaheads).current =
      .ok (reading.settle.tokens.head?.map (·.kind),
        reading.settle.descent limits length (lookaheads - 1)) := by
  have left : lookaheads ≠ 0 := by omega
  rw [current, bufferTrivia_descent]
  simp [Reading.descent, left]

theorem report_descent (reading : Reading) (diagnostic : Diagnostic) :
    (reading.descent limits length lookaheads).report diagnostic =
      (reading.become (reading.parser.report diagnostic)).descent limits length
        lookaheads := by
  unfold report
  by_cases again : reading.parser.lastReported = some diagnostic.span.start
  · simp [Reading.descent, Reading.become, Parser.report, again]
  · simp [Reading.descent, Reading.become, Parser.report, again, Parser.nodes]

theorem error_descent (settled : reading.IsSettled) (kind : DiagnosticKind) :
    (reading.descent limits length lookaheads).error kind =
      (reading.become (reading.parser.reportKind kind
        (Parser.nextSpan length reading.tokens))).descent limits length
          lookaheads := by
  rw [error, bufferTrivia_descent, settled.settle_eq, report_descent]
  rfl

theorem errorMessage_descent (settled : reading.IsSettled)
    (head : StatementHead) :
    (reading.descent limits length lookaheads).errorMessage .expectedTerminator
        s!"after `{head.keyword.text}`" =
      (reading.become (reading.parser.reportTerminator head
        (Parser.nextSpan length reading.tokens))).descent limits length
          lookaheads := by
  rw [errorMessage, bufferTrivia_descent, settled.settle_eq, report_descent]
  rfl

variable {head : StatementHead}

open Reading (Continues Reaches)

/-- To consume a token that goes on with a statement is to read it. -/
theorem bump_reaches {mode : ParserMode} {kind : SyntaxKind}
    {children : List SyntaxTree}
    {outer : List (SyntaxKind × List SyntaxTree)}
    {rule : Descent → Except ParserFault Descent} {property : Reading → Prop}
    (settled : reading.IsSettled) (fits : reading.Fits limits length)
    (next : reading.tokens = token :: rest) (noBrace : token.kind ≠ .braceOpen)
    (read : reading.parser.read token = reading.parser.proceed mode)
    (inside : reading.parser.nodes = (kind, children) :: outer)
    (inside' : (reading.parser.proceed mode).nodes =
      (kind, reading.parser.withToken children token) :: outer)
    (on : ∀ behind : Reading, behind.Fits limits length →
      behind.parser.mode = mode →
      behind.parser.openBlocks = reading.parser.openBlocks →
      behind.tokens.length < reading.tokens.length →
      Reaches limits length least
        (rule (behind.descent limits length stallLimit)) behind property) :
    Reaches limits length least
      ((reading.descent limits length lookaheads).bump >>= rule) reading
        property := by
  have solid := settled.solid next
  have bumped : (reading.descent limits length lookaheads).bump =
      .ok ((reading.read limits token rest).descent limits length
        stallLimit) := by
    have counted : (reading.descent limits length lookaheads).tokensLeft =
      limits.tokens.map (· - reading.count) := rfl
    rw [bump_eq next solid inside counted]
    simp only [Reading.descent, Reading.read, read, inside']
    rfl
  have onward := Continues.read next settled fits
    (by simp [Parser.opensBlock, noBrace])
  rw [bumped, ok_bind]
  exact (on _ onward.fits (by simp [Reading.read, read, Parser.proceed])
    (by simp [Reading.read, read, Parser.proceed])
    (by simp [Reading.read, next])).after onward

/-- A node that is started takes the next token in. -/
theorem bump_startNode {kind inner : SyntaxKind} {children : List SyntaxTree}
    {outer : List (SyntaxKind × List SyntaxTree)}
    (settled : reading.IsSettled) (next : reading.tokens = token :: rest)
    (inside : reading.parser.nodes = (kind, children) :: outer) :
    ((reading.descent limits length lookaheads).startNode inner).bump =
      .ok { reading.descent limits length stallLimit with
        tokens := rest
        trivia := []
        nodes := (inner, [.token token]) ::
          (kind, reading.parser.withTrivia children) :: outer
        tokensLeft := limits.tokens.map (· - (reading.count + 1))
        exceeded := reading.exceeded.or
          (Reading.due limits reading.count) } := by
  have solid := settled.solid next
  have inside : (reading.descent limits length lookaheads).nodes = _ := inside
  rw [startNode_eq inner inside]
  exact @bump_eq limits _ token rest reading.count inner [] _ next solid rfl rfl

theorem current_startNode {kind inner : SyntaxKind}
    {children : List SyntaxTree}
    {outer : List (SyntaxKind × List SyntaxTree)}
    (settled : reading.IsSettled)
    (inside : reading.parser.nodes = (kind, children) :: outer)
    (room : 0 < lookaheads) :
    ((reading.descent limits length lookaheads).startNode inner).current =
      .ok (reading.tokens.head?.map (·.kind),
        (reading.descent limits length (lookaheads - 1)).startNode inner) := by
  have started (lookaheads : Nat) : (reading.descent limits length
      lookaheads).nodes = (kind, children) :: outer := inside
  rw [startNode_eq inner (started lookaheads),
    startNode_eq inner (started (lookaheads - 1))]
  exact current_eq settled room

theorem finishNode_argument {argument : List SyntaxTree}
    (inside : reading.parser.nodes = (.argument, argument) ::
      (.statement, head.children) ::
        Parser.blockNodes reading.parser.openBlocks reading.parser.children) :
    (reading.descent limits length lookaheads).finishNode =
      .ok ((reading.become { reading.parser with
        mode := .afterArgument (Parser.endArgument head argument) }).descent
          limits length lookaheads) := by
  rw [finishNode_eq inside]
  rfl

/-- To look ahead is to put trivia aside. -/
theorem current_reaches {property : Reading → Prop}
    {rule : Option TokenKind × Descent → Except ParserFault Descent}
    (fits : reading.Fits limits length) (room : 0 < lookaheads)
    (rest : ∀ ahead : Reading, ahead.IsSettled → ahead.Fits limits length →
      ahead.parser.mode = reading.parser.mode →
      ahead.parser.openBlocks = reading.parser.openBlocks →
      ahead.tokens.length ≤ reading.tokens.length →
      Reaches limits length least (rule (ahead.tokens.head?.map (·.kind),
        ahead.descent limits length (lookaheads - 1))) ahead property) :
    Reaches limits length least
      ((reading.descent limits length lookaheads).current >>= rule) reading
        property := by
  rw [current_descent reading room, ok_bind]
  exact (rest reading.settle reading.isSettled_settle fits.settle rfl rfl
    (List.dropWhile_sublist _).length_le).after (.settle fits)

/-- What follows a quoted string ends the argument where its quoted strings
end. -/
theorem moreStrings_reaches {bound : Nat} {parts : List SyntaxTree}
    (fits : reading.Fits limits length)
    (mode : reading.parser.mode = .afterString head parts)
    (room : 16 ≤ lookaheads) (enough : reading.tokens.length < bound) :
    Reaches limits length 15
      (moreStrings bound (reading.descent limits length lookaheads) >>=
        finishNode) reading
      fun after => ∃ head', after.parser.mode = .afterArgument head' ∧
        head'.keyword = head.keyword ∧
        after.parser.openBlocks = reading.parser.openBlocks := by
  induction bound generalizing reading parts lookaheads with
  | zero => omega
  | succ bound ih =>
      rw [moreStrings, bind_assoc]
      refine current_reaches fits (by omega)
        fun ahead settled fits same blocks shorter => ?_
      rw [mode] at same
      have inside := Parser.nodes_afterString same
      by_cases plus : ahead.tokens.head?.map (·.kind) = some .plus
      · obtain ⟨token, first, isPlus⟩ := Option.map_eq_some_iff.mp plus
        obtain ⟨rest, next⟩ := List.head?_eq_some_iff.mp first
        have read : ahead.parser.read token = ahead.parser.proceed
            (.afterPlus head (ahead.parser.withToken parts token)) := by
          simp [Parser.read, same, isPlus]
        simp only [plus, if_true, bind_assoc]
        refine bump_reaches settled fits next (by simp [isPlus]) read inside
          (by simp [Parser.nodes, Parser.proceed])
          fun behind fits mode blocks' fewer => ?_
        generalize ahead.parser.withToken parts token = parts at mode
        refine current_reaches fits (by decide)
          fun last settled fits same' blocks'' shorter' => ?_
        rw [mode] at same'
        have inside := Parser.nodes_afterPlus same'
        have blocks := (blocks''.trans blocks').trans blocks
        by_cases quoted : (last.tokens.head?.map (·.kind)).any (·.isQuoted)
        · obtain ⟨_, known, isQuoted⟩ := (Option.any_eq_true _ _).mp quoted
          obtain ⟨string, first, rfl⟩ := Option.map_eq_some_iff.mp known
          obtain ⟨rest, next⟩ := List.head?_eq_some_iff.mp first
          have read : last.parser.read string = last.parser.proceed
              (.afterString head (last.parser.withToken parts string)) := by
            simp [Parser.read, same', isQuoted]
          have noBrace : string.kind ≠ .braceOpen := by
            intro isBrace
            simp [isBrace, TokenKind.isQuoted] at isQuoted
          simp only [quoted, if_true, bind_assoc]
          refine bump_reaches settled fits next noBrace read inside
            (by simp [Parser.nodes, Parser.proceed])
            fun behind fits mode blocks' fewer' => ?_
          rw [← blocks, ← blocks']
          exact ih fits mode (by decide) (by omega)
        · simp only [quoted, Bool.false_eq_true, if_false, pure_bind]
          have agrees := @Parser.agrees_afterPlus _ head parts length
            last.tokens same' fun token first => by
              simpa [Option.mem_def.mp first] using quoted
          rw [error_descent settled, finishNode_argument (by
            simpa [Reading.become, Parser.reportKind] using inside)]
          exact ⟨_, _, rfl, by decide, .become settled fits agrees, _, rfl, rfl,
            by simpa [Reading.become, Parser.reportKind] using blocks⟩
      · simp only [plus, if_false, pure_bind]
        rw [finishNode_argument inside]
        have agrees := @Parser.agrees_afterString _ head parts length
          ahead.tokens same (by simpa using plus)
        exact ⟨_, _, rfl, by omega, .become settled fits agrees, _, rfl, rfl,
          blocks⟩

/-- An argument behind a keyword is read up to its end. -/
theorem argument_reaches (settled : reading.IsSettled)
    (fits : reading.Fits limits length)
    (mode : reading.parser.mode = .afterKeyword head)
    (next : reading.tokens = token :: rest)
    (part : token.kind.isArgumentPart = true) (room : 16 ≤ lookaheads) :
    Reaches limits length 15
      (reading.descent limits length lookaheads).argument reading
      fun after => ∃ head', after.parser.mode = .afterArgument head' ∧
        head'.keyword = head.keyword ∧
        after.parser.openBlocks = reading.parser.openBlocks := by
  have inside := Parser.nodes_afterKeyword mode
  have noBrace : token.kind ≠ .braceOpen := by
    intro isBrace
    simp [isBrace, TokenKind.isArgumentPart, TokenKind.isQuoted] at part
  have onward := Continues.read next settled fits
    (by simp [Parser.opensBlock, noBrace])
  rw [argument, current_startNode settled inside (by omega)]
  simp only [ok_bind, next, List.head?_cons, Option.map_some,
    Option.some.injEq, bump_startNode settled next inside]
  by_cases word : token.kind = .word
  · have read : reading.parser.read token = reading.parser.proceed
        (.afterArgument (Parser.endArgument
          { head with children := reading.parser.withTrivia head.children }
            [.token token])) := by
      simp [Parser.read, mode, word]
    have mode : (reading.read limits token rest).parser.mode = .afterArgument
        (Parser.endArgument
          { head with children := reading.parser.withTrivia head.children }
            [.token token]) := by
      simp [Reading.read, read, Parser.proceed]
    rw [if_pos word, finishNode_eq rfl]
    refine ⟨reading.read limits token rest, stallLimit, ?_, by decide, onward,
      _, mode, rfl, by simp [Reading.read, read, Parser.proceed]⟩
    simp only [Reading.descent, Reading.read, read]
    rfl
  · have quoted : token.kind.isQuoted = true := by
      simpa [TokenKind.isArgumentPart, word] using part
    have read : reading.parser.read token = reading.parser.proceed
        (.afterString { head with
          children := reading.parser.withTrivia head.children }
            [.token token]) := by
      simp [Parser.read, mode, word, quoted]
    have started : ({ reading.descent limits length stallLimit with
        tokens := rest
        trivia := []
        nodes := (.argument, [.token token]) ::
          (.statement, reading.parser.withTrivia head.children) ::
            Parser.blockNodes reading.parser.openBlocks reading.parser.children
        tokensLeft := limits.tokens.map (· - (reading.count + 1))
        exceeded := reading.exceeded.or (Reading.due limits reading.count) } :
          Descent) = (reading.read limits token rest).descent limits length
            stallLimit := by
      simp only [Reading.descent, Reading.read, read]
      rfl
    have mode : (reading.read limits token rest).parser.mode = .afterString
        { head with children := reading.parser.withTrivia head.children }
          [.token token] := by
      simp [Reading.read, read, Parser.proceed]
    have blocks : (reading.read limits token rest).parser.openBlocks =
        reading.parser.openBlocks := by
      simp [Reading.read, read, Parser.proceed]
    rw [if_neg word, started, ← blocks]
    exact (moreStrings_reaches onward.fits mode (by decide)
      (Nat.lt_succ_self _)).after onward

/-- What cannot end a broken statement is swallowed. -/
theorem read_swallowed {parser : Parser} {parts : List SyntaxTree}
    (mode : parser.mode = .recovering head parts)
    (swallows : isRecovery token.kind = false) :
    parser.read token =
      parser.proceed (.recovering head (parser.withToken parts token)) := by
  rw [Parser.read, mode]
  dsimp only
  split
  case h_1 kind => simp [kind, isRecovery] at swallows
  case h_2 kind => simp [kind, isRecovery] at swallows
  case h_3 kind => simp [kind, isRecovery] at swallows
  case h_4 => rfl

/-- What has been swallowed ends where a statement can be taken up again. -/
theorem skip_reaches {bound : Nat} {parts : List SyntaxTree}
    {rule : Descent → Except ParserFault Descent} {property : Reading → Prop}
    (fits : reading.Fits limits length)
    (mode : reading.parser.mode = .recovering head parts)
    (room : 16 ≤ lookaheads) (enough : reading.tokens.length < bound)
    (on : ∀ (last : Reading) (parts : List SyntaxTree) (lookaheads : Nat),
      last.IsSettled → last.Fits limits length →
      last.parser.mode = .recovering head parts →
      last.parser.openBlocks = reading.parser.openBlocks →
      15 ≤ lookaheads →
      (∀ token ∈ last.tokens.head?, isRecovery token.kind = true) ∨
        last.exceeded.isSome →
      Reaches limits length least
        (rule (last.descent limits length lookaheads)) last property) :
    Reaches limits length least
      (skip bound (reading.descent limits length lookaheads) >>= rule) reading
        property := by
  induction bound generalizing reading parts lookaheads with
  | zero => omega
  | succ bound ih =>
      rw [skip, bind_assoc]
      refine current_reaches fits (by omega)
        fun ahead settled fits same blocks shorter => ?_
      rw [mode] at same
      rw [← blocks] at on
      cases tokens : ahead.tokens with
      | nil =>
          simp only [List.head?_nil, Option.map_none, Option.any_none,
            Bool.false_or, shouldStop, Reading.descent, tokens,
            List.isEmpty_nil, Bool.true_or, if_true, pure_bind]
          have stops := on ahead parts (lookaheads - 1) settled fits same rfl
            (by omega) (.inl (by simp [tokens]))
          simpa only [Reading.descent, tokens] using stops
      | cons token rest =>
          by_cases stop : isRecovery token.kind = true ∨ ahead.exceeded.isSome
          · have stops := on ahead parts (lookaheads - 1) settled fits same rfl
              (by omega) (stop.imp_left fun recovers => by
                simpa [tokens] using recovers)
            have holds : (Option.any isRecovery (some token.kind) ||
                (ahead.descent limits length (lookaheads - 1)).shouldStop) =
                  true := by
              simpa [shouldStop, Reading.descent, tokens] using stop
            simp only [List.head?_cons, Option.map_some, holds, if_true,
              pure_bind]
            exact stops
          · have goesOn : (Option.any isRecovery (some token.kind) ||
                (ahead.descent limits length (lookaheads - 1)).shouldStop) =
                  false := by
              simpa [shouldStop, Reading.descent, tokens] using stop
            simp only [List.head?_cons, Option.map_some, goesOn,
              Bool.false_eq_true, if_false, bind_assoc]
            have swallows : isRecovery token.kind = false := by
              simpa using fun recovers => stop (.inl recovers)
            have noBrace : token.kind ≠ .braceOpen := by
              intro isBrace
              simp [isBrace, isRecovery] at swallows
            have read := read_swallowed same swallows
            have inside := Parser.nodes_recovering same
            refine bump_reaches settled fits tokens noBrace read inside
              (by simp [Parser.nodes, Parser.proceed])
              fun behind fits mode blocks' fewer => ?_
            rw [← blocks'] at on
            exact ih fits mode (by decide) (by omega) on

theorem finishStatement_eq {state : Descent} {blocks : List OpenBlock}
    {siblings children : List SyntaxTree}
    (inside : state.nodes =
      (.statement, children) :: Parser.blockNodes blocks siblings) :
    state.finishNode = .ok { state with
      nodes := Parser.blockNodes blocks
        (siblings ++ [.node .statement children]) } := by
  obtain ⟨kind, outer, around⟩ := Parser.blockNodes_eq blocks
  rw [around] at inside ⊢
  exact finishNode_eq inside

/-- A statement that has been read ends in front of the trivia that waits. -/
theorem finishNode_statement
    (mode : reading.parser.mode = .afterArgument head) :
    (reading.descent limits length lookaheads).finishNode =
      .ok ((reading.become (reading.parser.endStatement
        head.children)).descent limits length lookaheads) := by
  have inside := Parser.nodes_afterArgument mode
  rw [finishStatement_eq inside]
  rfl

/-- A semicolon ends a statement. -/
theorem semicolon_reaches (settled : reading.IsSettled)
    (fits : reading.Fits limits length)
    (mode : reading.parser.mode = .afterArgument head)
    (next : reading.tokens = token :: rest)
    (semicolon : token.kind = .semicolon) :
    Reaches limits length 8
      ((reading.descent limits length lookaheads).bump >>= finishNode) reading
      (Reading.IsBetween reading.parser.openBlocks) := by
  have solid := settled.solid next
  have inside := Parser.nodes_afterArgument mode
  have read : reading.parser.read token =
      { reading.parser.endStatement
          (reading.parser.withToken head.children token) with
        trivia := [] } := by
    simp [Parser.read, mode, Parser.readTerminator, semicolon]
  have onward := Continues.read next settled fits
    (by simp [Parser.opensBlock, semicolon])
  have bumped := @bump_eq limits (reading.descent limits length lookaheads)
    token rest reading.count _ _ _ next solid inside rfl
  rw [bumped, ok_bind, finishStatement_eq rfl]
  refine ⟨reading.read limits token rest, stallLimit, ?_, by decide, onward, ?_⟩
  · simp only [Reading.descent, Reading.read, read]
    rfl
  · exact ⟨by simp [Reading.read, read, Parser.endStatement],
      by simp [Reading.read, read, Parser.endStatement]⟩

theorem error_again {state : Descent}
    (solid : ∀ token ∈ state.tokens.head?, token.kind.isTrivia = false)
    (reported : state.lastReported = some state.currentSpan.start)
    (kind : DiagnosticKind) : state.error kind = state := by
  have again : (Diagnostic.ofKind state.source kind
      state.currentSpan).span.start = state.currentSpan.start := rfl
  rw [error, bufferTrivia_eq solid]
  simp [report, again, reported]

theorem lastReported_report (parser : Parser) (diagnostic : Diagnostic) :
    (parser.report diagnostic).lastReported = some diagnostic.span.start := by
  unfold Parser.report
  split <;> simp_all

/-- Behind what has been swallowed a statement ends, with a semicolon if there
is one. -/
theorem recovered_reaches {parts : List SyntaxTree}
    (settled : reading.IsSettled) (fits : reading.Fits limits length)
    (mode : reading.parser.mode = .recovering head parts)
    (room : 15 ≤ lookaheads)
    (stops : (∀ token ∈ reading.tokens.head?, isRecovery token.kind = true) ∨
      reading.exceeded.isSome) :
    Reaches limits length 8
      ((reading.descent limits length lookaheads).finishNode >>= fun state =>
        state.eat .semicolon >>= finishNode) reading
      (Reading.IsBetween reading.parser.openBlocks) := by
  have inside := Parser.nodes_recovering mode
  let parser : Parser := { reading.parser with
    mode := .afterArgument (Parser.endRecovery head parts) }
  have finished : (reading.descent limits length lookaheads).finishNode =
      .ok ((reading.become parser).descent limits length lookaheads) := by
    rw [finishNode_eq inside]
    rfl
  have settled' : (reading.become parser).IsSettled := settled
  rw [finished, ok_bind, eat, current_descent _ (by omega), settled'.settle_eq]
  simp only [ok_bind, Reading.tokens_become]
  by_cases semicolon : reading.tokens.head?.map (·.kind) = some .semicolon
  · obtain ⟨token, first, isSemicolon⟩ := Option.map_eq_some_iff.mp semicolon
    obtain ⟨rest, next⟩ := List.head?_eq_some_iff.mp first
    have onward := Continues.become settled fits
      (Parser.agrees_recovering_semicolon mode first isSemicolon)
    rw [if_pos semicolon]
    exact (semicolon_reaches settled' onward.fits rfl next isSemicolon).after
      onward
  · rw [if_neg semicolon, pure_bind, finishNode_statement rfl]
    refine ⟨_, _, rfl, by omega, ?_, ⟨rfl, rfl⟩⟩
    rcases stops with recovers | exceeded
    · refine Continues.become settled fits
        (Parser.agrees_recovering mode fun token first => ?_)
      have recovers := recovers token first
      have other : token.kind ≠ .semicolon := fun isSemicolon =>
        semicolon (by simp [Option.mem_def.mp first, isSemicolon])
      cases kind : token.kind <;> simp_all [isRecovery]
    · exact .of_exceeded fits exceeded rfl rfl (List.Subset.refl _)

/-- What has been reported is not reported again. -/
theorem error_reported (settled : reading.IsSettled)
    (next : reading.tokens = token :: rest)
    (reported : reading.parser.lastReported = some token.span.start)
    (kind : DiagnosticKind) :
    (reading.descent limits length lookaheads).error kind =
      reading.descent limits length lookaheads := by
  refine error_again ?_ ?_ kind
  · exact settled
  · simpa [currentSpan, Reading.descent, next] using reported

/-- Nothing is swallowed once a limit has been exceeded. -/
theorem errorRecover_exceeded (settled : reading.IsSettled)
    (next : reading.tokens = token :: rest)
    (reported : reading.parser.lastReported = some token.span.start)
    (exceeded : reading.exceeded.isSome) (room : 1 ≤ lookaheads)
    (kind : DiagnosticKind) :
    (reading.descent limits length lookaheads).errorRecover kind =
      .ok (reading.descent limits length (lookaheads - 1)) := by
  have stop (next : Option TokenKind) : (next.any isRecovery ||
      (reading.descent limits length (lookaheads - 1)).shouldStop) = true := by
    simp [shouldStop, Reading.descent, exceeded]
  rw [errorRecover, current_descent reading (by omega), settled.settle_eq]
  simp only [ok_bind, stop, if_true, error_reported settled next reported]
  rfl

theorem read_garbage {parser : Parser} (mode : parser.mode = .afterArgument head)
    (garbage : token.kind = .garbage) :
    parser.read token = (parser.reportTerminator head token.span).proceed
      (.recovering { head with children := parser.withTrivia head.children }
        [.token token]) := by
  simp [Parser.read, mode, Parser.readTerminator, garbage]

theorem mode_reportTerminator {parser : Parser}
    (mode : parser.mode = .afterArgument head) (span : Span) :
    (parser.reportTerminator head span).mode = .afterArgument head := by
  simpa [Parser.reportTerminator] using mode

/-- Garbage behind an argument starts an error node, and what follows it is
swallowed, too. -/
theorem errorRecover_garbage (settled : reading.IsSettled)
    (mode : reading.parser.mode = .afterArgument head)
    (next : reading.tokens = token :: rest) (garbage : token.kind = .garbage)
    (within : ¬ reading.exceeded.isSome) (room : 2 ≤ lookaheads) :
    ((reading.become (reading.parser.reportTerminator head
      token.span)).descent limits length lookaheads).errorRecover
        .unexpectedToken =
      skip (rest.length + 1) ((reading.read limits token rest).descent limits
        length stallLimit) >>= finishNode := by
  have read := read_garbage mode garbage
  generalize is : reading.become (reading.parser.reportTerminator head
    token.span) = middle
  have settled' : middle.IsSettled := by rw [← is]; exact settled
  have next' : middle.tokens = token :: rest := by rw [← is]; exact next
  have mode' : middle.parser.mode = .afterArgument head := by
    rw [← is]
    exact mode_reportTerminator mode _
  have inside := Parser.nodes_afterArgument mode'
  have reported : middle.parser.lastReported = some token.span.start := by
    rw [← is]
    exact lastReported_report _ _
  have goesOn (state : Descent) (tokens : state.tokens = token :: rest)
      (limit : state.exceeded = middle.exceeded) :
      (Option.any isRecovery (some token.kind) || state.shouldStop) =
        false := by
    have within : middle.exceeded.isSome = false := by
      rw [← is]
      simpa [Reading.become] using within
    simp_all [shouldStop, isRecovery]
  have started (lookaheads : Nat) := @startNode_eq
    (middle.descent limits length lookaheads) _ _ _ .error inside
  have again (lookaheads : Nat) : ((middle.descent limits length
      lookaheads).startNode .error).error .unexpectedToken =
        (middle.descent limits length lookaheads).startNode .error := by
    rw [started]
    refine error_again ?_ ?_ _
    · exact settled'
    · simpa [currentSpan, Reading.descent, next'] using reported
  have count (lookaheads : Nat) : ((middle.descent limits length
      lookaheads).startNode .error).tokens.length = rest.length + 1 := by
    rw [started]
    simp [Reading.descent, next']
  have bumped : ({ middle.descent limits length stallLimit with
      tokens := rest
      trivia := []
      nodes := (.error, [.token token]) ::
        (.statement, middle.parser.withTrivia head.children) ::
          Parser.blockNodes middle.parser.openBlocks middle.parser.children
      tokensLeft := limits.tokens.map (· - (middle.count + 1))
      exceeded := middle.exceeded.or (Reading.due limits middle.count) } :
        Descent) = (reading.read limits token rest).descent limits length
          stallLimit := by
    subst is
    simp [Reading.descent, Reading.read, read, Reading.become, Parser.nodes,
      Parser.proceed, Parser.withTrivia, Parser.reportTerminator]
  rw [errorRecover, current_descent middle (by omega), settled'.settle_eq]
  simp only [ok_bind, next', List.head?_cons, Option.map_some,
    goesOn (middle.descent limits length (lookaheads - 1)) next' rfl,
    Bool.false_eq_true, if_false, again, count]
  rw [skip, current_startNode settled' inside (by omega)]
  have further := goesOn ((middle.descent limits length
    (lookaheads - 1 - 1)).startNode .error) (by rw [started]; exact next')
      (by rw [started]; rfl)
  simp only [ok_bind, next', List.head?_cons, Option.map_some, further,
    Bool.false_eq_true, if_false, bump_startNode settled' next' inside,
    bumped]

/-- Garbage where a statement must end is swallowed with what follows it, up to
where the statement can end after all. -/
theorem garbage_reaches (settled : reading.IsSettled)
    (fits : reading.Fits limits length)
    (mode : reading.parser.mode = .afterArgument head)
    (next : reading.tokens = token :: rest) (garbage : token.kind = .garbage)
    (room : 13 ≤ lookaheads) :
    Reaches limits length 8
      ((((reading.become (reading.parser.reportTerminator head
          token.span)).descent limits length lookaheads).errorRecover
            .unexpectedToken >>= (eat · .semicolon)) >>= finishNode) reading
      (Reading.IsBetween reading.parser.openBlocks) := by
  have read := read_garbage mode garbage
  by_cases exceeded : reading.exceeded.isSome
  · generalize is : reading.become (reading.parser.reportTerminator head
      token.span) = middle
    have settled' : middle.IsSettled := by rw [← is]; exact settled
    have next' : middle.tokens = token :: rest := by rw [← is]; exact next
    have mode' : middle.parser.mode = .afterArgument head := by
      rw [← is]
      exact mode_reportTerminator mode _
    have blocks : middle.parser.openBlocks = reading.parser.openBlocks := by
      rw [← is]
      simp [Reading.become, Parser.reportTerminator]
    have reported : middle.parser.lastReported = some token.span.start := by
      rw [← is]
      exact lastReported_report _ _
    have same : middle.exceeded = reading.exceeded := by rw [← is]; rfl
    rw [errorRecover_exceeded settled' next' reported (same ▸ exceeded)
      (by omega), ok_bind, eat, current_descent middle (by omega),
      settled'.settle_eq]
    simp only [ok_bind, next', List.head?_cons, Option.map_some, garbage,
      Option.some.injEq, reduceCtorEq, if_false, pure_bind,
      finishNode_statement mode']
    exact ⟨_, _, rfl, by omega, .of_exceeded fits exceeded same
      (next'.trans next.symm) (by
        rw [← blocks]
        exact List.Subset.refl _), ⟨rfl, blocks⟩⟩
  · have onward := Continues.read next settled fits
      (by simp [Parser.opensBlock, garbage])
    have mode' : (reading.read limits token rest).parser.mode = .recovering
        { head with children := reading.parser.withTrivia head.children }
          [.token token] := by
      simp [Reading.read, read, Parser.proceed]
    have blocks : (reading.read limits token rest).parser.openBlocks =
        reading.parser.openBlocks := by
      simp [Reading.read, read, Parser.proceed, Parser.reportTerminator]
    rw [errorRecover_garbage settled mode next garbage exceeded (by omega)]
    simp only [bind_assoc]
    refine Reaches.after ?_ onward
    refine skip_reaches onward.fits mode' (by decide) (Nat.lt_succ_self _)
      fun last parts lookaheads settled fits mode kept room stops => ?_
    rw [← blocks, ← kept]
    exact recovered_reaches settled fits mode room stops

end Descent

end YangSchema
