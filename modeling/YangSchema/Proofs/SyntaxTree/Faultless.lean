import YangSchema.Proofs.SyntaxTree.Descending
import YangSchema.Proofs.SyntaxTree.Ranges

/-!
# Recursive descent never fails its own checks

The rules for blocks and statements call each other. A block is left with as
many open blocks as it was entered with, and each statement consumes a token, so
the number of tokens to come bounds how deep the rules are nested.
-/

namespace YangSchema

namespace Descent

open Reading (Continues Reaches)

variable {limits : ParseLimits} {length least lookaheads size : Nat}
  {reading : Reading} {token : Token} {rest : List Token}
  {head : StatementHead} {block : OpenBlock} {outer : List OpenBlock}
  {items : Descent → Except ParserFault (Bool × Descent)}

/-- What is left to do behind the statements of a block. -/
def endBlock (state : Bool × Descent) : Except ParserFault Descent := do
  let inner ← state.2.closeBlock state.1
  let inner ← inner.finishNode
  inner.finishNode

/-- A rule reads what is in a block, if there are few enough tokens to come. -/
def ReadsBlock (limits : ParseLimits) (length size : Nat)
    (items : Descent → Except ParserFault (Bool × Descent)) : Prop :=
  ∀ (reading : Reading) (block : OpenBlock) (outer : List OpenBlock)
    (lookaheads : Nat), reading.Fits limits length →
    reading.IsBetween (block :: outer) → reading.tokens.length < size →
    8 ≤ lookaheads →
    Reaches limits length 8
      (items (reading.descent limits length lookaheads) >>= endBlock) reading
      (Reading.IsBetween outer)

/-- A block that may not be opened exceeds a limit. -/
theorem refused_reaches (settled : reading.IsSettled)
    (fits : reading.Fits limits length)
    (mode : reading.parser.mode = .afterArgument head)
    (next : reading.tokens = token :: rest) (brace : token.kind = .braceOpen)
    (deep : limits.depth.any (· ≤ reading.parser.openBlocks.length) = true) :
    Continues limits length reading
      { reading with
        parser := reading.parser.endStatement head.children
        exceeded := reading.exceeded.or (some .depth) } where
  outcome := by
    obtain ⟨parser, count, tokens, exceeded⟩ := reading
    obtain rfl : tokens = token :: rest := next
    have solid := settled.solid rfl
    cases exceeded with
    | some limit => rfl
    | none =>
        have mode : parser.mode = .afterArgument head := mode
        have opens : parser.opensBlock token = true := by
          simp [Parser.opensBlock, brace, mode]
        have step : Parser.step limits (parser, count) token =
            .error .depth := by
          have deep : limits.depth.any
            (· ≤ parser.openBlocks.length) = true := deep
          simp [Parser.step, solid, opens, deep]
        simp only [Reading.outcome, Option.none_or, List.foldlM_cons, step]
        rfl
  fits := ⟨fun none => by
    cases was : reading.exceeded <;> simp [was] at none, fits.tokens,
    fits.braces⟩
  fewer := Nat.le_refl _

theorem openBlock_descent (settled : reading.IsSettled)
    (next : reading.tokens = token :: rest) :
    (reading.descent limits length lookaheads).openBlock =
      if limits.depth.any (· ≤ reading.parser.openBlocks.length) then
        (false, (reading.descent limits length lookaheads).exceed .depth)
      else
        (true, { reading.descent limits length stallLimit with
          openBlocks := token.span ::
            reading.parser.openBlocks.map (·.brace.span) }) := by
  have blocks : (reading.descent limits length lookaheads).openBlocks.length =
      reading.parser.openBlocks.length := List.length_map _
  have depth : (reading.descent limits length lookaheads).depth =
      limits.depth := rfl
  have span : (reading.descent limits length lookaheads).currentSpan =
      token.span := by
    simp [currentSpan, Reading.descent, next]
  rw [openBlock, blocks, depth, bufferTrivia_descent, settled.settle_eq]
  simp only [span]
  rfl

/-- A block ends the statement in front of it. -/
theorem block_reaches (settled : reading.IsSettled)
    (fits : reading.Fits limits length)
    (mode : reading.parser.mode = .afterArgument head)
    (next : reading.tokens = token :: rest) (brace : token.kind = .braceOpen)
    (few : reading.tokens.length ≤ size) (room : 9 ≤ lookaheads)
    (reads : ReadsBlock limits length size items) :
    Reaches limits length 8
      ((reading.descent limits length lookaheads).block items >>= finishNode)
      reading (Reading.IsBetween reading.parser.openBlocks) := by
  have solid := settled.solid next
  rw [Descent.block, assertCurrent, current_descent reading (by omega),
    settled.settle_eq]
  simp only [ok_bind, next, List.head?_cons, Option.map_some, brace, if_true,
    pure_bind, openBlock_descent settled next]
  by_cases deep : limits.depth.any (· ≤ reading.parser.openBlocks.length)
  · have inside : ((reading.descent limits length (lookaheads - 1)).exceed
        .depth).nodes = _ := Parser.nodes_afterArgument mode
    simp only [deep, if_true, Bool.false_eq_true, if_false, pure_bind,
      finishStatement_eq inside]
    exact ⟨_, lookaheads - 1, rfl, by omega,
      refused_reaches settled fits mode next brace deep, ⟨rfl, rfl⟩⟩
  · have inside := Parser.nodes_afterArgument mode
    have read : reading.parser.read token =
        { reading.parser with
          openBlocks := ⟨token,
            { head with children := reading.parser.withTrivia head.children },
            reading.parser.children⟩ :: reading.parser.openBlocks
          children := [.token token]
          mode := .betweenStatements
          trivia := [] } := by
      simp [Parser.read, mode, Parser.readTerminator, brace]
    have opened : (({ reading.descent limits length stallLimit with
        openBlocks := token.span ::
          reading.parser.openBlocks.map (·.brace.span) } : Descent).startNode
            .block).bump = .ok ((reading.read limits token rest).descent limits
              length stallLimit) := by
      rw [startNode_eq .block inside, @bump_eq limits _ token rest
        reading.count .block [] _ next solid rfl rfl]
      simp only [Reading.descent, Reading.read, read]
      rfl
    have onward := Continues.read next settled fits (by simp [deep])
    simp only [deep, Bool.false_eq_true, if_false, if_true, opened, ok_bind,
      bind_assoc]
    have between : (reading.read limits token rest).IsBetween
        (⟨token, { head with
            children := reading.parser.withTrivia head.children },
          reading.parser.children⟩ :: reading.parser.openBlocks) := by
      constructor <;> simp [Reading.read, read]
    have fewer : (reading.read limits token rest).tokens.length < size := by
      simp only [Reading.read]
      simp only [next, List.length_cons] at few
      omega
    have room : 8 ≤ stallLimit := by decide
    exact (reads _ _ _ _ onward.fits between fewer room).after onward

/-- Where neither a semicolon nor a block follows, the statement ends all the
same. -/
theorem unterminated_reaches (settled : reading.IsSettled)
    (fits : reading.Fits limits length)
    (mode : reading.parser.mode = .afterArgument head)
    (noSemicolon : reading.tokens.head?.map (·.kind) ≠ some .semicolon)
    (noBrace : reading.tokens.head?.map (·.kind) ≠ some .braceOpen)
    (room : 14 ≤ lookaheads) :
    Reaches limits length 8
      ((do
        let state := (reading.descent limits length lookaheads).errorMessage
          .expectedTerminator s!"after `{head.keyword.text}`"
        let (next, state) ← state.current
        if next = some .garbage then
          let state ← state.errorRecover .unexpectedToken
          state.eat .semicolon
        else
          return state) >>= finishNode)
      reading (Reading.IsBetween reading.parser.openBlocks) := by
  have settled' (parser : Parser) : (reading.become parser).IsSettled := settled
  have left : 0 < lookaheads := by omega
  simp only [errorMessage_descent settled, current_descent _ left,
    (settled' _).settle_eq, ok_bind, Reading.tokens_become]
  by_cases garbage : reading.tokens.head?.map (·.kind) = some .garbage
  · obtain ⟨token, first, isGarbage⟩ := Option.map_eq_some_iff.mp garbage
    obtain ⟨rest, next⟩ := List.head?_eq_some_iff.mp first
    have span : Parser.nextSpan length reading.tokens = token.span := by
      simp [Parser.nextSpan, first]
    rw [if_pos garbage, span]
    exact garbage_reaches settled fits mode next isGarbage (by omega)
  · have agrees := @Parser.agrees_afterArgument _ head length reading.tokens
      mode fun token first => by
        simp only [Option.mem_def.mp first, Option.map_some, ne_eq,
          Option.some.injEq] at noSemicolon noBrace garbage
        exact ⟨noSemicolon, noBrace, garbage⟩
    rw [if_neg garbage, pure_bind, @finishNode_statement _ _ _ _ head (by
      simpa [Reading.become, Parser.reportTerminator] using mode)]
    exact ⟨_, _, rfl, by omega, .become settled fits agrees, ⟨rfl, by
      simp [Reading.become, Parser.endStatement, Parser.reportTerminator]⟩⟩

/-- A statement ends with a semicolon, with a block or for want of both. -/
theorem terminator_reaches (fits : reading.Fits limits length)
    (mode : reading.parser.mode = .afterArgument head)
    (few : reading.tokens.length ≤ size) (room : 15 ≤ lookaheads)
    (reads : ReadsBlock limits length size items) :
    Reaches limits length 8
      ((reading.descent limits length lookaheads).terminator items
        head.keyword.text >>= finishNode)
      reading (Reading.IsBetween reading.parser.openBlocks) := by
  rw [terminator, bind_assoc]
  refine current_reaches fits (by omega)
    fun ahead settled fits same blocks shorter => ?_
  rw [mode] at same
  rw [← blocks]
  dsimp only
  split
  case h_1 semicolon =>
    obtain ⟨token, first, isSemicolon⟩ := Option.map_eq_some_iff.mp semicolon
    obtain ⟨rest, next⟩ := List.head?_eq_some_iff.mp first
    exact semicolon_reaches settled fits same next isSemicolon
  case h_2 brace =>
    obtain ⟨token, first, isBrace⟩ := Option.map_eq_some_iff.mp brace
    obtain ⟨rest, next⟩ := List.head?_eq_some_iff.mp first
    exact block_reaches settled fits same next isBrace (by omega) (by omega)
      reads
  case h_3 noSemicolon noBrace =>
    exact unterminated_reaches settled fits same noSemicolon noBrace (by omega)

/-- A keyword may be followed by an argument. -/
theorem optionalArgument_reaches (fits : reading.Fits limits length)
    (mode : reading.parser.mode = .afterKeyword head)
    (room : 17 ≤ lookaheads) :
    Reaches limits length 15
      (reading.descent limits length lookaheads).optionalArgument reading
      fun after => ∃ head', after.parser.mode = .afterArgument head' ∧
        head'.keyword = head.keyword ∧
        after.parser.openBlocks = reading.parser.openBlocks := by
  rw [optionalArgument]
  refine current_reaches fits (by omega)
    fun ahead settled fits same blocks shorter => ?_
  rw [mode] at same
  rw [← blocks]
  by_cases part : (ahead.tokens.head?.map (·.kind)).any (·.isArgumentPart)
  · obtain ⟨_, known, isPart⟩ := (Option.any_eq_true _ _).mp part
    obtain ⟨token, first, rfl⟩ := Option.map_eq_some_iff.mp known
    obtain ⟨rest, next⟩ := List.head?_eq_some_iff.mp first
    simp only [part, if_true]
    exact argument_reaches settled fits same next isPart (by omega)
  · have agrees := @Parser.agrees_afterKeyword _ head length ahead.tokens same
      fun token first => by
        simpa [Option.mem_def.mp first] using part
    simp only [part, Bool.false_eq_true, if_false]
    refine ⟨ahead.become { ahead.parser with mode := .afterArgument head },
      lookaheads - 1, ?_, by omega, .become settled fits agrees, head, rfl, rfl,
      rfl⟩
    simp [Reading.descent, Reading.become, Parser.nodes, same]

/-- A statement is read as a whole, and consumes a token. -/
theorem statement_reaches (settled : reading.IsSettled)
    (fits : reading.Fits limits length)
    (mode : reading.parser.mode = .betweenStatements)
    (next : reading.tokens = token :: rest) (word : token.kind = .word)
    (few : reading.tokens.length ≤ size) (room : 1 ≤ lookaheads)
    (reads : ReadsBlock limits length size items) :
    Reaches limits length 8
      ((reading.descent limits length lookaheads).statement items) reading
      fun after => after.IsBetween reading.parser.openBlocks ∧
        after.tokens.length < reading.tokens.length := by
  obtain ⟨kind, outer, around⟩ := Parser.blockNodes_eq reading.parser.openBlocks
  have inside : reading.parser.nodes =
      (kind, reading.parser.children) :: outer := by
    rw [Parser.nodes_between mode, around]
  have read : reading.parser.read token =
      { reading.parser with
        children := reading.parser.withTrivia reading.parser.children
        mode := .afterKeyword ⟨token, [.token token]⟩
        trivia := [] } := by
    simp [Parser.read, mode, Parser.readBetween, word]
  have bumped : ((reading.descent limits length (lookaheads - 1)).startNode
      .statement).bump = .ok ((reading.read limits token rest).descent limits
        length stallLimit) := by
    rw [bump_startNode settled next inside]
    simp only [Reading.descent, Reading.read, read, Parser.nodes, around]
  have keyword : (((reading.descent limits length (lookaheads - 1)).startNode
      .statement).tokens.head?.map (·.text)).getD "" = token.text := by
    rw [startNode_eq .statement (show (reading.descent limits length
      (lookaheads - 1)).nodes = _ from inside)]
    simp [Reading.descent, next]
  have onward := Continues.read next settled fits
    (by simp [Parser.opensBlock, word])
  rw [statement, assertCurrent, current_descent reading (by omega),
    settled.settle_eq]
  simp only [ok_bind, next, List.head?_cons, Option.map_some, word, if_true,
    pure_bind, keyword, bumped]
  have mode' : (reading.read limits token rest).parser.mode =
      .afterKeyword ⟨token, [.token token]⟩ := by
    simp [Reading.read, read]
  have blocks : (reading.read limits token rest).parser.openBlocks =
      reading.parser.openBlocks := by
    simp [Reading.read, read]
  have count : rest.length + 1 = reading.tokens.length := by simp [next]
  refine ((optionalArgument_reaches onward.fits mode' (by decide)).bind
    fun middle lookaheads room continues holds => ?_).after onward
  obtain ⟨head, mode, same, blocks'⟩ := holds
  have shorter : middle.tokens.length ≤ rest.length := continues.fewer
  obtain ⟨after, left, is, enough, further, between⟩ :=
    terminator_reaches continues.fits mode
      (show middle.tokens.length ≤ size by omega) room reads
  rw [same] at is
  rw [blocks', blocks] at between
  have fewer : after.tokens.length ≤ middle.tokens.length := further.fewer
  exact ⟨after, left, is, enough, further, between, by
    rw [List.length_cons]
    omega⟩

/-- The nodes of a block and of its statement are finished one after the
other. -/
theorem finishBlock_eq {state : Descent} {siblings children : List SyntaxTree}
    (inside : state.nodes = (.block, children) ::
      (.statement, head.children) :: Parser.blockNodes outer siblings) :
    state.finishNode >>= finishNode = .ok { state with
      nodes := Parser.blockNodes outer (siblings ++
        [.node .statement (head.children ++ [.node .block children])]) } := by
  rw [finishNode_eq inside, ok_bind]
  exact finishStatement_eq rfl

/-- Once a limit has been exceeded, blocks are left without a word. -/
theorem stopped_reaches (fits : reading.Fits limits length)
    (between : reading.IsBetween (block :: outer))
    (exceeded : reading.exceeded.isSome) :
    Reaches limits length 8
      (endBlock (false, reading.descent limits length lookaheads)) reading
      (Reading.IsBetween outer) := by
  have closed : (reading.descent limits length lookaheads).closeBlock false =
      .ok { reading.descent limits length stallLimit with
        openBlocks := outer.map (·.brace.span) } := by
    simp only [closeBlock, Reading.descent, between.blocks, List.map_cons]
    simp [exceeded]
  have inside := Parser.nodes_inBlock between.mode between.blocks
  rw [endBlock]
  simp only [closed, ok_bind]
  rw [finishBlock_eq inside]
  refine ⟨reading.become (reading.parser.closeBlock block outer
    reading.parser.children), stallLimit, ?_, by decide,
    .of_exceeded fits exceeded rfl rfl ?_, ⟨between.mode, rfl⟩⟩
  · simp [Reading.descent, Reading.become, Parser.closeBlock, Parser.nodes,
      between.mode]
  · simp [Reading.become, Parser.closeBlock, between.blocks]

theorem reportUnclosed_descent (none : reading.tokens = [])
    (fits : reading.Fits limits length)
    (between : reading.IsBetween (block :: outer))
    (within : reading.exceeded = .none) :
    (reading.descent limits length lookaheads).closeBlock false =
      .ok { (reading.become (reading.parser.reportUnclosed block.brace.span
        ⟨length, length⟩)).descent limits length stallLimit with
          openBlocks := outer.map (·.brace.span) } := by
  have notBehind : ¬ length < block.brace.span.start := by
    have := fits.braces block (by simp [between.blocks])
    simpa [Token.span] using this
  by_cases reported : reading.parser.lastReported = some length
  · simp [closeBlock, Reading.descent, between.blocks, within, none,
      bufferTrivia, currentSpan, reported, Reading.become,
      Parser.reportUnclosed]
  · simp [closeBlock, Reading.descent, between.blocks, within, none,
      bufferTrivia, currentSpan, reported, Reading.become,
      Parser.reportUnclosed, notBehind, Parser.nodes]

/-- A block that reaches the end of the source is closed and reported there. -/
theorem ended_reaches (fits : reading.Fits limits length)
    (between : reading.IsBetween (block :: outer))
    (none : reading.tokens = []) (within : reading.exceeded = .none) :
    Reaches limits length 8
      (endBlock (false, reading.descent limits length lookaheads)) reading
      (Reading.IsBetween outer) := by
  generalize is : reading.parser.reportUnclosed block.brace.span
    ⟨length, length⟩ = reported
  have kept : reported.children = reading.parser.children ∧
      reported.mode = reading.parser.mode ∧
      reported.openBlocks = reading.parser.openBlocks := by
    rw [← is]
    unfold Parser.reportUnclosed
    split <;> exact ⟨rfl, rfl, rfl⟩
  obtain ⟨children, mode, blocks⟩ := kept
  have inside := Parser.nodes_inBlock (mode.trans between.mode)
    (blocks.trans between.blocks)
  let closed := reported.closeBlock block outer reported.children
  have finish : closed.finish length = reading.parser.finish length := by
    simp only [Parser.finish, Parser.endLastStatement, between.mode,
      between.blocks, Parser.closeAll, is]
    simp [closed, Parser.closeBlock, mode, between.mode, children]
  have onward : Continues limits length reading (reading.become closed) :=
    { outcome := by
        simp [Reading.outcome, Reading.become, within, none, finish]
      fits := ⟨fits.counted, fits.tokens, fun other listed => fits.braces other
        (by rw [between.blocks]; exact List.mem_cons_of_mem block listed)⟩
      fewer := Nat.le_refl _ }
  rw [endBlock]
  simp only [reportUnclosed_descent none fits between within, is, ok_bind]
  rw [@finishBlock_eq block.head outer _ block.siblings reported.children
    inside]
  refine ⟨reading.become closed, stallLimit, ?_, by decide, onward,
    ⟨mode.trans between.mode, rfl⟩⟩
  simp [Reading.descent, Reading.become, closed, Parser.closeBlock,
    Parser.nodes, mode, between.mode]

/-- A closing brace ends a block and the statement in front of it. -/
theorem closed_reaches (settled : reading.IsSettled)
    (fits : reading.Fits limits length)
    (between : reading.IsBetween (block :: outer))
    (next : reading.tokens = token :: rest) (brace : token.kind = .braceClose) :
    Reaches limits length 8
      ((reading.descent limits length lookaheads).bump >>= fun state =>
        endBlock (true, state)) reading
      (Reading.IsBetween outer) := by
  have solid := settled.solid next
  have inside := Parser.nodes_inBlock between.mode between.blocks
  have read : reading.parser.read token =
      { reading.parser.closeBlock block outer
          (reading.parser.withToken reading.parser.children token) with
        trivia := [] } := by
    simp [Parser.read, between.mode, Parser.readBetween, brace, between.blocks]
  have onward := Continues.read next settled fits
    (by simp [Parser.opensBlock, brace])
  rw [@bump_eq limits (reading.descent limits length lookaheads) token rest
    reading.count _ _ _ next solid inside rfl, ok_bind, endBlock]
  simp only [closeBlock, Reading.descent, between.blocks, List.map_cons,
    Bool.true_or, if_true, ok_bind]
  rw [finishBlock_eq rfl]
  refine ⟨reading.read limits token rest, stallLimit, ?_, by decide, onward, ?_⟩
  · simp only [Reading.descent, Reading.read, read, Parser.closeBlock,
      Parser.nodes, between.mode]
    rfl
  · constructor <;> simp [Reading.read, read, Parser.closeBlock, between.mode]

/-- A token that fits nowhere is put into a node of its own. -/
theorem errorAndBump_eq (kind : DiagnosticKind) (settled : reading.IsSettled)
    (mode : reading.parser.mode = .betweenStatements)
    (next : reading.tokens = token :: rest)
    (read : reading.parser.read token = reading.parser.reject kind token) :
    (reading.descent limits length lookaheads).errorAndBump kind =
      .ok ((reading.read limits token rest).descent limits length
        stallLimit) := by
  obtain ⟨around, outer, is⟩ := Parser.blockNodes_eq reading.parser.openBlocks
  let reported := reading.become (reading.parser.reportKind kind token.span)
  have inside : reported.parser.nodes =
      (around, reading.parser.children) :: outer := by
    simp only [reported, Reading.become, Parser.reportKind, Parser.nodes_report]
    rw [Parser.nodes_between mode, is]
  have settled' : reported.IsSettled := settled
  have span : Parser.nextSpan length reading.tokens = token.span := by
    simp [Parser.nextSpan, next]
  have notEmpty : (reported.descent limits length lookaheads).tokens.isEmpty =
      false := by
    simp [Reading.descent, next, reported]
  rw [errorAndBump, error_descent settled, span]
  simp only [show reading.become (reading.parser.reportKind kind token.span) =
    reported from rfl, notEmpty, Bool.false_eq_true, if_false,
    bump_startNode settled' (show reported.tokens = _ from next) inside,
    ok_bind]
  rw [finishNode_eq rfl]
  simp only [Reading.descent, Reading.read, read, Parser.reject, Parser.settle,
    Parser.nodes, reported, Reading.become]
  simp [Parser.reportKind, is]

theorem rejected_reaches {blocks : List OpenBlock}
    {rule : Descent → Except ParserFault Descent} {property : Reading → Prop}
    (kind : DiagnosticKind) (settled : reading.IsSettled)
    (fits : reading.Fits limits length) (between : reading.IsBetween blocks)
    (next : reading.tokens = token :: rest)
    (read : reading.parser.read token = reading.parser.reject kind token)
    (on : ∀ last : Reading, last.Fits limits length → last.IsBetween blocks →
      last.tokens = rest →
      Reaches limits length least
        (rule (last.descent limits length stallLimit)) last property) :
    Reaches limits length least
      ((reading.descent limits length lookaheads).errorAndBump kind >>= rule)
      reading property := by
  have allowed : reading.parser.opensBlock token = false := by
    simp [Parser.opensBlock, between.mode]
  have onward := Continues.read next settled fits (by simp [allowed])
  have between' : (reading.read limits token rest).IsBetween blocks := by
    constructor <;>
      simp [Reading.read, read, Parser.reject, Parser.settle,
        Parser.reportKind, between.blocks]
  rw [errorAndBump_eq kind settled between.mode next read, ok_bind]
  exact (on _ onward.fits between' rfl).after onward

/-- What ends the statements of a block or of a source shows what is behind
them. -/
theorem items_reaches {inBlock : Bool} {bound : Nat} {blocks : List OpenBlock}
    {rule : Bool × Descent → Except ParserFault Descent}
    {property : Reading → Prop}
    (inner : ∀ size < bound, ReadsBlock limits length size
      (Descent.items true size))
    (ends : ∀ (last : Reading) (lookaheads : Nat), last.Fits limits length →
      last.IsBetween blocks → last.tokens = [] ∨ last.exceeded.isSome →
      Reaches limits length least
        (rule (false, last.descent limits length lookaheads)) last property)
    (closes : inBlock = true → ∀ (last : Reading) (token : Token)
      (rest : List Token) (lookaheads : Nat), last.IsSettled →
      last.Fits limits length → last.IsBetween blocks →
      last.tokens = token :: rest → token.kind = .braceClose →
      Reaches limits length least
        ((last.descent limits length lookaheads).bump >>= fun state =>
          rule (true, state)) last property)
    (root : inBlock = false → blocks = [])
    (fits : reading.Fits limits length) (between : reading.IsBetween blocks)
    (enough : reading.tokens.length < bound) (room : 8 ≤ lookaheads) :
    Reaches limits length least
      (Descent.items inBlock bound
        (reading.descent limits length lookaheads) >>= rule) reading
      property := by
  induction bound generalizing reading lookaheads with
  | zero => omega
  | succ bound ih =>
      have inner' (size : Nat) (below : size < bound) :=
        inner size (by omega)
      rw [Descent.items]
      by_cases stop : (reading.descent limits length lookaheads).shouldStop
      · rw [if_pos stop]
        refine ends reading lookaheads fits between ?_
        simpa [shouldStop, Reading.descent] using stop
      rw [if_neg stop, bind_assoc]
      refine current_reaches fits (by omega)
        fun first settled fits mode opened shorter => ?_
      have between : first.IsBetween blocks :=
        ⟨mode.trans between.mode, opened.trans between.blocks⟩
      cases tokens : first.tokens with
      | nil =>
          simp only [List.head?_nil, Option.map_none, if_true, pure_bind]
          exact ends first (lookaheads - 1) fits between (.inl tokens)
      | cons token rest =>
          simp only [List.head?_cons, Option.map_some, reduceCtorEq, if_false]
          rw [current_descent first (by omega), settled.settle_eq, ok_bind]
          simp only [tokens, List.head?_cons, Option.map_some]
          have fewer : rest.length < bound := by
            simp only [tokens, List.length_cons] at shorter
            omega
          have rejected (kind : DiagnosticKind)
              (read : first.parser.read token =
                first.parser.reject kind token) :
              Reaches limits length least
                ((first.descent limits length (lookaheads - 1 - 1)).errorAndBump
                  kind >>= fun state =>
                    Descent.items inBlock bound state >>= rule) first
                property :=
            rejected_reaches kind settled fits between tokens read
              fun last fits between' left =>
                ih inner' fits between' (left ▸ fewer) (by decide)
          have few : first.tokens.length ≤ bound := by omega
          split
          case h_1 word =>
            rw [bind_assoc]
            refine (statement_reaches settled fits between.mode tokens
              (Option.some.inj word) few (by omega)
              (inner bound (Nat.lt_succ_self bound))).bind
                fun middle lookaheads room continues holds => ?_
            obtain ⟨between', fewer⟩ := holds
            rw [between.blocks] at between'
            exact ih inner' continues.fits between' (by omega) room
          case h_2 brace =>
            cases inBlock with
            | true =>
                simp only [if_true, bind_assoc, pure_bind]
                exact closes rfl first token rest _ settled fits between tokens
                  (Option.some.inj brace)
            | false =>
                simp only [Bool.false_eq_true, if_false, bind_assoc]
                refine rejected .unexpectedBlockClose ?_
                simp [Parser.read, between.mode, Parser.readBetween,
                  Option.some.inj brace, between.blocks, root rfl]
          case h_3 quoted =>
            rw [bind_assoc]
            refine rejected .expectedKeyword ?_
            simp [Parser.read, between.mode, Parser.readBetween,
              Option.some.inj quoted]
          case h_4 quoted =>
            rw [bind_assoc]
            refine rejected .expectedKeyword ?_
            simp [Parser.read, between.mode, Parser.readBetween,
              Option.some.inj quoted]
          case h_5 noWord noBrace noQuoted noQuoted' =>
            rw [bind_assoc]
            refine rejected .unexpectedToken ?_
            rw [Parser.read, between.mode]
            simp only [Parser.readBetween]
            split <;> simp_all

/-- Whatever is in a block, its rule reads it. -/
theorem readsBlock (limits : ParseLimits) (length size : Nat) :
    ReadsBlock limits length size (Descent.items true size) := by
  induction size using Nat.strongRecOn with
  | ind size smaller =>
      intro reading block outer lookaheads fits between few room
      refine items_reaches smaller
        (fun last lookaheads fits between stops => ?_)
        (fun _ last token rest lookaheads settled fits between next brace =>
          closed_reaches settled fits between next brace)
        (by simp) fits between few room
      cases exceeded : last.exceeded with
      | some limit =>
          exact stopped_reaches fits between (by simp [exceeded])
      | none =>
          have none : last.tokens = [] := by simpa [exceeded] using stops
          exact ended_reaches fits between none exceeded

/-- The statements of a source are read up to its end, or until a limit has been
exceeded. -/
theorem source_reaches (fits : reading.Fits limits length)
    (between : reading.IsBetween []) {bound : Nat}
    (enough : reading.tokens.length < bound) (room : 8 ≤ lookaheads) :
    Reaches limits length 0
      (Descent.items false bound (reading.descent limits length lookaheads) >>=
        fun read => pure read.2) reading
      fun after => after.IsBetween [] ∧
        (after.tokens = [] ∨ after.exceeded.isSome) :=
  items_reaches (fun size _ => readsBlock limits length size)
    (fun last lookaheads fits between stops =>
      ⟨last, lookaheads, rfl, Nat.zero_le _,
        ⟨rfl, fits, Nat.le_refl _⟩, between, stops⟩)
    (by simp) (by simp) fits between enough room

theorem fits_initial (limits : ParseLimits) (id : SourceId) (source : String) :
    (Reading.mk (.initial id) 0 (lex source) none).Fits limits
      source.utf8ByteSize where
  counted _ _ _ := Nat.zero_le _
  tokens token listed := Nat.le_trans (Nat.le_add_right _ _)
    (Token.stop_le_of_mem_lex listed)
  braces := by simp [Parser.initial]

theorem initial_startNode (limits : ParseLimits) (id : SourceId)
    (length : Nat) (tokens : List Token) :
    (initial limits id length tokens).startNode .root =
      (Reading.mk (.initial id) 0 tokens none).descent limits length
        stallLimit := by
  simp [initial, startNode, drainTrivia, add, Reading.descent, Parser.initial,
    Parser.nodes, Parser.blockNodes]

/-- What has been read up to the end of the source is the result. -/
theorem result_descent (fits : reading.Fits limits length)
    (between : reading.IsBetween [])
    (stops : reading.tokens = [] ∨ reading.exceeded.isSome) :
    ((reading.descent limits length
        lookaheads).bufferTrivia.drainTrivia.finishNode >>=
      (result limits ·)) = .ok (reading.outcome limits length) := by
  have nodes : reading.settle.parser.nodes =
      [(.root, reading.settle.parser.children)] := by
    rw [Parser.nodes_between (show reading.settle.parser.mode = _ from
      between.mode), show reading.settle.parser.openBlocks = [] from
      between.blocks]
    rfl
  rw [bufferTrivia_descent]
  have finished : (reading.settle.descent limits length
      lookaheads).drainTrivia.finishNode =
        .ok { reading.settle.descent limits length lookaheads with
          trivia := []
          nodes := []
          finished := [reading.settle.parser.root] } := by
    simp [drainTrivia, add, Reading.descent, nodes, finishNode, Parser.root,
      Parser.withTrivia]
  rw [finished, ok_bind, ← Reading.outcome_settle]
  cases exceeded : reading.exceeded with
  | some limit =>
      have same : reading.settle.exceeded = some limit := exceeded
      simp [result, Reading.descent, Reading.outcome, same]
  | none =>
      have none : reading.tokens = [] := by simpa [exceeded] using stops
      have settled : reading.settle = reading :=
        Reading.IsSettled.settle_eq (by simp [Reading.IsSettled, none])
      have finish : reading.parser.finish length = reading.parser := by
        simp [Parser.finish, Parser.endLastStatement, between.mode,
          between.blocks, Parser.closeAll]
      rw [settled]
      cases bounded : limits.tokens with
      | none =>
          simp [result, Reading.descent, Reading.outcome, exceeded, none,
            finish, bounded, Parser.root]
          rfl
      | some bound =>
          have counted := fits.counted exceeded bound bounded
          have spent : bound - (bound - reading.count) = reading.count := by
            omega
          simp [result, Reading.descent, Reading.outcome, exceeded, none,
            finish, bounded, spent, Parser.root]
          rfl

/-- The rules come to the same result as reading token by token. -/
theorem parse_eq (limits : ParseLimits) (id : SourceId) (source : String)
    {bound : Nat} (enough : (lex source).length < bound) :
    parse bound limits id source = .ok (YangSchema.parse limits id source) := by
  obtain ⟨after, lookaheads, is, -, onward, between, stops⟩ :=
    @source_reaches limits _ stallLimit _ (fits_initial limits id source)
      ⟨rfl, rfl⟩ bound enough (by decide)
  have outcome : after.outcome limits source.utf8ByteSize =
      YangSchema.parse limits id source := onward.outcome
  rw [parse]
  simp only [initial_startNode]
  cases run : Descent.items false bound ((Reading.mk (.initial id) 0
      (lex source) none).descent limits source.utf8ByteSize stallLimit) with
  | error fault =>
      rw [run] at is
      cases is
  | ok read =>
      obtain ⟨closed, state⟩ := read
      rw [run, ok_bind] at is
      cases is
      rw [ok_bind, ← outcome]
      exact result_descent onward.fits between stops

end Descent

/-- The rules read every source within every limit without a failed check: their
result is one root node or the limit that has been exceeded, and does not depend
on the bound for nested rules. What they report lies inside the source. -/
theorem descends_without_fault (limits : ParseLimits) (id : SourceId)
    (source : String) :
    ∃ outcome : Except LimitError Parsed,
      (∀ extra : Nat,
        Descent.parse ((lex source).length + 1 + extra) limits id source =
          .ok outcome) ∧
      outcome = parse limits id source ∧
      ∀ parsed, outcome = .ok parsed →
        (∃ children, parsed.tree = .node .root children) ∧
        ∀ diagnostic ∈ parsed.diagnostics,
          diagnostic.IsWithin source.utf8ByteSize := by
  refine ⟨parse limits id source,
    fun extra => Descent.parse_eq limits id source (by omega), rfl,
    fun parsed read => ⟨?_, isWithin_of_parse read⟩⟩
  unfold parse at read
  cases run : (lex source).foldlM (Parser.step limits)
      (Parser.initial id, 0) with
  | error limit =>
      rw [run] at read
      cases read
  | ok state =>
      rw [run] at read
      cases read
      exact ⟨_, rfl⟩

end YangSchema
