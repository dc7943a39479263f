import YangSchema.Proofs.SyntaxTree.Leaves
import YangSchema.SyntaxTree.Descent

/-!
# Readings of a source

A reading is what a parser has made of the tokens so far, with the tokens to
come. Two readings that end alike may differ in between: the parser that reads
token by token sees the end of a statement with the token behind it only, and
recursive descent sees it before that token is consumed.

Between two tokens the rules have started the very nodes in which the parser that
reads token by token keeps what it has read: a block and a statement for each
open block, and what the current statement has so far.
-/

namespace YangSchema

@[simp]
theorem ok_bind {ε α β : Type} (value : α) (next : α → Except ε β) :
    (Except.ok value >>= next) = next value :=
  rfl
namespace Parser

/-- The nodes around what stands in the innermost of some open blocks. -/
def blockNodes : List OpenBlock → List SyntaxTree →
    List (SyntaxKind × List SyntaxTree)
  | [], children => [(.root, children)]
  | block :: outer, children =>
      (.block, children) :: (.statement, block.head.children) ::
        blockNodes outer block.siblings

/-- The nodes that have been started and not finished, innermost first. -/
def nodes (parser : Parser) : List (SyntaxKind × List SyntaxTree) :=
  let outer := blockNodes parser.openBlocks parser.children
  match parser.mode with
  | .betweenStatements => outer
  | .afterKeyword head | .afterArgument head =>
      (.statement, head.children) :: outer
  | .afterString head argument | .afterPlus head argument =>
      (.argument, argument) :: (.statement, head.children) :: outer
  | .recovering head skipped =>
      (.error, skipped) :: (.statement, head.children) :: outer

variable {parser : Parser}

@[simp]
theorem source_report (parser : Parser) (diagnostic : Diagnostic) :
    (parser.report diagnostic).source = parser.source := by
  unfold report
  split <;> rfl

@[simp]
theorem nodes_report (parser : Parser) (diagnostic : Diagnostic) :
    (parser.report diagnostic).nodes = parser.nodes := by
  simp [nodes]

theorem nodes_between (between : parser.mode = .betweenStatements) :
    parser.nodes = blockNodes parser.openBlocks parser.children := by
  simp [nodes, between]

theorem blockNodes_eq (openBlocks : List OpenBlock) :
    ∃ kind outer, ∀ others,
      blockNodes openBlocks others = (kind, others) :: outer := by
  cases openBlocks with
  | nil => exact ⟨.root, [], fun others => rfl⟩
  | cons block outer =>
      exact ⟨.block, (.statement, block.head.children) ::
        blockNodes outer block.siblings, fun others => rfl⟩

variable {head : StatementHead} {parts : List SyntaxTree}

theorem nodes_inBlock {block : OpenBlock} {outer : List OpenBlock}
    (between : parser.mode = .betweenStatements)
    (opened : parser.openBlocks = block :: outer) :
    parser.nodes = (.block, parser.children) ::
      (.statement, block.head.children) ::
        blockNodes outer block.siblings := by
  rw [nodes_between between, opened]
  rfl

theorem nodes_afterKeyword (mode : parser.mode = .afterKeyword head) :
    parser.nodes = (.statement, head.children) ::
      blockNodes parser.openBlocks parser.children := by
  simp [nodes, mode]

theorem nodes_afterString (mode : parser.mode = .afterString head parts) :
    parser.nodes = (.argument, parts) :: (.statement, head.children) ::
      blockNodes parser.openBlocks parser.children := by
  simp [nodes, mode]

theorem nodes_afterPlus (mode : parser.mode = .afterPlus head parts) :
    parser.nodes = (.argument, parts) :: (.statement, head.children) ::
      blockNodes parser.openBlocks parser.children := by
  simp [nodes, mode]

theorem nodes_afterArgument (mode : parser.mode = .afterArgument head) :
    parser.nodes = (.statement, head.children) ::
      blockNodes parser.openBlocks parser.children := by
  simp [nodes, mode]

theorem nodes_recovering (mode : parser.mode = .recovering head parts) :
    parser.nodes = (.error, parts) :: (.statement, head.children) ::
      blockNodes parser.openBlocks parser.children := by
  simp [nodes, mode]

/-! ## Statements that end early

What ends a statement, or a part of one, shows before the next token is read.
-/

/-- The place of the next token, or the end of the source. -/
def nextSpan (length : Nat) (tokens : List Token) : Span :=
  match tokens.head? with
  | some token => token.span
  | none => ⟨length, length⟩

/-- Two parsers do the same with what comes next. -/
structure Agrees (length : Nat) (tokens : List Token)
    (parser other : Parser) : Prop where
  blocks : other.openBlocks = parser.openBlocks
  finish : tokens = [] → other.finish length = parser.finish length
  next : ∀ token ∈ tokens.head?, other.read token = parser.read token ∧
    other.opensBlock token = parser.opensBlock token

variable {token : Token} {length : Nat} {tokens : List Token}

theorem report_mode (parser : Parser) (mode : ParserMode)
    (diagnostic : Diagnostic) :
    ({ parser with mode } : Parser).report diagnostic =
      { parser.report diagnostic with mode } := by
  unfold report
  split <;> rfl

theorem readTerminator_mode (parser : Parser) (mode : ParserMode)
    (head : StatementHead) (token : Token) :
    ({ parser with mode } : Parser).readTerminator head token =
      parser.readTerminator head token := by
  unfold readTerminator reportTerminator
  rw [report_mode]
  split <;> rfl

theorem endLastStatement_afterArgument (parser : Parser)
    (head : StatementHead) (stop : Span) :
    ({ parser with mode := .afterArgument head } : Parser).endLastStatement
        stop = (parser.reportTerminator head stop).endStatement
          head.children := by
  simp only [endLastStatement, reportTerminator, report_mode]
  rfl

/-- A keyword may have no argument. -/
theorem agrees_afterKeyword (mode : parser.mode = .afterKeyword head)
    (other : ∀ token ∈ tokens.head?, token.kind.isArgumentPart = false) :
    Agrees length tokens parser
      { parser with mode := .afterArgument head } where
  blocks := rfl
  finish _ := by
    rw [finish, endLastStatement_afterArgument, finish, endLastStatement, mode]
  next token first := by
    have other := other token first
    simp only [TokenKind.isArgumentPart, Bool.or_eq_false_iff,
      beq_eq_false_iff_ne] at other
    refine ⟨?_, by simp [opensBlock, mode]⟩
    simp only [read, mode, other, if_false, Bool.false_eq_true]
    exact readTerminator_mode parser _ head token

/-- An argument ends behind a string that no plus sign follows. -/
theorem agrees_afterString (mode : parser.mode = .afterString head parts)
    (other : ∀ token ∈ tokens.head?, token.kind ≠ .plus) :
    Agrees length tokens parser
      { parser with mode := .afterArgument (endArgument head parts) } where
  blocks := rfl
  finish _ := by
    rw [finish, endLastStatement_afterArgument, finish, endLastStatement, mode]
  next token first := by
    refine ⟨?_, by simp [opensBlock, mode]⟩
    simp only [read, mode, other token first, if_false]
    exact readTerminator_mode parser _ (endArgument head parts) token

/-- An argument ends behind a plus sign that no string follows. -/
theorem agrees_afterPlus (mode : parser.mode = .afterPlus head parts)
    (other : ∀ token ∈ tokens.head?, token.kind.isQuoted = false) :
    Agrees length tokens parser
      { parser.reportKind .expectedString (nextSpan length tokens) with
        mode := .afterArgument (endArgument head parts) } where
  blocks := by simp [reportKind]
  finish none := by
    rw [finish, endLastStatement_afterArgument, finish, endLastStatement, mode,
      none]
    rfl
  next token first := by
    have span : nextSpan length tokens = token.span := by
      simp [nextSpan, Option.mem_def.mp first]
    refine ⟨?_, by simp [opensBlock, mode]⟩
    simp only [read, mode, other token first, Bool.false_eq_true, if_false,
      span]
    exact readTerminator_mode _ _ (endArgument head parts) token

/-- A statement ends where its terminator is missing. -/
theorem agrees_afterArgument (mode : parser.mode = .afterArgument head)
    (other : ∀ token ∈ tokens.head?, token.kind ≠ .semicolon ∧
      token.kind ≠ .braceOpen ∧ token.kind ≠ .garbage) :
    Agrees length tokens parser
      ((parser.reportTerminator head (nextSpan length tokens)).endStatement
        head.children) where
  blocks := by simp [reportTerminator, endStatement]
  finish none := by
    simp only [finish, endLastStatement, mode, none, endStatement, nextSpan,
      List.head?_nil]
  next token first := by
    have span : nextSpan length tokens = token.span := by
      simp [nextSpan, Option.mem_def.mp first]
    obtain ⟨noSemicolon, noBrace, noGarbage⟩ := other token first
    refine ⟨?_, by simp [opensBlock, noBrace]⟩
    rw [span]
    simp only [read, mode, endStatement]
    unfold readTerminator
    split <;> simp_all [endStatement]

/-- A statement may end with what has been swallowed. -/
theorem agrees_recovering (mode : parser.mode = .recovering head parts)
    (other : ∀ token ∈ tokens.head?,
      token.kind = .braceOpen ∨ token.kind = .braceClose) :
    Agrees length tokens parser
      (parser.endStatement (endRecovery head parts).children) where
  blocks := rfl
  finish _ := by
    simp only [finish, endLastStatement, mode, endStatement]
  next token first := by
    refine ⟨?_, by simp [opensBlock, mode, endStatement]⟩
    obtain brace | brace := other token first <;>
      simp [read, mode, endStatement, brace]

/-- A semicolon may end what has been swallowed. -/
theorem agrees_recovering_semicolon
    (mode : parser.mode = .recovering head parts)
    (first : tokens.head? = some token) (semicolon : token.kind = .semicolon) :
    Agrees length tokens parser
      { parser with mode := .afterArgument (endRecovery head parts) } where
  blocks := rfl
  finish none := by simp [none] at first
  next other first' := by
    obtain rfl : token = other := Option.some.inj (first.symm.trans first')
    refine ⟨?_, by simp [opensBlock, semicolon]⟩
    simp [read, mode, semicolon, readTerminator, endStatement, withToken,
      withTrivia]

end Parser

/-- How far a source has been read, with the tokens to come. -/
structure Reading where
  parser : Parser
  count : Nat
  tokens : List Token
  exceeded : Option LimitError

namespace Reading

section

variable (limits : ParseLimits) (length : Nat)

/-- What reading on ends with. -/
def outcome (reading : Reading) : Except LimitError Parsed :=
  match reading.exceeded with
  | some limit => .error limit
  | none => do
      let (parser, count) ← reading.tokens.foldlM (Parser.step limits)
        (reading.parser, reading.count)
      let parser := parser.finish length
      return {
        tree := parser.root
        diagnostics := parser.diagnostics
        tokensRead := if limits.tokens.isSome then count else 0 }

/-- The same by recursive descent. -/
def descent (reading : Reading) (lookaheads : Nat) : Descent :=
  { source := reading.parser.source, length, lookaheads
    tokens := reading.tokens
    trivia := reading.parser.trivia
    nodes := reading.parser.nodes
    finished := []
    diagnostics := reading.parser.diagnostics
    openBlocks := reading.parser.openBlocks.map (·.brace.span)
    lastReported := reading.parser.lastReported
    tokensLeft := limits.tokens.map (· - reading.count)
    depth := limits.depth
    exceeded := reading.exceeded }

/-- No more tokens have been read than are allowed, and all that is still needed
lies inside the source. -/
structure Fits (reading : Reading) : Prop where
  counted : reading.exceeded = none →
    ∀ bound ∈ limits.tokens, reading.count ≤ bound
  tokens : ∀ token ∈ reading.tokens, token.start.offset ≤ length
  braces : ∀ block ∈ reading.parser.openBlocks,
    block.brace.start.offset ≤ length

/-- The limit that one more token exceeds. -/
def due (count : Nat) : Option LimitError :=
  if limits.tokens.any (· ≤ count) then some .tokens else none

end

/-- The next token, if there is one, is no trivia. -/
def IsSettled (reading : Reading) : Prop :=
  ∀ token ∈ reading.tokens.head?, token.kind.isTrivia = false

/-- Statements may begin here, in some open blocks. -/
structure IsBetween (openBlocks : List OpenBlock) (reading : Reading) :
    Prop where
  mode : reading.parser.mode = .betweenStatements
  blocks : reading.parser.openBlocks = openBlocks

/-- The trivia in front of the next token has been put aside. -/
def settle (reading : Reading) : Reading :=
  { reading with
    parser := { reading.parser with
      trivia := reading.parser.trivia ++
        reading.tokens.takeWhile (·.kind.isTrivia) }
    tokens := reading.tokens.dropWhile (·.kind.isTrivia) }

/-- The next token has been read. -/
def read (limits : ParseLimits) (reading : Reading) (token : Token)
    (rest : List Token) : Reading :=
  { parser := reading.parser.read token
    count := reading.count + 1
    tokens := rest
    exceeded := reading.exceeded.or (due limits reading.count) }

variable {limits : ParseLimits} {length least lookaheads : Nat}
  {reading : Reading} {token : Token} {rest : List Token}

theorem isSettled_settle (reading : Reading) : reading.settle.IsSettled := by
  intro token first
  have := List.head?_dropWhile_not (·.kind.isTrivia) reading.tokens
  rw [show reading.tokens.dropWhile (·.kind.isTrivia) =
    reading.settle.tokens from rfl] at this
  rw [Option.mem_def.mp first] at this
  simpa using this

theorem IsSettled.solid (settled : reading.IsSettled)
    (next : reading.tokens = token :: rest) : token.kind.isTrivia = false :=
  settled token (by simp [next])

theorem IsSettled.settle_eq (settled : reading.IsSettled) :
    reading.settle = reading := by
  obtain ⟨parser, count, tokens, exceeded⟩ := reading
  cases tokens with
  | nil => simp [settle]
  | cons token rest =>
      have solid := settled.solid rfl
      simp [settle, solid]

theorem outcome_settle (reading : Reading) :
    reading.settle.outcome limits length = reading.outcome limits length := by
  obtain ⟨parser, count, tokens, exceeded⟩ := reading
  cases exceeded with
  | some limit => rfl
  | none =>
      simp only [outcome, settle]
      induction tokens generalizing parser with
      | nil => simp
      | cons token rest ih =>
          by_cases isTrivia : token.kind.isTrivia
          · have step : Parser.step limits (parser, count) token =
                .ok ({ parser with trivia := parser.trivia ++ [token] },
                  count) := by
              simp [Parser.step, isTrivia]
            rw [List.foldlM_cons, step, ok_bind, ← ih]
            simp [isTrivia]
          · simp [isTrivia]

theorem Fits.settle (fits : reading.Fits limits length) :
    reading.settle.Fits limits length where
  counted := fits.counted
  tokens _ listed :=
    fits.tokens _ ((List.dropWhile_sublist _).mem listed)
  braces := fits.braces


/-- Another parser has read the same tokens. -/
def become (reading : Reading) (parser : Parser) : Reading :=
  { reading with parser }

@[simp]
theorem tokens_become (reading : Reading) (parser : Parser) :
    (reading.become parser).tokens = reading.tokens :=
  rfl

/-- One reading ends as another one does, and is at least as far. -/
structure Continues (limits : ParseLimits) (length : Nat)
    (before after : Reading) : Prop where
  outcome : after.outcome limits length = before.outcome limits length
  fits : after.Fits limits length
  fewer : after.tokens.length ≤ before.tokens.length

/-- Rules that begin at one reading get to another one, with some lookaheads
left and without any fault. -/
def Reaches (limits : ParseLimits) (length least : Nat)
    (run : Except ParserFault Descent) (before : Reading)
    (property : Reading → Prop) : Prop :=
  ∃ after lookaheads, run = .ok (after.descent limits length lookaheads) ∧
    least ≤ lookaheads ∧ Continues limits length before after ∧ property after

theorem Continues.trans {first second third : Reading}
    (earlier : Continues limits length first second)
    (later : Continues limits length second third) :
    Continues limits length first third :=
  ⟨later.outcome.trans earlier.outcome, later.fits,
    Nat.le_trans later.fewer earlier.fewer⟩

theorem Reaches.after {run : Except ParserFault Descent}
    {before middle : Reading} {property : Reading → Prop}
    (reaches : Reaches limits length least run middle property)
    (continues : Continues limits length before middle) :
    Reaches limits length least run before property := by
  obtain ⟨after, lookaheads, is, room, further, holds⟩ := reaches
  exact ⟨after, lookaheads, is, room, continues.trans further, holds⟩

theorem Reaches.imp {run : Except ParserFault Descent} {before : Reading}
    {property property' : Reading → Prop}
    (reaches : Reaches limits length least run before property)
    (imp : ∀ after, property after → property' after) :
    Reaches limits length least run before property' := by
  obtain ⟨after, lookaheads, is, room, continues, holds⟩ := reaches
  exact ⟨after, lookaheads, is, room, continues, imp after holds⟩

/-- Rules one after the other. -/
theorem Reaches.bind {room : Nat} {run : Except ParserFault Descent}
    {rule : Descent → Except ParserFault Descent} {before : Reading}
    {property property' : Reading → Prop}
    (reaches : Reaches limits length room run before property)
    (on : ∀ (middle : Reading) (lookaheads : Nat), room ≤ lookaheads →
      Continues limits length before middle → property middle →
      Reaches limits length least
        (rule (middle.descent limits length lookaheads)) middle property') :
    Reaches limits length least (run >>= rule) before property' := by
  obtain ⟨middle, lookaheads, is, enough, continues, holds⟩ := reaches
  rw [is, ok_bind]
  exact (on middle lookaheads enough continues holds).after continues

theorem Continues.settle (fits : reading.Fits limits length) :
    Continues limits length reading reading.settle where
  outcome := outcome_settle reading
  fits := fits.settle
  fewer := (List.dropWhile_sublist _).length_le

/-- Once a limit has been exceeded, nothing that is read makes a difference. -/
theorem Continues.of_exceeded {before after : Reading}
    (fits : before.Fits limits length)
    (exceeded : before.exceeded.isSome)
    (same : after.exceeded = before.exceeded)
    (tokens : after.tokens = before.tokens)
    (braces : after.parser.openBlocks ⊆ before.parser.openBlocks) :
    Continues limits length before after where
  outcome := by
    obtain ⟨limit, is⟩ := Option.isSome_iff_exists.mp exceeded
    simp [Reading.outcome, same, is]
  fits :=
    { counted := fun none => by simp [← same, none] at exceeded
      tokens := by rw [tokens]; exact fits.tokens
      braces := fun block listed => fits.braces block (braces listed) }
  fewer := Nat.le_of_eq (by rw [tokens])

/-- A parser that does the same with what comes next goes on in the same way. -/
theorem Continues.become {parser : Parser} (settled : reading.IsSettled)
    (fits : reading.Fits limits length)
    (agrees : Parser.Agrees length reading.tokens reading.parser parser) :
    Continues limits length reading (reading.become parser) where
  outcome := by
    obtain ⟨former, count, tokens, exceeded⟩ := reading
    simp only [Reading.become, Reading.outcome]
    split
    · rfl
    · cases tokens with
      | nil => simp [agrees.finish rfl]
      | cons token rest =>
          obtain ⟨read, opens⟩ := agrees.next token rfl
          have solid := settled.solid rfl
          have step : Parser.step limits (parser, count) token =
              Parser.step limits (former, count) token := by
            simp [Parser.step, solid, read, opens, agrees.blocks]
          rw [List.foldlM_cons, List.foldlM_cons, step]
  fits := ⟨fits.counted, fits.tokens, by
    simpa [Reading.become, agrees.blocks] using fits.braces⟩
  fewer := Nat.le_refl _

theorem openBlocks_readBetween_subset (parser : Parser) (token : Token) :
    (parser.readBetween token).openBlocks ⊆ parser.openBlocks := by
  unfold Parser.readBetween
  split
  · simp
  · split
    next block outer opened => simp [Parser.closeBlock, opened]
    · simp [Parser.reject, Parser.settle, Parser.reportKind]
  · simp [Parser.reject, Parser.settle, Parser.reportKind]
  · simp [Parser.reject, Parser.settle, Parser.reportKind]
  · simp [Parser.reject, Parser.settle, Parser.reportKind]

/-- The brace of a block that is opened is the token that is read. -/
theorem brace_of_readTerminator {parser : Parser} {head : StatementHead}
    {token : Token} {block : OpenBlock}
    (listed : block ∈ (parser.readTerminator head token).openBlocks) :
    block.brace = token ∨ block ∈ parser.openBlocks := by
  unfold Parser.readTerminator at listed
  split at listed
  · exact .inr (by simpa [Parser.endStatement] using listed)
  · obtain rfl | listed := List.mem_cons.mp listed
    · exact .inl rfl
    · exact .inr listed
  · exact .inr (by
      simpa [Parser.proceed, Parser.reportTerminator] using listed)
  · exact .inr (by
      simpa [Parser.endStatement, Parser.reportTerminator] using
        openBlocks_readBetween_subset _ token listed)

theorem brace_of_read {parser : Parser} {token : Token} {block : OpenBlock}
    (listed : block ∈ (parser.read token).openBlocks) :
    block.brace = token ∨ block ∈ parser.openBlocks := by
  unfold Parser.read at listed
  split at listed
  · exact .inr (openBlocks_readBetween_subset parser token listed)
  · dsimp only at listed
    split at listed
    · exact .inr listed
    · split at listed
      · exact .inr listed
      · exact brace_of_readTerminator listed
  · split at listed
    · exact .inr listed
    · exact brace_of_readTerminator listed
  · split at listed
    · exact .inr listed
    · simpa [Parser.reportKind] using brace_of_readTerminator listed
  · exact brace_of_readTerminator listed
  · split at listed
    · exact .inr (by simpa [Parser.endStatement] using listed)
    · exact .inr (by simpa [Parser.endStatement] using
        openBlocks_readBetween_subset _ token listed)
    · exact .inr (by simpa [Parser.endStatement] using
        openBlocks_readBetween_subset _ token listed)
    · exact .inr listed

/-- Reading a token goes on, unless it opens a block too deep. -/
theorem Continues.read (next : reading.tokens = token :: rest)
    (settled : reading.IsSettled) (fits : reading.Fits limits length)
    (allowed : ¬ (reading.parser.opensBlock token ∧
      limits.depth.any (· ≤ reading.parser.openBlocks.length))) :
    Continues limits length reading (reading.read limits token rest) where
  outcome := by
    obtain ⟨parser, count, tokens, exceeded⟩ := reading
    obtain rfl : tokens = token :: rest := next
    have solid := settled.solid rfl
    cases exceeded with
    | some limit => rfl
    | none =>
        have step : Parser.step limits (parser, count) token =
            if limits.tokens.any (· ≤ count) then .error .tokens
            else .ok (parser.read token, count + 1) := by
          unfold Parser.step
          simp only [solid, Bool.false_eq_true, if_false]
          rw [if_neg allowed]
        simp only [Reading.outcome, Reading.read, due, Option.none_or,
          List.foldlM_cons, step]
        by_cases reached : limits.tokens.any (· ≤ count)
        · simp only [reached, if_true]
          rfl
        · simp only [reached]
          rfl
  fits :=
    { counted := fun none bound listed => by
        have first : reading.exceeded = Option.none := by
          cases was : reading.exceeded <;> simp_all [Reading.read]
        have within : due limits reading.count = Option.none := by
          simpa [Reading.read, first] using none
        have below : ¬ bound ≤ reading.count := fun reached => by
          have listed : limits.tokens = some bound := listed
          simp [due, listed, reached] at within
        show reading.count + 1 ≤ bound
        omega
      tokens := fun other listed =>
        fits.tokens other (next ▸ List.mem_cons_of_mem token listed)
      braces := fun block listed => by
        obtain is | listed := brace_of_read listed
        · rw [is]
          exact fits.tokens token (next ▸ List.mem_cons_self)
        · exact fits.braces block listed }
  fewer := by simp [Reading.read, next]

end Reading

end YangSchema
