import YangSchema.SyntaxTree.Parser

/-!
# Recursive descent

The same trees can be built by a rule for each part of the grammar. A rule looks
at the token to come, consumes tokens and calls other rules, and a builder nests
what has been consumed into nodes.

Such a parser checks itself. Looking ahead uses up a budget that is refilled
when a token is consumed and when a block is opened or closed, so that a rule
which never gets on is found out. No token is consumed at the end of the source,
a rule is entered at its first token only, what is finished has been started, and
no diagnostic ends before it starts. A check that fails is a mistake in the
grammar, for which no source is to blame.

When a limit is exceeded, the rules leave off as soon as they can: every loop
stops, but what is not a loop is still read.
-/

namespace YangSchema

/-- A self-check of the parser that has failed. -/
inductive ParserFault where
  | stalled
  | bumpPastEnd
  | misplaced (found : Option TokenKind) (expected : TokenKind)
  | unbalanced
  | inverted (start stop : Nat)
  /-- Rules and loops are nested deeper than their bound. -/
  | endless
  deriving DecidableEq, Repr

structure Descent where
  source : SourceId
  /-- The number of bytes of the source. -/
  length : Nat
  /-- The tokens that have not been consumed or put aside as trivia. -/
  tokens : List Token
  trivia : List Token
  /-- The nodes that have been started, each with its children so far; the
  innermost one first. -/
  nodes : List (SyntaxKind × List SyntaxTree)
  finished : List SyntaxTree
  diagnostics : Diagnostics
  /-- The braces of the blocks that have not been closed, innermost first. -/
  openBlocks : List Span
  lastReported : Option Nat
  /-- How often the next token may still be looked at. -/
  lookaheads : Nat
  /-- How many tokens may still be consumed. -/
  tokensLeft : Option Nat
  depth : Option Nat
  /-- The first limit that has been exceeded. -/
  exceeded : Option LimitError

namespace Descent

/-- The budget of lookaheads between two refills. -/
def stallLimit : Nat :=
  256

def initial (limits : ParseLimits) (source : SourceId) (length : Nat)
    (tokens : List Token) : Descent :=
  { source, length, tokens
    trivia := []
    nodes := []
    finished := []
    diagnostics := []
    openBlocks := []
    lastReported := none
    lookaheads := stallLimit
    tokensLeft := limits.tokens
    depth := limits.depth
    exceeded := none }

/-- Notes that a limit has been exceeded; the first one counts. -/
def exceed (state : Descent) (limit : LimitError) : Descent :=
  { state with exceeded := state.exceeded.or (some limit) }

def shouldStop (state : Descent) : Bool :=
  state.tokens.isEmpty || state.exceeded.isSome

/-- Puts the trivia in front of the next token aside. -/
def bufferTrivia (state : Descent) : Descent :=
  { state with
    trivia := state.trivia ++ state.tokens.takeWhile (·.kind.isTrivia)
    tokens := state.tokens.dropWhile (·.kind.isTrivia) }

/-- Adds tokens to the innermost node. -/
def add (state : Descent) (tokens : List Token) : Descent :=
  match state.nodes with
  | [] => { state with finished := state.finished ++ tokens.map .token }
  | (kind, children) :: outer =>
      { state with nodes := (kind, children ++ tokens.map .token) :: outer }

/-- Adds what has been put aside to the innermost node. -/
def drainTrivia (state : Descent) : Descent :=
  { state.add state.trivia with trivia := [] }

def startNode (state : Descent) (kind : SyntaxKind) : Descent :=
  let state := state.drainTrivia
  { state with nodes := (kind, []) :: state.nodes }

def finishNode (state : Descent) : Except ParserFault Descent :=
  match state.nodes with
  | [] => .error .unbalanced
  | [(kind, children)] =>
      .ok { state with
        nodes := []
        finished := state.finished ++ [.node kind children] }
  | (kind, children) :: (outer, siblings) :: rest =>
      .ok { state with
        nodes := (outer, siblings ++ [.node kind children]) :: rest }

/-- Looks at the kind of the next token, if there is one. -/
def current (state : Descent) :
    Except ParserFault (Option TokenKind × Descent) :=
  let state := state.bufferTrivia
  if state.lookaheads = 0 then
    .error .stalled
  else
    .ok (state.tokens.head?.map (·.kind),
      { state with lookaheads := state.lookaheads - 1 })

/-- The next token, or the end of the source. -/
def currentSpan (state : Descent) : Span :=
  match state.tokens.head? with
  | some token => token.span
  | none => ⟨state.length, state.length⟩

/-- Uses up one of the tokens that may be consumed. -/
def spend (state : Descent) : Descent :=
  match state.tokensLeft with
  | none => state
  | some 0 => state.exceed .tokens
  | some (left + 1) => { state with tokensLeft := some left }

/-- Consumes the next token. -/
def bump (state : Descent) : Except ParserFault Descent :=
  let state := state.bufferTrivia
  match state.tokens with
  | [] => .error .bumpPastEnd
  | token :: rest =>
      let state := { state with tokens := rest, lookaheads := stallLimit }
      .ok (state.spend.drainTrivia.add [token])

/-- Consumes the next token if it is of a kind. -/
def eat (state : Descent) (kind : TokenKind) : Except ParserFault Descent := do
  let (next, state) ← state.current
  if next = some kind then state.bump else return state

def assertCurrent (state : Descent) (expected : TokenKind) :
    Except ParserFault Descent := do
  let (found, state) ← state.current
  if found = some expected then return state
  else throw (.misplaced found expected)

/-- Adds a diagnostic, unless the last one was at the same offset. -/
def report (state : Descent) (diagnostic : Diagnostic) : Descent :=
  if state.lastReported = some diagnostic.span.start then
    state
  else
    { state with
      diagnostics := state.diagnostics ++ [diagnostic]
      lastReported := some diagnostic.span.start }

/-- Reports the next token. -/
def error (state : Descent) (kind : DiagnosticKind) : Descent :=
  let state := state.bufferTrivia
  state.report (.ofKind state.source kind state.currentSpan)

/-- Reports the next token with a message of its own. -/
def errorMessage (state : Descent) (kind : DiagnosticKind) (detail : String) :
    Descent :=
  let state := state.bufferTrivia
  state.report
    ((Diagnostic.ofKind state.source kind state.currentSpan).withDetail detail)

/-- Reports the next token and puts it into an error node. -/
def errorAndBump (state : Descent) (kind : DiagnosticKind) :
    Except ParserFault Descent := do
  let state := state.error kind
  if state.tokens.isEmpty then
    return state
  else
    let state := state.startNode .error
    let state ← state.bump
    state.finishNode

/-- Where a broken statement stops swallowing tokens. -/
def isRecovery : TokenKind → Bool
  | .semicolon | .braceOpen | .braceClose => true
  | _ => false

/-- Consumes tokens up to one at which to recover. -/
def skip : Nat → Descent → Except ParserFault Descent
  | 0, _ => .error .endless
  | bound + 1, state => do
      let (next, state) ← state.current
      if next.any isRecovery || state.shouldStop then
        return state
      else
        skip bound (← state.bump)

/-- Reports the next token and puts all up to one at which to recover into an
error node. -/
def errorRecover (state : Descent) (kind : DiagnosticKind) :
    Except ParserFault Descent := do
  let (next, state) ← state.current
  if next.any isRecovery || state.shouldStop then
    return state.error kind
  else
    let state := state.startNode .error
    let state := state.error kind
    let state ← skip (state.tokens.length + 1) state
    state.finishNode

/-- Opens a block at the next token, unless blocks are nested too deep. -/
def openBlock (state : Descent) : Bool × Descent :=
  if state.depth.any (· ≤ state.openBlocks.length) then
    (false, state.exceed .depth)
  else
    let state := state.bufferTrivia
    (true, { state with
      openBlocks := state.currentSpan :: state.openBlocks
      lookaheads := stallLimit })

/-- Closes the innermost block and reports it if it has no closing brace. -/
def closeBlock (state : Descent) (closed : Bool) :
    Except ParserFault Descent :=
  match state.openBlocks with
  | [] => .ok state
  | brace :: outer =>
      let state := { state with openBlocks := outer, lookaheads := stallLimit }
      if closed || state.exceeded.isSome then
        .ok state
      else
        let state := state.bufferTrivia
        let stop := state.currentSpan
        if state.lastReported = some stop.start then
          .ok state
        else if stop.stop < brace.start then
          .error (.inverted brace.start stop.stop)
        else
          let diagnostic :=
            ((Diagnostic.ofKind state.source .unclosedBlock
              ⟨brace.start, stop.stop⟩).withDetail
                "block reaches end of file").withRelated
                  "block opened here" brace
          .ok { state with
            diagnostics := state.diagnostics ++ [diagnostic]
            lastReported := some stop.start }

/-- Reads what may follow a quoted string. -/
def moreStrings : Nat → Descent → Except ParserFault Descent
  | 0, _ => .error .endless
  | bound + 1, state => do
      let (next, state) ← state.current
      if next = some .plus then
        let state ← state.bump
        let (next, state) ← state.current
        if next.any (·.isQuoted) then
          moreStrings bound (← state.bump)
        else
          return state.error .expectedString
      else
        return state

/-- A word, or quoted strings joined with plus signs. -/
def argument (state : Descent) : Except ParserFault Descent := do
  let state := state.startNode .argument
  let (next, state) ← state.current
  if next = some .word then
    let state ← state.bump
    state.finishNode
  else
    let state ← state.bump
    let state ← moreStrings (state.tokens.length + 1) state
    state.finishNode

/-- An argument, if there is one. -/
def optionalArgument (state : Descent) : Except ParserFault Descent := do
  let (next, state) ← state.current
  if next.any (·.isArgumentPart) then state.argument else return state

/-- A block, with the rule for what is between its braces. -/
def block (items : Descent → Except ParserFault (Bool × Descent))
    (state : Descent) : Except ParserFault Descent := do
  let state ← state.assertCurrent .braceOpen
  let (opened, state) := state.openBlock
  if opened then
    let state := state.startNode .block
    let state ← state.bump
    let (closed, state) ← items state
    let state ← state.closeBlock closed
    state.finishNode
  else
    return state

/-- What follows the argument of a statement with a keyword. -/
def terminator (items : Descent → Except ParserFault (Bool × Descent))
    (keyword : String) (state : Descent) : Except ParserFault Descent := do
  let (next, state) ← state.current
  match next with
  | some .semicolon => state.bump
  | some .braceOpen => state.block items
  | _ =>
      let state := state.errorMessage .expectedTerminator s!"after `{keyword}`"
      let (next, state) ← state.current
      if next = some .garbage then
        let state ← state.errorRecover .unexpectedToken
        state.eat .semicolon
      else
        return state

/-- A keyword, an optional argument, and a semicolon or a block. -/
def statement (items : Descent → Except ParserFault (Bool × Descent))
    (state : Descent) : Except ParserFault Descent := do
  let state ← state.assertCurrent .word
  let state := state.startNode .statement
  let keyword := (state.tokens.head?.map (·.text)).getD ""
  let state ← state.bump
  let state ← state.optionalArgument
  let state ← state.terminator items keyword
  state.finishNode

/-- The statements of a source or of a block, and whether a block has been
closed. -/
def items (inBlock : Bool) :
    Nat → Descent → Except ParserFault (Bool × Descent)
  | 0, _ => .error .endless
  | bound + 1, state =>
      if state.shouldStop then
        return (false, state)
      else do
        let (next, state) ← state.current
        if next = none then
          return (false, state)
        else
          let (next, state) ← state.current
          match next with
          | some .word =>
              items inBlock bound (← state.statement (items true bound))
          | some .braceClose =>
              if inBlock then
                return (true, ← state.bump)
              else
                items inBlock bound
                  (← state.errorAndBump .unexpectedBlockClose)
          | some .doubleQuoted | some .singleQuoted =>
              items inBlock bound (← state.errorAndBump .expectedKeyword)
          | _ => items inBlock bound (← state.errorAndBump .unexpectedToken)

/-- What is left at the end: one tree of the right kind. -/
def result (limits : ParseLimits) (state : Descent) :
    Except ParserFault (Except LimitError Parsed) :=
  match state.exceeded with
  | some limit => .ok (.error limit)
  | none =>
      match state.nodes, state.finished with
      | [], [.node .root children] =>
          .ok (.ok {
            tree := .node .root children
            diagnostics := state.diagnostics
            tokensRead :=
              match limits.tokens, state.tokensLeft with
              | some all, some left => all - left
              | _, _ => 0 })
      | _, _ => .error .unbalanced

/-- The syntax tree of a source, by rules that are nested up to a bound. -/
def parse (bound : Nat) (limits : ParseLimits) (id : SourceId)
    (source : String) : Except ParserFault (Except LimitError Parsed) := do
  let state := initial limits id source.utf8ByteSize (lex source)
  let state := state.startNode .root
  let (_, state) ← items false bound state
  let state := state.bufferTrivia.drainTrivia
  let state ← state.finishNode
  state.result limits

end Descent

end YangSchema
