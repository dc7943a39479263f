import YangSchema.Diagnostic.Diagnostic
import YangSchema.SyntaxTree.SyntaxTree
import YangSchema.Token.Lexer

/-!
# Grouping tokens into statements

A statement is a word, an optional argument, and a semicolon or a block of
statements between braces; an argument is a word, or quoted strings joined
with plus signs. Which statements exist and where is no concern of the parser.

The parser reads one token at a time. Its state is the stack of open blocks,
the nodes finished so far at the innermost level, and a mode that says what
has been read of the current statement. Trivia waits until the next token
shows to which node it belongs: it goes in front of that token, and outside of
a node that the token starts.

The parser always ends with a tree. It puts a token that fits nowhere into an
error node, ends a statement whose terminator is missing, and closes open
blocks at the end of the source. At most one diagnostic is reported in a row
for the same offset.
-/

namespace YangSchema

/-- Bounds on the effort of one parse; absent ones are infinite. -/
structure ParseLimits where
  tokens : Option Nat
  depth : Option Nat
  deriving DecidableEq, Repr

def ParseLimits.none : ParseLimits :=
  ⟨Option.none, Option.none⟩

/-- The bound that a parse ran into. -/
inductive LimitError where
  | tokens
  | depth
  deriving DecidableEq, Repr

def LimitError.message : LimitError → String
  | .tokens => "execution limit exceeded"
  | .depth => "recursion limit exceeded"

/-- The part of a statement in front of its terminator. -/
structure StatementHead where
  keyword : Token
  children : List SyntaxTree

/-- A block that has not been closed, with what stands before it. -/
structure OpenBlock where
  brace : Token
  head : StatementHead
  siblings : List SyntaxTree

/-- How far the current statement has been read. -/
inductive ParserMode where
  | betweenStatements
  | afterKeyword (head : StatementHead)
  | afterString (head : StatementHead) (argument : List SyntaxTree)
  | afterPlus (head : StatementHead) (argument : List SyntaxTree)
  | afterArgument (head : StatementHead)
  | recovering (head : StatementHead) (skipped : List SyntaxTree)

structure Parser where
  source : SourceId
  openBlocks : List OpenBlock
  children : List SyntaxTree
  mode : ParserMode
  trivia : List Token
  diagnostics : Diagnostics
  lastReported : Option Nat

namespace Parser

def initial (source : SourceId) : Parser :=
  { source
    openBlocks := []
    children := []
    mode := .betweenStatements
    trivia := []
    diagnostics := []
    lastReported := none }

/-- Adds a diagnostic, unless the last one was at the same offset. -/
def report (parser : Parser) (diagnostic : Diagnostic) : Parser :=
  if parser.lastReported = some diagnostic.span.start then
    parser
  else
    { parser with
      diagnostics := parser.diagnostics ++ [diagnostic]
      lastReported := some diagnostic.span.start }

def reportKind (parser : Parser) (kind : DiagnosticKind) (span : Span) :
    Parser :=
  parser.report (.ofKind parser.source kind span)

def reportTerminator (parser : Parser) (head : StatementHead) (span : Span) :
    Parser :=
  parser.report <|
    (Diagnostic.ofKind parser.source .expectedTerminator span).withDetail
      s!"after `{head.keyword.text}`"

/-- Children followed by the waiting trivia. -/
def withTrivia (parser : Parser) (children : List SyntaxTree) :
    List SyntaxTree :=
  children ++ parser.trivia.map .token

/-- Children followed by the waiting trivia and a token. -/
def withToken (parser : Parser) (children : List SyntaxTree) (token : Token) :
    List SyntaxTree :=
  parser.withTrivia children ++ [.token token]

/-- The state between statements, without waiting trivia. -/
def settle (parser : Parser) (children : List SyntaxTree) : Parser :=
  { parser with children, mode := .betweenStatements, trivia := [] }

/-- The state in the middle of a statement, without waiting trivia. -/
def proceed (parser : Parser) (mode : ParserMode) : Parser :=
  { parser with mode, trivia := [] }

/-- Ends the current statement in front of the waiting trivia. -/
def endStatement (parser : Parser) (statement : List SyntaxTree) : Parser :=
  { parser with
    children := parser.children ++ [.node .statement statement]
    mode := .betweenStatements }

def endArgument (head : StatementHead) (argument : List SyntaxTree) :
    StatementHead :=
  { head with children := head.children ++ [.node .argument argument] }

def endRecovery (head : StatementHead) (skipped : List SyntaxTree) :
    StatementHead :=
  { head with children := head.children ++ [.node .error skipped] }

/-- Puts a token that fits nowhere into an error node. -/
def reject (parser : Parser) (kind : DiagnosticKind) (token : Token) :
    Parser :=
  let parser := parser.reportKind kind token.span
  parser.settle (parser.withTrivia parser.children ++
    [.node .error [.token token]])

/-- Closes the innermost block with `last` as its last child. -/
def closeBlock (parser : Parser) (block : OpenBlock) (rest : List OpenBlock)
    (children : List SyntaxTree) : Parser :=
  let statement := block.head.children ++ [.node .block children]
  { parser with
    openBlocks := rest
    children := block.siblings ++ [.node .statement statement] }

/-- Reads a token between two statements. -/
def readBetween (parser : Parser) (token : Token) : Parser :=
  match token.kind with
  | .word =>
      { parser with
        children := parser.withTrivia parser.children
        mode := .afterKeyword ⟨token, [.token token]⟩
        trivia := [] }
  | .braceClose =>
      match parser.openBlocks with
      | block :: rest =>
          let children := parser.withToken parser.children token
          { parser.closeBlock block rest children with trivia := [] }
      | [] => parser.reject .unexpectedBlockClose token
  | .doubleQuoted | .singleQuoted => parser.reject .expectedKeyword token
  | _ => parser.reject .unexpectedToken token

/-- Reads a token where a statement must end or open its block. -/
def readTerminator (parser : Parser) (head : StatementHead) (token : Token) :
    Parser :=
  match token.kind with
  | .semicolon =>
      let statement := parser.withToken head.children token
      { parser.endStatement statement with trivia := [] }
  | .braceOpen =>
      let inFront := { head with children := parser.withTrivia head.children }
      { parser with
        openBlocks := ⟨token, inFront, parser.children⟩ :: parser.openBlocks
        children := [.token token]
        mode := .betweenStatements
        trivia := [] }
  | .garbage =>
      let inFront := { head with children := parser.withTrivia head.children }
      (parser.reportTerminator head token.span).proceed
        (.recovering inFront [.token token])
  | _ =>
      let parser := parser.reportTerminator head token.span
      (parser.endStatement head.children).readBetween token

/-- Reads a token that is not trivia. -/
def read (parser : Parser) (token : Token) : Parser :=
  match parser.mode with
  | .betweenStatements => parser.readBetween token
  | .afterKeyword head =>
      let inFront := { head with children := parser.withTrivia head.children }
      if token.kind = .word then
        parser.proceed (.afterArgument (endArgument inFront [.token token]))
      else if token.kind.isQuoted then
        parser.proceed (.afterString inFront [.token token])
      else
        parser.readTerminator head token
  | .afterString head argument =>
      if token.kind = .plus then
        parser.proceed (.afterPlus head (parser.withToken argument token))
      else
        parser.readTerminator (endArgument head argument) token
  | .afterPlus head argument =>
      if token.kind.isQuoted then
        parser.proceed (.afterString head (parser.withToken argument token))
      else
        (parser.reportKind .expectedString token.span).readTerminator
          (endArgument head argument) token
  | .afterArgument head => parser.readTerminator head token
  | .recovering head skipped =>
      match token.kind with
      | .semicolon =>
          let head := endRecovery head skipped
          let statement := parser.withToken head.children token
          { parser.endStatement statement with trivia := [] }
      | .braceOpen | .braceClose =>
          let head := endRecovery head skipped
          (parser.endStatement head.children).readBetween token
      | _ => parser.proceed (.recovering head (parser.withToken skipped token))

/-- Whether reading `token` opens a block. -/
def opensBlock (parser : Parser) (token : Token) : Bool :=
  token.kind = .braceOpen &&
    match parser.mode with
    | .betweenStatements | .recovering _ _ => false
    | _ => true

/-- Reads a token, with the number of significant tokens read before. -/
def step (limits : ParseLimits) (state : Parser × Nat) (token : Token) :
    Except LimitError (Parser × Nat) :=
  let (parser, count) := state
  if token.kind.isTrivia then
    .ok ({ parser with trivia := parser.trivia ++ [token] }, count)
  else if parser.opensBlock token ∧
      limits.depth.any (· ≤ parser.openBlocks.length) then
    .error .depth
  else if limits.tokens.any (· ≤ count) then
    .error .tokens
  else
    .ok (parser.read token, count + 1)

/-- Ends the current statement at the end of the source. -/
def endLastStatement (parser : Parser) (stop : Span) : Parser :=
  let missing (parser : Parser) (head : StatementHead) : Parser :=
    (parser.reportTerminator head stop).endStatement head.children
  match parser.mode with
  | .betweenStatements => parser
  | .afterKeyword head | .afterArgument head => missing parser head
  | .afterString head argument => missing parser (endArgument head argument)
  | .afterPlus head argument =>
      missing (parser.reportKind .expectedString stop)
        (endArgument head argument)
  | .recovering head skipped =>
      parser.endStatement (endRecovery head skipped).children

/-- The diagnostic for a block that reaches the end of the source, or nothing
when one at that end has been reported already. -/
def reportUnclosed (parser : Parser) (brace : Span) (stop : Span) : Parser :=
  if parser.lastReported = some stop.start then
    parser
  else
    let diagnostic :=
      ((Diagnostic.ofKind parser.source .unclosedBlock
        ⟨brace.start, stop.stop⟩).withDetail
          "block reaches end of file").withRelated "block opened here" brace
    { parser with
      diagnostics := parser.diagnostics ++ [diagnostic]
      lastReported := some stop.start }

/-- Closes the blocks that are still open, the innermost one first. -/
def closeAll (stop : Span) : List OpenBlock → Parser → Parser
  | [], parser => parser
  | block :: rest, parser =>
      let parser := parser.reportUnclosed block.brace.span stop
      closeAll stop rest (parser.closeBlock block rest parser.children)

/-- The state at the end of a source of the given length in bytes. -/
def finish (parser : Parser) (length : Nat) : Parser :=
  let stop : Span := ⟨length, length⟩
  let parser := parser.endLastStatement stop
  closeAll stop parser.openBlocks parser

/-- The finished nodes and the trivia behind them under one root. -/
def root (parser : Parser) : SyntaxTree :=
  .node .root (parser.withTrivia parser.children)

end Parser

/-- The outcome of reading a whole source. -/
structure Parsed where
  tree : SyntaxTree
  diagnostics : Diagnostics
  /-- Significant tokens read, or zero where their number has no bound. -/
  tokensRead : Nat

/-- The syntax tree of a source. -/
def parse (limits : ParseLimits) (id : SourceId) (source : String) :
    Except LimitError Parsed := do
  let (parser, count) ←
    (lex source).foldlM (Parser.step limits) (Parser.initial id, 0)
  let parser := parser.finish source.utf8ByteSize
  return {
    tree := parser.root
    diagnostics := parser.diagnostics
    tokensRead := if limits.tokens.isSome then count else 0 }

end YangSchema
