import YangSchema.Proofs.Except
import YangSchema.Proofs.Token.Covering
import YangSchema.Statement.Statement
import YangSchema.SyntaxTree.Parser

/-!
# Every token becomes a leaf

The parser keeps each token that it has read in one place:  in the nodes of an
open block or in those in front of it, in the statement that it is reading, or
in the trivia that waits.  From the outermost block to the waiting trivia these
places hold the tokens in their order.  A step puts its token behind the others,
be it reported, swallowed by an error node or taken as the end of a statement,
and the end of a source only moves them into their parents.  So a tree that the
parser ends with has the tokens of the source as its leaves.
-/

namespace YangSchema

namespace SyntaxTree

@[simp]
theorem tokensOfAll_cons (tree : SyntaxTree) (trees : List SyntaxTree) :
    tokensOfAll (tree :: trees) = tree.tokens ++ tokensOfAll trees := by
  rw [tokensOfAll]

@[simp]
theorem tokensOfAll_nil : tokensOfAll [] = [] := by
  rw [tokensOfAll]

@[simp]
theorem tokensOfAll_append (trees more : List SyntaxTree) :
    tokensOfAll (trees ++ more) = tokensOfAll trees ++ tokensOfAll more := by
  induction trees with
  | nil => rfl
  | cons tree trees ih => simp [ih]

@[simp]
theorem tokensOfAll_map_token (tokens : List Token) :
    tokensOfAll (tokens.map .token) = tokens := by
  induction tokens with
  | nil => rfl
  | cons token rest ih => simp [SyntaxTree.tokens, ih]

end SyntaxTree

open SyntaxTree (tokensOfAll)

/-- The tokens in front of the innermost block and in those around it. -/
def OpenBlock.leavesOfAll : List OpenBlock → List Token
  | [] => []
  | block :: outer =>
      leavesOfAll outer ++ tokensOfAll block.siblings ++
        tokensOfAll block.head.children

/-- The tokens of the statement that is being read. -/
def ParserMode.leaves : ParserMode → List Token
  | .betweenStatements => []
  | .afterKeyword head | .afterArgument head => tokensOfAll head.children
  | .afterString head parts | .afterPlus head parts
  | .recovering head parts => tokensOfAll head.children ++ tokensOfAll parts

namespace Parser

/-- All tokens that have been read, where the parser keeps them. -/
def leaves (parser : Parser) : List Token :=
  OpenBlock.leavesOfAll parser.openBlocks ++ tokensOfAll parser.children ++
    parser.mode.leaves ++ parser.trivia

variable {parser : Parser} {head : StatementHead}

attribute [local simp] leaves ParserMode.leaves OpenBlock.leavesOfAll
  withTrivia withToken endStatement endArgument endRecovery settle proceed
  closeBlock SyntaxTree.tokens

/-! ## Reports move nothing -/

@[simp]
theorem leaves_report (parser : Parser) (diagnostic : Diagnostic) :
    (parser.report diagnostic).leaves = parser.leaves := by
  unfold report
  split <;> rfl

@[simp]
theorem openBlocks_report (parser : Parser) (diagnostic : Diagnostic) :
    (parser.report diagnostic).openBlocks = parser.openBlocks := by
  unfold report
  split <;> rfl

@[simp]
theorem children_report (parser : Parser) (diagnostic : Diagnostic) :
    (parser.report diagnostic).children = parser.children := by
  unfold report
  split <;> rfl

@[simp]
theorem mode_report (parser : Parser) (diagnostic : Diagnostic) :
    (parser.report diagnostic).mode = parser.mode := by
  unfold report
  split <;> rfl

@[simp]
theorem trivia_report (parser : Parser) (diagnostic : Diagnostic) :
    (parser.report diagnostic).trivia = parser.trivia := by
  unfold report
  split <;> rfl

attribute [local simp] reportKind reportTerminator

theorem reportUnclosed_eq (parser : Parser) (brace stop : Span) :
    ∃ diagnostics lastReported, parser.reportUnclosed brace stop =
      { parser with diagnostics, lastReported } := by
  unfold reportUnclosed
  split
  · exact ⟨_, _, rfl⟩
  · exact ⟨_, _, rfl⟩

/-! ## A token is put behind the others -/

theorem leaves_reject (between : parser.mode = .betweenStatements)
    (kind : DiagnosticKind) (token : Token) :
    (parser.reject kind token).leaves = parser.leaves ++ [token] := by
  simp [reject, between]

theorem leaves_readBetween (between : parser.mode = .betweenStatements)
    (token : Token) :
    (parser.readBetween token).leaves = parser.leaves ++ [token] := by
  unfold readBetween
  split
  · simp [between]
  · split
    next block rest opened => simp [between, opened]
    · exact leaves_reject between _ token
  · exact leaves_reject between _ token
  · exact leaves_reject between _ token
  · exact leaves_reject between _ token

/-- A terminator is read behind a head, whatever mode that was read in. -/
theorem leaves_readTerminator
    (read : parser.mode.leaves = tokensOfAll head.children) (token : Token) :
    (parser.readTerminator head token).leaves = parser.leaves ++ [token] := by
  have parts : parser.leaves = OpenBlock.leavesOfAll parser.openBlocks ++
      tokensOfAll parser.children ++ tokensOfAll head.children ++
        parser.trivia := by
    rw [leaves, read]
  rw [parts]
  unfold readTerminator
  split
  · simp
  · simp
  · simp
  · rw [leaves_readBetween rfl]
    simp

theorem leaves_read (parser : Parser) (token : Token) :
    (parser.read token).leaves = parser.leaves ++ [token] := by
  unfold read
  split
  next between => exact leaves_readBetween between token
  next head mode =>
    split
    · simp [mode]
    · split
      · simp [mode]
      · exact leaves_readTerminator (by simp [mode]) token
  next head argument mode =>
    split
    · simp [mode]
    · exact leaves_readTerminator (by simp [mode]) token
  next head argument mode =>
    split
    · simp [mode]
    · rw [leaves_readTerminator (by simp [mode])]
      simp
  next head mode => exact leaves_readTerminator (by simp [mode]) token
  next head skipped mode =>
    split
    · simp [mode]
    · rw [leaves_readBetween rfl]
      simp [mode]
    · rw [leaves_readBetween rfl]
      simp [mode]
    · simp [mode]

theorem leaves_step {limits : ParseLimits} {count count' : Nat}
    {parser' : Parser} {token : Token}
    (ok : step limits (parser, count) token = .ok (parser', count')) :
    parser'.leaves = parser.leaves ++ [token] := by
  simp only [step] at ok
  split at ok
  · obtain ⟨rfl, -⟩ := Prod.mk.inj (Except.ok.inj ok)
    simp
  · split at ok
    · simp at ok
    · split at ok
      · simp at ok
      · obtain ⟨rfl, -⟩ := Prod.mk.inj (Except.ok.inj ok)
        exact leaves_read parser token

theorem leaves_foldlM_step {limits : ParseLimits} {tokens : List Token}
    {count count' : Nat} {parser' : Parser}
    (ok : tokens.foldlM (step limits) (parser, count) = .ok (parser', count')) :
    parser'.leaves = parser.leaves ++ tokens := by
  induction tokens generalizing parser count with
  | nil =>
      obtain ⟨rfl, -⟩ := Prod.mk.inj (pure_eq_ok_iff.mp ok)
      simp
  | cons token rest ih =>
      rw [List.foldlM_cons, bind_eq_ok_iff] at ok
      obtain ⟨⟨middle, between⟩, first, others⟩ := ok
      rw [ih others, leaves_step first, List.append_assoc,
        List.singleton_append]

/-! ## The end of a source -/

theorem leaves_endLastStatement (parser : Parser) (stop : Span) :
    (parser.endLastStatement stop).leaves = parser.leaves ∧
      (parser.endLastStatement stop).mode = .betweenStatements := by
  unfold endLastStatement
  dsimp only
  split
  next mode => exact ⟨rfl, mode⟩
  all_goals
    next mode => exact ⟨by simp [mode], rfl⟩

/-- Closing the open blocks leaves the tokens where they are. -/
theorem leaves_closeAll (stop : Span) {blocks : List OpenBlock}
    (opened : parser.openBlocks = blocks)
    (between : parser.mode = .betweenStatements) :
    (closeAll stop blocks parser).leaves = parser.leaves ∧
      (closeAll stop blocks parser).openBlocks = [] ∧
      (closeAll stop blocks parser).mode = .betweenStatements := by
  induction blocks generalizing parser with
  | nil => exact ⟨rfl, opened, between⟩
  | cons block rest ih =>
      obtain ⟨diagnostics, last, reported⟩ :=
        parser.reportUnclosed_eq block.brace.span stop
      rw [closeAll, reported]
      let reporting := { parser with diagnostics, lastReported := last }
      obtain ⟨closed, noBlocks, still⟩ :=
        @ih (reporting.closeBlock block rest parser.children) rfl between
      refine ⟨closed.trans ?_, noBlocks, still⟩
      simp [reporting, opened, between]

theorem tokens_root_finish (parser : Parser) (length : Nat) :
    (parser.finish length).root.tokens = parser.leaves := by
  obtain ⟨ended, between⟩ := leaves_endLastStatement parser ⟨length, length⟩
  obtain ⟨closed, noBlocks, mode⟩ :=
    leaves_closeAll ⟨length, length⟩ rfl between
  rw [← ended, ← closed]
  simp [root, finish, noBlocks, mode]

end Parser

theorem tokens_of_parse {limits : ParseLimits} {id : SourceId} {source : String}
    {parsed : Parsed} (ok : parse limits id source = .ok parsed) :
    parsed.tree.tokens = lex source := by
  simp only [parse, bind_eq_ok_iff, pure_eq_ok_iff] at ok
  obtain ⟨⟨parser, count⟩, folded, rfl⟩ := ok
  have finished : ((parser.finish source.utf8ByteSize).root).tokens =
      parser.leaves := Parser.tokens_root_finish parser _
  rw [finished, Parser.leaves_foldlM_step folded]
  simp [Parser.leaves, Parser.initial, ParserMode.leaves,
    OpenBlock.leavesOfAll]

/-- Whether or not something is reported, the leaves of a syntax tree are the
tokens of its source, each of them once and in order.  So the texts of the
leaves add up to the source. -/
theorem parse_lossless {limits : ParseLimits} {id : SourceId} {source : String}
    {parsed : Parsed} (ok : parse limits id source = .ok parsed) :
    parsed.tree.tokens = lex source ∧ parsed.tree.text = source := by
  have leaves := tokens_of_parse ok
  exact ⟨leaves, by rw [SyntaxTree.text, leaves, textOf_lex]⟩

/-- A block without a statement, a string without a partner, garbage in front of
a block and a string that stays open, read with as much effort as they take. -/
theorem parse_lossless_errors :
    let text := "\x7d m \"a\" + ; // c\n \x7b l \r 'x' \x7b b c \x7b \"open"
    ∃ parsed, parse ⟨some 14, some 1⟩ 0 text = .ok parsed ∧
      parsed.diagnostics.length = 7 ∧
      parsed.tree.tokens = lex text ∧ parsed.tree.text = text := by
  intro text
  have checked : (parse ⟨some 14, some 1⟩ 0 text).toOption.any
      (fun parsed => parsed.diagnostics.length == 7) = true := by
    decide +kernel
  cases parsing : parse ⟨some 14, some 1⟩ 0 text with
  | error error => simp [parsing, Except.toOption] at checked
  | ok parsed =>
      simp only [parsing, Except.toOption, Option.any_some, beq_iff_eq]
        at checked
      exact ⟨parsed, rfl, checked, parse_lossless parsing⟩

end YangSchema

/-!
## Statements stand in reading order

The keyword of a statement is a leaf of the tree that it was read off, and the
leaves of a tree stand in the order of their source.  So of statements that stand
side by side, each is in front of the next one.
-/

namespace YangSchema

open SyntaxTree (tokensOfAll)

/-- Statements stand in the order of their positions, and so do those of their
blocks. -/
inductive Statement.AreOrdered : List Statement → Prop
  | intro {statements : List Statement}
      (siblings : statements.Pairwise fun first second =>
        first.position.before second.position = true)
      (inside : ∀ statement ∈ statements,
        AreOrdered statement.substatements) : AreOrdered statements

namespace Statement

variable {statement : Statement} {statements : List Statement}

theorem AreOrdered.siblings (ordered : AreOrdered statements) :
    statements.Pairwise fun first second =>
      first.position.before second.position = true := by
  cases ordered with
  | intro siblings _ => exact siblings

theorem AreOrdered.inside (ordered : AreOrdered statements)
    (listed : statement ∈ statements) : AreOrdered statement.substatements := by
  cases ordered with
  | intro _ inside => exact inside statement listed

theorem AreOrdered.tail (ordered : AreOrdered (statement :: statements)) :
    AreOrdered statements :=
  .intro (List.pairwise_cons.mp ordered.siblings).2 fun _ listed =>
    ordered.inside (List.mem_cons_of_mem _ listed)

theorem mem_tokensOfAll {token : Token} {trees : List SyntaxTree}
    (listed : token ∈ tokensAmong trees) : token ∈ tokensOfAll trees := by
  induction trees with
  | nil => simp [tokensAmong] at listed
  | cons tree rest ih =>
      rw [SyntaxTree.tokensOfAll_cons, List.mem_append]
      cases tree with
      | token leaf =>
          obtain rfl | later : token = leaf ∨ token ∈ tokensAmong rest := by
            simpa [tokensAmong] using listed
          · exact .inl (by simp [SyntaxTree.tokens])
          · exact .inr (ih later)
      | node kind children =>
          exact .inr (ih (by simpa [tokensAmong] using listed))

/-- The keyword of a statement is a leaf. -/
theorem keyword_mem_tokens {tree : SyntaxTree}
    (listed : statement ∈ ofNode tree) : statement.keyword ∈ tree.tokens := by
  unfold ofNode at listed
  split at listed
  next children =>
    split at listed
    next keyword found =>
      obtain rfl := List.mem_singleton.mp listed
      rw [SyntaxTree.tokens]
      exact mem_tokensOfAll (List.mem_of_find?_eq_some found)
    · simp at listed
  · simp at listed

theorem keyword_mem_tokensOfAll {trees : List SyntaxTree}
    (listed : statement ∈ ofTrees trees) :
    statement.keyword ∈ tokensOfAll trees := by
  induction trees with
  | nil => simp [ofTrees] at listed
  | cons tree rest ih =>
      rw [SyntaxTree.tokensOfAll_cons, List.mem_append]
      rw [ofTrees, List.mem_append] at listed
      exact listed.imp keyword_mem_tokens ih

end Statement

/-- Tokens of which each starts behind the one before it. -/
abbrev Token.AreOrdered (tokens : List Token) : Prop :=
  tokens.Pairwise fun first second =>
    first.start.position.before second.start.position = true

namespace Statement

theorem length_ofNode_le (tree : SyntaxTree) : (ofNode tree).length ≤ 1 := by
  unfold ofNode
  split
  · split <;> simp
  · simp

mutual

theorem ofNode_areOrdered : {tree : SyntaxTree} →
    Token.AreOrdered tree.tokens →
      ∀ statement ∈ ofNode tree, AreOrdered statement.substatements
  | .token leaf, _, statement, listed => by simp [ofNode] at listed
  | .node kind children, ordered, statement, listed => by
      rw [SyntaxTree.tokens] at ordered
      unfold ofNode at listed
      split at listed
      next parts same =>
        obtain ⟨rfl, rfl⟩ := SyntaxTree.node.inj same
        split at listed
        · obtain rfl := List.mem_singleton.mp listed
          exact ofBlockAmong_areOrdered ordered
        · simp at listed
      · simp at listed

theorem ofTrees_areOrdered : {trees : List SyntaxTree} →
    Token.AreOrdered (tokensOfAll trees) → AreOrdered (ofTrees trees)
  | [], _ => by
      rw [ofTrees]
      exact .intro .nil (by simp)
  | tree :: rest, ordered => by
      rw [SyntaxTree.tokensOfAll_cons] at ordered
      obtain ⟨first, others, apart⟩ := List.pairwise_append.mp ordered
      have behind := ofTrees_areOrdered others
      rw [ofTrees]
      refine .intro (List.pairwise_append.mpr ⟨?_, behind.siblings, ?_⟩) ?_
      · have single := length_ofNode_le tree
        match ofNode tree, single with
        | [], _ => exact .nil
        | [statement], _ => exact List.pairwise_singleton _ _
      · exact fun statement listed other later => apart _
          (keyword_mem_tokens listed) _ (keyword_mem_tokensOfAll later)
      · intro statement listed
        obtain listed | listed := List.mem_append.mp listed
        · exact ofNode_areOrdered first statement listed
        · exact behind.inside listed

theorem ofBlockAmong_areOrdered : {trees : List SyntaxTree} →
    Token.AreOrdered (tokensOfAll trees) → AreOrdered (ofBlockAmong trees)
  | [], _ => by
      rw [ofBlockAmong]
      exact .intro .nil (by simp)
  | .token leaf :: rest, ordered => by
      rw [SyntaxTree.tokensOfAll_cons] at ordered
      simpa [ofBlockAmong, ofBlock?] using
        ofBlockAmong_areOrdered (List.pairwise_append.mp ordered).2.1
  | .node kind children :: rest, ordered => by
      rw [SyntaxTree.tokensOfAll_cons] at ordered
      obtain ⟨first, others, -⟩ := List.pairwise_append.mp ordered
      rw [SyntaxTree.tokens] at first
      rw [ofBlockAmong]
      unfold ofBlock?
      split
      next parts same =>
        obtain ⟨rfl, rfl⟩ := SyntaxTree.node.inj same
        exact ofTrees_areOrdered first
      · exact ofBlockAmong_areOrdered others

end

theorem ofTree_areOrdered {tree : SyntaxTree}
    (ordered : Token.AreOrdered tree.tokens) : AreOrdered (ofTree tree) := by
  cases tree with
  | token leaf => exact .intro .nil (by simp [ofTree])
  | node kind children =>
      rw [SyntaxTree.tokens] at ordered
      exact ofTrees_areOrdered ordered

end Statement

/-- The statements of a source that has been parsed stand in reading order. -/
theorem areOrdered_of_parse {limits : ParseLimits} {id : SourceId}
    {source : String} {parsed : Parsed}
    (ok : parse limits id source = .ok parsed) :
    Statement.AreOrdered (Statement.ofTree parsed.tree) := by
  apply Statement.ofTree_areOrdered
  rw [tokens_of_parse ok]
  exact (areConsecutive_lex source).pairwise_before

end YangSchema
