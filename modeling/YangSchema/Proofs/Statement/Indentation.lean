import YangSchema.Proofs.Source.Positions
import YangSchema.Proofs.SyntaxTree.Leaves

/-!
# Indentation of double-quoted strings

The lines of a double-quoted string are indented relative to the column at which
the string starts.  If that column and all lines behind the first are moved to
the right by the same number of spaces, the string means the same text.

The column itself is one less than the one of the position of the string.  It
counts the characters behind the last line break of all that is in front of the
string, however the text in front is cut into tokens.
-/

namespace YangSchema

/-! ## Lines moved to the right -/

namespace Quoted

variable {indent count : Nat}

/-- Puts spaces behind every line break. -/
def reindent (count : Nat) (body : List Char) : List Char :=
  body.flatMap fun c =>
    if c = '\n' then '\n' :: List.replicate count ' ' else [c]

/-- Puts spaces in front of a line. -/
def moveRight (count : Nat) (line : List Char) : List Char :=
  List.replicate count ' ' ++ line

theorem reindent_cons (count : Nat) (c : Char) (body : List Char) :
    reindent count (c :: body) =
      if c = '\n' then '\n' :: moveRight count (reindent count body)
      else c :: reindent count body := by
  rw [reindent, List.flatMap_cons]
  split <;> rfl

theorem not_mem_replicate {c : Char} (other : c ≠ ' ') (count : Nat) :
    c ∉ List.replicate count ' ' :=
  fun listed => other (List.eq_of_mem_replicate listed)

/-- All lines but the first are moved. -/
theorem splitOn_reindent (count : Nat) (body : List Char) :
    ∃ first lines, Text.splitOn '\n' body = first :: lines ∧
      Text.splitOn '\n' (reindent count body) =
        first :: lines.map (moveRight count) := by
  induction body with
  | nil => exact ⟨[], [], rfl, rfl⟩
  | cons c body ih =>
      obtain ⟨first, lines, whole, moved⟩ := ih
      rw [reindent_cons]
      by_cases lineFeed : c = '\n'
      · refine ⟨[], first :: lines, ?_, ?_⟩
        · rw [Text.splitOn, if_pos lineFeed, whole]
        · rw [if_pos lineFeed, Text.splitOn, if_pos rfl, moveRight,
            Text.splitOn_append_of_not_mem (not_mem_replicate (by decide) count),
            moved]
          rfl
      · refine ⟨c :: first, lines, ?_, ?_⟩
        · rw [Text.splitOn, if_neg lineFeed, whole]
        · rw [if_neg lineFeed, Text.splitOn, if_neg lineFeed, moved]

theorem stripIndent_moveRight (indent count : Nat) (line : List Char) :
    stripIndent (indent + count) (moveRight count line) =
      stripIndent indent line := by
  induction count with
  | zero => rfl
  | succ count ih =>
      rw [moveRight, List.replicate_succ, List.cons_append, stripIndent,
        if_pos (by omega)]
      exact ih

theorem stripReturn_moveRight (count : Nat) (line : List Char) :
    stripReturn (moveRight count line) = moveRight count (stripReturn line) := by
  cases line with
  | nil =>
      have other : (List.replicate count ' ').getLast? ≠ some '\r' :=
        fun last => not_mem_replicate (by decide) count
          (List.mem_of_getLast? last)
      simp [stripReturn, moveRight, other]
  | cons c line =>
      have last : (moveRight count (c :: line)).getLast? =
          (c :: line).getLast? :=
        List.getLast?_append_of_ne_nil _ (List.cons_ne_nil c line)
      rw [stripReturn, stripReturn, last]
      split
      · rw [moveRight, List.dropLast_append_cons]
        rfl
      · rfl

/-- A line that is moved loses as much more of its blanks. -/
theorem stripLine_moveRight (indent count : Nat) (line : List Char) :
    stripIndent (indent + count) (stripReturn (moveRight count line)) =
      stripIndent indent (stripReturn line) := by
  rw [stripReturn_moveRight, stripIndent_moveRight]

theorem continuation_cons (indent : Nat) (line : List Char)
    {lines : List (List Char)} (more : lines ≠ []) :
    continuation indent (line :: lines) =
      '\n' :: trimLineEnd (stripIndent indent (stripReturn line)) ++
        continuation indent lines := by
  rw [continuation]
  exact more

theorem continuation_moveRight (indent count : Nat)
    (lines : List (List Char)) :
    continuation (indent + count) (lines.map (moveRight count)) =
      continuation indent lines := by
  induction lines with
  | nil => rfl
  | cons line lines ih =>
      cases lines with
      | nil =>
          rw [List.map_singleton, continuation, continuation,
            stripLine_moveRight]
      | cons next lines =>
          rw [List.map_cons, continuation_cons _ _ (by simp),
            continuation_cons _ _ (by simp), stripLine_moveRight, ih]

theorem decode_reindent (indent count : Nat) (body : List Char) :
    decode (indent + count) (reindent count body) = decode indent body := by
  obtain ⟨first, lines, whole, moved⟩ := splitOn_reindent count body
  rw [decode, decode, whole, moved]
  cases lines with
  | nil => rfl
  | cons line lines =>
      rw [joinLines, joinLines, continuation_moveRight]
      all_goals simp

end Quoted

/-! ## Columns of tokens -/

namespace Token

/-- Going back from token to token counts the last line of their text. -/
theorem columnBehind_reverse (tokens : List Token) :
    columnBehind tokens.reverse =
      (Text.afterLast '\n' (textOf tokens).toList).length := by
  induction tokens using List.reverseRecOn with
  | nil => rfl
  | append_singleton tokens token ih =>
      rw [List.reverse_append, List.reverse_singleton, List.singleton_append,
        columnBehind, ih, textOf_append, textOf_cons, textOf_nil,
        String.append_empty, String.toList_append]
      split
      next broken => rw [Text.afterLast_append_of_mem broken]
      next whole =>
        rw [Text.afterLast_append_of_not_mem whole, List.length_append,
          Nat.add_comm]

end Token

theorem columnOf_of_mem_lex {tree : SyntaxTree} {source : String}
    {token : Token} (leaves : tree.tokens = lex source)
    (listed : token ∈ lex source) :
    tree.columnOf token + 1 = token.start.position.column := by
  obtain ⟨earlier, later, whole⟩ := List.append_of_mem listed
  have consecutive := areConsecutive_lex source
  rw [whole] at consecutive
  have others : ∀ other ∈ earlier, decide (other ≠ token) = true := by
    intro other inFront
    have before := (List.pairwise_append.mp consecutive.pairwise_before).2.2
      other inFront token List.mem_cons_self
    simp only [ne_eq, decide_eq_true_eq]
    rintro rfl
    simp [Position.before] at before
  have inFront : tree.tokens.takeWhile (· ≠ token) = earlier := by
    rw [leaves, whole, List.takeWhile_append_of_pos others]
    simp
  rw [SyntaxTree.columnOf, inFront, Token.columnBehind_reverse,
    consecutive.start_eq]
  simp only [Cursor.advance, Cursor.start, Position.advanceAll_start]
  exact Nat.add_comm ..

/-! ## Arguments of a tree -/

namespace SyntaxTree

mutual

/-- The children of each argument node, wherever it is in the tree. -/
def arguments : SyntaxTree → List (List SyntaxTree)
  | token _ => []
  | node kind children =>
      (if kind = .argument then [children] else []) ++ argumentsOfAll children

def argumentsOfAll : List SyntaxTree → List (List SyntaxTree)
  | [] => []
  | tree :: trees => tree.arguments ++ argumentsOfAll trees

end

mutual

/-- The parts of an argument are leaves of the tree. -/
theorem mem_tokens_of_arguments {part : Token} {parts : List SyntaxTree}
    (listed : part ∈ Statement.tokensAmong parts) :
    {tree : SyntaxTree} → parts ∈ tree.arguments → part ∈ tree.tokens
  | .token leaf, within => by simp [arguments] at within
  | .node kind children, within => by
      rw [arguments, List.mem_append] at within
      rw [tokens]
      obtain here | deeper := within
      · obtain ⟨-, rfl⟩ : kind = .argument ∧ parts = children := by
          simpa using here
        exact Statement.mem_tokensOfAll listed
      · exact mem_tokensOfAll_of_arguments listed deeper

theorem mem_tokensOfAll_of_arguments {part : Token} {parts : List SyntaxTree}
    (listed : part ∈ Statement.tokensAmong parts) :
    {trees : List SyntaxTree} → parts ∈ argumentsOfAll trees →
      part ∈ tokensOfAll trees
  | [], within => by simp [argumentsOfAll] at within
  | tree :: trees, within => by
      rw [argumentsOfAll, List.mem_append] at within
      rw [tokensOfAll_cons, List.mem_append]
      exact within.imp (mem_tokens_of_arguments listed)
        (mem_tokensOfAll_of_arguments listed)

end

end SyntaxTree

/-- A double-quoted string keeps its text when its lines and the column at which
it starts are moved to the right together.  The column that is counted in the
syntax tree, from which the lines are indented, is one less than the one of the
position of the string. -/
theorem quoted_text_follows_its_column :
    (∀ (indent count : Nat) (body : List Char),
      Quoted.decode (indent + count) (Quoted.reindent count body) =
        Quoted.decode indent body) ∧
    ∀ (sources : Sources) (id : SourceId) (limits : ParseLimits)
      (parsed : Parsed), parse limits id (sources.text id) = .ok parsed →
      ∀ parts ∈ parsed.tree.arguments, ∀ part ∈ Statement.tokensAmong parts,
        part.kind = .doubleQuoted →
          parsed.tree.columnOf part + 1 =
              (sources.position id part.start.offset).column ∧
            Argument.partValue part =
              Quoted.decode (parsed.tree.columnOf part + 1)
                (Argument.body part) := by
  refine ⟨Quoted.decode_reindent, ?_⟩
  intro sources id limits parsed ok parts within part listed quoted
  have leaves := tokens_of_parse ok
  have token : part ∈ lex (sources.text id) :=
    leaves ▸ SyntaxTree.mem_tokens_of_arguments listed within
  have column := columnOf_of_mem_lex leaves token
  constructor
  · rw [column, Sources.position, atOffset_of_mem_lex token]
  · rw [Argument.partValue, quoted, column]

/-- A string of two lines behind a comment of two lines. -/
theorem quoted_text_follows_its_column_comment :
    let sources : Sources := [⟨.inline, "d /* \n */ \"a\n\t   b\" ;"⟩]
    ∃ parsed, parse .none 0 (sources.text 0) = .ok parsed ∧
      (∃ parts ∈ parsed.tree.arguments, ∃ part ∈ Statement.tokensAmong parts,
        part.kind = .doubleQuoted ∧ part.text = "\"a\n\t   b\"" ∧
          parsed.tree.columnOf part + 1 =
            (sources.position 0 part.start.offset).column ∧
          Argument.partValue part = Quoted.decode
            (parsed.tree.columnOf part + 1) (Argument.body part)) ∧
      Quoted.decode (4 + 5) (Quoted.reindent 5 ['a', '\n', '\t', 'b']) =
        Quoted.decode 4 ['a', '\n', '\t', 'b'] := by
  intro sources
  have checked : (parse .none 0 (sources.text 0)).toOption.any (fun parsed =>
      parsed.tree.arguments.any fun parts =>
        (Statement.tokensAmong parts).any fun part =>
          part.kind == .doubleQuoted && part.text == "\"a\n\t   b\"") =
        true := by
    decide +kernel
  cases parsing : parse .none 0 (sources.text 0) with
  | error error => simp [parsing, Except.toOption] at checked
  | ok parsed =>
      simp only [parsing, Except.toOption, Option.any_some, List.any_eq_true,
        Bool.and_eq_true, beq_iff_eq] at checked
      obtain ⟨parts, within, part, listed, quoted, text⟩ := checked
      obtain ⟨moved, columns⟩ := quoted_text_follows_its_column
      have column := columns sources 0 .none parsed parsing parts within part
        listed quoted
      exact ⟨parsed, rfl, ⟨parts, within, part, listed, quoted, text, column⟩,
        moved 4 5 _⟩

end YangSchema
