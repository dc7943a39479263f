import Mathlib.Tactic.Common
import YangSchema.Proofs.SyntaxTree.Grammar

/-!
# Statements read off syntax trees

A statement node has a keyword, possibly an argument node, and a terminator or a
block node among its children, with trivia in between.  What the children in
front of the terminator say about the statement does not change when trivia
follows, so it can be stated for the part of a node that has been built so far.
-/

namespace YangSchema

/-- Trees that are tokens but no keywords and no parts of arguments. -/
def AreAsides (trees : List SyntaxTree) : Prop :=
  ∀ tree ∈ trees, ∃ token : Token, tree = .token token ∧
    token.kind.isArgumentPart = false

theorem areAsides_token {token : Token}
    (kind : token.kind.isArgumentPart = false) : AreAsides [.token token] := by
  intro tree member
  exact ⟨token, List.mem_singleton.mp member, kind⟩

theorem AreAsides.append {trees more : List SyntaxTree}
    (asides : AreAsides trees) (asides' : AreAsides more) :
    AreAsides (trees ++ more) := fun tree member =>
  (List.mem_append.mp member).elim (asides tree) (asides' tree)

namespace Statement

variable {children more : List SyntaxTree}

theorem ofTrees_append (trees more : List SyntaxTree) :
    ofTrees (trees ++ more) = ofTrees trees ++ ofTrees more := by
  induction trees with
  | nil => rfl
  | cons tree trees ih =>
      simp only [List.cons_append, ofTrees, ih, List.append_assoc]

theorem tokensAmong_append (children more : List SyntaxTree) :
    tokensAmong (children ++ more) = tokensAmong children ++ tokensAmong more :=
  List.filterMap_append

theorem argumentAmong_append (children more : List SyntaxTree) :
    argumentAmong (children ++ more) =
      (argumentAmong children).or (argumentAmong more) :=
  List.findSome?_append

/-- Asides are no part of a statement, but they stand among its children. -/
theorem of_asides (asides : AreAsides more) :
    ofTrees more = [] ∧ ofBlockAmong more = [] ∧ blockAmong more = none ∧
      argumentAmong more = none ∧
      (tokensAmong more).filter (·.kind.isArgumentPart) = [] := by
  induction more with
  | nil => exact ⟨rfl, rfl, rfl, rfl, rfl⟩
  | cons tree trees ih =>
      rw [AreAsides, List.forall_mem_cons] at asides
      obtain ⟨⟨token, rfl, kind⟩, asides⟩ := asides
      obtain ⟨trees, inside, block, argument, parts⟩ := ih asides
      refine ⟨?_, ?_, ?_, ?_, ?_⟩
      · rw [ofTrees, trees]
        rfl
      · rw [ofBlockAmong, inside]
        rfl
      · simpa only [blockAmong, List.findSome?_cons] using block
      · simpa only [argumentAmong, List.findSome?_cons] using argument
      · simpa [tokensAmong, kind] using parts

end Statement

theorem AreAsides.ofTrees_append {children more : List SyntaxTree}
    (asides : AreAsides more) :
    Statement.ofTrees (children ++ more) = Statement.ofTrees children := by
  rw [Statement.ofTrees_append, (Statement.of_asides asides).1, List.append_nil]

/-- The children of an argument node have the parts of an argument. -/
def IsArgumentRead (children : List SyntaxTree) (parts : List Token) : Prop :=
  (Statement.tokensAmong children).filter (·.kind.isArgumentPart) = parts

namespace IsArgumentRead

variable {children more : List SyntaxTree} {parts : List Token}

theorem part {token : Token} (kind : token.kind.isArgumentPart = true) :
    IsArgumentRead [.token token] [token] := by
  simp [IsArgumentRead, Statement.tokensAmong, kind]

theorem append {others : List Token} (first : IsArgumentRead children parts)
    (second : IsArgumentRead more others) :
    IsArgumentRead (children ++ more) (parts ++ others) := by
  rw [IsArgumentRead, Statement.tokensAmong_append, List.filter_append, first,
    second]

theorem append_asides (read : IsArgumentRead children parts)
    (asides : AreAsides more) : IsArgumentRead (children ++ more) parts := by
  obtain ⟨-, -, -, -, none⟩ := Statement.of_asides asides
  simpa using read.append none

end IsArgumentRead

/-- What the children of a statement node say in front of its terminator. -/
structure IsHeadRead (children : List SyntaxTree) (keyword : Terminal .word)
    (argument : Option ArgumentPhrase) : Prop where
  keyword : (Statement.tokensAmong children).find? (·.kind == .word) =
    some keyword.1
  argument : (Statement.argumentAmong children).map (·.parts) =
    argument.map (·.parts)
  block : ∀ more, Statement.blockAmong (children ++ more) =
    Statement.blockAmong more
  inside : ∀ more, Statement.ofBlockAmong (children ++ more) =
    Statement.ofBlockAmong more

namespace IsHeadRead

variable {children more : List SyntaxTree} {keyword : Terminal .word}
  {argument : Option ArgumentPhrase}

theorem start (keyword : Terminal .word) :
    IsHeadRead [.token keyword.1] keyword none where
  keyword := by simp [Statement.tokensAmong, keyword.2]
  argument := rfl
  block _ := rfl
  inside _ := by
    rw [List.singleton_append, Statement.ofBlockAmong]
    rfl

theorem append_asides (read : IsHeadRead children keyword argument)
    (asides : AreAsides more) :
    IsHeadRead (children ++ more) keyword argument := by
  have aside {others : List SyntaxTree} (asides : AreAsides others)
      (further : List SyntaxTree) :
      Statement.blockAmong (others ++ further) = Statement.blockAmong further ∧
        Statement.ofBlockAmong (others ++ further) =
          Statement.ofBlockAmong further := by
    induction others with
    | nil => exact ⟨rfl, rfl⟩
    | cons tree trees ih =>
        rw [AreAsides, List.forall_mem_cons] at asides
        obtain ⟨⟨token, rfl, -⟩, asides⟩ := asides
        obtain ⟨block, inside⟩ := ih asides
        constructor
        · simpa only [Statement.blockAmong, List.cons_append,
            List.findSome?_cons] using block
        · rw [List.cons_append, Statement.ofBlockAmong, inside]
          rfl
  obtain ⟨-, -, -, none, -⟩ := Statement.of_asides asides
  refine ⟨?_, ?_, fun further => ?_, fun further => ?_⟩
  · rw [Statement.tokensAmong_append, List.find?_append, read.keyword]
    rfl
  · rw [Statement.argumentAmong_append, none, Option.or_none, read.argument]
  · rw [List.append_assoc, read.block, (aside asides further).1]
  · rw [List.append_assoc, read.inside, (aside asides further).2]

theorem append_argument (read : IsHeadRead children keyword none)
    {parts : List SyntaxTree} {argument : ArgumentPhrase}
    (inside : IsArgumentRead parts argument.parts) :
    IsHeadRead (children ++ [.node .argument parts]) keyword (some argument)
    where
  keyword := by
    rw [Statement.tokensAmong_append, List.find?_append, read.keyword]
    rfl
  argument := by
    have absent := Option.map_eq_none_iff.mp read.argument
    rw [Statement.argumentAmong_append, absent]
    exact congrArg some inside
  block more := by
    rw [List.append_assoc, read.block]
    rfl
  inside more := by
    rw [List.append_assoc, read.inside, List.singleton_append,
      Statement.ofBlockAmong]
    rfl

/-- The head of a statement in a statement node. -/
theorem ofNode (read : IsHeadRead children keyword argument)
    (noArgument : Statement.argumentAmong more = none) :
    ∃ statement, Statement.ofNode (.node .statement (children ++ more)) =
        [statement] ∧
      StatementPhrase.IsHeadOf keyword argument statement ∧
      statement.block = Statement.blockAmong more ∧
      statement.substatements = Statement.ofBlockAmong more := by
  have found : (Statement.tokensAmong (children ++ more)).find?
      (·.kind == .word) = some keyword.1 := by
    rw [Statement.tokensAmong_append, List.find?_append, read.keyword]
    rfl
  rw [Statement.ofNode, found]
  refine ⟨_, rfl, ⟨rfl, ?_⟩, read.block more, read.inside more⟩
  rw [Statement.argumentAmong_append, noArgument, Option.or_none, read.argument]

theorem ofNode_plain (read : IsHeadRead children keyword argument)
    (asides : AreAsides more) (semicolon : Terminal .semicolon) :
    StatementPhrase.AreReadAs [.plain keyword argument semicolon]
      (Statement.ofTrees [.node .statement (children ++ more)]) := by
  obtain ⟨-, inside, block, noArgument, -⟩ := Statement.of_asides asides
  obtain ⟨statement, is, head, block', inside'⟩ := read.ofNode noArgument
  simp only [Statement.ofTrees, is, List.append_nil]
  exact ⟨⟨head, block'.trans block, inside'.trans inside⟩, trivial⟩

theorem ofNode_block (read : IsHeadRead children keyword argument)
    {trees : List SyntaxTree} {phrases : List StatementPhrase}
    (inner : StatementPhrase.AreReadAs phrases (Statement.ofTrees trees))
    (braceOpen : Terminal .braceOpen) (braceClose : Terminal .braceClose) :
    StatementPhrase.AreReadAs
      [.block keyword argument braceOpen phrases braceClose]
      (Statement.ofTrees
        [.node .statement (children ++ [.node .block trees])]) := by
  have noArgument : Statement.argumentAmong [.node .block trees] = none := rfl
  obtain ⟨statement, is, head, block, inside⟩ := read.ofNode noArgument
  simp only [Statement.ofTrees, is, List.append_nil]
  refine ⟨⟨head, ?_, ?_⟩, trivial⟩
  · rw [block]
    rfl
  · rw [inside, Statement.ofBlockAmong]
    exact inner

end IsHeadRead

end YangSchema
