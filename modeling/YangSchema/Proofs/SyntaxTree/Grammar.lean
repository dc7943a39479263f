import Mathlib.Tactic.Common
import YangSchema.Statement.Statement

/-!
# The grammar of statements

A source is a sequence of statements.  A statement is a word, an optional
argument, and a semicolon or a block of statements between braces; an argument
is a word, or quoted strings with plus signs between them.  Phrases are the
derivation trees of this grammar, with a token of the right kind at each leaf.
They do not depend on how a source is parsed.

No two sequences of phrases have the same tokens:  a word at the place of a
statement starts one, and what follows it is told apart by the kind of its first
token.
-/

namespace YangSchema

/-- A token of a kind. -/
abbrev Terminal (kind : TokenKind) :=
  { token : Token // token.kind = kind }

/-- A string in quotes of either kind. -/
abbrev QuotedTerminal :=
  { token : Token // token.kind.isQuoted = true }

/-- A word, or strings with plus signs between them. -/
inductive ArgumentPhrase where
  | word (token : Terminal .word)
  | strings (first : QuotedTerminal)
      (more : List (Terminal .plus × QuotedTerminal))

inductive StatementPhrase where
  | plain (keyword : Terminal .word) (argument : Option ArgumentPhrase)
      (semicolon : Terminal .semicolon)
  | block (keyword : Terminal .word) (argument : Option ArgumentPhrase)
      (braceOpen : Terminal .braceOpen) (substatements : List StatementPhrase)
      (braceClose : Terminal .braceClose)

namespace ArgumentPhrase

/-- The leaves from left to right. -/
def tokens : ArgumentPhrase → List Token
  | word token => [token.1]
  | strings first more =>
      first.1 :: more.flatMap fun (plus, string) => [plus.1, string.1]

/-- The leaves without the plus signs. -/
def parts : ArgumentPhrase → List Token
  | word token => [token.1]
  | strings first more => first.1 :: more.map fun (_, string) => string.1

end ArgumentPhrase

/-- The leaves of an argument that may be absent. -/
def argumentTokens : Option ArgumentPhrase → List Token
  | none => []
  | some argument => argument.tokens

/-- The leaves of a keyword and its argument. -/
def headTokens (keyword : Terminal .word) (argument : Option ArgumentPhrase) :
    List Token :=
  keyword.1 :: argumentTokens argument

namespace StatementPhrase

mutual

/-- The leaves from left to right. -/
def tokens : StatementPhrase → List Token
  | plain keyword argument semicolon =>
      headTokens keyword argument ++ [semicolon.1]
  | block keyword argument braceOpen substatements braceClose =>
      headTokens keyword argument ++
        braceOpen.1 :: (tokensOfAll substatements ++ [braceClose.1])

def tokensOfAll : List StatementPhrase → List Token
  | [] => []
  | phrase :: phrases => phrase.tokens ++ tokensOfAll phrases

end

/-- A keyword and an argument are those of a statement. -/
def IsHeadOf (keyword : Terminal .word) (argument : Option ArgumentPhrase)
    (statement : Statement) : Prop :=
  statement.keyword = keyword.1 ∧
    statement.argument.map (·.parts) = argument.map (·.parts)

mutual

/-- A statement is the derivation tree without its punctuation. -/
def IsReadAs : StatementPhrase → Statement → Prop
  | plain keyword argument _, statement =>
      IsHeadOf keyword argument statement ∧ statement.block = none ∧
        statement.substatements = []
  | block keyword argument _ substatements _, statement =>
      IsHeadOf keyword argument statement ∧ statement.block.isSome = true ∧
        AreReadAs substatements statement.substatements

def AreReadAs : List StatementPhrase → List Statement → Prop
  | [], [] => True
  | phrase :: phrases, statement :: statements =>
      phrase.IsReadAs statement ∧ AreReadAs phrases statements
  | _, _ => False

end

theorem tokensOfAll_append (phrases more : List StatementPhrase) :
    tokensOfAll (phrases ++ more) = tokensOfAll phrases ++ tokensOfAll more := by
  induction phrases with
  | nil => rfl
  | cons phrase phrases ih =>
      simp only [List.cons_append, tokensOfAll, ih, List.append_assoc]

theorem AreReadAs.append {phrases more : List StatementPhrase}
    {statements others : List Statement} (first : AreReadAs phrases statements)
    (second : AreReadAs more others) :
    AreReadAs (phrases ++ more) (statements ++ others) := by
  induction phrases generalizing statements with
  | nil =>
      cases statements with
      | nil => exact second
      | cons => exact first.elim
  | cons phrase phrases ih =>
      cases statements with
      | nil => exact first.elim
      | cons statement statements => exact ⟨first.1, ih first.2⟩

end StatementPhrase

section

variable {rest rest' : List Token}

/-- The next token is of a kind. -/
def NextIs (kind : TokenKind) (tokens : List Token) : Prop :=
  (tokens.head?.map (·.kind)) = some kind

theorem nextIs_terminal {kind : TokenKind} (token : Terminal kind) :
    NextIs kind (token.1 :: rest) := by
  simp [NextIs, token.2]

theorem NextIs.unique {kind kind' : TokenKind} (next : NextIs kind rest)
    (next' : NextIs kind' rest) : kind = kind' :=
  Option.some.inj (next.symm.trans next')

theorem cons_terminal_inj {kind : TokenKind} {token token' : Terminal kind}
    (same : token.1 :: rest = token'.1 :: rest') :
    token = token' ∧ rest = rest' := by
  obtain ⟨equal, tails⟩ := List.cons.inj same
  exact ⟨Subtype.ext equal, tails⟩

/-- Strings go on as long as there are plus signs. -/
theorem flatMap_strings_inj
    {more more' : List (Terminal .plus × QuotedTerminal)}
    (stops : ¬ NextIs .plus rest) (stops' : ¬ NextIs .plus rest')
    (same : (more.flatMap fun (plus, string) => [plus.1, string.1]) ++ rest =
      (more'.flatMap fun (plus, string) => [plus.1, string.1]) ++ rest') :
    more = more' ∧ rest = rest' := by
  induction more generalizing more' with
  | nil =>
      cases more' with
      | nil => exact ⟨rfl, same⟩
      | cons pair more' =>
          simp only [List.flatMap_nil, List.flatMap_cons, List.nil_append,
            List.cons_append] at same
          exact absurd (same ▸ nextIs_terminal pair.1) stops
  | cons pair more ih =>
      cases more' with
      | nil =>
          simp only [List.flatMap_nil, List.flatMap_cons, List.nil_append,
            List.cons_append] at same
          exact absurd (same ▸ nextIs_terminal pair.1) stops'
      | cons pair' more' =>
          simp only [List.flatMap_cons, List.cons_append, List.nil_append]
            at same
          obtain ⟨plus, same⟩ := cons_terminal_inj same
          obtain ⟨string, same⟩ := List.cons.inj same
          obtain ⟨rfl, rfl⟩ := ih same
          exact ⟨by rw [Prod.ext plus (Subtype.ext string)], rfl⟩

/-- A semicolon or an opening brace comes next. -/
def EndsHead (tokens : List Token) : Prop :=
  NextIs .semicolon tokens ∨ NextIs .braceOpen tokens

theorem EndsHead.not_nextIs {kind : TokenKind} (ends : EndsHead rest)
    (semicolon : kind ≠ .semicolon) (brace : kind ≠ .braceOpen) :
    ¬ NextIs kind rest := fun next =>
  ends.elim (fun ends => semicolon (next.unique ends))
    (fun ends => brace (next.unique ends))

theorem quoted_not_endsHead (string : QuotedTerminal) :
    ¬ EndsHead (string.1 :: rest) := by
  have quoted := string.2
  simp only [EndsHead, NextIs, List.head?_cons, Option.map_some,
    Option.some.injEq]
  rintro (kind | kind) <;> simp [kind, TokenKind.isQuoted] at quoted

theorem word_not_endsHead (word : Terminal .word) :
    ¬ EndsHead (word.1 :: rest) := fun ends =>
  ends.not_nextIs (by decide) (by decide) (nextIs_terminal word)

theorem ArgumentPhrase.not_endsHead (argument : ArgumentPhrase) :
    ¬ EndsHead (argument.tokens ++ rest) := by
  cases argument with
  | word token =>
      rw [tokens, List.singleton_append]
      exact word_not_endsHead token
  | strings first more =>
      rw [tokens, List.cons_append]
      exact quoted_not_endsHead first

theorem quoted_ne_word {string : QuotedTerminal} {word : Terminal .word} :
    string.1 ≠ word.1 := by
  intro same
  have quoted := string.2
  rw [same, word.2] at quoted
  simp [TokenKind.isQuoted] at quoted

theorem ArgumentPhrase.tokens_append_inj {argument argument' : ArgumentPhrase}
    (stops : ¬ NextIs .plus rest) (stops' : ¬ NextIs .plus rest')
    (same : argument.tokens ++ rest = argument'.tokens ++ rest') :
    argument = argument' ∧ rest = rest' := by
  cases argument with
  | word token =>
      cases argument' with
      | word token' =>
          simp only [tokens, List.singleton_append] at same
          obtain ⟨rfl, rfl⟩ := cons_terminal_inj same
          exact ⟨rfl, rfl⟩
      | strings first' more' =>
          simp only [tokens, List.cons_append] at same
          exact absurd (List.cons.inj same).1.symm quoted_ne_word
  | strings first more =>
      cases argument' with
      | word token' =>
          simp only [tokens, List.cons_append] at same
          exact absurd (List.cons.inj same).1 quoted_ne_word
      | strings first' more' =>
          simp only [tokens, List.cons_append] at same
          obtain ⟨string, tails⟩ := List.cons.inj same
          obtain rfl := Subtype.ext string
          obtain ⟨rfl, rfl⟩ := flatMap_strings_inj stops stops' tails
          exact ⟨rfl, rfl⟩

/-- What stands between a keyword and its terminator determines the argument. -/
theorem argumentTokens_append_inj {argument argument' : Option ArgumentPhrase}
    (ends : EndsHead rest) (ends' : EndsHead rest')
    (same : argumentTokens argument ++ rest =
      argumentTokens argument' ++ rest') :
    argument = argument' ∧ rest = rest' := by
  cases argument with
  | none =>
      cases argument' with
      | none => exact ⟨rfl, same⟩
      | some argument' =>
          simp only [argumentTokens, List.nil_append] at same
          exact absurd (same ▸ ends) argument'.not_endsHead
  | some argument =>
      cases argument' with
      | none =>
          simp only [argumentTokens, List.nil_append] at same
          exact absurd (same ▸ ends') argument.not_endsHead
      | some argument' =>
          obtain ⟨rfl, rfl⟩ := ArgumentPhrase.tokens_append_inj
            (ends.not_nextIs (by decide) (by decide))
            (ends'.not_nextIs (by decide) (by decide)) same
          exact ⟨rfl, rfl⟩

theorem headTokens_inj {keyword keyword' : Terminal .word}
    {argument argument' : Option ArgumentPhrase}
    (ends : EndsHead rest) (ends' : EndsHead rest')
    (same : headTokens keyword argument ++ rest =
      headTokens keyword' argument' ++ rest') :
    keyword = keyword' ∧ argument = argument' ∧ rest = rest' := by
  simp only [headTokens, List.cons_append] at same
  obtain ⟨rfl, tails⟩ := cons_terminal_inj same
  obtain ⟨rfl, rfl⟩ := argumentTokens_append_inj ends ends' tails
  exact ⟨rfl, rfl, rfl⟩

end

namespace StatementPhrase

theorem nextIs_word (phrase : StatementPhrase) (rest : List Token) :
    NextIs .word (phrase.tokens ++ rest) := by
  cases phrase with
  | plain keyword => exact nextIs_terminal keyword
  | block keyword => exact nextIs_terminal keyword

mutual

/-- A statement ends at its own terminator. -/
theorem tokens_append_inj (phrase phrase' : StatementPhrase)
    {rest rest' : List Token}
    (same : phrase.tokens ++ rest = phrase'.tokens ++ rest') :
    phrase = phrase' ∧ rest = rest' := by
  cases phrase with
  | plain keyword argument semicolon =>
      cases phrase' with
      | plain keyword' argument' semicolon' =>
          simp only [tokens, List.append_assoc] at same
          obtain ⟨rfl, rfl, tails⟩ := headTokens_inj
            (.inl (nextIs_terminal semicolon))
            (.inl (nextIs_terminal semicolon')) same
          obtain ⟨rfl, rfl⟩ := cons_terminal_inj tails
          exact ⟨rfl, rfl⟩
      | block keyword' argument' brace' =>
          simp only [tokens, List.append_assoc] at same
          obtain ⟨-, -, same⟩ := headTokens_inj
            (.inl (nextIs_terminal semicolon))
            (.inr (nextIs_terminal brace')) same
          have kinds := (nextIs_terminal semicolon).unique
            (same ▸ nextIs_terminal brace')
          simp at kinds
  | block keyword argument brace substatements close =>
      cases phrase' with
      | plain keyword' argument' semicolon' =>
          simp only [tokens, List.append_assoc] at same
          obtain ⟨-, -, same⟩ := headTokens_inj
            (.inr (nextIs_terminal brace))
            (.inl (nextIs_terminal semicolon')) same
          have kinds := (nextIs_terminal brace).unique
            (same ▸ nextIs_terminal semicolon')
          simp at kinds
      | block keyword' argument' brace' substatements' close' =>
          simp only [tokens, List.append_assoc, List.cons_append] at same
          obtain ⟨rfl, rfl, bodies⟩ := headTokens_inj
            (.inr (nextIs_terminal brace)) (.inr (nextIs_terminal brace')) same
          obtain ⟨rfl, inside⟩ := cons_terminal_inj bodies
          obtain ⟨rfl, tails⟩ := tokensOfAll_append_inj substatements
            substatements' (fun next => by
              simpa using next.unique (nextIs_terminal close))
            (fun next => by simpa using next.unique (nextIs_terminal close'))
            inside
          obtain ⟨rfl, rfl⟩ := cons_terminal_inj tails
          exact ⟨rfl, rfl⟩

/-- Statements go on as long as there are words. -/
theorem tokensOfAll_append_inj (phrases phrases' : List StatementPhrase)
    {rest rest' : List Token} (stops : ¬ NextIs .word rest)
    (stops' : ¬ NextIs .word rest')
    (same : tokensOfAll phrases ++ rest = tokensOfAll phrases' ++ rest') :
    phrases = phrases' ∧ rest = rest' := by
  cases phrases with
  | nil =>
      cases phrases' with
      | nil => exact ⟨rfl, same⟩
      | cons phrase' phrases' =>
          simp only [tokensOfAll, List.nil_append, List.append_assoc] at same
          exact absurd (same ▸ phrase'.nextIs_word _) stops
  | cons phrase phrases =>
      cases phrases' with
      | nil =>
          simp only [tokensOfAll, List.nil_append, List.append_assoc] at same
          exact absurd (same ▸ phrase.nextIs_word _) stops'
      | cons phrase' phrases' =>
          simp only [tokensOfAll, List.append_assoc] at same
          obtain ⟨rfl, tails⟩ := tokens_append_inj phrase phrase' same
          obtain ⟨rfl, rfl⟩ :=
            tokensOfAll_append_inj phrases phrases' stops stops' tails
          exact ⟨rfl, rfl⟩

end

/-- A sequence of tokens has at most one derivation. -/
theorem tokensOfAll_injective : Function.Injective tokensOfAll := by
  intro phrases phrases' same
  have stops : ¬ NextIs .word [] := by simp [NextIs]
  refine (tokensOfAll_append_inj phrases phrases' stops stops ?_).1
  rw [same]

end StatementPhrase

end YangSchema
