import YangSchema.Proofs.SyntaxTree.Acceptance
import YangSchema.Proofs.SyntaxTree.Leaves

/-!
# Limits change nothing but whether there is a tree

A parse with limits takes the same steps as one without them, until a step asks
for more than a limit allows.  A step asks for one more significant token, and
for one more open block where its token opens one.  So a source has a tree
exactly if its significant tokens and the blocks that are open at once stay
within the limits, it is the tree of the parse without limits, and the error of
any other source names a limit that it exceeds.
-/

namespace YangSchema

/-- Nothing is exceeded by this many significant tokens and open blocks. -/
structure ParseLimits.Allows (limits : ParseLimits) (tokens depth : Nat) :
    Prop where
  tokens : ∀ bound ∈ limits.tokens, tokens ≤ bound
  depth : ∀ bound ∈ limits.depth, depth ≤ bound

/-- The limit that an error names is exceeded. -/
def LimitError.IsDue (limits : ParseLimits) (tokens depth : Nat) :
    LimitError → Prop
  | .tokens => ∃ bound ∈ limits.tokens, bound < tokens
  | .depth => ∃ bound ∈ limits.depth, bound < depth

variable {limits : ParseLimits} {token : Token} {tokens : List Token}

theorem LimitError.IsDue.mono {error : LimitError}
    {count more depth deeper : Nat}
    (due : error.IsDue limits count depth) (longer : count ≤ more)
    (deep : depth ≤ deeper) : error.IsDue limits more deeper := by
  cases error with
  | tokens =>
      obtain ⟨bound, listed, exceeded⟩ := due
      exact ⟨bound, listed, by omega⟩
  | depth =>
      obtain ⟨bound, listed, exceeded⟩ := due
      exact ⟨bound, listed, by omega⟩

theorem ParseLimits.Allows.not_isDue {count depth : Nat}
    (allowed : limits.Allows count depth) (error : LimitError) :
    ¬ error.IsDue limits count depth := by
  cases error with
  | tokens =>
      rintro ⟨bound, listed, exceeded⟩
      exact absurd (allowed.tokens bound listed) (by omega)
  | depth =>
      rintro ⟨bound, listed, exceeded⟩
      exact absurd (allowed.depth bound listed) (by omega)

theorem ParseLimits.allows_none (count depth : Nat) :
    ParseLimits.none.Allows count depth := by
  constructor <;> rintro bound ⟨⟩

theorem ParseLimits.allows_some_iff {fuel bound count depth : Nat} :
    Allows ⟨some fuel, some bound⟩ count depth ↔
      count ≤ fuel ∧ depth ≤ bound :=
  ⟨fun ⟨tokens, depth⟩ => ⟨tokens fuel rfl, depth bound rfl⟩,
    fun ⟨tokens, depth⟩ =>
      ⟨by rintro _ ⟨⟩; exact tokens, by rintro _ ⟨⟩; exact depth⟩⟩

theorem LimitError.isDue_some_iff {error : LimitError}
    {fuel bound count depth : Nat} :
    error.IsDue ⟨some fuel, some bound⟩ count depth ↔
      (error = .tokens ∧ fuel < count) ∨
        (error = .depth ∧ bound < depth) := by
  cases error <;> simp [IsDue]

namespace Parser

variable {parser : Parser} {head : StatementHead} {count : Nat}

/-! ## Open blocks -/

theorem length_openBlocks_readBetween (parser : Parser) (token : Token) :
    (parser.readBetween token).openBlocks.length ≤
      parser.openBlocks.length := by
  have reject (kind : DiagnosticKind) :
      (parser.reject kind token).openBlocks = parser.openBlocks := by
    simp [reject, settle, reportKind]
  unfold readBetween
  split
  · simp
  · split
    next block rest opened => simp [closeBlock, opened]
    · simp [reject]
  · simp [reject]
  · simp [reject]
  · simp [reject]

theorem length_openBlocks_readTerminator_brace (parser : Parser)
    (head : StatementHead) (brace : token.kind = .braceOpen) :
    (parser.readTerminator head token).openBlocks.length =
      parser.openBlocks.length + 1 := by
  simp [readTerminator, brace]

theorem length_openBlocks_readTerminator (parser : Parser)
    (head : StatementHead) (other : token.kind ≠ .braceOpen) :
    (parser.readTerminator head token).openBlocks.length ≤
      parser.openBlocks.length := by
  unfold readTerminator
  split
  · simp [endStatement]
  next brace => exact absurd brace other
  · simp [proceed, reportTerminator]
  · refine Nat.le_trans (length_openBlocks_readBetween _ _) ?_
    simp [endStatement, reportTerminator]

/-- A token that opens a block adds one to those that are open. -/
theorem length_openBlocks_read_opens (opens : parser.opensBlock token = true) :
    (parser.read token).openBlocks.length = parser.openBlocks.length + 1 := by
  obtain ⟨brace, mode⟩ := Bool.and_eq_true_iff.mp opens
  have brace : token.kind = .braceOpen := of_decide_eq_true brace
  have terminates (parser : Parser) (head : StatementHead) :=
    length_openBlocks_readTerminator_brace parser head brace
  unfold read
  cases reading : parser.mode with
  | betweenStatements => simp [reading] at mode
  | recovering head skipped => simp [reading] at mode
  | afterKeyword head => simp [brace, TokenKind.isQuoted, terminates]
  | afterString head argument => simp [brace, terminates]
  | afterPlus head argument =>
      simp [brace, TokenKind.isQuoted, terminates, reportKind]
  | afterArgument head => simp [terminates]

theorem length_openBlocks_read (closed : parser.opensBlock token = false) :
    (parser.read token).openBlocks.length ≤ parser.openBlocks.length := by
  unfold read
  cases reading : parser.mode with
  | betweenStatements => exact length_openBlocks_readBetween parser token
  | recovering head skipped =>
      dsimp only
      split
      · simp [endStatement]
      · exact length_openBlocks_readBetween _ _
      · exact length_openBlocks_readBetween _ _
      · simp [proceed]
  | afterKeyword head =>
      have other : token.kind ≠ .braceOpen := by
        simpa [opensBlock, reading] using closed
      dsimp only
      split
      · simp [proceed]
      · split
        · simp [proceed]
        · exact length_openBlocks_readTerminator _ _ other
  | afterString head argument =>
      have other : token.kind ≠ .braceOpen := by
        simpa [opensBlock, reading] using closed
      dsimp only
      split
      · simp [proceed]
      · exact length_openBlocks_readTerminator _ _ other
  | afterPlus head argument =>
      have other : token.kind ≠ .braceOpen := by
        simpa [opensBlock, reading] using closed
      dsimp only
      split
      · simp [proceed]
      · refine Nat.le_trans (length_openBlocks_readTerminator _ _ other) ?_
        simp [reportKind]
  | afterArgument head =>
      have other : token.kind ≠ .braceOpen := by
        simpa [opensBlock, reading] using closed
      exact length_openBlocks_readTerminator _ _ other

/-! ## Steps without limits -/

/-- What becomes of the parser with the next token, whatever the limits. -/
def advance (parser : Parser) (token : Token) : Parser :=
  if token.kind.isTrivia then
    { parser with trivia := parser.trivia ++ [token] }
  else
    parser.read token

/-- The greatest number of blocks that are open at once while the parser reads
some tokens to their end. -/
def deepest : Parser → List Token → Nat
  | parser, [] => parser.openBlocks.length
  | parser, token :: rest =>
      max parser.openBlocks.length ((parser.advance token).deepest rest)

theorem length_openBlocks_le_deepest (parser : Parser) (tokens : List Token) :
    parser.openBlocks.length ≤ parser.deepest tokens := by
  cases tokens with
  | nil => exact Nat.le_refl _
  | cons token rest => exact Nat.le_max_left _ _

theorem length_significant_cons (token : Token) (rest : List Token) :
    (significant (token :: rest)).length =
      (significant [token]).length + (significant rest).length := by
  rw [← List.singleton_append, significant, List.filter_append,
    List.length_append, significant, significant]

/-- One step goes on as without limits if they allow what it leads to, and else
fails with an error that is due. -/
theorem step_cases (token : Token)
    (allowed : limits.Allows count parser.openBlocks.length) :
    (limits.Allows (count + (significant [token]).length)
        (parser.advance token).openBlocks.length ∧
      step limits (parser, count) token =
        .ok (parser.advance token, count + (significant [token]).length)) ∨
    ∃ error : LimitError, step limits (parser, count) token = .error error ∧
      error.IsDue limits (count + (significant [token]).length)
        (parser.advance token).openBlocks.length := by
  cases trivia : token.kind.isTrivia with
  | true =>
      left
      simpa [step, advance, significant, trivia] using allowed
  | false =>
      have one : (significant [token]).length = 1 := by
        simp [significant, trivia]
      have read : parser.advance token = parser.read token := by
        simp [advance, trivia]
      rw [one, read]
      by_cases deep : parser.opensBlock token ∧
          limits.depth.any (· ≤ parser.openBlocks.length)
      · refine .inr ⟨.depth, by simp [step, trivia, deep], ?_⟩
        obtain ⟨opens, reached⟩ := deep
        obtain ⟨bound, listed, reached⟩ :=
          (Option.any_eq_true _ _).mp reached
        have reached := of_decide_eq_true reached
        refine ⟨bound, listed, ?_⟩
        rw [length_openBlocks_read_opens opens]
        omega
      · by_cases full : limits.tokens.any (· ≤ count)
        · refine .inr ⟨.tokens, by simp [step, trivia, deep, full], ?_⟩
          obtain ⟨bound, listed, reached⟩ :=
            (Option.any_eq_true _ _).mp full
          have reached := of_decide_eq_true reached
          exact ⟨bound, listed, Nat.lt_succ_of_le reached⟩
        · refine .inl ⟨⟨fun bound listed => ?_, fun bound listed => ?_⟩,
            by simp [step, trivia, deep, full]⟩
          · refine Nat.lt_of_not_le fun reached => full ?_
            exact (Option.any_eq_true _ _).mpr
              ⟨bound, listed, decide_eq_true reached⟩
          · cases opens : parser.opensBlock token with
            | false =>
                exact Nat.le_trans (length_openBlocks_read opens)
                  (allowed.depth bound listed)
            | true =>
                rw [length_openBlocks_read_opens opens]
                refine Nat.lt_of_not_le fun reached => deep ⟨opens, ?_⟩
                exact (Option.any_eq_true _ _).mpr
                  ⟨bound, listed, decide_eq_true reached⟩

/-- Reading some tokens goes on as without limits if they allow all of it, and
else fails with an error that is due. -/
theorem foldlM_step_cases (tokens : List Token)
    (allowed : limits.Allows count parser.openBlocks.length) :
    (limits.Allows (count + (significant tokens).length)
        (parser.deepest tokens) ∧
      tokens.foldlM (step limits) (parser, count) =
        .ok (tokens.foldl advance parser,
          count + (significant tokens).length)) ∨
    ∃ error : LimitError,
      tokens.foldlM (step limits) (parser, count) = .error error ∧
        error.IsDue limits (count + (significant tokens).length)
          (parser.deepest tokens) := by
  induction tokens generalizing parser count with
  | nil => exact .inl ⟨allowed, rfl⟩
  | cons token rest ih =>
      rw [List.foldlM_cons, length_significant_cons, ← Nat.add_assoc, deepest]
      obtain ⟨further, stepped⟩ | ⟨error, failed, due⟩ :=
        step_cases token allowed
      · rw [stepped]
        obtain ⟨whole, read⟩ | ⟨error, failed, due⟩ := ih further
        · refine .inl ⟨⟨whole.tokens, fun bound listed => ?_⟩, read⟩
          exact Nat.max_le.mpr
            ⟨allowed.depth bound listed, whole.depth bound listed⟩
        · exact .inr ⟨error, failed, due.mono (Nat.le_refl _)
            (Nat.le_max_right _ _)⟩
      · refine .inr ⟨error, by rw [failed]; rfl, due.mono ?_ ?_⟩
        · exact Nat.le_add_right _ _
        · exact Nat.le_trans (length_openBlocks_le_deepest _ rest)
            (Nat.le_max_right _ _)

end Parser

/-- The outcome of a parse is that of the same steps without limits, or an error
that is due. -/
theorem parse_cases (limits : ParseLimits) (id : SourceId) (source : String) :
    let tokens := lex source
    let parser := (tokens.foldl Parser.advance (.initial id)).finish
      source.utf8ByteSize
    let count := (Parser.significant tokens).length
    let depth := (Parser.initial id).deepest tokens
    (limits.Allows count depth ∧ parse limits id source = .ok
      ⟨parser.root, parser.diagnostics,
        if limits.tokens.isSome then count else 0⟩) ∨
    ∃ error : LimitError, parse limits id source = .error error ∧
      error.IsDue limits count depth := by
  intro tokens parser count depth
  have nothing : limits.Allows 0 (Parser.initial id).openBlocks.length :=
    ⟨fun _ _ => Nat.zero_le _, fun _ _ => Nat.zero_le _⟩
  obtain ⟨allowed, read⟩ | ⟨error, failed, due⟩ :=
    Parser.foldlM_step_cases tokens nothing
  · rw [Nat.zero_add] at allowed read
    exact .inl ⟨allowed, by rw [parse, read]; rfl⟩
  · rw [Nat.zero_add] at due
    exact .inr ⟨error, by rw [parse, failed]; rfl, due⟩

/-- A parse with limits ends with a tree exactly if the significant tokens of
the source and the blocks that are open at once stay within them.  Then it is
the outcome of the parse without limits, with the number of those tokens, and
else the error is that of a limit that is exceeded. -/
theorem parse_limited (fuel depth : Nat) (id : SourceId) (source : String) :
    let count := (Parser.significant (lex source)).length
    let deep := (Parser.initial id).deepest (lex source)
    let limited := parse ⟨some fuel, some depth⟩ id source
    ∃ whole, parse .none id source = .ok whole ∧
      ((∃ parsed, limited = .ok parsed) ↔ count ≤ fuel ∧ deep ≤ depth) ∧
      (∀ parsed, limited = .ok parsed →
        parsed = { whole with tokensRead := count }) ∧
      ∀ error, limited = .error error →
        (error = .tokens ∧ fuel < count) ∨ (error = .depth ∧ depth < deep) := by
  intro count deep limited
  obtain ⟨-, whole⟩ | ⟨error, -, due⟩ := parse_cases .none id source
  · refine ⟨_, whole, ?_⟩
    obtain ⟨allowed, read⟩ | ⟨error, failed, due⟩ :=
      parse_cases ⟨some fuel, some depth⟩ id source
    · have inside := ParseLimits.allows_some_iff.mp allowed
      have read : limited = _ := read
      rw [read]
      exact ⟨⟨fun _ => inside, fun _ => ⟨_, rfl⟩⟩,
        fun parsed ok => (Except.ok.inj ok).symm, nofun⟩
    · have outside : ¬ (count ≤ fuel ∧ deep ≤ depth) := fun inside =>
        (ParseLimits.allows_some_iff.mpr inside).not_isDue error due
      have failed : limited = _ := failed
      rw [failed]
      refine ⟨⟨nofun, fun inside => absurd inside outside⟩, nofun, ?_⟩
      rintro _ ⟨⟩
      exact LimitError.isDue_some_iff.mp due
  · exact absurd due ((ParseLimits.allows_none _ _).not_isDue error)

end YangSchema
