import YangSchema.Proofs.SyntaxTree.Leaves

/-!
# Diagnostics stay inside the source

The parser reports the places of tokens, of the end of the source, and of what
is between a brace and that end.
-/

namespace YangSchema

/-- A span of a source with so many bytes. -/
structure Span.IsWithin (length : Nat) (span : Span) : Prop where
  ordered : span.start ≤ span.stop
  inside : span.stop ≤ length

/-- A diagnostic of a source with so many bytes. -/
structure Diagnostic.IsWithin (length : Nat) (diagnostic : Diagnostic) :
    Prop where
  span : diagnostic.span.IsWithin length
  related : ∀ related ∈ diagnostic.related, related.span.IsWithin length

theorem Diagnostic.isWithin_ofKind {length : Nat} {span : Span}
    (source : SourceId) (kind : DiagnosticKind)
    (within : span.IsWithin length) :
    (Diagnostic.ofKind source kind span).IsWithin length :=
  ⟨within, by simp [ofKind]⟩

theorem Token.isWithin_span {length : Nat} {token : Token}
    (inside : token.stop ≤ length) : token.span.IsWithin length :=
  ⟨Nat.le_add_right _ _, inside⟩

theorem Span.isWithin_end (length : Nat) :
    (Span.mk length length).IsWithin length :=
  ⟨Nat.le_refl _, Nat.le_refl _⟩

namespace Parser

/-- Whatever has been or may still be reported lies in the source. -/
structure IsWithin (length : Nat) (parser : Parser) : Prop where
  diagnostics : ∀ diagnostic ∈ parser.diagnostics, diagnostic.IsWithin length
  braces : ∀ block ∈ parser.openBlocks, block.brace.span.IsWithin length

variable {length : Nat} {parser : Parser} {token : Token}

theorem IsWithin.report {diagnostic : Diagnostic}
    (within : parser.IsWithin length) (inside : diagnostic.IsWithin length) :
    (parser.report diagnostic).IsWithin length where
  diagnostics other listed := by
    unfold Parser.report at listed
    split at listed
    · exact within.diagnostics other listed
    · obtain listed | listed := List.mem_append.mp listed
      · exact within.diagnostics other listed
      · rwa [List.mem_singleton.mp listed]
  braces := by
    rw [openBlocks_report]
    exact within.braces

theorem IsWithin.reportKind {span : Span} (kind : DiagnosticKind)
    (within : parser.IsWithin length) (inside : span.IsWithin length) :
    (parser.reportKind kind span).IsWithin length :=
  within.report (Diagnostic.isWithin_ofKind _ kind inside)

theorem IsWithin.reportTerminator {span : Span} (head : StatementHead)
    (within : parser.IsWithin length) (inside : span.IsWithin length) :
    (parser.reportTerminator head span).IsWithin length :=
  within.report ⟨inside, by simp [Diagnostic.withDetail, Diagnostic.ofKind]⟩

theorem IsWithin.reject (kind : DiagnosticKind)
    (within : parser.IsWithin length) (inside : token.span.IsWithin length) :
    (parser.reject kind token).IsWithin length :=
  ⟨(within.reportKind kind inside).diagnostics,
    (within.reportKind kind inside).braces⟩

theorem IsWithin.endStatement (statement : List SyntaxTree)
    (within : parser.IsWithin length) :
    (parser.endStatement statement).IsWithin length :=
  ⟨within.diagnostics, within.braces⟩

theorem IsWithin.readBetween (within : parser.IsWithin length)
    (inside : token.span.IsWithin length) :
    (parser.readBetween token).IsWithin length := by
  unfold Parser.readBetween
  split
  · exact ⟨within.diagnostics, within.braces⟩
  · split
    case h_1 block rest opened =>
      refine ⟨within.diagnostics, fun other listed => within.braces other ?_⟩
      rw [opened]
      exact List.mem_cons_of_mem block listed
    case h_2 => exact within.reject _ inside
  · exact within.reject _ inside
  · exact within.reject _ inside
  · exact within.reject _ inside

theorem IsWithin.readTerminator (head : StatementHead)
    (within : parser.IsWithin length) (inside : token.span.IsWithin length) :
    (parser.readTerminator head token).IsWithin length := by
  have reported := within.reportTerminator head inside
  unfold Parser.readTerminator
  split
  · exact ⟨within.diagnostics, within.braces⟩
  · refine ⟨within.diagnostics, fun block listed => ?_⟩
    obtain rfl | listed := List.mem_cons.mp listed
    · exact inside
    · exact within.braces block listed
  · exact ⟨reported.diagnostics, reported.braces⟩
  · exact (reported.endStatement _).readBetween inside

theorem IsWithin.read (within : parser.IsWithin length)
    (inside : token.span.IsWithin length) :
    (parser.read token).IsWithin length := by
  unfold Parser.read
  split
  case h_1 => exact within.readBetween inside
  case h_2 head _ =>
    dsimp only
    split
    · exact ⟨within.diagnostics, within.braces⟩
    · split
      · exact ⟨within.diagnostics, within.braces⟩
      · exact within.readTerminator _ inside
  case h_3 =>
    split
    · exact ⟨within.diagnostics, within.braces⟩
    · exact within.readTerminator _ inside
  case h_4 =>
    split
    · exact ⟨within.diagnostics, within.braces⟩
    · exact (within.reportKind _ inside).readTerminator _ inside
  case h_5 => exact within.readTerminator _ inside
  case h_6 =>
    split
    · exact ⟨within.diagnostics, within.braces⟩
    · exact (within.endStatement _).readBetween inside
    · exact (within.endStatement _).readBetween inside
    · exact ⟨within.diagnostics, within.braces⟩

theorem IsWithin.step {limits : ParseLimits} {count count' : Nat}
    {parser' : Parser} (within : parser.IsWithin length)
    (inside : token.span.IsWithin length)
    (stepped : step limits (parser, count) token = .ok (parser', count')) :
    parser'.IsWithin length := by
  unfold Parser.step at stepped
  dsimp only at stepped
  split at stepped
  · cases stepped
    exact ⟨within.diagnostics, within.braces⟩
  · split at stepped
    · cases stepped
    · split at stepped
      · cases stepped
      · cases stepped
        exact within.read inside

theorem IsWithin.foldlM_step {limits : ParseLimits} {tokens : List Token}
    {count count' : Nat} {parser' : Parser} (within : parser.IsWithin length)
    (inside : ∀ token ∈ tokens, token.span.IsWithin length)
    (run : tokens.foldlM (Parser.step limits) (parser, count) =
      .ok (parser', count')) :
    parser'.IsWithin length := by
  induction tokens generalizing parser count with
  | nil =>
      cases run
      exact within
  | cons token rest ih =>
      rw [List.foldlM_cons] at run
      cases stepped : Parser.step limits (parser, count) token with
      | error limit =>
          rw [stepped] at run
          cases run
      | ok next =>
          rw [stepped] at run
          exact ih (within.step (inside token List.mem_cons_self) stepped)
            (fun other listed => inside other (List.mem_cons_of_mem _ listed))
            run

theorem IsWithin.endLastStatement {stop : Span}
    (within : parser.IsWithin length) (inside : stop.IsWithin length) :
    (parser.endLastStatement stop).IsWithin length := by
  have missing (parser : Parser) (within : parser.IsWithin length)
      (head : StatementHead) : ((parser.reportTerminator head
        stop).endStatement head.children).IsWithin length :=
    (within.reportTerminator head inside).endStatement _
  unfold Parser.endLastStatement
  split
  · exact within
  · exact missing _ within _
  · exact missing _ within _
  · exact missing _ within _
  · exact missing _ (within.reportKind _ inside) _
  · exact within.endStatement _

theorem IsWithin.reportUnclosed {brace : Span}
    (within : parser.IsWithin length) (inside : brace.IsWithin length) :
    (parser.reportUnclosed brace ⟨length, length⟩).IsWithin length := by
  unfold Parser.reportUnclosed
  split
  · exact within
  · refine ⟨fun diagnostic listed => ?_, within.braces⟩
    obtain listed | listed := List.mem_append.mp listed
    · exact within.diagnostics diagnostic listed
    · rw [List.mem_singleton.mp listed]
      refine ⟨⟨Nat.le_trans inside.ordered inside.inside, Nat.le_refl _⟩, ?_⟩
      simpa [Diagnostic.withRelated, Diagnostic.withDetail, Diagnostic.ofKind]
        using inside

theorem IsWithin.closeAll {blocks : List OpenBlock}
    (within : parser.IsWithin length)
    (braces : ∀ block ∈ blocks, block.brace.span.IsWithin length) :
    (closeAll ⟨length, length⟩ blocks parser).IsWithin length := by
  induction blocks generalizing parser with
  | nil => exact within
  | cons block rest ih =>
      have later (other : OpenBlock) (listed : other ∈ rest) :=
        braces other (List.mem_cons_of_mem block listed)
      have reported :=
        within.reportUnclosed (braces block List.mem_cons_self)
      exact ih ⟨reported.diagnostics, later⟩ later

theorem IsWithin.finish (within : parser.IsWithin length) :
    (parser.finish length).IsWithin length := by
  have ended := within.endLastStatement (Span.isWithin_end length)
  exact ended.closeAll ended.braces

end Parser

/-- All that is reported about a source lies inside the source. -/
theorem isWithin_of_parse {limits : ParseLimits} {id : SourceId}
    {source : String} {parsed : Parsed}
    (read : parse limits id source = .ok parsed) :
    ∀ diagnostic ∈ parsed.diagnostics,
      diagnostic.IsWithin source.utf8ByteSize := by
  unfold parse at read
  cases run : (lex source).foldlM (Parser.step limits)
      (Parser.initial id, 0) with
  | error limit =>
      rw [run] at read
      cases read
  | ok state =>
      obtain ⟨parser, count⟩ := state
      rw [run] at read
      cases read
      have initial : (Parser.initial id).IsWithin source.utf8ByteSize :=
        ⟨by simp [Parser.initial], by simp [Parser.initial]⟩
      have inside (token : Token) (listed : token ∈ lex source) :=
        Token.isWithin_span (Token.stop_le_of_mem_lex listed)
      exact (initial.foldlM_step inside run).finish.diagnostics

end YangSchema
