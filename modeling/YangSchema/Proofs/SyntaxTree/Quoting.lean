import YangSchema.Proofs.SyntaxTree.Acceptance
import YangSchema.Proofs.Text.Pieces
import YangSchema.Proofs.Token.BlockComment
import YangSchema.Proofs.Token.Covering

/-!
# Quoted arguments

An argument can be written as strings in quotes of either kind with plus signs between
them, and with blanks and line breaks between all tokens.  The lexer finds each string as
one token, the parser finds the argument in the only statement of the source, and its
value is the texts of the strings one after the other, wherever the strings start.
-/

namespace YangSchema

/-- What a token is without the place where it stands. -/
def Token.shape (token : Token) : TokenKind × String :=
  (token.kind, token.text)

namespace Lexer

/-! ## Tokens without their places -/

variable {first : Char} {text rest : List Char}

theorem map_shape_prepend {token token' : Token} {tokens tokens' : List Token}
    (same : token.shape = token'.shape)
    (others : tokens.map Token.shape = tokens'.map Token.shape) :
    (prepend token tokens).map Token.shape =
      (prepend token' tokens').map Token.shape := by
  obtain ⟨kind, text⟩ := Prod.mk.inj same
  cases tokens with
  | nil =>
      obtain rfl := List.map_eq_nil_iff.mp others.symm
      simp [prepend, Token.shape, kind, text]
  | cons next rest =>
      cases tokens' with
      | nil => simp at others
      | cons next' rest' =>
          simp only [List.map_cons, List.cons.injEq] at others
          obtain ⟨here, there⟩ := others
          obtain ⟨kind', text'⟩ := Prod.mk.inj here
          rw [prepend_cons, prepend_cons, kind, kind']
          split <;> simp [Token.shape, kind, text, kind', text', there]

/-- The place where a text starts does not matter for its tokens. -/
theorem map_shape_tokensFrom (cursor cursor' : Cursor) (text : List Char) :
    (tokensFrom cursor text).map Token.shape =
      (tokensFrom cursor' text).map Token.shape := by
  induction cursor, text using tokensFrom.induct generalizing cursor' with
  | case1 cursor => simp [tokensFrom]
  | case2 cursor first rest kind length scanned characters ih =>
      have cut : (scan first rest).2 = length := by rw [scanned]
      rw [tokensFrom_cons, tokensFrom_cons, cut]
      exact map_shape_prepend rfl (ih _)

/-- The significant tokens of a text without their places. -/
def shapes (text : List Char) : List (TokenKind × String) :=
  (Parser.significant (tokensFrom .start text)).map Token.shape

theorem shapes_eq_filter (cursor : Cursor) (text : List Char) :
    shapes text = ((tokensFrom cursor text).map Token.shape).filter
      fun shape => !shape.1.isTrivia := by
  rw [map_shape_tokensFrom cursor .start, List.filter_map]
  rfl

@[simp]
theorem shapes_nil : shapes [] = [] := by
  simp [shapes, Parser.significant, tokensFrom]

theorem shapes_cons {kind : TokenKind} {length : Nat}
    (scanned : scan first rest = (kind, length)) (proper : kind ≠ .garbage) :
    shapes (first :: rest) =
      (if kind.isTrivia then []
        else [(kind, String.ofList (first :: rest.take length))]) ++
        shapes (rest.drop length) := by
  have alone (tokens : List Token) :
      prepend (tokenAt .start first rest) tokens = tokenAt .start first rest :: tokens := by
    cases tokens with
    | nil => rfl
    | cons next tokens => simp [prepend_cons, tokenAt, scanned, proper]
  rw [shapes_eq_filter .start, tokensFrom_cons, alone, List.map_cons, List.filter_cons,
    scanned, ← shapes_eq_filter]
  cases trivia : kind.isTrivia <;>
    simp [Token.shape, tokenAt, scanned, trivia]

/-! ## Gaps -/

/-- Blanks and line breaks. -/
inductive IsGap : List Char → Prop
  | nil : IsGap []
  | blank {c : Char} {gap : List Char} (blank : isBlankInLine c = true)
      (rest : IsGap gap) : IsGap (c :: gap)
  | lineFeed {gap : List Char} (rest : IsGap gap) : IsGap ('\n' :: gap)
  | carriageReturn {gap : List Char} (rest : IsGap gap) :
      IsGap ('\r' :: '\n' :: gap)

theorem scan_blank {c : Char} (blank : isBlankInLine c = true) (rest : List Char) :
    scan c rest = (.whitespace, (rest.takeWhile isBlankInLine).length) := by
  simp only [isBlankInLine, Bool.or_eq_true, beq_iff_eq] at blank
  obtain rfl | rfl := blank <;> rfl

theorem shapes_dropWhile (text : List Char) :
    shapes (text.dropWhile isBlankInLine) = shapes text := by
  cases text with
  | nil => rfl
  | cons c rest =>
      cases blank : isBlankInLine c with
      | false => simp [blank]
      | true =>
          have whole : rest.takeWhile isBlankInLine ++ rest.dropWhile isBlankInLine =
              rest := List.takeWhile_append_dropWhile
          have dropped : rest.drop (rest.takeWhile isBlankInLine).length =
              rest.dropWhile isBlankInLine := by
            have behind : (rest.takeWhile isBlankInLine ++
                rest.dropWhile isBlankInLine).drop
                  (rest.takeWhile isBlankInLine).length =
                rest.dropWhile isBlankInLine := List.drop_left
            rwa [whole] at behind
          rw [shapes_cons (scan_blank blank rest) (by simp), dropped]
          simp [TokenKind.isTrivia, blank]

theorem shapes_blank {c : Char} (blank : isBlankInLine c = true) (rest : List Char) :
    shapes (c :: rest) = shapes rest := by
  rw [← shapes_dropWhile (c :: rest), ← shapes_dropWhile rest]
  simp [blank]

theorem shapes_gap {gap : List Char} (isGap : IsGap gap) (rest : List Char) :
    shapes (gap ++ rest) = shapes rest := by
  induction isGap with
  | nil => rfl
  | blank blank _ ih => rw [List.cons_append, shapes_blank blank, ih]
  | @lineFeed gap _ ih =>
      have scanned : scan '\n' (gap ++ rest) = (.newline, 0) := rfl
      rw [List.cons_append, shapes_cons scanned (by simp)]
      simpa [TokenKind.isTrivia] using ih
  | @carriageReturn gap _ ih =>
      have scanned : scan '\r' ('\n' :: (gap ++ rest)) = (.newline, 1) := rfl
      rw [List.cons_append, List.cons_append, shapes_cons scanned (by simp)]
      simpa [TokenKind.isTrivia] using ih

/-! ## Words -/

theorem wordLength_nil : wordLength [] = 0 := by
  rw [wordLength.eq_def]

theorem wordLength_slash (c : Char) (rest : List Char) :
    wordLength ('/' :: c :: rest) =
      if followsSlash c = true then wordLength rest + 2 else 0 := by
  rw [wordLength.eq_def]
  split
  next same => simp at same
  next same =>
    obtain ⟨-, same⟩ := List.cons.inj same
    obtain ⟨rfl, rfl⟩ := List.cons.inj same
    rfl
  next other same =>
    obtain ⟨rfl, rfl⟩ := List.cons.inj same
    exact (other c rest rfl rfl).elim

theorem wordLength_cons {c : Char}
    (single : ∀ next more, c = '/' → rest = next :: more → False) :
    wordLength (c :: rest) =
      if isWordCharacter c = true then wordLength rest + 1 else 0 := by
  rw [wordLength.eq_def]
  split
  next same => simp at same
  next same =>
    obtain ⟨rfl, rfl⟩ := List.cons.inj same
    exact (single _ _ rfl rfl).elim
  next same =>
    obtain ⟨rfl, rfl⟩ := List.cons.inj same
    rfl

/-- A text that goes on no word. -/
def EndsWord (text : List Char) : Prop :=
  ∀ c ∈ text.head?, isWordCharacter c = false ∧ c ≠ '/'

theorem EndsWord.wordLength_eq (ends : EndsWord text) : wordLength text = 0 := by
  cases text with
  | nil => exact wordLength_nil
  | cons c rest =>
      obtain ⟨other, slash⟩ := ends c rfl
      rw [wordLength_cons fun _ _ same => absurd same slash]
      simp [other]

theorem EndsWord.gap {gap : List Char} (isGap : IsGap gap) (ends : EndsWord text) :
    EndsWord (gap ++ text) := by
  cases isGap with
  | nil => exact ends
  | @blank c _ blank _ =>
      simp only [isBlankInLine, Bool.or_eq_true, beq_iff_eq] at blank
      obtain rfl | rfl := blank <;> simp [EndsWord, isWordCharacter, Text.isBlank]
  | lineFeed => simp [EndsWord, isWordCharacter, Text.isBlank]
  | carriageReturn => simp [EndsWord, isWordCharacter, Text.isBlank]

/-- A whole word is not longer before something that goes on no word. -/
theorem wordLength_append (whole : text.length ≤ wordLength text)
    (ends : EndsWord rest) : wordLength (text ++ rest) = text.length := by
  induction text using wordLength.induct with
  | case1 => exact ends.wordLength_eq
  | case2 c text follows ih =>
      rw [wordLength_slash, if_pos follows] at whole
      have longer := ih (by simpa using whole)
      rw [List.cons_append, List.cons_append, wordLength_slash, if_pos follows, longer]
      rfl
  | case3 c text other =>
      rw [wordLength_slash, if_neg other] at whole
      simp at whole
  | case4 c text single word ih =>
      rw [wordLength_cons single, if_pos word] at whole
      have longer := ih (by simpa using whole)
      have other : c ≠ '/' := by
        rintro rfl
        revert word
        decide
      rw [List.cons_append, wordLength_cons fun _ _ same => absurd same other,
        if_pos word, longer]
      rfl
  | case5 c text single other =>
      rw [wordLength_cons single, if_neg other] at whole
      simp at whole

theorem scan_wordCharacter (word : isWordCharacter first = true) (rest : List Char) :
    scan first rest =
      if first = '+' ∧ wordLength rest = 0 then (.plus, 0)
      else (.word, wordLength rest) := by
  unfold scan
  split
  case h_9 =>
    have solid : isBlankInLine first = false := by
      by_contra blank
      simp only [isBlankInLine, Bool.not_eq_false, Bool.or_eq_true, beq_iff_eq] at blank
      revert word
      obtain rfl | rfl := blank <;> decide
    simp only [solid, word, if_true, Bool.false_eq_true, if_false]
  all_goals
    exfalso
    revert word
    decide

theorem scan_slash_word {c : Char} (follows : followsSlash c = true) (rest : List Char) :
    scan '/' (c :: rest) = (.word, 1 + wordLength rest) := by
  have apart {mark : Char} (stops : followsSlash mark = false) : c ≠ mark := by
    rintro rfl
    simp [stops] at follows
  rw [scan_slash]
  split
  next same => exact absurd (List.cons.inj same).1 (apart (by decide))
  next same => exact absurd (List.cons.inj same).1 (apart (by decide))
  next same =>
    obtain ⟨rfl, rfl⟩ := List.cons.inj same
    rw [if_pos follows]
  next same => simp at same

/-- Words start with a character of a word or with a slash in front of one. -/
theorem of_scan_word (word : (scan first text).1 = .word) :
    isWordCharacter first = true ∨
      first = '/' ∧ ∃ c rest, text = c :: rest ∧ followsSlash c = true := by
  unfold scan at word
  split at word
  case h_8 =>
    split at word
    case h_3 c rest _ _ =>
      split at word
      next follows => exact .inr ⟨rfl, c, rest, rfl, follows⟩
      · simp at word
    all_goals simp [enclosedToken_eq_iff] at word
  case h_9 =>
    split at word
    · simp at word
    · split at word
      next character => exact .inl character
      · simp at word
  case h_7 => split at word <;> simp at word
  all_goals simp [enclosedToken_eq_iff] at word

/-- A word ends where it does alone. -/
theorem scan_append (word : (scan first text).1 = .word)
    (whole : text.length ≤ (scan first text).2) (ends : EndsWord rest) :
    scan first (text ++ rest) = (.word, text.length) := by
  obtain character | ⟨rfl, c, text, rfl, follows⟩ := of_scan_word word
  · rw [scan_wordCharacter character] at word whole
    split at word
    · simp at word
    next single =>
      rw [if_neg single] at whole
      have longer := wordLength_append whole ends
      rw [scan_wordCharacter character, longer, if_neg]
      rintro ⟨rfl, empty⟩
      obtain rfl := List.length_eq_zero_iff.mp empty
      exact single ⟨rfl, wordLength_nil⟩
  · rw [scan_slash_word follows, List.length_cons] at whole
    have whole' : text.length ≤ wordLength text := by omega
    rw [List.cons_append, scan_slash_word follows, wordLength_append whole' ends,
      List.length_cons, Nat.add_comm]

/-- A text that is one word for the lexer. -/
def IsWord (text : String) : Prop :=
  lex text = [⟨.word, text, .start⟩]

theorem IsWord.scan {keyword : String} (word : IsWord keyword) :
    ∃ first text, keyword.toList = first :: text ∧ (scan first text).1 = .word ∧
      text.length ≤ (scan first text).2 := by
  unfold IsWord lex at word
  cases spelled : keyword.toList with
  | nil => simp [spelled, tokensFrom] at word
  | cons first text =>
      refine ⟨first, text, rfl, ?_⟩
      have added := textOf_tokensFrom
        (Cursor.start.advance (first :: text.take (Lexer.scan first text).2))
        (text.drop (Lexer.scan first text).2)
      rw [spelled, tokensFrom_cons] at word
      generalize tokensFrom _ (text.drop _) = tokens at word added
      cases tokens with
      | nil =>
          have alone := (List.cons.inj word).1
          have nothing : text.drop (Lexer.scan first text).2 = [] := by
            simpa using added.symm
          exact ⟨congrArg Token.kind alone, List.drop_eq_nil_iff.mp nothing⟩
      | cons next tokens =>
          rw [prepend_cons] at word
          split at word
          next garbage =>
            have kind := congrArg Token.kind (List.cons.inj word).1
            rw [garbage.1] at kind
            simp at kind
          · simp at word

theorem shapes_word {keyword : String} (word : IsWord keyword) (ends : EndsWord rest) :
    shapes (keyword.toList ++ rest) = (.word, keyword) :: shapes rest := by
  obtain ⟨first, text, spelled, kind, whole⟩ := word.scan
  have scanned := scan_append kind whole ends
  rw [spelled, List.cons_append, shapes_cons scanned (by simp), List.take_left,
    List.drop_left, ← spelled, String.ofList_toList]
  rfl

end Lexer

/-! ## Strings in quotes -/

/-- A string in quotes of either kind, for the text that it means. -/
inductive Quotation where
  | single (text : List Char) (free : '\'' ∉ text)
  | double (text : List Char) (free : '\r' ∉ text)

namespace Quotation

open Lexer

variable {rest : List Char}

/-- How a character is written between double quotes. -/
def escapeCharacter (c : Char) : List Char :=
  if c = '\\' then ['\\', '\\']
  else if c = '"' then ['\\', '"']
  else if c = '\n' then ['\\', 'n']
  else if c = '\t' then ['\\', 't']
  else [c]

def escape (text : List Char) : List Char :=
  text.flatMap escapeCharacter

theorem escape_cons (c : Char) (text : List Char) :
    escape (c :: text) = escapeCharacter c ++ escape text :=
  rfl

def text : Quotation → List Char
  | single text _ => text
  | double text _ => text

def kind : Quotation → TokenKind
  | single _ _ => .singleQuoted
  | double _ _ => .doubleQuoted

/-- The string as it stands in a source. -/
def written : Quotation → List Char
  | single text _ => '\'' :: (text ++ ['\''])
  | double text _ => '"' :: (escape text ++ ['"'])

/-- A character between double quotes is written in one of these ways. -/
theorem escapeCharacter_cases (c : Char) :
    (∃ mark, escapeCharacter c = ['\\', mark] ∧ mark ∉ ['\n', '\r'] ∧
      ∀ rest, Quoted.unescape ('\\' :: mark :: rest) = c :: Quoted.unescape rest) ∨
      escapeCharacter c = [c] ∧ c ≠ '\\' ∧ c ≠ '"' ∧ c ≠ '\n' := by
  by_cases backslash : c = '\\'
  · subst backslash
    exact .inl ⟨'\\', rfl, by decide, fun rest => by rw [Quoted.unescape]⟩
  by_cases quote : c = '"'
  · subst quote
    exact .inl ⟨'"', rfl, by decide, fun rest => by rw [Quoted.unescape]⟩
  by_cases lineFeed : c = '\n'
  · subst lineFeed
    exact .inl ⟨'n', rfl, by decide, fun rest => by rw [Quoted.unescape]⟩
  by_cases tab : c = '\t'
  · subst tab
    exact .inl ⟨'t', rfl, by decide, fun rest => by rw [Quoted.unescape]⟩
  refine .inr ⟨?_, backslash, quote, lineFeed⟩
  simp [escapeCharacter, backslash, quote, lineFeed, tab]

theorem singleQuoted_append {text : List Char} (free : '\'' ∉ text) (rest : List Char) :
    singleQuoted (text ++ '\'' :: rest) = .closed (text.length + 1) := by
  induction text with
  | nil => rw [List.nil_append, singleQuoted]; rfl
  | cons c text ih =>
      simp only [List.mem_cons, not_or] at free
      rw [List.cons_append, singleQuoted, ih free.2]
      · rfl
      · exact Ne.symm free.1

theorem doubleQuoted_append (text rest : List Char) :
    doubleQuoted (escape text ++ '"' :: rest) = .closed ((escape text).length + 1) := by
  induction text with
  | nil => rw [escape, List.flatMap_nil, List.nil_append, doubleQuoted]; rfl
  | cons c text ih =>
      rw [escape_cons, List.append_assoc]
      obtain ⟨mark, same, other, -⟩ | ⟨same, backslash, quote, -⟩ :=
        escapeCharacter_cases c
      · simp only [List.mem_cons, not_or] at other
        rw [same, List.cons_append, List.singleton_append, doubleQuoted,
          if_neg other.1, ih]
        simp [Enclosure.add]
      · rw [same, List.singleton_append, doubleQuoted, ih]
        · simp [Enclosure.add]
        · exact quote
        · simp [backslash]
        · simp [backslash]

theorem unescape_escape (text : List Char) : Quoted.unescape (escape text) = text := by
  induction text with
  | nil => rw [escape, List.flatMap_nil, Quoted.unescape]
  | cons c text ih =>
      rw [escape_cons]
      obtain ⟨mark, same, -, read⟩ | ⟨same, backslash, -, -⟩ := escapeCharacter_cases c
      · rw [same, List.cons_append, List.singleton_append, read, ih]
      · rw [same, List.singleton_append, Quoted.unescape, ih] <;> simp [backslash]

/-- What stands between the quotes is one line without a carriage return. -/
theorem not_mem_escape {text : List Char} (free : '\r' ∉ text) :
    '\n' ∉ escape text ∧ '\r' ∉ escape text := by
  induction text with
  | nil => simp [escape]
  | cons c text ih =>
      simp only [List.mem_cons, not_or] at free
      obtain ⟨lineFeed, carriageReturn⟩ := ih free.2
      rw [escape_cons]
      obtain ⟨mark, same, other, -⟩ | ⟨same, -, -, other⟩ := escapeCharacter_cases c
      · simp only [List.mem_cons, List.not_mem_nil, or_false, not_or] at other
        simp [same, lineFeed, carriageReturn, Ne.symm other.1, Ne.symm other.2]
      · simp [same, lineFeed, carriageReturn, Ne.symm other, free.1]

theorem decode_escape {text : List Char} (free : '\r' ∉ text) (indent : Nat) :
    Quoted.decode indent (escape text) = text := by
  obtain ⟨lineFeed, carriageReturn⟩ := not_mem_escape free
  have line : Text.splitOn '\n' (escape text) = [escape text] := by
    have cut := Text.splitOn_intercalate (List.cons_ne_nil (escape text) [])
      (List.forall_mem_singleton.mpr lineFeed)
    simpa using cut
  have kept : Quoted.stripReturn (escape text) = escape text := by
    unfold Quoted.stripReturn
    rw [if_neg]
    exact fun last => carriageReturn (List.mem_of_getLast? last)
  rw [Quoted.decode, line, Quoted.joinLines, kept, unescape_escape]

/-- What a string means does not depend on the place where it stands. -/
theorem partValue_eq (piece : Quotation) {token : Token}
    (shape : token.shape = (piece.kind, String.ofList piece.written)) :
    Argument.partValue token = piece.text := by
  obtain ⟨kind, spelled⟩ := Prod.mk.inj shape
  cases piece with
  | single text free =>
      have body : Argument.body token = text := by
        simp [Argument.body, spelled, written]
      rw [Argument.partValue, kind]
      exact body
  | double text free =>
      have body : Argument.body token = escape text := by
        simp [Argument.body, spelled, written]
      rw [Argument.partValue, kind]
      exact body ▸ decode_escape free _

theorem endsWord_written (piece : Quotation) (rest : List Char) :
    EndsWord (piece.written ++ rest) := by
  cases piece <;> simp [EndsWord, written, isWordCharacter]

theorem shapes_written (piece : Quotation) (rest : List Char) :
    shapes (piece.written ++ rest) =
      (piece.kind, String.ofList piece.written) :: shapes rest := by
  cases piece with
  | single text free =>
      have scanned : scan '\'' (text ++ ['\''] ++ rest) =
          (.singleQuoted, (text ++ ['\'']).length) := by
        rw [List.append_assoc]
        show enclosedToken _ _ (singleQuoted (text ++ '\'' :: rest)) = _
        rw [singleQuoted_append free]
        simp [enclosedToken]
      rw [written, List.cons_append, shapes_cons scanned (by simp), List.take_left,
        List.drop_left]
      rfl
  | double text free =>
      have scanned : scan '"' (escape text ++ ['"'] ++ rest) =
          (.doubleQuoted, (escape text ++ ['"']).length) := by
        rw [List.append_assoc]
        show enclosedToken _ _ (doubleQuoted (escape text ++ '"' :: rest)) = _
        rw [doubleQuoted_append]
        simp [enclosedToken]
      rw [written, List.cons_append, shapes_cons scanned (by simp), List.take_left,
        List.drop_left]
      rfl

theorem shapes_plus (ends : EndsWord rest) :
    shapes ('+' :: rest) = (.plus, "+") :: shapes rest := by
  have scanned : scan '+' rest = (.plus, 0) := by
    rw [scan_wordCharacter (by decide), ends.wordLength_eq]
    rfl
  rw [shapes_cons scanned (by simp)]
  rfl

/-! ## Statements with quoted arguments -/

/-- What the token of a string is apart from its place. -/
def shape (piece : Quotation) : TokenKind × String :=
  (piece.kind, String.ofList piece.written)

/-- Strings with plus signs between them, and gaps around the signs. -/
inductive AreJoined : List Quotation → List Char → Prop
  | last (piece : Quotation) : AreJoined [piece] piece.written
  | more {pieces : List Quotation} {before after text : List Char}
      (piece : Quotation) (gap : IsGap before) (gap' : IsGap after)
      (rest : AreJoined pieces text) :
      AreJoined (piece :: pieces)
        (piece.written ++ before ++ '+' :: (after ++ text))

/-- A statement without substatements whose argument is written as strings, with gaps
between its tokens and around it. -/
def IsStatement (keyword : String) (pieces : List Quotation) (source : List Char) :
    Prop :=
  ∃ front gap joined behind last, IsGap front ∧ IsGap gap ∧
    AreJoined pieces joined ∧ IsGap behind ∧ IsGap last ∧
    source = front ++ (keyword.toList ++
      (gap ++ (joined ++ (behind ++ ';' :: last))))

variable {pieces : List Quotation} {text : List Char}

theorem AreJoined.endsWord (joined : AreJoined pieces text) (rest : List Char) :
    EndsWord (text ++ rest) := by
  cases joined with
  | last piece => exact endsWord_written piece rest
  | more piece =>
      rw [List.append_assoc, List.append_assoc]
      exact endsWord_written piece _

theorem AreJoined.shapes (joined : AreJoined pieces text) (rest : List Char) :
    Lexer.shapes (text ++ rest) =
      (pieces.map shape).intersperse (.plus, "+") ++ Lexer.shapes rest := by
  induction joined with
  | last piece => exact shapes_written piece rest
  | @more pieces before after text piece gap gap' joined ih =>
      have whole : piece.written ++ before ++ '+' :: (after ++ text) ++ rest =
          piece.written ++ (before ++ '+' :: (after ++ (text ++ rest))) := by simp
      rw [whole, shapes_written, shapes_gap gap,
        shapes_plus ((joined.endsWord rest).gap gap'), shapes_gap gap', ih]
      cases joined <;> rfl

/-- The significant tokens of such a statement. -/
def statementShapes (keyword : String) (pieces : List Quotation) :
    List (TokenKind × String) :=
  (.word, keyword) :: ((pieces.map shape).intersperse (.plus, "+") ++
    [(.semicolon, ";")])

theorem IsStatement.shapes {keyword : String} (word : IsWord keyword)
    (written : IsStatement keyword pieces text) :
    Lexer.shapes text = statementShapes keyword pieces := by
  obtain ⟨front, gap, joined, behind, last, isFront, isGap, areJoined, isBehind,
    isLast, rfl⟩ := written
  have ends := (areJoined.endsWord (behind ++ ';' :: last)).gap isGap
  have terminator : Lexer.shapes (';' :: last) = [(.semicolon, ";")] := by
    have nothing := shapes_gap isLast []
    have scanned : scan ';' last = (.semicolon, 0) := rfl
    rw [List.append_nil, shapes_nil] at nothing
    rw [shapes_cons scanned (by simp), List.drop_zero, nothing]
    rfl
  rw [shapes_gap isFront, shapes_word word ends, shapes_gap isGap, areJoined.shapes,
    shapes_gap isBehind, terminator]
  rfl

theorem isQuoted_of_shape {piece : Quotation} {string : Token}
    (same : string.shape = piece.shape) : string.kind.isQuoted = true := by
  obtain ⟨kind, -⟩ := Prod.mk.inj same
  rw [kind]
  cases piece <;> rfl

/-- Tokens that look like strings with plus signs between them are such an argument. -/
theorem exists_strings {tokens : List Token} (some : pieces ≠ [])
    (shapes : tokens.map Token.shape =
      (pieces.map shape).intersperse (.plus, "+")) :
    ∃ first more, (ArgumentPhrase.strings first more).tokens = tokens ∧
      (ArgumentPhrase.strings first more).parts.map Token.shape =
        pieces.map shape := by
  induction pieces generalizing tokens with
  | nil => exact absurd rfl some
  | cons piece pieces ih =>
      cases pieces with
      | nil =>
          obtain ⟨string, rfl, same⟩ := List.map_eq_singleton_iff.mp shapes
          exact ⟨⟨string, isQuoted_of_shape same⟩, [], rfl, shapes⟩
      | cons piece' pieces =>
          obtain ⟨string, tokens, rfl, same, shapes⟩ := List.map_eq_cons_iff.mp shapes
          obtain ⟨plus, tokens, rfl, same', shapes⟩ := List.map_eq_cons_iff.mp shapes
          obtain ⟨first, more, rfl, parts⟩ := ih (by simp) shapes
          have kind : plus.kind = .plus := congrArg Prod.fst same'
          refine ⟨⟨string, isQuoted_of_shape same⟩, (⟨plus, kind⟩, first) :: more,
            rfl, ?_⟩
          rw [List.map_cons, ← parts, ← same]
          rfl

/-- The value of an argument is the texts of its strings. -/
theorem value_eq {argument : Argument}
    (shapes : argument.parts.map Token.shape = pieces.map shape) :
    argument.value = String.ofList (pieces.flatMap Quotation.text) := by
  rw [Argument.value]
  congr 1
  generalize argument.parts = parts at shapes
  induction pieces generalizing parts with
  | nil =>
      obtain rfl := List.map_eq_nil_iff.mp shapes
      rfl
  | cons piece pieces ih =>
      obtain ⟨part, parts, rfl, same, shapes⟩ := List.map_eq_cons_iff.mp shapes
      rw [List.flatMap_cons, List.flatMap_cons, partValue_eq piece same, ih parts shapes]

theorem AreJoined.ne_nil {joined : List Char} (areJoined : AreJoined pieces joined) :
    pieces ≠ [] := by
  cases areJoined <;> simp

/-- Tokens that look like such a statement are one. -/
theorem exists_phrase {keyword : String} {tokens : List Token} (some : pieces ≠ [])
    (shapes : tokens.map Token.shape = statementShapes keyword pieces) :
    ∃ (word : Terminal .word) (argument : ArgumentPhrase)
      (semicolon : Terminal .semicolon),
      StatementPhrase.tokensOfAll [.plain word (.some argument) semicolon] = tokens ∧
        word.1.text = keyword ∧
        argument.parts.map Token.shape = pieces.map shape := by
  obtain ⟨word, tokens, rfl, isWord, shapes⟩ := List.map_eq_cons_iff.mp shapes
  obtain ⟨argument, tokens, rfl, strings, shapes⟩ := List.map_eq_append_iff.mp shapes
  obtain ⟨semicolon, rfl, isSemicolon⟩ := List.map_eq_singleton_iff.mp shapes
  obtain ⟨first, more, rfl, parts⟩ := exists_strings some strings
  obtain ⟨kind, text⟩ := Prod.mk.inj isWord
  refine ⟨⟨word, kind⟩, .strings first more,
    ⟨semicolon, congrArg Prod.fst isSemicolon⟩, ?_, text, parts⟩
  simp [StatementPhrase.tokensOfAll, StatementPhrase.tokens, headTokens, argumentTokens]

end Quotation

open Quotation in
/-- An argument written as strings in quotes is read as the texts of the strings one after
the other. -/
theorem quoted_argument_read_back {keyword source : String}
    {pieces : List Quotation} (word : Lexer.IsWord keyword)
    (written : IsStatement keyword pieces source.toList) (id : SourceId) :
    (Parser.significant (lex source)).map Token.shape =
        statementShapes keyword pieces ∧
      ∃ parsed statement, parse .none id source = .ok parsed ∧
        parsed.diagnostics = [] ∧ Statement.ofTree parsed.tree = [statement] ∧
        statement.keywordText = keyword ∧
        statement.argumentValue = some (String.ofList (pieces.flatMap text)) ∧
        statement.block = none ∧ statement.substatements = [] := by
  have shapes : (Parser.significant (lex source)).map Token.shape =
      statementShapes keyword pieces := written.shapes word
  refine ⟨shapes, ?_⟩
  obtain ⟨_, _, _, _, _, _, _, joined, _⟩ := written
  obtain ⟨wordToken, argument, semicolon, whole, named, parts⟩ :=
    exists_phrase joined.ne_nil shapes
  obtain ⟨parser, runs, parsed⟩ := exists_parse_none id source
  rw [← whole] at runs
  have read : StatementPhrase.AreReadAs [.plain wordToken (some argument) semicolon]
    (Statement.ofTree (parser.finish source.utf8ByteSize).root) := runs.finish_read
  cases found : Statement.ofTree (parser.finish source.utf8ByteSize).root with
  | nil => simp [found, StatementPhrase.AreReadAs] at read
  | cons statement others =>
      rw [found] at read
      obtain ⟨⟨⟨isKeyword, isArgument⟩, plain, empty⟩, alone⟩ := read
      obtain rfl : others = [] := by
        cases others with
        | nil => rfl
        | cons => exact alone.elim
      refine ⟨_, statement, parsed, runs.finish_silent, found, ?_, ?_, plain, empty⟩
      · rw [Statement.keywordText, isKeyword, named]
      · obtain ⟨argument', same, parts'⟩ := Option.map_eq_some_iff.mp isArgument
        rw [Statement.argumentValue, same, Option.map_some,
          value_eq ((congrArg _ parts').trans parts)]

open Quotation in
theorem quoted_argument_read_back_joined :
    let pieces : List Quotation :=
      [.double ['a', '"', '\n'] (by decide), .single [' ', '\n', '\\'] (by decide)]
    let source := "  pattern \"a\\\"\\n\"\t+\n ' \n\\' ;"
    Lexer.IsWord "pattern" ∧ IsStatement "pattern" pieces source.toList ∧
      (Parser.significant (lex source)).map Token.shape =
        statementShapes "pattern" pieces ∧
      ∃ parsed statement, parse .none 0 source = .ok parsed ∧
        parsed.diagnostics = [] ∧ Statement.ofTree parsed.tree = [statement] ∧
        statement.keywordText = "pattern" ∧
        statement.argumentValue = some "a\"\n \n\\" ∧
        statement.block = none ∧ statement.substatements = [] := by
  intro pieces source
  have word : Lexer.IsWord "pattern" := by
    unfold Lexer.IsWord
    decide +kernel
  have blank : Lexer.IsGap [' '] := .blank rfl .nil
  have joined : AreJoined pieces "\"a\\\"\\n\"\t+\n ' \n\\'".toList :=
    .more _ (.blank (c := '\t') rfl .nil) (.lineFeed blank) (.last _)
  have written : IsStatement "pattern" pieces source.toList :=
    ⟨[' ', ' '], [' '], _, [' '], [], .blank rfl blank, blank, joined, blank, .nil,
      by decide⟩
  exact ⟨word, written, quoted_argument_read_back word written 0⟩

end YangSchema
