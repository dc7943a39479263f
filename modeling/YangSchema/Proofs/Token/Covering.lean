import Mathlib.Data.List.Basic
import YangSchema.Token.Lexer

/-!
# Tokens and their places

A source is cut at the places where `scan` is called.  Garbage found at
neighboring places is joined afterwards, so a place inside garbage need not be
the start of a token.  Every other token stands exactly at the place where it
was scanned.

Cutting a source into tokens loses nothing:  the texts of the tokens, one after
the other, are the source.  No token is empty and each of them starts where the
one before it stops, garbage that has been joined included.  So the tokens stand
in reading order.
-/

namespace YangSchema

namespace Lexer

/-- The token that is scanned at a place. -/
def tokenAt (cursor : Cursor) (first : Char) (rest : List Char) : Token :=
  ⟨(scan first rest).1, String.ofList (first :: rest.take (scan first rest).2),
    cursor⟩

/-- Lexing that starts at one place of a text comes to another. -/
inductive Reaches : Cursor → List Char → Cursor → List Char → Prop where
  | here (cursor : Cursor) (text : List Char) :
      Reaches cursor text cursor text
  | beyond {cursor later : Cursor} {first : Char} {rest text : List Char}
      (onward : Reaches
        (cursor.advance (first :: rest.take (scan first rest).2))
        (rest.drop (scan first rest).2) later text) :
      Reaches cursor (first :: rest) later text

/-- Joining garbage changes no other token. -/
theorem mem_prepend {token : Token} (proper : token.kind ≠ .garbage)
    (front : Token) (tokens : List Token) :
    token ∈ prepend front tokens ↔ token = front ∨ token ∈ tokens := by
  cases tokens with
  | nil => simp [prepend]
  | cons next rest =>
      by_cases joined : front.kind = .garbage ∧ next.kind = .garbage
      · have notFront : token ≠ front := by
          rintro rfl
          exact proper joined.1
        have notNext : token ≠ next := by
          rintro rfl
          exact proper joined.2
        have notJoined :
            token ≠ { front with text := front.text ++ next.text } := by
          rintro rfl
          exact proper joined.1
        simp only [prepend, if_pos joined, List.mem_cons, notFront, notNext,
          notJoined, false_or]
      · simp [prepend, joined]

/-- The tokens apart from garbage are those scanned at the places that lexing
reaches. -/
theorem mem_tokensFrom {token : Token} (proper : token.kind ≠ .garbage)
    (cursor : Cursor) (text : List Char) :
    token ∈ tokensFrom cursor text ↔
      ∃ start first rest, Reaches cursor text start (first :: rest) ∧
        token = tokenAt start first rest := by
  induction cursor, text using tokensFrom.induct with
  | case1 cursor =>
      constructor
      · intro member
        simp [tokensFrom] at member
      · rintro ⟨start, first, rest, reached, _⟩
        cases reached
  | case2 cursor first rest kind length scanned characters ih =>
      have cut : tokensFrom cursor (first :: rest) =
          prepend (tokenAt cursor first rest)
            (tokensFrom (cursor.advance characters) (rest.drop length)) := by
        simp [tokensFrom, tokenAt, scanned, characters]
      rw [cut, mem_prepend proper, ih]
      constructor
      · rintro (front | ⟨start, laterFirst, laterRest, reached, scannedThere⟩)
        · exact ⟨cursor, first, rest, .here cursor _, front⟩
        · refine ⟨start, laterFirst, laterRest, .beyond ?_, scannedThere⟩
          simpa [scanned, characters] using reached
      · rintro ⟨start, laterFirst, laterRest, reached, scannedThere⟩
        cases reached with
        | here => exact .inl scannedThere
        | beyond onward =>
            refine .inr ⟨start, laterFirst, laterRest, ?_, scannedThere⟩
            simpa [scanned, characters] using onward

end Lexer

namespace Position

variable {first second third : Position}

theorem before_iff :
    first.before second = true ↔
      first.line < second.line ∨
        first.line = second.line ∧ first.column < second.column := by
  simp [before]

theorem before_trans (earlier : first.before second = true)
    (later : second.before third = true) : first.before third = true := by
  rw [before_iff] at *
  omega

theorem before_advance (position : Position) (c : Char) :
    position.before (position.advance c) = true := by
  unfold advance
  split <;> simp [before]

/-- Reading any text leads on. -/
theorem before_advanceAll (position : Position) {text : List Char}
    (some : text ≠ []) :
    position.before (position.advanceAll text) = true := by
  induction text generalizing position with
  | nil => exact absurd rfl some
  | cons c rest ih =>
      have first := position.before_advance c
      cases rest with
      | nil => exact first
      | cons next rest => exact before_trans first (ih _ (by simp))

end Position

theorem byteLength_append (first second : List Char) :
    byteLength (first ++ second) = byteLength first + byteLength second := by
  have shifted (count : Nat) (text : List Char) :
      text.foldl (fun total c => total + c.utf8Size) count =
        count + byteLength text := by
    unfold byteLength
    induction text generalizing count with
    | nil => rfl
    | cons c rest ih =>
        rw [List.foldl_cons, List.foldl_cons, ih, ih (0 + c.utf8Size)]
        omega
  exact (List.foldl_append ..).trans (shifted _ second)

theorem byteLength_toList (text : String) :
    byteLength text.toList = text.utf8ByteSize := by
  suffices encoded : ∀ chars : List Char,
      byteLength chars = (String.ofList chars).utf8ByteSize by
    simpa using encoded text.toList
  intro chars
  induction chars with
  | nil => rfl
  | cons c rest ih =>
      have single : byteLength [c] = (String.ofList [c]).utf8ByteSize := by
        rw [← String.singleton_eq_ofList, String.utf8ByteSize_singleton]
        exact Nat.zero_add _
      rw [← List.singleton_append, byteLength_append, single, ih,
        String.ofList_append, String.utf8ByteSize_append]

theorem Cursor.advance_append (cursor : Cursor) (first second : List Char) :
    cursor.advance (first ++ second) =
      (cursor.advance first).advance second := by
  simp [advance, byteLength_append, Nat.add_assoc, Position.advanceAll]

theorem Lexer.prepend_cons (token next : Token) (rest : List Token) :
    prepend token (next :: rest) =
      if token.kind = .garbage ∧ next.kind = .garbage then
        { token with text := token.text ++ next.text } :: rest
      else
        token :: next :: rest :=
  rfl

namespace Token

/-- Tokens that stand one behind the other from some place on. -/
def AreConsecutive (cursor : Cursor) : List Token → Prop
  | [] => True
  | token :: rest =>
      token.start = cursor ∧ token.text.toList ≠ [] ∧
        AreConsecutive (cursor.advance token.text.toList) rest

variable {token : Token} {tokens : List Token} {cursor : Cursor}

@[simp]
theorem textOf_nil : textOf [] = "" :=
  rfl

@[simp]
theorem textOf_cons (token : Token) (tokens : List Token) :
    textOf (token :: tokens) = token.text ++ textOf tokens := by
  simp [textOf]

/-- Joining garbage keeps its text. -/
theorem textOf_prepend (token : Token) (tokens : List Token) :
    textOf (Lexer.prepend token tokens) = token.text ++ textOf tokens := by
  cases tokens with
  | nil => simp [Lexer.prepend]
  | cons next rest =>
      rw [Lexer.prepend_cons]
      split <;> simp [String.append_assoc]

theorem areConsecutive_prepend (some : token.text.toList ≠ [])
    (rest : AreConsecutive (token.start.advance token.text.toList) tokens) :
    AreConsecutive token.start (Lexer.prepend token tokens) := by
  cases tokens with
  | nil => exact ⟨rfl, some, trivial⟩
  | cons next tokens =>
      obtain ⟨start, other, later⟩ := rest
      rw [Lexer.prepend_cons]
      split
      · refine ⟨rfl, by simp [some], ?_⟩
        rw [String.toList_append, Cursor.advance_append]
        exact later
      · exact ⟨rfl, some, start, other, later⟩

/-- All tokens are behind what is before the first of them. -/
theorem AreConsecutive.before {position : Position}
    (consecutive : AreConsecutive cursor tokens)
    (earlier : position.before cursor.position = true)
    (listed : token ∈ tokens) :
    position.before token.start.position = true := by
  induction tokens generalizing cursor with
  | nil => simp at listed
  | cons next rest ih =>
      obtain ⟨start, some, later⟩ := consecutive
      obtain rfl | listed := List.mem_cons.mp listed
      · exact start ▸ earlier
      · have onward := cursor.position.before_advanceAll some
        exact ih later (Position.before_trans earlier onward) listed

/-- Consecutive tokens stop no later than their text does. -/
theorem AreConsecutive.stop_le (consecutive : AreConsecutive cursor tokens)
    (listed : token ∈ tokens) :
    token.stop ≤ cursor.offset + (textOf tokens).utf8ByteSize := by
  induction tokens generalizing cursor with
  | nil => simp at listed
  | cons next rest ih =>
      obtain ⟨start, some, later⟩ := consecutive
      have onward : (cursor.advance next.text.toList).offset =
          cursor.offset + next.text.utf8ByteSize := by
        simp [Cursor.advance, byteLength_toList]
      rw [textOf_cons, String.utf8ByteSize_append]
      obtain rfl | listed := List.mem_cons.mp listed
      · rw [stop, start]
        omega
      · have := ih later listed
        omega

theorem AreConsecutive.pairwise_before
    (consecutive : AreConsecutive cursor tokens) :
    tokens.Pairwise fun first second =>
      first.start.position.before second.start.position = true := by
  induction tokens generalizing cursor with
  | nil => exact .nil
  | cons token rest ih =>
      obtain ⟨rfl, some, later⟩ := consecutive
      refine .cons (fun other listed => ?_) (ih later)
      exact later.before (token.start.position.before_advanceAll some) listed

end Token

namespace Lexer

theorem tokensFrom_cons (cursor : Cursor) (first : Char) (rest : List Char) :
    tokensFrom cursor (first :: rest) =
      prepend (tokenAt cursor first rest)
        (tokensFrom
          (cursor.advance (first :: rest.take (scan first rest).2))
          (rest.drop (scan first rest).2)) := by
  simp [tokensFrom, tokenAt]

theorem textOf_tokensFrom (cursor : Cursor) (text : List Char) :
    Token.textOf (tokensFrom cursor text) = String.ofList text := by
  induction cursor, text using tokensFrom.induct with
  | case1 cursor => simp [tokensFrom]
  | case2 cursor first rest kind length scanned characters ih =>
      have cut : (scan first rest).2 = length := by rw [scanned]
      rw [tokensFrom_cons, Token.textOf_prepend, cut, ih, tokenAt, cut,
        ← String.ofList_append, List.cons_append, List.take_append_drop]

theorem areConsecutive_tokensFrom (cursor : Cursor) (text : List Char) :
    Token.AreConsecutive cursor (tokensFrom cursor text) := by
  induction cursor, text using tokensFrom.induct with
  | case1 cursor => simp [tokensFrom, Token.AreConsecutive]
  | case2 cursor first rest kind length scanned characters ih =>
      have cut : (scan first rest).2 = length := by rw [scanned]
      rw [tokensFrom_cons]
      have some : (tokenAt cursor first rest).text.toList ≠ [] := by
        simp [tokenAt]
      refine Token.areConsecutive_prepend some ?_
      simpa [tokenAt, cut] using ih

end Lexer

/-- The texts of the tokens of a source add up to the source. -/
theorem textOf_lex (source : String) : Token.textOf (lex source) = source := by
  rw [lex, Lexer.textOf_tokensFrom, String.ofList_toList]

theorem areConsecutive_lex (source : String) :
    Token.AreConsecutive .start (lex source) :=
  Lexer.areConsecutive_tokensFrom .start source.toList

/-- No token reaches beyond its source. -/
theorem Token.stop_le_of_mem_lex {source : String} {token : Token}
    (listed : token ∈ lex source) : token.stop ≤ source.utf8ByteSize := by
  have within := (areConsecutive_lex source).stop_le listed
  simpa [textOf_lex, Cursor.start] using within

end YangSchema
