import Mathlib.Algebra.Group.Nat.Even
import Mathlib.Data.List.DropRight
import YangSchema.Proofs.Token.Covering

/-!
# Where block comments end

Inside a block comment stars are read in pairs.  A star in front of a slash
therefore closes the comment exactly when the stars directly in front of it
are even in number; otherwise it is the second star of a pair and the comment
runs on.  The scanner is compared here with this rule, which is stated about
the text alone.
-/

namespace YangSchema

namespace Lexer

/-- The number of stars at the end of a text. -/
def trailingStars (text : List Char) : Nat :=
  (text.rtakeWhile (· = '*')).length

/-- A comment body holds `before` in front of some `*/`. -/
def ClosesAfter (body before : List Char) : Prop :=
  before ++ ['*', '/'] <+: body

/-- A comment body holds `before` in front of its first `*/`. -/
def FirstClosesAfter (body before : List Char) : Prop :=
  ClosesAfter body before ∧
    ∀ shorter, ClosesAfter body shorter → before.length ≤ shorter.length

/-- A comment body holds `before` in front of the first `*/` whose star is not
paired with the star before it. -/
def UnpairedClosesAfter (body before : List Char) : Prop :=
  ClosesAfter body before ∧ Even (trailingStars before) ∧
    ∀ shorter, ClosesAfter body shorter → Even (trailingStars shorter) →
      before.length ≤ shorter.length

@[simp]
theorem trailingStars_nil : trailingStars [] = 0 :=
  rfl

theorem trailingStars_cons (c : Char) (text : List Char) :
    trailingStars (c :: text) =
      if trailingStars text = text.length ∧ c = '*' then text.length + 1
      else trailingStars text := by
  simp only [trailingStars, List.rtakeWhile, List.reverse_cons,
    List.takeWhile_append, List.length_reverse]
  by_cases allStars :
      (text.reverse.takeWhile (fun other => decide (other = '*'))).length =
        text.length
  · by_cases star : c = '*' <;> simp [allStars, star]
  · simp [allStars]

@[simp]
theorem trailingStars_cons_of_ne {c : Char} (notStar : c ≠ '*')
    (text : List Char) : trailingStars (c :: text) = trailingStars text := by
  simp [trailingStars_cons, notStar]

theorem trailingStars_le_length (text : List Char) :
    trailingStars text ≤ text.length := by
  simpa [trailingStars, List.rtakeWhile] using
    (List.takeWhile_prefix (fun other => decide (other = '*'))
      (l := text.reverse)).length_le

/-- A pair that starts with a star does not matter for what follows it. -/
@[simp]
theorem even_trailingStars_pair (c : Char) (text : List Char) :
    Even (trailingStars ('*' :: c :: text)) ↔ Even (trailingStars text) := by
  rw [trailingStars_cons, trailingStars_cons, List.length_cons]
  by_cases allStars : trailingStars text = text.length
  · by_cases star : c = '*' <;> simp [allStars, star, Nat.even_add_one]
  · have short := trailingStars_le_length text
    have tooLong : trailingStars text ≠ text.length + 1 := by omega
    simp [allStars, tooLong]

@[simp]
theorem not_closesAfter_nil (before : List Char) :
    ¬ ClosesAfter [] before := by
  simp [ClosesAfter]

@[simp]
theorem not_closesAfter_star (before : List Char) :
    ¬ ClosesAfter ['*'] before := by
  rintro ⟨after, closes⟩
  have lengths := congrArg List.length closes
  simp only [List.length_append, List.length_cons, List.length_nil] at lengths
  omega

theorem closesAfter_cons_nil (c : Char) (body : List Char) :
    ClosesAfter (c :: body) [] ↔ c = '*' ∧ body.head? = some '/' := by
  cases body <;> simp [ClosesAfter, eq_comm]

@[simp]
theorem closesAfter_cons_cons (c d : Char) (body before : List Char) :
    ClosesAfter (c :: body) (d :: before) ↔ c = d ∧ ClosesAfter body before := by
  simp [ClosesAfter, eq_comm]

theorem unpairedClosesAfter_star_slash (rest before : List Char) :
    UnpairedClosesAfter ('*' :: '/' :: rest) before ↔ before = [] := by
  constructor
  · rintro ⟨_, _, least⟩
    have short := least [] (by simp [closesAfter_cons_nil]) (by simp)
    exact List.eq_nil_of_length_eq_zero (by simpa using short)
  · rintro rfl
    exact ⟨by simp [closesAfter_cons_nil], by simp, by simp⟩

/-- A star with anything but a slash behind it is a pair. -/
theorem unpairedClosesAfter_pair {c : Char} (notSlash : c ≠ '/')
    (rest before : List Char) :
    UnpairedClosesAfter ('*' :: c :: rest) before ↔
      ∃ inner, before = '*' :: c :: inner ∧ UnpairedClosesAfter rest inner := by
  constructor
  · rintro ⟨closes, even, least⟩
    match before with
    | [] => simp [closesAfter_cons_nil, notSlash] at closes
    | [d] =>
        have star : '*' = d := ((closesAfter_cons_cons ..).1 closes).1
        subst star
        simp [trailingStars_cons] at even
    | d :: e :: inner =>
        simp only [closesAfter_cons_cons] at closes
        obtain ⟨rfl, rfl, innerCloses⟩ := closes
        refine ⟨inner, rfl, innerCloses, by simpa using even, ?_⟩
        intro shorter shorterCloses shorterEven
        have bound := least ('*' :: c :: shorter) (by simpa using shorterCloses)
          (by simpa using shorterEven)
        simpa using bound
  · rintro ⟨inner, rfl, closes, even, least⟩
    refine ⟨by simpa using closes, by simpa using even, ?_⟩
    intro shorter shorterCloses shorterEven
    match shorter with
    | [] => simp [closesAfter_cons_nil, notSlash] at shorterCloses
    | [d] =>
        have star : '*' = d := ((closesAfter_cons_cons ..).1 shorterCloses).1
        subst star
        simp [trailingStars_cons] at shorterEven
    | d :: e :: innerShorter =>
        simp only [closesAfter_cons_cons] at shorterCloses
        obtain ⟨rfl, rfl, innerCloses⟩ := shorterCloses
        have bound := least innerShorter innerCloses (by simpa using shorterEven)
        simpa using bound

theorem unpairedClosesAfter_cons {c : Char} (notStar : c ≠ '*')
    (rest before : List Char) :
    UnpairedClosesAfter (c :: rest) before ↔
      ∃ inner, before = c :: inner ∧ UnpairedClosesAfter rest inner := by
  constructor
  · rintro ⟨closes, even, least⟩
    match before with
    | [] => simp [closesAfter_cons_nil, notStar] at closes
    | d :: inner =>
        simp only [closesAfter_cons_cons] at closes
        obtain ⟨rfl, innerCloses⟩ := closes
        refine ⟨inner, rfl, innerCloses, by simpa [notStar] using even, ?_⟩
        intro shorter shorterCloses shorterEven
        have bound := least (c :: shorter) (by simpa using shorterCloses)
          (by simpa [notStar] using shorterEven)
        simpa using bound
  · rintro ⟨inner, rfl, closes, even, least⟩
    refine ⟨by simpa using closes, by simpa [notStar] using even, ?_⟩
    intro shorter shorterCloses shorterEven
    match shorter with
    | [] => simp [closesAfter_cons_nil, notStar] at shorterCloses
    | d :: innerShorter =>
        simp only [closesAfter_cons_cons] at shorterCloses
        obtain ⟨rfl, innerCloses⟩ := shorterCloses
        have bound := least innerShorter innerCloses
          (by simpa [notStar] using shorterEven)
        simpa using bound

theorem add_eq_closed_iff (count length : Nat) (enclosure : Enclosure) :
    enclosure.add count = .closed length ↔
      ∃ inner, enclosure = .closed inner ∧ length = inner + count := by
  cases enclosure <;> simp [Enclosure.add, eq_comm]

/-- The scanner closes a comment at the first `*/` whose star is unpaired. -/
theorem blockComment_eq_closed_iff (body : List Char) (length : Nat) :
    blockComment body = .closed length ↔
      ∃ before, UnpairedClosesAfter body before ∧
        length = before.length + 2 := by
  fun_induction blockComment body generalizing length with
  | case1 => simp [UnpairedClosesAfter]
  | case2 => simp [UnpairedClosesAfter]
  | case3 rest =>
      simp [unpairedClosesAfter_star_slash, eq_comm]
  | case4 c rest notSlash ih =>
      simp only [add_eq_closed_iff, ih, unpairedClosesAfter_pair notSlash]
      constructor
      · rintro ⟨_, ⟨before, closes, rfl⟩, rfl⟩
        exact ⟨_, ⟨before, rfl, closes⟩, rfl⟩
      · rintro ⟨_, ⟨before, rfl, closes⟩, rfl⟩
        exact ⟨_, ⟨before, closes, rfl⟩, rfl⟩
  | case5 c rest notPair notLast ih =>
      have notStar : c ≠ '*' := by
        rintro rfl
        cases rest with
        | nil => exact notPair rfl rfl
        | cons d rest => exact notLast d rest rfl rfl
      simp only [add_eq_closed_iff, ih, unpairedClosesAfter_cons notStar]
      constructor
      · rintro ⟨_, ⟨before, closes, rfl⟩, rfl⟩
        exact ⟨_, ⟨before, rfl, closes⟩, rfl⟩
      · rintro ⟨_, ⟨before, rfl, closes⟩, rfl⟩
        exact ⟨_, ⟨before, closes, rfl⟩, rfl⟩

/-- Where the first `*/` has an unpaired star, it closes the comment, and only
there. -/
theorem FirstClosesAfter.unpaired_iff {body before : List Char}
    (first : FirstClosesAfter body before) :
    UnpairedClosesAfter body before ↔ Even (trailingStars before) := by
  constructor
  · intro unpaired
    exact unpaired.2.1
  · intro even
    exact ⟨first.1, even, fun shorter closes _ => first.2 shorter closes⟩

theorem enclosedToken_eq_iff {kind other : TokenKind} {opening : Nat}
    {enclosure : Enclosure} (proper : other ≠ .garbage) :
    (enclosedToken kind opening enclosure).1 = other ↔
      kind = other ∧ ∃ length, enclosure = .closed length := by
  cases enclosure <;> simp [enclosedToken, proper.symm]

/-- Only a slash starts a comment. -/
theorem eq_slash_of_scan {first : Char} {rest : List Char}
    (scanned : (scan first rest).1 = .blockComment) : first = '/' := by
  unfold scan at scanned
  split at scanned
  case h_4 => simp [enclosedToken_eq_iff] at scanned
  case h_5 => simp [enclosedToken_eq_iff] at scanned
  case h_7 => split at scanned <;> simp at scanned
  case h_9 =>
    dsimp only at scanned
    split_ifs at scanned
  all_goals first | rfl | simp at scanned

theorem scan_slash (rest : List Char) :
    scan '/' rest =
      match rest with
      | '/' :: comment =>
          (.lineComment, 1 + (comment.takeWhile (· ≠ '\n')).length)
      | '*' :: comment => enclosedToken .blockComment 1 (blockComment comment)
      | c :: word =>
          if followsSlash c then (.word, 1 + wordLength word) else (.garbage, 0)
      | [] => (.garbage, 0) :=
  rfl

/-- Only a closed comment is scanned as a comment. -/
theorem exists_of_scan_eq_blockComment {first : Char} {rest : List Char}
    (scanned : (scan first rest).1 = .blockComment) :
    first = '/' ∧ ∃ comment length, rest = '*' :: comment ∧
      blockComment comment = .closed length := by
  obtain rfl := eq_slash_of_scan scanned
  refine ⟨rfl, ?_⟩
  rw [scan_slash] at scanned
  split at scanned
  case h_2 comment =>
    obtain ⟨_, length, closed⟩ := (enclosedToken_eq_iff (by simp)).1 scanned
    exact ⟨comment, length, rfl, closed⟩
  case h_3 => split at scanned <;> simp at scanned
  all_goals simp at scanned

/-- A comment that closes is one token, up to and with its last slash. -/
theorem tokenAt_blockComment {body before : List Char}
    (closes : UnpairedClosesAfter body before) (start : Cursor) :
    tokenAt start '/' ('*' :: body) =
      ⟨.blockComment, String.ofList ('/' :: '*' :: (before ++ ['*', '/'])),
        start⟩ := by
  have closed : blockComment body = .closed (before.length + 2) :=
    (blockComment_eq_closed_iff ..).2 ⟨before, closes, rfl⟩
  obtain ⟨after, rfl⟩ := closes.1
  have taken : ('*' :: (before ++ ['*', '/'] ++ after)).take
      (1 + (before.length + 2)) = '*' :: (before ++ ['*', '/']) := by
    rw [Nat.add_comm 1, List.take_succ_cons, List.take_left' (by simp)]
  simp only [tokenAt, scan_slash, closed, enclosedToken, taken]

/-- The block comments of a source stand at the places that lexing reaches, and
end at the first `*/` whose star is unpaired. -/
theorem mem_lex_blockComment (source : String) (token : Token) :
    token ∈ lex source ∧ token.kind = .blockComment ↔
      ∃ start body before,
        Reaches .start source.toList start ('/' :: '*' :: body) ∧
          UnpairedClosesAfter body before ∧
          token = ⟨.blockComment,
            String.ofList ('/' :: '*' :: (before ++ ['*', '/'])), start⟩ := by
  constructor
  · rintro ⟨member, comment⟩
    obtain ⟨start, first, rest, reached, rfl⟩ :=
      (mem_tokensFrom (by simp [comment]) ..).1 member
    obtain ⟨rfl, body, length, rfl, closed⟩ :=
      exists_of_scan_eq_blockComment comment
    obtain ⟨before, closes, _⟩ := (blockComment_eq_closed_iff ..).1 closed
    exact ⟨start, body, before, reached, closes, tokenAt_blockComment closes _⟩
  · rintro ⟨start, body, before, reached, closes, rfl⟩
    refine ⟨(mem_tokensFrom (by simp) ..).2 ?_, rfl⟩
    exact ⟨start, '/', '*' :: body, reached, (tokenAt_blockComment closes _).symm⟩

theorem ClosesAfter.eq_of_length_eq {body first second : List Char}
    (closesFirst : ClosesAfter body first)
    (closesSecond : ClosesAfter body second)
    (lengthEq : first.length = second.length) : first = second := by
  have firstPrefix := (List.prefix_append ..).trans closesFirst
  have secondPrefix := (List.prefix_append ..).trans closesSecond
  exact (List.prefix_of_prefix_length_le firstPrefix secondPrefix
    lengthEq.le).eq_of_length lengthEq

/-- A body that closes anywhere closes somewhere first. -/
theorem ClosesAfter.exists_first {body before : List Char}
    (closes : ClosesAfter body before) :
    ∃ shortest, FirstClosesAfter body shortest := by
  induction bound : before.length using Nat.strong_induction_on
    generalizing before with
  | _ length ih =>
      by_cases least :
          ∀ shorter, ClosesAfter body shorter → before.length ≤ shorter.length
      · exact ⟨before, closes, least⟩
      · push Not at least
        obtain ⟨shorter, shorterCloses, isShorter⟩ := least
        exact ih shorter.length (bound ▸ isShorter) shorterCloses rfl

/-- What closes inside the text of a comment closes inside the source. -/
theorem ClosesAfter.trans {body before shorter : List Char}
    (closes : ClosesAfter body before)
    (inside : ClosesAfter (before ++ ['*', '/']) shorter) :
    ClosesAfter body shorter :=
  List.IsPrefix.trans inside closes

/-- The first `*/` inside the text of a comment ends it exactly when its star is
unpaired. -/
theorem eq_first_close_iff {body before first : List Char}
    (unpaired : UnpairedClosesAfter body before)
    (closesFirst : FirstClosesAfter (before ++ ['*', '/']) first) :
    before ++ ['*', '/'] = first ++ ['*', '/'] ↔ Even (trailingStars first) := by
  constructor
  · intro ends
    obtain rfl : before = first := by simpa using ends
    exact unpaired.2.1
  · intro even
    have beforeLe := unpaired.2.2 first (unpaired.1.trans closesFirst.1) even
    have firstLe := closesFirst.2 before (List.prefix_refl _)
    rw [(unpaired.1.eq_of_length_eq (unpaired.1.trans closesFirst.1)
      (by omega) : before = first)]

/-- Where lexing comes to a comment, the token there ends at the first `*/` just
in case its star is unpaired. -/
theorem first_close_mem_lex_iff {source : String} {start : Cursor}
    {body before : List Char}
    (reached : Reaches .start source.toList start ('/' :: '*' :: body))
    (first : FirstClosesAfter body before) :
    (⟨.blockComment, String.ofList ('/' :: '*' :: (before ++ ['*', '/'])),
        start⟩ : Token) ∈ lex source ↔ Even (trailingStars before) := by
  constructor
  · intro member
    obtain ⟨_, _, other, _, unpaired, tokenEq⟩ :=
      (mem_lex_blockComment ..).1 ⟨member, rfl⟩
    have sameBefore : before = other := by
      have texts := congrArg (fun token : Token => token.text.toList) tokenEq
      simpa using texts
    rw [sameBefore]
    exact unpaired.2.1
  · intro even
    exact ((mem_lex_blockComment ..).2
      ⟨start, body, before, reached, first.unpaired_iff.2 even, rfl⟩).1

end Lexer

open Lexer

/-- A comment ends at its first `*/`, and a comment that can be closed is one,
exactly where the stars in front of that `*/` are even in number. -/
theorem blockComment_ends_at_first_close_iff (source : String) :
    (∀ token ∈ lex source, token.kind = .blockComment →
      ∃ body before, token.text.toList = '/' :: '*' :: body ∧
        FirstClosesAfter body before ∧
        (body = before ++ ['*', '/'] ↔ Even (trailingStars before))) ∧
    ∀ start body before,
      Reaches .start source.toList start ('/' :: '*' :: body) →
      FirstClosesAfter body before →
      ((⟨.blockComment, String.ofList ('/' :: '*' :: (before ++ ['*', '/'])),
          start⟩ : Token) ∈ lex source ↔ Even (trailingStars before)) := by
  refine ⟨?_, fun start body before => first_close_mem_lex_iff⟩
  intro token member comment
  obtain ⟨start, body, before, _, unpaired, rfl⟩ :=
    (mem_lex_blockComment ..).1 ⟨member, comment⟩
  obtain ⟨first, closesFirst⟩ :=
    ClosesAfter.exists_first (List.prefix_refl (before ++ ['*', '/']))
  exact ⟨before ++ ['*', '/'], first, by simp, closesFirst,
    eq_first_close_iff unpaired closesFirst⟩

/-- A star in front of the closing one makes a comment swallow a statement. -/
theorem blockComment_swallows_statement :
    lex "/***/ leaf x; /* note */" =
      [⟨.blockComment, "/***/ leaf x; /* note */", .start⟩] := by
  decide +kernel

/-- The rule at a source whose first comment has a paired star before its first
slash: it does not end there. -/
theorem blockComment_ends_at_first_close_iff_swallowing :
    let source := "/***/ leaf x; /* note */"
    let body := "**/ leaf x; /* note */".toList
    let whole : Token := ⟨.blockComment, source, .start⟩
    (whole ∈ lex source ∧ whole.kind = .blockComment ∧
      ∃ inside before, whole.text.toList = '/' :: '*' :: inside ∧
        FirstClosesAfter inside before ∧
        (inside = before ++ ['*', '/'] ↔ Even (trailingStars before))) ∧
    Reaches .start source.toList .start ('/' :: '*' :: body) ∧
      FirstClosesAfter body ['*'] ∧ ¬ Even (trailingStars ['*']) ∧
      (⟨.blockComment, "/***/", .start⟩ : Token) ∉ lex source := by
  intro source body whole
  obtain ⟨tokens, places⟩ := blockComment_ends_at_first_close_iff source
  have member : whole ∈ lex source := by decide +kernel
  have split : source.toList = '/' :: '*' :: body := by decide +kernel
  have reached : Reaches .start source.toList .start ('/' :: '*' :: body) :=
    split ▸ .here ..
  have first : FirstClosesAfter body ['*'] := by
    refine ⟨by simp [body, ClosesAfter], fun shorter closes => ?_⟩
    cases shorter with
    | nil => simp [body, closesAfter_cons_nil] at closes
    | cons => simp
  have odd : ¬ Even (trailingStars ['*']) := by decide
  refine ⟨⟨member, rfl, tokens whole member rfl⟩, reached, first, odd, ?_⟩
  intro short
  exact odd ((places .start body ['*'] reached first).1 short)

end YangSchema
