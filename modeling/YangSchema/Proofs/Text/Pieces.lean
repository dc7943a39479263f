import Mathlib.Data.List.DropRight
import YangSchema.Text.Blank

/-!
# Texts put together from pieces

Trimming takes away the blanks that stand around a text, whatever they are, and
cutting a text at separators finds the pieces it was put together from.
-/

namespace YangSchema.Text

variable {text inner outer before after : List Char} {separator : Char}

/-! ## Blanks around a text -/

/-- Nothing but white space. -/
def AreBlank (text : List Char) : Prop :=
  ∀ c ∈ text, isBlank c = true

/-- A text with white space around another one. -/
def Pads (inner outer : List Char) : Prop :=
  ∃ before after, AreBlank before ∧ AreBlank after ∧
    outer = before ++ inner ++ after

theorem areBlank_nil : AreBlank [] := by
  simp [AreBlank]

theorem areBlank_append :
    AreBlank (before ++ after) ↔ AreBlank before ∧ AreBlank after :=
  List.forall_mem_append

theorem pads_self (text : List Char) : Pads text text :=
  ⟨[], [], areBlank_nil, areBlank_nil, by simp⟩

theorem Pads.add_before (blank : AreBlank before) (pads : Pads inner outer) :
    Pads inner (before ++ outer) := by
  obtain ⟨front, back, frontBlank, backBlank, rfl⟩ := pads
  refine ⟨before ++ front, back, ?_, backBlank, by simp⟩
  exact areBlank_append.mpr ⟨blank, frontBlank⟩

theorem Pads.add_after (blank : AreBlank after) (pads : Pads inner outer) :
    Pads inner (outer ++ after) := by
  obtain ⟨front, back, frontBlank, backBlank, rfl⟩ := pads
  refine ⟨front, back ++ after, frontBlank, ?_, by simp⟩
  exact areBlank_append.mpr ⟨backBlank, blank⟩

theorem Pads.mem (pads : Pads inner outer) {c : Char} (member : c ∈ outer) :
    c ∈ inner ∨ isBlank c = true := by
  obtain ⟨front, back, frontBlank, backBlank, rfl⟩ := pads
  simp only [List.mem_append] at member
  obtain (member | member) | member := member
  · exact .inr (frontBlank c member)
  · exact .inl member
  · exact .inr (backBlank c member)

theorem trimStart_of_areBlank (blank : AreBlank text) : trimStart text = [] :=
  List.dropWhile_eq_nil_iff.mpr blank

theorem trimStart_append (blank : AreBlank before) (text : List Char) :
    trimStart (before ++ text) = trimStart text :=
  List.dropWhile_append_of_pos blank

theorem trimEnd_append (blank : AreBlank after) (text : List Char) :
    trimEnd (text ++ after) = trimEnd text := by
  rw [trimEnd, trimEnd, List.reverse_append, List.dropWhile_append_of_pos]
  simpa [AreBlank] using blank

theorem trimStart_append_of_not_areBlank (solid : ¬ AreBlank before)
    (text : List Char) : trimStart (before ++ text) = trimStart before ++ text := by
  have some : (trimStart before).isEmpty = false := by
    rw [List.isEmpty_eq_false_iff]
    exact fun empty => solid (List.dropWhile_eq_nil_iff.mp empty)
  rw [trimStart, List.dropWhile_append, ← trimStart]
  simp [some]

theorem trimEnd_append_of_not_areBlank (solid : ¬ AreBlank after)
    (text : List Char) : trimEnd (text ++ after) = text ++ trimEnd after := by
  have solid' : ¬ AreBlank after.reverse := by
    simpa [AreBlank] using solid
  have dropped := trimStart_append_of_not_areBlank solid' text.reverse
  simp only [trimStart] at dropped
  rw [trimEnd, trimEnd, List.reverse_append, dropped, List.reverse_append,
    List.reverse_reverse]

theorem trim_append (solid : ¬ AreBlank before) (solid' : ¬ AreBlank after) :
    trim (before ++ after) = trimStart before ++ trimEnd after := by
  rw [trim, trimStart_append_of_not_areBlank solid,
    trimEnd_append_of_not_areBlank solid']

theorem pads_trimStart (text : List Char) : Pads (trimStart text) text :=
  ⟨text.takeWhile isBlank, [], fun _ => List.mem_takeWhile_imp, areBlank_nil,
    by rw [List.append_nil, trimStart, List.takeWhile_append_dropWhile]⟩

theorem pads_trimEnd (text : List Char) : Pads (trimEnd text) text :=
  ⟨[], text.rtakeWhile isBlank, areBlank_nil, fun _ => List.mem_rtakeWhile_imp,
    (List.rdropWhile_append_rtakeWhile ..).symm⟩

theorem Pads.trim_eq (pads : Pads inner outer) : trim outer = trim inner := by
  obtain ⟨before, after, front, back, rfl⟩ := pads
  rw [trim, trim, List.append_assoc, trimStart_append front, trimStart,
    List.dropWhile_append, ← trimStart, ← trimStart]
  cases blank : (trimStart inner).isEmpty with
  | true =>
      have empty : trimStart inner = [] := List.isEmpty_iff.mp blank
      simp [empty, trimStart_of_areBlank back]
  | false =>
      simp only [Bool.false_eq_true, if_false]
      exact trimEnd_append back _

theorem trim_append_rtakeWhile (text : List Char) :
    trim text ++ (trimStart text).rtakeWhile isBlank = trimStart text :=
  List.rdropWhile_append_rtakeWhile ..

/-- A text is what trimming leaves of it, with blanks around. -/
theorem pads_trim (text : List Char) : Pads (trim text) text := by
  refine ⟨text.takeWhile isBlank, (trimStart text).rtakeWhile isBlank,
    fun c => List.mem_takeWhile_imp, fun c => List.mem_rtakeWhile_imp, ?_⟩
  rw [List.append_assoc, trim_append_rtakeWhile, trimStart,
    List.takeWhile_append_dropWhile]

/-- Neither end of a text is blank. -/
structure IsTrim (text : List Char) : Prop where
  head : ∀ c ∈ text.head?, isBlank c = false
  last : ∀ c ∈ text.getLast?, isBlank c = false

theorem trimStart_eq (head : ∀ c ∈ text.head?, isBlank c = false) :
    trimStart text = text := by
  cases text with
  | nil => rfl
  | cons c rest => simp [trimStart, head c (by simp)]

theorem trimStart_trim (text : List Char) : trimStart (trim text) = trim text := by
  have whole := trim_append_rtakeWhile text
  cases trimmed : trim text with
  | nil => rfl
  | cons c rest =>
      have first := List.head?_dropWhile_not isBlank text
      rw [← trimStart, ← whole, trimmed] at first
      simp only [List.cons_append, List.head?_cons] at first
      simp [trimStart, first]

theorem IsTrim.trim_eq (trimmed : IsTrim text) : trim text = text := by
  have mirrored : trimStart text.reverse = text.reverse :=
    trimStart_eq (by simpa using trimmed.last)
  rw [trim, trimStart_eq trimmed.head, trimEnd]
  rw [trimStart] at mirrored
  rw [mirrored, List.reverse_reverse]

theorem Pads.trim_eq_inner (pads : Pads inner outer) (trimmed : IsTrim inner) :
    trim outer = inner :=
  pads.trim_eq.trans trimmed.trim_eq

/-! ## Cutting at separators -/

theorem splitOn_eq (separator : Char) (text : List Char) :
    splitOn separator text = text.splitOn separator := by
  induction text with
  | nil => rfl
  | cons c rest ih =>
      rw [splitOn, ih, List.splitOn, List.splitOn,
        List.splitOnP_cons_eq_if_modifyHead]
      by_cases same : c = separator
      · simp [same]
      · simp only [same, if_false, beq_iff_eq]
        cases pieces : rest.splitOnP (· == separator) with
        | nil => exact absurd pieces (List.splitOnP_ne_nil _ _)
        | cons piece pieces => rfl

/-- Pieces between separators are found again. -/
theorem splitOn_intercalate {pieces : List (List Char)}
    (some : pieces ≠ []) (free : ∀ piece ∈ pieces, separator ∉ piece) :
    splitOn separator ([separator].intercalate pieces) = pieces := by
  rw [splitOn_eq, List.splitOn_intercalate _ free some]

theorem intercalate_splitOn (separator : Char) (text : List Char) :
    [separator].intercalate (splitOn separator text) = text := by
  rw [splitOn_eq, List.intercalate_splitOn]

theorem not_mem_of_mem_splitOn {piece : List Char}
    (member : piece ∈ splitOn separator text) : separator ∉ piece := by
  induction text generalizing piece with
  | nil => simp_all [splitOn]
  | cons c rest ih =>
      unfold splitOn at member
      split at member
      · obtain rfl | member := List.mem_cons.mp member
        · exact List.not_mem_nil
        · exact ih member
      next other =>
        split at member
        next pieces => exact absurd pieces (splitOn_ne_nil separator rest)
        next first pieces whole =>
          rw [whole] at ih
          obtain rfl | member := List.mem_cons.mp member
          · simpa [Ne.symm other] using ih List.mem_cons_self
          · exact ih (List.mem_cons_of_mem _ member)

theorem intercalate_append (fronts : List (List Char)) {pieces : List (List Char)}
    (some : pieces ≠ []) :
    [separator].intercalate (fronts ++ pieces) =
      fronts.flatMap (· ++ [separator]) ++ [separator].intercalate pieces := by
  induction fronts with
  | nil => rfl
  | cons front fronts ih =>
      rw [List.cons_append, List.intercalate_cons_of_ne_nil (by simp [some]), ih,
        List.flatMap_cons, List.append_assoc (front ++ [separator])]

/-- A text in front that has no separator goes to the first piece. -/
theorem splitOn_append_of_not_mem (free : separator ∉ before)
    (text : List Char) :
    splitOn separator (before ++ text) =
      (splitOn separator text).modifyHead (before ++ ·) := by
  induction before with
  | nil =>
      rw [List.nil_append]
      cases splitOn separator text <;> rfl
  | cons c before ih =>
      simp only [List.mem_cons, not_or] at free
      rw [List.cons_append, splitOn, if_neg (Ne.symm free.1), ih free.2]
      cases pieces : splitOn separator text with
      | nil => exact absurd pieces (splitOn_ne_nil separator text)
      | cons piece pieces => rfl

/-- Pieces before a separator are cut off one by one. -/
theorem splitOn_append {pieces : List (List Char)}
    (free : ∀ piece ∈ pieces, separator ∉ piece) (text : List Char) :
    splitOn separator (pieces.flatMap (· ++ [separator]) ++ text) =
      pieces ++ splitOn separator text := by
  have some := splitOn_ne_nil separator text
  have apart : ∀ piece ∈ pieces ++ splitOn separator text, separator ∉ piece :=
    List.forall_mem_append.mpr ⟨free, fun _ => not_mem_of_mem_splitOn⟩
  rw [← splitOn_intercalate (by simp [some]) apart, intercalate_append _ some,
    intercalate_splitOn]

theorem map_trim_splitOn_append (text : List Char) (blank : AreBlank after)
    (free : separator ∉ after) :
    (splitOn separator (text ++ after)).map trim =
      (splitOn separator text).map trim := by
  have each : ∀ piece ∈ splitOn separator text, separator ∉ piece :=
    fun _ => not_mem_of_mem_splitOn
  have whole := intercalate_splitOn separator text
  obtain empty | ⟨pieces, last, split⟩ := (splitOn separator text).eq_nil_or_concat
  · exact absurd empty (splitOn_ne_nil separator text)
  · rw [split, List.concat_eq_append] at each whole
    have longer : text ++ after =
        [separator].intercalate (pieces ++ [last ++ after]) := by
      rw [← whole, intercalate_append _ (by simp), intercalate_append _ (by simp)]
      simp
    have apart : ∀ piece ∈ pieces ++ [last ++ after], separator ∉ piece := by
      simp only [List.mem_append, List.mem_singleton] at each ⊢
      rintro piece (member | rfl)
      · exact each piece (.inl member)
      · simpa using ⟨each last (.inr rfl), free⟩
    rw [longer, splitOn_intercalate (by simp) apart, split, List.concat_eq_append]
    simp [((pads_self last).add_after blank).trim_eq]

theorem map_trim_splitOn_prepend (text : List Char) (blank : AreBlank before)
    (free : separator ∉ before) :
    (splitOn separator (before ++ text)).map trim =
      (splitOn separator text).map trim := by
  have each : ∀ piece ∈ splitOn separator text, separator ∉ piece :=
    fun _ => not_mem_of_mem_splitOn
  have whole := intercalate_splitOn separator text
  cases split : splitOn separator text with
  | nil => exact absurd split (splitOn_ne_nil separator text)
  | cons first pieces =>
      rw [split] at each whole
      have longer : before ++ text =
          [separator].intercalate ((before ++ first) :: pieces) := by
        rw [← whole]
        cases pieces <;> simp [List.intercalate_cons_cons]
      have apart : ∀ piece ∈ (before ++ first) :: pieces, separator ∉ piece := by
        obtain ⟨here, there⟩ := List.forall_mem_cons.mp each
        exact List.forall_mem_cons.mpr ⟨by simpa using ⟨free, here⟩, there⟩
      rw [longer, splitOn_intercalate (by simp) apart]
      simp [((pads_self first).add_before blank).trim_eq]

/-- Blanks around a text belong to its first and to its last piece. -/
theorem Pads.map_trim_splitOn (pads : Pads inner outer)
    (solid : isBlank separator = false) :
    (splitOn separator outer).map trim = (splitOn separator inner).map trim := by
  have free {blanks : List Char} (blank : AreBlank blanks) : separator ∉ blanks :=
    fun member => by simp [blank _ member] at solid
  obtain ⟨before, after, beforeBlank, afterBlank, rfl⟩ := pads
  rw [map_trim_splitOn_append _ afterBlank (free afterBlank),
    map_trim_splitOn_prepend _ beforeBlank (free beforeBlank)]

theorem cutAt_append (free : separator ∉ before) (after : List Char) :
    cutAt separator (before ++ separator :: after) = some (before, after) := by
  induction before with
  | nil => simp [cutAt]
  | cons c before ih =>
      simp only [List.mem_cons, not_or] at free
      simp [cutAt, Ne.symm free.1, ih free.2]

theorem cutAt_eq_none (free : separator ∉ text) : cutAt separator text = none := by
  induction text with
  | nil => rfl
  | cons c rest ih =>
      simp only [List.mem_cons, not_or] at free
      simp [cutAt, Ne.symm free.1, ih free.2]

theorem of_cutAt (cut : cutAt separator text = some (before, after)) :
    text = before ++ separator :: after := by
  induction text generalizing before with
  | nil => simp [cutAt] at cut
  | cons c rest ih =>
      unfold cutAt at cut
      split at cut
      next same =>
        obtain ⟨rfl, rfl⟩ := Prod.mk.inj (Option.some.inj cut)
        simp [same]
      · obtain ⟨⟨first, _⟩, found, same⟩ := Option.map_eq_some_iff.mp cut
        obtain ⟨rfl, rfl⟩ := Prod.mk.inj same
        simp [ih found]

theorem cutAtPair_append (free : separator ∉ before) (after : List Char) :
    cutAtPair separator (before ++ separator :: separator :: after) =
      some (before, after) := by
  induction before with
  | nil => simp [cutAtPair]
  | cons c before ih =>
      simp only [List.mem_cons, not_or] at free
      have found := ih free.2
      cases before with
      | nil => simp [cutAtPair, Ne.symm free.1]
      | cons next before =>
          simp only [List.cons_append] at found ⊢
          rw [cutAtPair, found]
          simp [Ne.symm free.1]

theorem of_cutAtPair (cut : cutAtPair separator text = some (before, after)) :
    text = before ++ separator :: separator :: after := by
  induction text using cutAtPair.induct separator generalizing before with
  | case1 => simp [cutAtPair] at cut
  | case2 => simp [cutAtPair] at cut
  | case3 c next rest pair =>
      simp only [cutAtPair, pair, and_self, if_true, Option.some.injEq,
        Prod.mk.injEq] at cut
      obtain ⟨rfl, rfl⟩ := cut
      simp [pair]
  | case4 c next rest apart ih =>
      simp only [cutAtPair, apart, if_false, Option.map_eq_some_iff] at cut
      obtain ⟨⟨first, last⟩, found, same⟩ := cut
      obtain ⟨rfl, rfl⟩ := Prod.mk.inj same
      simp [ih found]

theorem cutAtPair_eq_none (free : separator ∉ text) :
    cutAtPair separator text = none := by
  cases cut : cutAtPair separator text with
  | none => rfl
  | some pieces =>
      refine absurd ?_ free
      rw [of_cutAtPair cut]
      simp

/-! ## Behind the last separator -/

@[simp]
theorem afterLast_nil (separator : Char) : afterLast separator [] = [] :=
  rfl

theorem afterLast_append_of_mem (member : separator ∈ after)
    (before : List Char) :
    afterLast separator (before ++ after) = afterLast separator after := by
  have stops : (after.reverse.takeWhile (· ≠ separator)).length ≠
      after.reverse.length := by
    intro whole
    have all := List.takeWhile_eq_self_iff.mp
      ((List.takeWhile_prefix _).eq_of_length whole)
    simpa using all separator (List.mem_reverse.mpr member)
  rw [afterLast, afterLast, List.reverse_append, List.takeWhile_append,
    if_neg stops]

theorem afterLast_append_of_not_mem (free : separator ∉ after)
    (before : List Char) :
    afterLast separator (before ++ after) =
      afterLast separator before ++ after := by
  have all : ∀ c ∈ after.reverse, decide (c ≠ separator) = true := by
    intro c member
    simp only [ne_eq, decide_eq_true_eq]
    rintro rfl
    exact free (List.mem_reverse.mp member)
  rw [afterLast, afterLast, List.reverse_append,
    List.takeWhile_append_of_pos all, List.reverse_append,
    List.reverse_reverse]

end YangSchema.Text
