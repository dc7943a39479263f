import YangSchema.Diagnostic.Filter
import Mathlib.Order.WellFounded

/-!
# Suppressing hides no failure

What suppresses a diagnostic comes before it in a strict order: the one whose
span starts first, and at the same start the one whose kind explains more.  So
no diagnostics suppress each other in a circle, although the pairs are visited
in report order and not in this one, and of the syntax errors of a source the
first in this order is suppressed by none.
-/

namespace YangSchema

namespace DiagnosticKind

variable {kind other : DiagnosticKind}

/-- The turn of a kind among those at the same start.  An unclosed block has the
highest priority of all, but here it gives way to what names a root cause. -/
def turn (kind : DiagnosticKind) : Nat :=
  if kind.isStructural then 2 * rank .expectedString + 1 else 2 * kind.rank

theorem rank_of_isStructural (structural : kind.isStructural = true) :
    kind.rank = 0 := by
  rw [isStructural, beq_iff_eq] at structural
  rw [structural]
  rfl

theorem rank_of_isRootCause (root : kind.isRootCause = true) :
    0 < kind.rank ∧ kind.rank ≤ rank .expectedString := by
  cases kind <;> first | decide | simp [isRootCause] at root

theorem rank_of_neither (plain : kind.isStructural = false)
    (bare : kind.isRootCause = false) : rank .expectedString < kind.rank := by
  cases kind <;> first | decide | simp [isStructural, isRootCause] at plain bare

theorem turn_of_isStructural (structural : kind.isStructural = true) :
    kind.turn = 2 * rank .expectedString + 1 :=
  if_pos structural

theorem turn_of_not_isStructural (plain : kind.isStructural = false) :
    kind.turn = 2 * kind.rank :=
  if_neg (by simp [plain])

/-- A root cause comes before an unclosed block. -/
theorem turn_lt_of_isRootCause (root : kind.isRootCause = true)
    (structural : other.isStructural = true) : kind.turn < other.turn := by
  have bounds := rank_of_isRootCause root
  have plain : kind.isStructural = false := by
    by_contra is
    have := rank_of_isStructural (Bool.not_eq_false _ ▸ is)
    omega
  rw [turn_of_isStructural structural, turn_of_not_isStructural plain]
  omega

/-- Otherwise priority decides whose turn it is. -/
theorem turn_lt_of_suppresses (suppresses : kind.suppresses other = true)
    (ordered : ¬ (other.isRootCause = true ∧ kind.isStructural = true)) :
    kind.turn < other.turn := by
  have less : kind.rank < other.rank := by simpa [DiagnosticKind.suppresses] using
    suppresses
  have plain : other.isStructural = false := by
    by_contra is
    have := rank_of_isStructural (Bool.not_eq_false _ ▸ is)
    omega
  rw [turn_of_not_isStructural plain]
  cases structural : kind.isStructural with
  | false =>
      rw [turn_of_not_isStructural structural]
      omega
  | true =>
      have bare : other.isRootCause = false := by simpa [structural] using ordered
      have above := rank_of_neither plain bare
      rw [turn_of_isStructural structural]
      omega

theorem severity_of_isSyntaxError (isSyntax : kind.isSyntaxError = true) :
    kind.severity = .error := by
  cases kind <;> first | rfl | exact absurd isSyntax (by decide)

end DiagnosticKind

namespace Diagnostics

variable {diagnostics : Diagnostics} {first second : Diagnostic}
  {source : SourceId} {marked : List Marked}

/-- By the start of the span, and at the same start by the turn of the kind. -/
def Precedes : Diagnostic → Diagnostic → Prop :=
  InvImage (Prod.Lex (· < ·) (· < ·)) fun diagnostic =>
    (diagnostic.span.start, diagnostic.kind.turn)

theorem precedes_wellFounded : WellFounded Precedes :=
  InvImage.wf _ (Prod.lex ⟨_, Nat.lt_wfRel.wf⟩ ⟨_, Nat.lt_wfRel.wf⟩).wf

/-- Only a syntax error of the same source suppresses, and only what comes after
it. -/
theorem precedes_of_suppresses (suppressed : suppresses first second = true) :
    first.source = second.source ∧ first.kind.isSyntaxError = true ∧
      Precedes first second := by
  unfold suppresses at suppressed
  split at suppressed
  · simp at suppressed
  next cascades =>
    simp only [not_or, Bool.not_eq_true', Bool.not_eq_false, ne_eq, not_not]
      at cascades
    refine ⟨cascades.1, by simpa using cascades.2, ?_⟩
    split at suppressed
    next contained =>
      have outer := contained.1
      simp only [Span.strictlyContains, Bool.and_eq_true, decide_eq_true_eq]
        at outer
      exact .left _ _ outer.1
    next apart =>
      split at suppressed
      next same =>
        have later : first.kind.turn < second.kind.turn := by
          split at suppressed
          next explains =>
            exact DiagnosticKind.turn_lt_of_isRootCause explains.1 explains.2
          next plain =>
            split at suppressed
            · simp at suppressed
            next ordered =>
              exact DiagnosticKind.turn_lt_of_suppresses suppressed ordered
        rw [Precedes, InvImage, same]
        exact .right _ later
      · simp at suppressed

/-- Of the syntax errors of a source one is suppressed by no diagnostic. -/
theorem exists_unsuppressed {error : Diagnostic} (listed : error ∈ diagnostics)
    (isSyntax : error.kind.isSyntaxError = true) :
    ∃ root ∈ diagnostics, root.source = error.source ∧
      root.kind.isSyntaxError = true ∧
      ∀ other ∈ diagnostics, suppresses other root = false := by
  obtain ⟨root, ⟨listed, own, isSyntax⟩, least⟩ := precedes_wellFounded.has_min
    {root | root ∈ diagnostics ∧ root.source = error.source ∧
      root.kind.isSyntaxError = true} ⟨error, listed, rfl, isSyntax⟩
  refine ⟨root, listed, own, isSyntax, fun other listed' => ?_⟩
  by_contra suppressed
  obtain ⟨same, isSyntax', precedes⟩ :=
    precedes_of_suppresses (Bool.not_eq_false _ ▸ suppressed)
  exact least other ⟨listed', same.trans own, isSyntax'⟩ precedes

/-- The diagnostics are as they were, and each one that is marked is suppressed
by another. -/
structure IsMarking (diagnostics : Diagnostics) (marked : List Marked) :
    Prop where
  kept : marked.map (·.1) = diagnostics
  suppressed : ∀ second, (second, true) ∈ marked →
    ∃ first ∈ diagnostics, suppresses first second = true

theorem isMarking_initial :
    IsMarking diagnostics (diagnostics.map fun diagnostic =>
      (diagnostic, false)) where
  kept := by simp [Function.comp_def]
  suppressed := by simp

theorem IsMarking.markFrom {index : Nat}
    (marking : IsMarking diagnostics marked) (listed : first ∈ diagnostics) :
    IsMarking diagnostics (markFrom first index marked) where
  kept := by
    rw [← marking.kept, Diagnostics.markFrom]
    exact List.ext_getElem? fun place => by simp [Function.comp_def]
  suppressed := by
    intro second inside
    obtain ⟨place, below, same⟩ := List.mem_mapIdx.mp inside
    obtain ⟨rfl, set⟩ := Prod.mk.inj same
    obtain before | suppressed := (Bool.or_eq_true ..).mp set
    · exact marking.suppressed _ (before ▸ List.getElem_mem below)
    · exact ⟨first, listed, ((Bool.and_eq_true ..).mp suppressed).2⟩

theorem IsMarking.markAll (steps : Nat) {index : Nat}
    (marking : IsMarking diagnostics marked) :
    IsMarking diagnostics (markAll steps index marked) := by
  induction steps generalizing index marked with
  | zero => exact marking
  | succ steps ih =>
      unfold Diagnostics.markAll
      split
      next first found =>
        refine ih (marking.markFrom ?_)
        rw [← marking.kept]
        exact List.mem_map_of_mem (f := Prod.fst) (List.mem_of_getElem? found)
      · exact ih marking

theorem exists_isMarking (diagnostics : Diagnostics) :
    ∃ marked, IsMarking diagnostics marked ∧
      diagnostics.filtered = (marked.filter (!·.2)).map (·.1) :=
  ⟨_, isMarking_initial.markAll diagnostics.length, rfl⟩

theorem filtered_sublist : diagnostics.filtered.Sublist diagnostics := by
  obtain ⟨marked, marking, same⟩ := exists_isMarking diagnostics
  rw [same, ← marking.kept]
  exact List.filter_sublist.map _

/-- What nothing suppresses stays. -/
theorem filter_filtered {accepts : Diagnostic → Bool}
    (spared : ∀ second ∈ diagnostics, accepts second = true →
      ∀ first ∈ diagnostics, suppresses first second = false) :
    diagnostics.filtered.filter accepts = diagnostics.filter accepts := by
  obtain ⟨marked, marking, same⟩ := exists_isMarking diagnostics
  have unmarked : ∀ entry ∈ marked, accepts entry.1 = true → entry.2 = false := by
    rintro ⟨second, set⟩ inside accepted
    have listed : second ∈ diagnostics :=
      marking.kept ▸ List.mem_map_of_mem (f := Prod.fst) inside
    cases set with
    | false => rfl
    | true =>
        obtain ⟨first, listed', suppressed⟩ := marking.suppressed second inside
        simp [spared second listed accepted first listed'] at suppressed
  rw [same, List.filter_map, List.filter_filter]
  conv_rhs => rw [← marking.kept, List.filter_map]
  refine congrArg _ (List.filter_congr fun entry inside => ?_)
  cases accepted : accepts entry.1 with
  | false => simp [accepted]
  | true => simp [accepted, unmarked entry inside accepted]

theorem mem_filtered (listed : second ∈ diagnostics)
    (spared : ∀ first ∈ diagnostics, suppresses first second = false) :
    second ∈ diagnostics.filtered := by
  have same : diagnostics.filtered.filter (· == second) =
      diagnostics.filter (· == second) := by
    refine filter_filtered fun other _ accepted => ?_
    rwa [eq_of_beq accepted]
  have inside : second ∈ diagnostics.filter (· == second) := by simp [listed]
  exact (List.mem_filter.mp (same ▸ inside)).1

/-- A source without syntax errors keeps all its diagnostics, in their order. -/
theorem filtered_of_noSyntaxError
    (clean : ∀ diagnostic ∈ diagnostics, diagnostic.source = source →
      diagnostic.kind.isSyntaxError = false) :
    diagnostics.filtered.filter (·.source == source) =
      diagnostics.filter (·.source == source) := by
  refine filter_filtered fun second _ own first listed => ?_
  by_contra suppressed
  obtain ⟨same, isSyntax, -⟩ :=
    precedes_of_suppresses (Bool.not_eq_false _ ▸ suppressed)
  have other := clean first listed (same.trans (by simpa using own))
  simp [other] at isSyntax

/-- Of a source with diagnostics one stays, and an error if one is an error. -/
theorem exists_filtered (listed : second ∈ diagnostics) :
    ∃ root ∈ diagnostics.filtered, root.source = second.source ∧
      (second.isError = true → root.isError = true) := by
  by_cases broken : ∃ error ∈ diagnostics, error.source = second.source ∧
      error.kind.isSyntaxError = true
  · obtain ⟨error, listed', own, isSyntax⟩ := broken
    obtain ⟨root, inside, own', isSyntax', spared⟩ :=
      exists_unsuppressed listed' isSyntax
    refine ⟨root, mem_filtered inside spared, own'.trans own, fun _ => ?_⟩
    rw [Diagnostic.isError, Diagnostic.severity,
      DiagnosticKind.severity_of_isSyntaxError isSyntax']
    rfl
  · have same : diagnostics.filtered.filter (·.source == second.source) =
        diagnostics.filter (·.source == second.source) :=
      filtered_of_noSyntaxError fun diagnostic inside own =>
        Bool.eq_false_iff.mpr fun isSyntax =>
          broken ⟨diagnostic, inside, own, isSyntax⟩
    have inside : second ∈ diagnostics.filter (·.source == second.source) := by
      simp [listed]
    exact ⟨second, (List.mem_filter.mp (same ▸ inside)).1, rfl, id⟩

theorem hasErrorsIn_filtered (diagnostics : Diagnostics) (source : SourceId) :
    diagnostics.filtered.hasErrorsIn source = diagnostics.hasErrorsIn source := by
  rw [Bool.eq_iff_iff]
  simp only [hasErrorsIn, List.any_eq_true, Bool.and_eq_true, beq_iff_eq]
  constructor
  · rintro ⟨error, listed, own, isError⟩
    exact ⟨error, filtered_sublist.subset listed, own, isError⟩
  · rintro ⟨error, listed, own, isError⟩
    obtain ⟨root, stays, own', still⟩ := exists_filtered listed
    exact ⟨root, stays, own'.trans own, still isError⟩

theorem filtered_ne_nil (reported : diagnostics ≠ []) :
    diagnostics.filtered ≠ [] := by
  obtain ⟨second, listed⟩ := List.exists_mem_of_ne_nil _ reported
  obtain ⟨root, stays, -⟩ := exists_filtered listed
  exact List.ne_nil_of_mem stays

/-- Suppressing leaves diagnostics out and changes none.  It takes the errors of
no source away, touches no source without syntax errors and never leaves
nothing. -/
theorem filtered_hides_nothing (diagnostics : Diagnostics) :
    diagnostics.filtered.Sublist diagnostics ∧
      (∀ source, diagnostics.filtered.hasErrorsIn source =
        diagnostics.hasErrorsIn source) ∧
      (∀ source, (∀ diagnostic ∈ diagnostics, diagnostic.source = source →
          diagnostic.kind.isSyntaxError = false) →
        diagnostics.filtered.filter (·.source == source) =
          diagnostics.filter (·.source == source)) ∧
      (diagnostics ≠ [] → diagnostics.filtered ≠ []) :=
  ⟨filtered_sublist, hasErrorsIn_filtered diagnostics,
    fun _ => filtered_of_noSyntaxError, filtered_ne_nil⟩

end Diagnostics

end YangSchema
