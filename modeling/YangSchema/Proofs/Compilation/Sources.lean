import Mathlib.Data.List.Induction
import YangSchema.Proofs.Linking.Choosing

/-!
# Binding imports and includes

What becomes of the units of a compilation when their sources are bound is told
without saying how they are gone through.  Whether a unit is rejected depends on
the usable units before it.  What an import or an include is bound to depends on
the units that there are, and only on these if no two of them repeat each other,
so that their order makes no difference then.  Each unit that is rejected and each
statement that is not bound is reported once.
-/

namespace YangSchema

namespace UnitEntry

theorem of?_usable {unit : LinkUnit} {entry : UnitEntry}
    (known : of? unit = some entry) : entry.usable = unit.usable := by
  unfold of? at known
  split at known
  · rw [← Option.some.inj known]
  · simp at known

/-- The module whose text a unit is part of. -/
def parent (entry : UnitEntry) : String :=
  entry.belongsTo.getD entry.name

/-- An entry behind others, which cannot be used if it repeats a usable one. -/
def after (entry : UnitEntry) (accepted : List UnitEntry) : UnitEntry :=
  { entry with
    usable := entry.usable && !accepted.any fun other =>
      other.usable && entry.repeats other }

end UnitEntry

/-- A unit has the name, the kind and the revision of another one. -/
def LinkUnit.Repeats (unit other : LinkUnit) : Prop :=
  ∃ entry entry', UnitEntry.of? unit = some entry ∧
    UnitEntry.of? other = some entry' ∧ entry.repeats entry' = true

/-- Where imports and includes are written that are not bound. -/
def ModuleHeader.unboundSpans (header : ModuleHeader) : List Span :=
  (header.imports.filter (·.resolved.isNone)).map (·.span) ++
    (header.includes.filter (·.resolved.isNone)).map (·.span)

/-- None of the imports and includes has been bound. -/
structure ModuleHeader.IsUnbound (header : ModuleHeader) : Prop where
  imports : ∀ written ∈ header.imports, written.resolved = none
  includes : ∀ written ∈ header.includes, written.resolved = none

/-- An import is bound if there is a unit that suits it, to the one it means. -/
structure Import.IsBoundAmong (entries : List UnitEntry)
    (written bound : Import) : Prop where
  text : bound = { written with resolved := bound.resolved }
  isSome : bound.resolved.isSome ↔ ∃ entry ∈ entries,
    entry.suits written.module written.revisionDate false = true
  meant : ∀ source, bound.resolved = some source ↔ ∃ entry : UnitEntry,
    entry.IsMeant entries written.module written.revisionDate false ∧
      entry.source = source

/-- An include is bound to the submodule it means if that is part of the same
module. -/
structure Include.IsBoundAmong (entries : List UnitEntry) (parent : String)
    (written bound : Include) : Prop where
  text : bound = { written with resolved := bound.resolved }
  meant : ∀ source, bound.resolved = some source ↔ ∃ entry : UnitEntry,
    entry.IsMeant entries written.submodule written.revisionDate true ∧
      entry.belongsTo = some parent ∧ entry.source = source

/-- What has to become of a unit among bound ones, with the problems that are
reported for its source. -/
structure LinkUnit.IsBoundAmong (earlier bound : List LinkUnit)
    (problems : Diagnostics) (unit after : LinkUnit) : Prop where
  source : after.source = unit.source
  /-- A unit can be used unless it repeats a usable one before it. -/
  usable : after.usable = true ↔ unit.usable = true ∧
    ∀ other ∈ earlier, other.usable = true → ¬ unit.Repeats other
  rejected : problems.countP (·.kind == .duplicateIdentifier) =
    if unit.usable && !after.usable then 1 else 0
  declared : after.usable = true →
    ∀ header, unit.tree.header? = some header →
      ∃ entry header', UnitEntry.of? unit = some entry ∧
        after.tree.header? = some header' ∧
        List.Forall₂ (Import.IsBoundAmong (bound.filterMap UnitEntry.of?))
          header.imports header'.imports ∧
        List.Forall₂
          (Include.IsBoundAmong (bound.filterMap UnitEntry.of?) entry.parent)
          header.includes header'.includes ∧
        (problems.filter (·.kind != .duplicateIdentifier)).map (·.span) =
          header'.unboundSpans
  idle : after.usable = false → after.tree = unit.tree ∧
    ∀ problem ∈ problems, problem.kind = .duplicateIdentifier

/-- What has to become of units when their sources are bound, and what has to be
reported then. -/
structure Linking.BindsCorrectly (units bound : List LinkUnit)
    (problems : Diagnostics) : Prop where
  apart : bound.Pairwise fun first second =>
    first.usable = true → second.usable = true → ¬ first.Repeats second
  length : bound.length = units.length
  units : ∀ (place : Nat) (unit after : LinkUnit),
    units[place]? = some unit → bound[place]? = some after →
      unit.IsBoundAmong (bound.take place) bound
        (problems.filter (·.source == unit.source)) after
  severe : ∀ problem ∈ problems, problem.isError = true

/-- Units that have been read and that no source has been bound for. -/
structure Linking.AwaitsBinding (units : List LinkUnit) : Prop where
  distinct : (units.map (·.source)).Nodup
  unbound : ∀ unit ∈ units, unit.usable = true →
    ∀ header, unit.tree.header? = some header → header.IsUnbound

namespace Linking

open UnitEntry (UsableApart)

section

variable {accepted entries : List UnitEntry}

theorem rejectRepeated_append (first second : List UnitEntry) :
    rejectRepeated accepted (first ++ second) =
      rejectRepeated (rejectRepeated accepted first) second := by
  induction first generalizing accepted with
  | nil => rfl
  | cons entry rest ih => exact ih

/-- Of entries that repeat each other at most one stays usable. -/
theorem usableApart_rejectRepeated (apart : UsableApart accepted) :
    UsableApart (rejectRepeated accepted entries) := by
  induction entries generalizing accepted with
  | nil => exact apart
  | cons entry rest ih =>
      refine ih (List.pairwise_append.mpr
        ⟨apart, List.pairwise_singleton _ _, fun other listed kept isKept => ?_⟩)
      obtain rfl := List.mem_singleton.mp isKept
      intro usable usable'
      refine Bool.eq_false_iff.mpr fun same => ?_
      simp only [Bool.and_eq_true, Bool.not_eq_true', List.any_eq_false] at usable'
      exact usable'.2 other listed ⟨usable, UnitEntry.repeats_symm same⟩

end

section

variable {units : List LinkUnit}

theorem entriesOf_concat (front : List LinkUnit) (unit : LinkUnit) :
    entriesOf (front ++ [unit]) = entriesOf front ++
      ((UnitEntry.of? unit).map (·.after (entriesOf front))).toList := by
  rw [entriesOf, List.filterMap_append, rejectRepeated_append, ← entriesOf,
    List.filterMap_cons]
  cases UnitEntry.of? unit with
  | none => simp [rejectRepeated]
  | some entry => rfl

theorem entriesOf_usableApart : UsableApart (entriesOf units) :=
  usableApart_rejectRepeated List.Pairwise.nil

variable (distinct : (units.map (·.source)).Nodup)
include distinct

theorem entriesOf_distinct : ((entriesOf units).map (·.source)).Nodup := by
  rw [entriesOf, rejectRepeated_sources]
  exact nodup_sources_of? distinct

/-- The entry of a unit, which can be used unless it repeats a usable one before
it. -/
theorem entriesOf_find?_split {front back : List LinkUnit} {unit : LinkUnit}
    {entry : UnitEntry} (split : units = front ++ unit :: back)
    (known : UnitEntry.of? unit = some entry) :
    (entriesOf units).find? (·.source == unit.source) =
      some (entry.after (entriesOf front)) := by
  refine (UnitEntry.find?_source_iff (entriesOf_distinct distinct)).mpr
    ⟨?_, show entry.source = unit.source from UnitEntry.of?_source known⟩
  subst split
  rw [entriesOf, List.filterMap_append, List.filterMap_cons_some known,
    rejectRepeated_append]
  exact mem_rejectRepeated (List.mem_append_right _ (List.mem_singleton_self _)) _

/-- A unit without an entry is left alone. -/
theorem rejectUnit_of_unknown {unit : LinkUnit} (member : unit ∈ units)
    (unknown : UnitEntry.of? unit = none) :
    rejectUnit (entriesOf units) unit = (unit, []) := by
  unfold rejectUnit
  split
  next entry root found _ =>
    obtain ⟨listed, source⟩ :=
      (UnitEntry.find?_source_iff (entriesOf_distinct distinct)).mp found
    have listed : entry.source ∈ (entriesOf units).map (·.source) :=
      List.mem_map_of_mem listed
    rw [entriesOf, rejectRepeated_sources, List.map_nil, List.nil_append,
      List.mem_map] at listed
    obtain ⟨other, among, same⟩ := listed
    obtain ⟨twin, among, known⟩ := List.mem_filterMap.mp among
    obtain rfl : twin = unit := List.inj_on_of_nodup_map distinct among member
      ((UnitEntry.of?_source known).symm.trans (same.trans source))
    simp [unknown] at known
  · rfl

/-- What becomes of a unit when duplicates are rejected. -/
theorem rejectUnit_split {front back : List LinkUnit} {unit : LinkUnit}
    {entry : UnitEntry} (split : units = front ++ unit :: back)
    (known : UnitEntry.of? unit = some entry) :
    ∃ root, unit.tree.root? = some root ∧
      rejectUnit (entriesOf units) unit =
        ({ unit with usable := (entry.after (entriesOf front)).usable },
          if unit.usable && !(entry.after (entriesOf front)).usable then
            [(repeatedUnit root (entry.after (entriesOf front))).toDiagnostic
              unit.source]
          else []) := by
  obtain ⟨root, isRoot⟩ : ∃ root, unit.tree.root? = some root := by
    unfold UnitEntry.of? at known
    split at known
    next root _ isRoot _ => exact ⟨root, isRoot⟩
    · simp at known
  refine ⟨root, isRoot, ?_⟩
  have usable : (entry.after (entriesOf front)).usable = true →
      unit.usable = true := by
    rw [← UnitEntry.of?_usable known]
    exact fun usable => (Bool.and_eq_true_iff.mp usable).1
  simp only [rejectUnit, entriesOf_find?_split distinct split known, isRoot]
  generalize entry.after (entriesOf front) = entry at usable
  obtain ⟨tree, queue, isUsable, deferred⟩ := unit
  cases isUsable <;> cases after : entry.usable <;> simp_all

theorem of?_bound_split {front back : List LinkUnit} {unit : LinkUnit}
    (split : units = front ++ unit :: back) :
    UnitEntry.of? (bindUnit (entriesOf units)
        (rejectUnit (entriesOf units) unit).1).1 =
      (UnitEntry.of? unit).map (·.after (entriesOf front)) := by
  rw [of?_bindUnit]
  cases known : UnitEntry.of? unit with
  | none =>
      have member : unit ∈ units := split ▸ List.mem_append_right _ (.head _)
      rw [rejectUnit_of_unknown distinct member known, known]
      rfl
  | some entry =>
      obtain ⟨root, isRoot, rejected⟩ := rejectUnit_split distinct split known
      rw [rejected, Option.map_some]
      unfold UnitEntry.of? at known ⊢
      split at known
      next isRoot declared =>
        obtain rfl := Option.some.inj known
        simp only [isRoot, declared]
        rfl
      · simp at known

/-- The units before some place stand for the entries decided before it. -/
theorem filterMap_bound {front back : List LinkUnit}
    (split : units = front ++ back) :
    (front.map fun unit => (bindUnit (entriesOf units)
        (rejectUnit (entriesOf units) unit).1).1).filterMap UnitEntry.of? =
      entriesOf front := by
  induction front using List.reverseRecOn generalizing back with
  | nil => rfl
  | append_singleton front unit ih =>
      rw [List.append_assoc, List.singleton_append] at split
      rw [List.map_append, List.filterMap_append, ih split, List.map_singleton,
        entriesOf_concat, List.filterMap_cons, of?_bound_split distinct split]
      cases UnitEntry.of? unit <;> rfl

end

/-- An error about a statement that cannot be bound. -/
def IsUnboundError (error : StatementError) : Prop :=
  error.IsSevere ∧ error.kind ≠ .duplicateIdentifier

section

variable {entries : List UnitEntry} (distinct : (entries.map (·.source)).Nodup)
  (apart : UsableApart entries)
include distinct apart

theorem bindImport_isBoundAmong {declaration : Import}
    (unbound : declaration.resolved = none) :
    declaration.IsBoundAmong entries (bindImport entries declaration).1 := by
  have meant (entry : UnitEntry) :=
    @UnitEntry.pick?_eq_some_iff _ entry declaration.module
      declaration.revisionDate false distinct apart
  have isSome := @UnitEntry.pick?_isSome_iff _ declaration.module
    declaration.revisionDate false distinct apart
  unfold bindImport
  cases picked : UnitEntry.pick? entries declaration.module
      declaration.revisionDate false with
  | some found =>
      simp only [picked, Option.some.injEq] at meant isSome
      refine ⟨rfl, isSome, fun source => ?_⟩
      simp [← meant]
  | none =>
      simp only [picked, reduceCtorEq, false_iff] at meant isSome
      refine ⟨rfl, by simpa [unbound] using isSome, fun source => ?_⟩
      simp [unbound, meant]

theorem bindInclude_isBoundAmong {declaration : Include} (parent : String)
    (unbound : declaration.resolved = none) :
    declaration.IsBoundAmong entries parent
      (bindInclude entries parent declaration).1 := by
  have meant (entry : UnitEntry) :=
    @UnitEntry.pick?_eq_some_iff _ entry declaration.submodule
      declaration.revisionDate true distinct apart
  unfold bindInclude
  cases picked : UnitEntry.pick? entries declaration.submodule
      declaration.revisionDate true with
  | some found =>
      simp only [picked, Option.some.injEq] at meant
      by_cases part : found.belongsTo = some parent
      · refine ⟨by simp [part], fun source => ?_⟩
        simp [← meant, part]
      · refine ⟨by simp [part], fun source => ?_⟩
        simp [← meant, part, unbound]
  | none =>
      simp only [picked, reduceCtorEq, false_iff] at meant
      refine ⟨rfl, fun source => ?_⟩
      simp [unbound, meant]

end

section

variable {entries : List UnitEntry}

theorem bindImport_errors (declaration : Import) :
    ∀ error ∈ (bindImport entries declaration).2, IsUnboundError error := by
  unfold bindImport
  split
  · exact List.forall_mem_nil _
  · simp [IsUnboundError, StatementError.withHint, StatementError.atPlace,
      StatementError.IsSevere, DiagnosticKind.severity]

/-- An import that is not bound is reported once, and none that is. -/
theorem bindImport_spans {declaration : Import}
    (unbound : declaration.resolved = none) :
    (bindImport entries declaration).2.map (·.span) =
      ([(bindImport entries declaration).1].filter
        (·.resolved.isNone)).map (·.span) := by
  unfold bindImport
  split
  · rfl
  · simp [unbound, StatementError.withHint, StatementError.atPlace]

theorem bindInclude_errors (parent : String) (declaration : Include) :
    ∀ error ∈ (bindInclude entries parent declaration).2,
      IsUnboundError error := by
  unfold bindInclude
  dsimp only
  split
  · split
    · exact List.forall_mem_nil _
    · simp [IsUnboundError, StatementError.atPlace, StatementError.IsSevere,
        DiagnosticKind.severity]
  · simp [IsUnboundError, StatementError.withHint, StatementError.atPlace,
      StatementError.IsSevere, DiagnosticKind.severity]

theorem bindInclude_spans {parent : String} {declaration : Include}
    (unbound : declaration.resolved = none) :
    (bindInclude entries parent declaration).2.map (·.span) =
      ([(bindInclude entries parent declaration).1].filter
        (·.resolved.isNone)).map (·.span) := by
  unfold bindInclude
  dsimp only
  split
  · split
    · rfl
    · simp [unbound, StatementError.atPlace]
  · simp [unbound, StatementError.withHint, StatementError.atPlace]

/-- If each statement is reported once unless it is bound, then so are several. -/
theorem spans_flatMap {α : Type} {bind : α → α × List StatementError}
    {isUnbound : α → Bool} {span : α → Span} {written : List α}
    (each : ∀ declaration ∈ written, (bind declaration).2.map (·.span) =
      ([(bind declaration).1].filter isUnbound).map span) :
    ((written.map bind).flatMap (·.2)).map (·.span) =
      (((written.map bind).map (·.1)).filter isUnbound).map span := by
  induction written with
  | nil => rfl
  | cons declaration rest ih =>
      obtain ⟨first, others⟩ := List.forall_mem_cons.mp each
      rw [List.map_cons, List.flatMap_cons, List.map_append, first, ih others,
        ← List.map_append, ← List.filter_append]
      rfl

/-- The statements of a header are bound, and what is reported about them. -/
theorem bindUnit_usable {unit : LinkUnit} {entry : UnitEntry}
    {header : ModuleHeader} (usable : unit.usable = true)
    (found : entries.find? (·.source == unit.source) = some entry)
    (declared : unit.tree.header? = some header)
    (unbound : header.IsUnbound) :
    ∃ header', (bindUnit entries unit).1.tree.header? = some header' ∧
      header'.imports =
        header.imports.map (fun written => (bindImport entries written).1) ∧
      header'.includes = header.includes.map
        (fun written => (bindInclude entries entry.parent written).1) ∧
      (bindUnit entries unit).2.map (·.span) = header'.unboundSpans := by
  have parent : entry.belongsTo.getD entry.name = entry.parent := rfl
  simp only [bindUnit, usable, found, declared, parent]
  refine ⟨_, header?_mapHeader declared _, List.map_map, List.map_map, ?_⟩
  rw [List.map_map]
  exact List.map_append.trans (congrArg₂ (· ++ ·)
    (spans_flatMap fun written listed =>
      bindImport_spans (unbound.imports written listed))
    (spans_flatMap fun written listed =>
      bindInclude_spans (unbound.includes written listed)))

end

/-- What binding a unit reports. -/
theorem bindUnit_problem (entries : List UnitEntry) (unit : LinkUnit) :
    ∀ problem ∈ (bindUnit entries unit).2, problem.source = unit.source ∧
      problem.isError = true ∧ problem.kind ≠ .duplicateIdentifier := by
  unfold bindUnit
  split
  next entry header _ _ _ =>
    intro problem reported
    obtain ⟨error, raised, rfl⟩ := List.mem_map.mp reported
    suffices isUnbound : IsUnboundError error from
      ⟨rfl, isUnbound.1.isError_toDiagnostic _, isUnbound.2⟩
    simp only [List.mem_append, List.mem_flatMap, List.mem_map] at raised
    obtain ⟨_, ⟨written, _, rfl⟩, raised⟩ |
      ⟨_, ⟨written, _, rfl⟩, raised⟩ := raised
    · exact bindImport_errors written error raised
    · exact bindInclude_errors _ written error raised
  · exact List.forall_mem_nil _

/-- What is reported about one unit of several. -/
theorem filter_source_flatMap {units : List LinkUnit} {unit : LinkUnit}
    {report : LinkUnit → Diagnostics}
    (own : ∀ unit, ∀ problem ∈ report unit, problem.source = unit.source)
    (distinct : (units.map (·.source)).Nodup) (member : unit ∈ units) :
    (units.flatMap report).filter (·.source == unit.source) = report unit := by
  have whole (unit : LinkUnit) :
      (report unit).filter (·.source == unit.source) = report unit :=
    List.filter_eq_self.mpr fun problem raised => beq_iff_eq.mpr (own _ _ raised)
  induction units with
  | nil => simp at member
  | cons first rest ih =>
      rw [List.map_cons, List.nodup_cons] at distinct
      rw [List.flatMap_cons, List.filter_append]
      obtain rfl | member := List.mem_cons.mp member
      · rw [whole, List.filter_eq_nil_iff.mpr, List.append_nil]
        intro problem raised same
        obtain ⟨other, among, raised⟩ := List.mem_flatMap.mp raised
        refine distinct.1 (List.mem_map.mpr ⟨other, among, ?_⟩)
        exact (own other problem raised).symm.trans (beq_iff_eq.mp same)
      · rw [ih distinct.2 member, List.filter_eq_nil_iff.mpr, List.nil_append]
        intro problem raised same
        refine distinct.1 (List.mem_map.mpr ⟨unit, member, ?_⟩)
        exact (beq_iff_eq.mp same).symm.trans (own first problem raised)

theorem rejectUnit_problem (entries : List UnitEntry) (unit : LinkUnit) :
    ∀ problem ∈ (rejectUnit entries unit).2, problem.source = unit.source ∧
      problem.isError = true ∧ problem.kind = .duplicateIdentifier := by
  unfold rejectUnit
  split
  · split
    · intro problem raised
      obtain rfl := List.mem_singleton.mp raised
      exact ⟨rfl, rfl, rfl⟩
    · exact List.forall_mem_nil _
  · exact List.forall_mem_nil _

section

variable {units : List LinkUnit}

theorem problems_of_unit (distinct : (units.map (·.source)).Nodup)
    {unit : LinkUnit} (member : unit ∈ units) :
    (bindSources units).2.filter (·.source == unit.source) =
      (rejectUnit (entriesOf units) unit).2 ++
        (bindUnit (entriesOf units)
          (rejectUnit (entriesOf units) unit).1).2 := by
  have own (unit : LinkUnit) : ∀ problem ∈ (bindUnit (entriesOf units)
      (rejectUnit (entriesOf units) unit).1).2,
        problem.source = unit.source := fun problem raised =>
    (bindUnit_problem _ _ problem raised).1.trans (rejectUnit_source _ unit)
  have rejects := filter_source_flatMap (fun unit problem raised =>
    (rejectUnit_problem (entriesOf units) unit problem raised).1) distinct member
  have binds := filter_source_flatMap own distinct member
  rw [← rejects, ← binds, ← List.filter_append]
  simp only [bindSources, List.flatMap_map]
  rfl

/-- A unit stays usable unless it repeats a usable one before it. -/
theorem after_usable_iff {earlier : List LinkUnit} {unit : LinkUnit}
    {entry : UnitEntry} (known : UnitEntry.of? unit = some entry) :
    (entry.after (earlier.filterMap UnitEntry.of?)).usable = true ↔
      unit.usable = true ∧ ∀ other ∈ earlier, other.usable = true →
        ¬ unit.Repeats other := by
  simp only [UnitEntry.after, Bool.and_eq_true, Bool.not_eq_true',
    List.any_eq_false, not_and, UnitEntry.of?_usable known]
  refine and_congr_right fun _ => ⟨fun fresh other among usable => ?_,
    fun fresh entry' listed usable same => ?_⟩
  · rintro ⟨entry, entry', isEntry, known', same⟩
    obtain rfl := Option.some.inj (known.symm.trans isEntry)
    exact fresh entry' (List.mem_filterMap.mpr ⟨other, among, known'⟩)
      ((UnitEntry.of?_usable known').trans usable) same
  · obtain ⟨other, among, known'⟩ := List.mem_filterMap.mp listed
    exact fresh other among ((UnitEntry.of?_usable known').symm.trans usable)
      ⟨entry, entry', known, known', same⟩

/-- A unit without an entry stays as it is. -/
theorem isBoundAmong_of_unknown {unit : LinkUnit}
    {earlier bound : List LinkUnit} (unknown : UnitEntry.of? unit = none) :
    unit.IsBoundAmong earlier bound [] unit where
  source := rfl
  usable := by
    refine ⟨fun usable => ⟨usable, ?_⟩, And.left⟩
    rintro other - - ⟨entry, _, known, -⟩
    simp [unknown] at known
  rejected := by simp
  declared := by
    intro _ header declared
    simpa [unknown] using UnitEntry.of?_isSome declared
  idle := by simp

/-- The imports and includes of a unit with an entry that stays usable. -/
theorem bindUnit_declared (distinct : (units.map (·.source)).Nodup)
    {front back : List LinkUnit} {unit : LinkUnit} {entry : UnitEntry}
    (split : units = front ++ unit :: back)
    (known : UnitEntry.of? unit = some entry) (usable : unit.usable = true)
    {header : ModuleHeader} (declared : unit.tree.header? = some header)
    (unbound : header.IsUnbound) :
    ∃ header', (bindUnit (entriesOf units) unit).1.tree.header? = some header' ∧
      List.Forall₂ (Import.IsBoundAmong (entriesOf units))
        header.imports header'.imports ∧
      List.Forall₂ (Include.IsBoundAmong (entriesOf units) entry.parent)
        header.includes header'.includes ∧
      (bindUnit (entriesOf units) unit).2.map (·.span) =
        header'.unboundSpans := by
  have distinct' := entriesOf_distinct distinct
  obtain ⟨header', declared', imports, includes, spans⟩ :=
    bindUnit_usable usable (entriesOf_find?_split distinct split known) declared
      unbound
  refine ⟨header', declared', ?_, ?_, spans⟩
  · rw [imports, List.forall₂_map_right_iff, List.forall₂_same]
    exact fun written listed => bindImport_isBoundAmong distinct'
      entriesOf_usableApart (unbound.imports written listed)
  · rw [includes, List.forall₂_map_right_iff, List.forall₂_same]
    exact fun written listed => bindInclude_isBoundAmong distinct'
      entriesOf_usableApart entry.parent (unbound.includes written listed)

/-- What becomes of the unit at some place. -/
theorem bound_isBoundAmong (awaits : AwaitsBinding units)
    {front back : List LinkUnit} {unit : LinkUnit}
    (split : units = front ++ unit :: back) :
    unit.IsBoundAmong
      (front.map fun unit => (bindUnit (entriesOf units)
        (rejectUnit (entriesOf units) unit).1).1)
      (bindSources units).1
      ((rejectUnit (entriesOf units) unit).2 ++
        (bindUnit (entriesOf units) (rejectUnit (entriesOf units) unit).1).2)
      (bindUnit (entriesOf units) (rejectUnit (entriesOf units) unit).1).1 := by
  obtain ⟨distinct, unbound⟩ := awaits
  have member : unit ∈ units := split ▸ List.mem_append_right _ (.head _)
  have front_eq := filterMap_bound distinct split
  have whole : (bindSources units).1.filterMap UnitEntry.of? = entriesOf units := by
    rw [bindSources_eq]
    exact filterMap_bound distinct (List.append_nil units).symm
  generalize front.map _ = earlier at front_eq ⊢
  cases known : UnitEntry.of? unit with
  | none =>
      have headless : unit.tree.header? = none := by
        cases declared : unit.tree.header? with
        | none => rfl
        | some header => simpa [known] using UnitEntry.of?_isSome declared
      have same : bindUnit (entriesOf units) unit = (unit, []) := by
        simp [bindUnit, headless]
      rw [rejectUnit_of_unknown distinct member known, same]
      exact isBoundAmong_of_unknown known
  | some entry =>
      obtain ⟨root, -, rejected⟩ := rejectUnit_split distinct split known
      have iff := front_eq ▸ @after_usable_iff earlier unit entry known
      cases isUsable : (entry.after (entriesOf front)).usable with
      | true =>
          obtain ⟨kept, fresh⟩ := iff.mp isUsable
          have same : rejectUnit (entriesOf units) unit = (unit, []) := by
            refine Prod.ext (rejectUnit_eq_self ?_) ?_ <;> simp [rejected, isUsable]
          have problems := bindUnit_problem (entriesOf units) unit
          obtain ⟨source, usable⟩ := bindUnit_front (entriesOf units) unit
          rw [same, List.nil_append]
          refine ⟨source, ?_, ?_, fun _ header declared => ?_, ?_⟩
          · simpa [usable, kept] using fresh
          · rw [usable, Bool.and_not_self, List.countP_eq_zero.mpr]
            · rfl
            · exact fun problem raised =>
                (problems problem raised).2.2 ∘ beq_iff_eq.mp
          · obtain ⟨header', declared', imports, includes, spans⟩ :=
              bindUnit_declared distinct split known kept declared
                (unbound unit member kept header declared)
            rw [whole, List.filter_eq_self.mpr fun problem raised =>
              bne_iff_ne.mpr (problems problem raised).2.2]
            exact ⟨entry, header', known, declared', imports, includes, spans⟩
          · simp [usable, kept]
      | false =>
          have unlucky : unit.usable = true →
              ¬ ∀ other ∈ earlier, other.usable = true → ¬ unit.Repeats other :=
            fun kept fresh => by simp [iff.mpr ⟨kept, fresh⟩] at isUsable
          have problems := rejectUnit_problem (entriesOf units) unit
          rw [rejected, isUsable] at problems ⊢
          simp only [bindUnit, List.append_nil]
          refine ⟨rfl, by simpa using unlucky, ?_, by simp, fun _ =>
            ⟨rfl, fun problem raised => (problems problem raised).2.2⟩⟩
          rw [List.countP_eq_length.mpr fun problem raised =>
            beq_iff_eq.mpr (problems problem raised).2.2]
          cases unit.usable <;> rfl

theorem bindSources_bindsCorrectly (awaits : AwaitsBinding units) :
    BindsCorrectly units (bindSources units).1 (bindSources units).2 where
  apart := by
    have apart : UsableApart (entriesOf units) := entriesOf_usableApart
    rw [← filterMap_bound awaits.distinct (List.append_nil units).symm,
      ← bindSources_eq] at apart
    refine (List.pairwise_filterMap.mp apart).imp ?_
    rintro first second apart usable usable' ⟨entry, entry', known, known', same⟩
    have different := apart entry known entry' known'
      ((UnitEntry.of?_usable known).trans usable)
      ((UnitEntry.of?_usable known').trans usable')
    simp [same] at different
  length := by simp [bindSources_eq]
  units := by
    intro place unit after known knownAfter
    obtain ⟨inside, same⟩ := List.getElem?_eq_some_iff.mp known
    have split : units = units.take place ++ unit :: units.drop (place + 1) := by
      rw [← same, List.getElem_cons_drop, List.take_append_drop]
    rw [problems_of_unit awaits.distinct (List.mem_of_getElem? known)]
    rw [bindSources_eq, List.getElem?_map, known, Option.map_some,
      Option.some.injEq] at knownAfter
    rw [← knownAfter]
    nth_rewrite 1 [bindSources_eq]
    rw [← List.map_take]
    exact bound_isBoundAmong awaits split
  severe := by
    intro problem reported
    simp only [bindSources, List.mem_append, List.mem_flatMap, List.mem_map]
      at reported
    obtain ⟨_, ⟨unit, _, rfl⟩, raised⟩ |
      ⟨_, ⟨_, ⟨unit, _, rfl⟩, rfl⟩, raised⟩ := reported
    · exact (rejectUnit_problem _ _ problem raised).2.1
    · exact (bindUnit_problem _ _ problem raised).2.1

theorem rejectUnit_silent {entries : List UnitEntry} {unit : LinkUnit}
    (kept : (rejectUnit entries unit).1 = unit) :
    (rejectUnit entries unit).2 = [] := by
  cases found : entries.find? (·.source == unit.source) with
  | none => simp [rejectUnit, found]
  | some entry =>
      cases isRoot : unit.tree.root? with
      | none => simp [rejectUnit, found, isRoot]
      | some root =>
          simp only [rejectUnit, found, isRoot] at kept ⊢
          by_cases rejected : (unit.usable && !entry.usable) = true
          · rw [if_pos rejected] at kept
            have same : false = unit.usable := congrArg (·.usable) kept
            simp [← same] at rejected
          · rw [if_neg rejected]

/-- If no two units repeat each other, all that is reported is about imports and
includes. -/
theorem problems_of_apart (distinct : (units.map (·.source)).Nodup)
    (apart : UnitEntry.AreApart (units.filterMap UnitEntry.of?)) :
    (bindSources units).2 = units.flatMap fun unit =>
      (bindUnit (units.filterMap UnitEntry.of?) unit).2 := by
  have kept : units.map (rejectUnit (units.filterMap UnitEntry.of?)) =
      units.map fun unit => (unit, []) := by
    refine List.map_congr_left fun unit member => ?_
    have same := rejectUnit_of_apart distinct member
    exact Prod.ext same (rejectUnit_silent same)
  simp only [bindSources]
  rw [← entriesOf, entriesOf_of_apart apart, kept]
  simp [List.flatMap_map]

/-- Imports and includes are bound to the units that they mean, a unit that repeats
another one is rejected, and each of them that fails is reported once.  The order
of units that do not repeat each other makes no difference. -/
theorem bindSources_correct (awaits : AwaitsBinding units) :
    BindsCorrectly units (bindSources units).1 (bindSources units).2 ∧
      (UnitEntry.AreApart (units.filterMap UnitEntry.of?) →
        ∀ units' : List LinkUnit, units'.Perm units →
          (bindSources units').1.Perm (bindSources units).1 ∧
            (bindSources units').2.Perm (bindSources units).2) := by
  refine ⟨bindSources_bindsCorrectly awaits, fun apart units' permuted => ?_⟩
  obtain ⟨distinct, -⟩ := awaits
  refine ⟨bindSources_perm distinct apart permuted, ?_⟩
  rw [problems_of_apart distinct apart, problems_of_apart
    ((permuted.map _).nodup_iff.mpr distinct) (areApart_perm apart permuted),
    bindUnit_perm distinct apart permuted]
  exact permuted.flatMap_right _

end

end Linking

namespace Compilation

/-- The units of a compilation as they are when their sources are to be bound. -/
theorem ofParsed_awaitsBinding (parsed : ParsedSources) :
    Linking.AwaitsBinding (ofParsed parsed).units where
  distinct := ofParsed_distinct parsed
  unbound := by
    intro unit member usable header declared
    obtain ⟨draft, finished, rfl⟩ := ofParsed_isFinished parsed member usable
    rw [(Draft.asUnit_linkInside draft).2.text.header?] at declared
    obtain ⟨root, found, declared⟩ := Option.bind_eq_some_iff.mp declared
    have unbound := (finished.sound.nodes found).unbound
    exact
      { imports := fun written listed =>
          unbound _ (Construct.mem_bindings_of_import declared listed)
        includes := fun written listed =>
          unbound _ (Construct.mem_bindings_of_include declared listed) }

/-- Of two revisions of a module an import means the newer one. -/
theorem bindSources_correct_of_revisions :
    ∃ parsed : ParsedSources,
      ParsedSources.ofSources .standard
        [⟨.inline, "module t \x7b namespace \"u:t\"; prefix t; " ++
            "revision 2021-01-01; \x7d"⟩,
          ⟨.inline, "module t \x7b namespace \"u:t\"; prefix t; " ++
            "revision 2020-01-01; \x7d"⟩,
          ⟨.inline, "module n \x7b namespace \"u:n\"; prefix n; " ++
            "import t \x7b prefix t; \x7d import x \x7b prefix x; \x7d \x7d"⟩]
        = .ok parsed ∧
      let units := (ofParsed parsed).units
      let (bound, problems) := Linking.bindSources units
      Linking.AwaitsBinding units ∧
      UnitEntry.AreApart (units.filterMap UnitEntry.of?) ∧
      Linking.BindsCorrectly units bound problems ∧
      (Linking.bindSources units.reverse).1.Perm bound ∧
      (Linking.bindSources units.reverse).2.Perm problems ∧
      (bound.filterMap (·.tree.header?)).map
          (fun header => header.imports.map (·.resolved)) =
        [[], [], [some 0, none]] ∧
      problems.length = 1 := by
  generalize written : ([_, _, _] : Sources) = sources
  have checked : (ParsedSources.ofSources .standard sources).toOption.any
      (fun parsed =>
        let units := (ofParsed parsed).units
        let (bound, problems) := Linking.bindSources units
        decide (UnitEntry.AreApart (units.filterMap UnitEntry.of?)) &&
          (bound.filterMap (·.tree.header?)).map
              (fun header => header.imports.map (·.resolved)) ==
            [[], [], [some 0, none]] &&
          problems.length == 1) = true := by
    subst written
    decide +kernel
  cases parsing : ParsedSources.ofSources .standard sources with
  | error error => simp [parsing, Except.toOption] at checked
  | ok parsed =>
      simp only [parsing, Except.toOption, Option.any_some, Bool.and_eq_true,
        decide_eq_true_eq, beq_iff_eq] at checked
      obtain ⟨⟨apart, resolved⟩, single⟩ := checked
      have awaits := ofParsed_awaitsBinding parsed
      obtain ⟨correct, permuting⟩ := Linking.bindSources_correct awaits
      obtain ⟨bound, problems⟩ := permuting apart _ (List.reverse_perm _)
      exact ⟨parsed, rfl, awaits, apart, correct, bound, problems, resolved, single⟩

end Compilation

end YangSchema
