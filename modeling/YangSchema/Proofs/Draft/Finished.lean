import YangSchema.Compilation
import YangSchema.Proofs.Draft.Reading

/-!
# Units that have been read

A source that has been read without an error holds one unit.  Up to the end of
that unit nothing has been linked; then everything is linked that leads nowhere
outside, and what may follow changes neither the tree nor the queue.
-/

namespace YangSchema

namespace Draft

variable {draft : Draft} {statement : Statement}

/-- What is left of a unit when it ends, before it is linked. -/
structure IsFinished (draft : Draft) : Prop where
  sound : draft.IsSound
  unlinked : draft.IsUnlinked
  /-- Every reference has a place of its own. -/
  single : (draft.queue.map (·.linkPlace)).Nodup
  rooted : rootId < draft.tree.size

theorem role_unit (unit : statement.known ∈ [Keyword.module, .submodule]) :
    ∃ construct : Construct,
      role statement.known = .block (openUnit construct) closeUnit ∧
        construct.IsBare ∧ construct.kind ≠ .typedef ∧
          construct.kind.asking? = none ∧ construct.missingTarget? = none := by
  obtain known | known : statement.known = .module ∨
      statement.known = .submodule := by simpa using unit
  all_goals
    rw [known]
    exact ⟨_, rfl, Construct.isBare_of_check rfl, by decide, rfl, rfl⟩

/-- If no place of the root can be asked for, every place of a unit that has been
read is asked for once. -/
theorem nodup_linkPlaces {opened inner : Draft} {keywords : List Keyword}
    (empty : draft.tree.size = 0) (unlinked : draft.IsUnlinked)
    (asks : opened.Asks keywords inner) (whole : inner.IsUnlinked)
    (opening : ∀ place, place.isRepeatable = true →
      opened.queue.asked place = draft.queue.asked place)
    (silent : ∀ id, opened.allowance keywords id = 0) :
    (inner.queue.map (·.linkPlace)).Nodup := by
  refine List.nodup_iff_count_le_one.mpr fun place => ?_
  by_cases repeatable : place.isRepeatable = true
  · have none : draft.queue.asked place = 0 :=
      unlinked.asked_eq_zero_of_le repeatable (empty ▸ Nat.zero_le _)
    by_cases known : place.node < opened.tree.size
    · have asked := asks.old place repeatable known
      rw [silent, opening place repeatable, none] at asked
      exact Nat.le_trans asked (Nat.zero_le 1)
    · exact asks.new place repeatable (Nat.le_of_not_lt known)
  · exact whole.apart place (Bool.not_eq_true _ ▸ repeatable)

/-- When all of a unit has been read, nothing but the unit is open. -/
theorem readAll_unit {openBlock closeBlock : Step} {opened : Draft}
    (unit : statement.known ∈ [Keyword.module, .submodule])
    (isBlock : role statement.known = .block openBlock closeBlock)
    (sound : draft.IsSound) (unlinked : draft.IsUnlinked)
    (ok : openBlock draft statement = .ok opened)
    (whole : (readAll opened statement.substatements).error = none) :
    let inner := (readAll opened statement.substatements).draft
    closeBlock = closeUnit ∧ inner.tree.source = draft.tree.source ∧
      (∃ root, inner.stack = [root]) ∧
        IsFinished { inner with stack := [] } := by
  obtain ⟨construct, isUnit, bare, named, silent, complete⟩ := role_unit unit
  obtain ⟨rfl, rfl⟩ := Role.block.inj (isBlock.symm.trans isUnit)
  obtain ⟨frame, ⟨unopened, rfl, isRoot⟩, opens⟩ :=
    openUnit_opens bare named complete ok
  have follows := (readAll_reads whole).follows
  have becomes := follows.stack
  rw [opens.stack, unopened] at becomes
  obtain ⟨frames, stack, becomes⟩ := becomes.of_append (by simp)
  cases becomes with
  | @top _ root _ filled =>
      have open' := opens.sound sound
      have held := follows.held.mpr (by simp [opens.stack])
      have stack : _ = [root] := stack
      have unlinked' := opens.unlinked sound unlinked
      have whole := follows.unlinked held open' unlinked'
      have empty : draft.tree.size = 0 := Nat.le_zero.mp <|
        opens.fresh rootId (List.mem_singleton_self _)
      have single := nodup_linkPlaces empty unlinked
        (follows.asks held open' unlinked') whole opens.asks fun id => by
          unfold allowance
          split
          next top =>
            obtain rfl : rootId = id := by simpa [opens.stack] using top
            simp [isRoot, silent]
          · rfl
      refine ⟨rfl, follows.source.trans opens.keeps.source, ⟨root, stack⟩,
        (follows.sound open').pop stack,
        whole.pop stack, single, ?_⟩
      exact SchemaTree.lt_size_of_kind? (follows.keeps.kind? isRoot)

/-- A unit that is read is linked when it ends. -/
theorem read_unit (unit : statement.known ∈ [Keyword.module, .submodule])
    (sound : draft.IsSound) (unlinked : draft.IsUnlinked)
    (whole : (read draft statement).error = none) :
    ∃ inner : Draft, inner.IsFinished ∧
      inner.tree.source = draft.tree.source ∧
      (read draft statement).draft = inner.linkInside := by
  obtain ⟨construct, isBlock, -⟩ := role_unit unit
  cases statement with
  | mk keyword argument span block substatements =>
  unfold read at whole ⊢
  dsimp only at whole ⊢
  rw [isBlock] at whole ⊢
  dsimp only at whole ⊢
  obtain ⟨opening, whole, same⟩ := Progress.andThen_error whole
  obtain ⟨inside, closing, same'⟩ := Progress.andThen_error whole
  rw [same, same']
  obtain ⟨-, source, ⟨root, stack⟩, finished⟩ := readAll_unit unit isBlock sound
    unlinked (Progress.ofStep_error opening) inside
  exact ⟨_, finished, source,
    closeUnit_eq_ok stack (Progress.ofStep_error closing)⟩

/-- Behind the unit there are extensions only, up to an error. -/
theorem readTopLevel_seen (statements : List Statement) :
    (readTopLevel draft true statements).draft.asUnit = draft.asUnit := by
  induction statements generalizing draft with
  | nil => rfl
  | cons statement rest ih =>
      unfold readTopLevel
      dsimp only
      split
      case h_3 known =>
        rw [read_of_extension known]
        exact ih.trans (asUnit_passOver draft statement)
      all_goals rfl

/-- Behind a unit without an error there are extensions only. -/
theorem readTopLevel_extensions
    (whole : (readTopLevel draft true statements).error = none) :
    ∀ statement ∈ statements, statement.known = .extensionInstance := by
  induction statements generalizing draft with
  | nil => simp
  | cons statement rest ih =>
      unfold readTopLevel at whole
      dsimp only at whole
      split at whole
      case h_3 known =>
        obtain ⟨-, others, -⟩ := Progress.andThen_error whole
        exact List.forall_mem_cons.mpr ⟨known, ih others⟩
      all_goals simp at whole

/-- A file holds one unit, and around it extensions only. -/
structure ReadsUnit (draft : Draft) (statements : List Statement)
    (before : Draft) (unit : Statement) : Prop where
  isUnit : unit.known ∈ [Keyword.module, .submodule]
  around : ∃ front back, statements = front ++ unit :: back ∧
    ∀ other ∈ front ++ back, other.known = .extensionInstance
  sound : before.IsSound
  unlinked : before.IsUnlinked
  source : before.tree.source = draft.tree.source
  whole : (read before unit).error = none
  ends : (readTopLevel draft false statements).draft.asUnit =
    (read before unit).draft.asUnit

/-- A file that is read without an error holds a unit. -/
theorem exists_readsUnit {statements : List Statement} (sound : draft.IsSound)
    (unlinked : draft.IsUnlinked)
    (whole : (readTopLevel draft false statements).error = none) :
    ∃ before unit, draft.ReadsUnit statements before unit := by
  induction statements generalizing draft with
  | nil => simp [readTopLevel] at whole
  | cons statement rest ih =>
      have unit (known : statement.known ∈ [Keyword.module, .submodule])
          (same : readTopLevel draft false (statement :: rest) =
            (read draft statement).andThen (readTopLevel · true rest)) :
          draft.ReadsUnit (statement :: rest) draft statement := by
        rw [same] at whole
        obtain ⟨first, others, ends⟩ := Progress.andThen_error whole
        exact
          { isUnit := known
            around := ⟨[], rest, rfl, readTopLevel_extensions others⟩
            sound, unlinked
            source := rfl
            whole := first
            ends := by rw [same, ends, readTopLevel_seen] }
      cases known : statement.known
      case module =>
        exact ⟨_, _, unit (by simp [known]) (by simp [readTopLevel, known])⟩
      case submodule =>
        exact ⟨_, _, unit (by simp [known]) (by simp [readTopLevel, known])⟩
      case extensionInstance =>
        have same : readTopLevel draft false (statement :: rest) =
            readTopLevel (draft.passOver statement) false rest := by
          simp [readTopLevel, known, read_of_extension known, Progress.andThen]
        rw [same] at whole
        obtain ⟨before, holder, reads⟩ :=
          ih ((passOver_follows draft statement).sound sound)
            (unlinked.passOver statement) whole
        obtain ⟨front, back, rfl, foreign⟩ := reads.around
        exact ⟨before, holder,
          { reads with
            around := ⟨statement :: front, back, rfl,
              List.forall_mem_cons.mpr ⟨known, foreign⟩⟩
            source := by rw [reads.source, tree_passOver]
            ends := same ▸ reads.ends }⟩
      all_goals simp [readTopLevel, known] at whole

/-- A file that is read without an error is a finished unit that has been
linked. -/
theorem readTopLevel_unseen {statements : List Statement}
    (sound : draft.IsSound) (unlinked : draft.IsUnlinked)
    (whole : (readTopLevel draft false statements).error = none) :
    ∃ inner : Draft, inner.IsFinished ∧
      inner.tree.source = draft.tree.source ∧
      (readTopLevel draft false statements).draft.asUnit =
        inner.linkInside.asUnit := by
  obtain ⟨before, unit, reads⟩ := exists_readsUnit sound unlinked whole
  obtain ⟨inner, finished, source, ends⟩ :=
    read_unit reads.isUnit reads.sound reads.unlinked reads.whole
  exact ⟨inner, finished, source.trans reads.source,
    reads.ends.trans (congrArg asUnit ends)⟩

end Draft

/-- A source that has been read without an error is a finished unit that has
been linked inside. -/
theorem LinkUnit.ofAnalysis_linkInside {source : SourceId}
    {statements : List Statement}
    (whole : (Analysis.ofStatements source statements).failed = false) :
    ∃ draft : Draft, draft.IsFinished ∧ draft.tree.source = source ∧
      ofAnalysis (.ofStatements source statements) =
        draft.linkInside.asUnit := by
  obtain ⟨draft, finished, same, ends⟩ :=
    Draft.readTopLevel_unseen (.empty source) (.empty source)
      (by simpa [Analysis.ofStatements] using whole)
  refine ⟨draft, finished, same, ends ▸ ?_⟩
  simp only [ofAnalysis, whole]
  rfl

end YangSchema
