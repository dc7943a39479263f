import YangSchema.Proofs.Draft.Unwinding

/-!
# Reading as a whole

Whatever the statements of a source are, reading them leaves a sound draft, and
the source is to blame for the error that ends it, if one does.  So far goes what
one step does.  The moments at which steps are taken are those of an orderly
stack:  the nodes that are open are in the tree, and a block is closed when the
frames that its statement has opened are on top again.
-/

namespace YangSchema

namespace Draft

/-- What reading has come to:  a sound draft, and at most an error for which the
source is to blame. -/
structure Progress.IsSound (progress : Progress) : Prop where
  draft : progress.draft.IsSound
  blames : ∀ error, progress.error = some error → error.BlamesSource

namespace Progress

variable {draft : Draft} {step : Except StatementError Draft}

theorem isSound_of_none (sound : draft.IsSound) :
    IsSound ⟨draft, none⟩ :=
  ⟨sound, by simp⟩

theorem isSound_of_some {error : StatementError} (sound : draft.IsSound)
    (blames : error.BlamesSource) : IsSound ⟨draft, some error⟩ :=
  ⟨sound, by simpa using blames⟩

theorem isSound_ofStep (sound : draft.IsSound) (refuses : Refuses step)
    (kept : ∀ after, step = .ok after → after.IsSound) :
    (ofStep draft step).IsSound := by
  cases step with
  | error error => exact isSound_of_some sound (refuses error rfl)
  | ok after => exact isSound_of_none (kept after rfl)

theorem isSound_andThen {progress : Progress} {next : Draft → Progress}
    (first : progress.IsSound)
    (second : progress.error = none → (next progress.draft).IsSound) :
    (progress.andThen next).IsSound := by
  unfold andThen
  split
  next whole => exact second whole
  · exact first

end Progress

variable {before draft : Draft}

theorem FollowsAsking.unwound {after : Draft} {keywords : List Keyword}
    (follows : before.FollowsAsking keywords after)
    (unwound : before.stack = []) : after.stack = [] := by
  have becomes := follows.stack
  rw [unwound] at becomes
  generalize after.stack = stack at becomes
  cases becomes
  rfl

theorem Opens.held {opened : Draft} {frames : List Frame}
    (opens : before.Opens opened frames) (some : frames ≠ []) :
    opened.stack ≠ [] := by
  rw [opens.stack]
  exact List.append_ne_nil_of_left_ne_nil some before.stack

theorem admits_of_held (held : draft.stack ≠ []) (keyword : Keyword) :
    draft.Admits keyword :=
  fun empty => absurd empty held

theorem readForeign_isSound {holder : Statement} (sound : draft.IsSound)
    (statements : List Statement) :
    (readForeign holder draft statements).IsSound := by
  induction statements generalizing draft with
  | nil => exact Progress.isSound_of_none sound
  | cons statement rest ih =>
      unfold readForeign
      split
      · exact ih ((passOver_follows draft statement).sound sound)
      · exact Progress.isSound_of_some sound (blamesSource_unknown statement)
      · exact Progress.isSound_of_some sound (by simp)

mutual

theorem read_isSound {draft : Draft} (sound : draft.IsSound) :
    (statement : Statement) → draft.Admits statement.known →
      (read draft statement).IsSound
  | ⟨keyword, argument, span, block, substatements⟩, admits => by
      unfold read
      dsimp only
      generalize is :
        (⟨keyword, argument, span, block, substatements⟩ : Statement) =
          statement at admits
      have unwinds := role_unwinds statement.known
      have keeps := role_isSound statement.known
      split
      next isBlock =>
        rw [isBlock] at unwinds keeps
        cases unwinds with
        | block opening opens closing =>
        cases keeps with
        | block _ follows =>
            refine Progress.isSound_andThen
              (Progress.isSound_ofStep sound (opening admits _) ?_) ?_
            · intro opened ok
              obtain ⟨frames, _, pushed⟩ := opens rfl ok
              exact pushed.sound sound
            intro whole
            have ok := Progress.ofStep_error whole
            obtain ⟨frames, isOpening, pushed⟩ := opens rfl ok
            have inside := readAll_isSound (pushed.sound sound)
              substatements (pushed.held isOpening.ne_nil)
            refine Progress.isSound_andThen inside fun whole => ?_
            have reads := readAll_reads whole
            refine Progress.isSound_ofStep inside.draft
              (closing rfl admits ok reads.follows) fun after closed => ?_
            subst is
            exact (follows rfl ok reads closed).sound sound
      next isEntry =>
        rw [isEntry] at unwinds keeps
        cases unwinds with
        | entry writing =>
        cases keeps with
        | entry reads =>
            refine Progress.isSound_andThen (Progress.isSound_ofStep sound
              (writing admits _) fun after ok => ?_) fun whole => ?_
            · exact (reads rfl ok).follows.sound sound
            · have written := reads rfl (Progress.ofStep_error whole)
              exact readForeign_isSound (written.follows.sound sound) _
      · exact Progress.isSound_of_none
          ((passOver_follows draft statement).sound sound)
      next isRefused =>
        rw [isRefused] at unwinds
        cases unwinds with
        | refused blames => exact Progress.isSound_of_some sound (blames _)

theorem readAll_isSound {draft : Draft} (sound : draft.IsSound) :
    (statements : List Statement) → draft.stack ≠ [] →
      (readAll draft statements).IsSound
  | [], _ => Progress.isSound_of_none sound
  | statement :: rest, held => by
      unfold readAll
      have first := read_isSound sound statement (admits_of_held held _)
      refine Progress.isSound_andThen first fun whole => ?_
      exact readAll_isSound first.draft rest
        ((read_reads whole).follows.held.mpr held)

end

theorem readTopLevel_isSound (sound : draft.IsSound) (seen : Bool)
    (vacant : seen = false → draft.tree.isEmpty = true)
    (unwound : draft.stack = []) (statements : List Statement) :
    (readTopLevel draft seen statements).IsSound := by
  induction statements generalizing draft seen with
  | nil =>
      cases seen with
      | false => exact Progress.isSound_of_some sound ⟨rfl, rfl⟩
      | true => exact Progress.isSound_of_none sound
  | cons statement rest ih =>
      have goesOn (seen' : Bool) (admits : draft.Admits statement.known)
          (vacant' : seen' = false →
            (read draft statement).draft.tree.isEmpty = true) :
          ((read draft statement).andThen
            (readTopLevel · seen' rest)).IsSound := by
        have first := read_isSound sound statement admits
        refine Progress.isSound_andThen first fun whole => ?_
        exact ih first.draft seen' vacant'
          ((read_reads whole).follows.unwound unwound)
      unfold readTopLevel
      dsimp only
      split
      case h_4 => exact Progress.isSound_of_some sound (by simp)
      case h_3 known =>
        refine goesOn seen (fun _ => .inl known) fun unseen => ?_
        rw [read_of_extension known, tree_passOver]
        exact vacant unseen
      all_goals
        split
        · exact Progress.isSound_of_some sound (by simp)
        next known unseen =>
          refine goesOn true (fun _ => .inr ⟨by simp [known], vacant ?_⟩)
            (by simp)
          simpa using unseen

section

variable {tree : SchemaTree}

theorem Progress.keeps_ofStep {step : Except StatementError Draft}
    (start : tree.Keeps draft.tree)
    (kept : ∀ after, step = .ok after → tree.Keeps after.tree) :
    tree.Keeps (ofStep draft step).draft.tree := by
  cases step with
  | error error => exact start
  | ok after => exact kept after rfl

theorem Progress.keeps_andThen {progress : Progress} {next : Draft → Progress}
    (first : tree.Keeps progress.draft.tree)
    (second : progress.error = none →
      tree.Keeps (next progress.draft).draft.tree) :
    tree.Keeps (progress.andThen next).draft.tree := by
  unfold andThen
  split
  next whole => exact second whole
  · exact first

theorem readForeign_keeps {holder : Statement} (statements : List Statement)
    (start : tree.Keeps draft.tree) :
    tree.Keeps (readForeign holder draft statements).draft.tree := by
  induction statements generalizing draft with
  | nil => exact start
  | cons statement rest ih =>
      unfold readForeign
      split
      · exact ih (start.trans (passOver_follows draft statement).keeps)
      · exact start
      · exact start

mutual

/-- Whether it ends with an error or not, reading keeps all nodes. -/
theorem read_keeps {draft : Draft} : (statement : Statement) →
    draft.tree.Keeps (read draft statement).draft.tree
  | ⟨keyword, argument, span, block, substatements⟩ => by
      unfold read
      dsimp only
      generalize is :
        (⟨keyword, argument, span, block, substatements⟩ : Statement) =
          statement
      have unwinds := role_unwinds statement.known
      have keeps := role_isSound statement.known
      split
      next isBlock =>
        rw [isBlock] at unwinds keeps
        cases unwinds with
        | block opening opens closing =>
        cases keeps with
        | block _ follows =>
            refine Progress.keeps_andThen (Progress.keeps_ofStep (.refl _) ?_)
              fun whole => ?_
            · intro opened ok
              obtain ⟨frames, _, pushed⟩ := opens rfl ok
              exact pushed.keeps
            have ok := Progress.ofStep_error whole
            obtain ⟨frames, _, pushed⟩ := opens rfl ok
            have inside := pushed.keeps.trans (readAll_keeps substatements)
            refine Progress.keeps_andThen inside fun whole =>
              Progress.keeps_ofStep inside fun after closed => ?_
            subst is
            exact (follows rfl ok (readAll_reads whole) closed).keeps
      next write isEntry =>
        rw [isEntry] at keeps
        cases keeps with
        | entry reads =>
            have written (after : Draft)
                (ok : write draft statement = .ok after) :
                draft.tree.Keeps after.tree := (reads rfl ok).follows.keeps
            refine Progress.keeps_andThen
              (Progress.keeps_ofStep (.refl _) written) fun whole => ?_
            exact readForeign_keeps _ (written _ (Progress.ofStep_error whole))
      · exact (passOver_follows draft statement).keeps
      · exact .refl _

theorem readAll_keeps {draft : Draft} : (statements : List Statement) →
    draft.tree.Keeps (readAll draft statements).draft.tree
  | [] => .refl _
  | statement :: rest => by
      unfold readAll
      have first := @read_keeps draft statement
      exact Progress.keeps_andThen first fun _ =>
        first.trans (readAll_keeps rest)

end

theorem readTopLevel_keeps {seen : Bool} (statements : List Statement)
    (start : tree.Keeps draft.tree) :
    tree.Keeps (readTopLevel draft seen statements).draft.tree := by
  induction statements generalizing draft seen with
  | nil => exact start
  | cons statement rest ih =>
      have goesOn (seen' : Bool) : tree.Keeps ((read draft statement).andThen
          (readTopLevel · seen' rest)).draft.tree := by
        have first := start.trans (@read_keeps draft statement)
        exact Progress.keeps_andThen first fun _ => ih first
      unfold readTopLevel
      dsimp only
      split
      case h_4 => exact start
      case h_3 => exact goesOn seen
      all_goals
        split
        · exact start
        · exact goesOn true

end

/-- A moment at which a step is taken:  the first step of a statement, or the
step that closes its block. -/
inductive Moment where
  | entry (draft : Draft) (statement : Statement)
  /-- The drafts are those before the block was opened, when it was open, and
  after its sub-statements. -/
  | exit (before opened inner : Draft) (statement : Statement)

/-- The moments that are reached when statements are read in some draft. -/
inductive Reaches : Draft → List Statement → Moment → Prop
  | entry {draft : Draft} {statement : Statement} {rest : List Statement} :
      Reaches draft (statement :: rest) (.entry draft statement)
  | inside {draft opened : Draft} {statement : Statement}
      {rest : List Statement} {openBlock closeBlock : Step} {moment : Moment}
      (isBlock : role statement.known = .block openBlock closeBlock)
      (ok : openBlock draft statement = .ok opened)
      (reached : Reaches opened statement.substatements moment) :
      Reaches draft (statement :: rest) moment
  | exit {draft opened : Draft} {statement : Statement}
      {rest : List Statement} {openBlock closeBlock : Step}
      (isBlock : role statement.known = .block openBlock closeBlock)
      (ok : openBlock draft statement = .ok opened)
      (whole : (readAll opened statement.substatements).error = none) :
      Reaches draft (statement :: rest) <|
        .exit draft opened (readAll opened statement.substatements).draft
          statement
  | later {draft : Draft} {statement : Statement} {rest : List Statement}
      {moment : Moment} (whole : (read draft statement).error = none)
      (reached : Reaches (read draft statement).draft rest moment) :
      Reaches draft (statement :: rest) moment

/-- What may stand at the top level of a file. -/
structure AtTopLevel (seen : Bool) (keyword : Keyword) : Prop where
  named : keyword ∈ [Keyword.module, .submodule, .extensionInstance]
  single : seen = true → keyword = .extensionInstance

/-- The moments that are reached when a file is read. -/
inductive ReachesTopLevel : Draft → Bool → List Statement → Moment → Prop
  | here {draft : Draft} {seen : Bool} {statement : Statement}
      {rest : List Statement} {moment : Moment}
      (stands : AtTopLevel seen statement.known)
      (reached : Reaches draft [statement] moment) :
      ReachesTopLevel draft seen (statement :: rest) moment
  | later {draft : Draft} {seen : Bool} {statement : Statement}
      {rest : List Statement} {moment : Moment}
      (stands : AtTopLevel seen statement.known)
      (whole : (read draft statement).error = none)
      (reached : ReachesTopLevel (read draft statement).draft
        (seen || statement.known != .extensionInstance) rest moment) :
      ReachesTopLevel draft seen (statement :: rest) moment

/-- Every node that is open is in the tree, and so is every node around one. -/
structure IsAnchored (draft : Draft) : Prop where
  nested : draft.tree.IsNested
  known : ∀ id, .node id ∈ draft.stack → id < draft.tree.size

theorem IsSound.isAnchored (sound : draft.IsSound) : draft.IsAnchored :=
  ⟨sound.nested, sound.known⟩

/-- A step finds open what it needs:  when a block is closed, the frames on top
are those that its statement has opened, filled in at most, and below them is
what was open before. -/
def Moment.IsOrderly : Moment → Prop
  | .entry draft _ => draft.IsAnchored
  | .exit before opened inner statement =>
      inner.IsAnchored ∧ ∃ frames frames',
        opened.IsOpening statement frames ∧
        opened.stack = frames ++ before.stack ∧
        FrameStack.Becomes frames frames' ∧
        inner.stack = frames' ++ before.stack

theorem Reaches.isOrderly {statements : List Statement} {moment : Moment}
    (reached : Reaches draft statements moment) (sound : draft.IsSound) :
    moment.IsOrderly := by
  induction reached with
  | entry => exact sound.isAnchored
  | @inside _ _ statement _ _ _ _ isBlock ok _ ih =>
      have unwinds := role_unwinds statement.known
      rw [isBlock] at unwinds
      cases unwinds with
      | block opening opens closing =>
          obtain ⟨frames, -, pushed⟩ := opens rfl ok
          exact ih (pushed.sound sound)
  | @exit _ _ statement _ _ _ isBlock ok whole =>
      have unwinds := role_unwinds statement.known
      rw [isBlock] at unwinds
      cases unwinds with
      | block opening opens closing =>
          obtain ⟨frames, isOpening, pushed⟩ := opens rfl ok
          have follows := (readAll_reads whole).follows
          have becomes := follows.stack
          rw [pushed.stack] at becomes
          obtain ⟨frames', stack, becomes⟩ :=
            becomes.of_append isOpening.ne_nil
          exact ⟨(follows.sound (pushed.sound sound)).isAnchored, frames,
            frames', isOpening, pushed.stack, becomes, stack⟩
  | later whole _ ih =>
      exact ih ((read_reads whole).follows.sound sound)

theorem ReachesTopLevel.isOrderly {seen : Bool} {statements : List Statement}
    {moment : Moment} (reached : ReachesTopLevel draft seen statements moment)
    (sound : draft.IsSound) : moment.IsOrderly := by
  induction reached with
  | here _ reached => exact reached.isOrderly sound
  | later _ whole _ ih =>
      exact ih ((read_reads whole).follows.sound sound)

end Draft

namespace Analysis

variable {source : SourceId} {statements : List Statement}

theorem isSound_readTopLevel (source : SourceId)
    (statements : List Statement) :
    (Draft.readTopLevel (.empty source) false statements).IsSound :=
  Draft.readTopLevel_isSound (.empty source) false (fun _ => rfl) rfl statements

/-- A unit that failed has an error among its diagnostics. -/
theorem hasErrors_of_failed
    (failed : (ofStatements source statements).failed = true) :
    (ofStatements source statements).diagnostics.hasErrors = true := by
  obtain ⟨error, raised⟩ := Option.isSome_iff_exists.mp failed
  have severe : error.IsSevere :=
    ((isSound_readTopLevel source statements).blames error raised).1
  refine List.any_eq_true.mpr ⟨error.toDiagnostic source, ?_, ?_⟩
  · simp [ofStatements, raised]
  · exact severe.isError_toDiagnostic source

end Analysis

end YangSchema
