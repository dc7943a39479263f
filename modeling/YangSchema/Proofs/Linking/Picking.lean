import Mathlib.Data.List.Pairwise
import YangSchema.Proofs.Compilation.Links

/-!
# Units that define different things

If no two units have the same name, kind and revision, an import means the newest
of the units that suit it, and there is only one such unit.  So neither the order
of the units nor which of them have failed makes a difference to what is bound.
-/

namespace YangSchema

namespace UnitEntry

variable {entries entries' : List UnitEntry} {entry other : UnitEntry}
  {name : String} {revision : Option String} {submodule : Bool}

/-- No two units have the same name, kind and revision. -/
def AreApart (entries : List UnitEntry) : Prop :=
  entries.Pairwise fun first second => first.repeats second = false

instance : DecidablePred AreApart :=
  fun entries => inferInstanceAs (Decidable (entries.Pairwise _))

theorem repeats_iff : entry.repeats other = true ↔
    other.name = entry.name ∧ other.isSubmodule = entry.isSubmodule ∧
      other.revision = entry.revision := by
  simp [repeats, and_assoc]

theorem repeats_symm (same : entry.repeats other = true) :
    other.repeats entry = true := by
  rw [repeats_iff] at same ⊢
  exact ⟨same.1.symm, same.2.1.symm, same.2.2.symm⟩

theorem AreApart.eq_of_repeats (apart : AreApart entries)
    (listed : entry ∈ entries) (listed' : other ∈ entries)
    (same : entry.repeats other = true) : entry = other := by
  by_contra different
  have symmetric : Std.Symm fun first second : UnitEntry =>
      first.repeats second = false :=
    ⟨fun first second apart => Bool.eq_false_iff.mpr fun same =>
      Bool.eq_false_iff.mp apart (repeats_symm same)⟩
  have apart := List.Pairwise.forall apart listed listed' different
  simp [same] at apart

theorem AreApart.isBindable (apart : AreApart entries)
    (listed : entry ∈ entries) : isBindable entries entry = true := by
  simp only [UnitEntry.isBindable, Bool.or_eq_true, Bool.not_eq_true',
    List.any_eq_false, Bool.and_eq_true, decide_eq_true_eq]
  refine .inr fun other among found => found.1.1 ?_
  rw [apart.eq_of_repeats listed among found.2]

theorem notNewer_iff {first second : String} :
    notNewer (some first) (some second) = true ↔ first ≤ second := by
  rw [notNewer, Bool.or_eq_true, decide_eq_true_eq, beq_iff_eq]
  constructor
  · rintro (before | rfl)
    · exact String.not_lt.mp fun after =>
        String.lt_irrefl _ (String.lt_trans before after)
    · exact String.le_refl _
  · intro order
    by_cases before : first < second
    · exact .inl before
    · exact .inr (String.le_antisymm order (String.not_lt.mp before))

theorem notNewer_refl (date : Option String) : notNewer date date = true := by
  cases date with
  | none => rfl
  | some date => exact notNewer_iff.mpr (String.le_refl date)

section

variable {first second third : Option String}

theorem notNewer_trans (before : notNewer first second = true)
    (after : notNewer second third = true) : notNewer first third = true := by
  cases first with
  | none => rfl
  | some first =>
      cases second with
      | none => simp [notNewer] at before
      | some second =>
          cases third with
          | none => simp [notNewer] at after
          | some third =>
              rw [notNewer_iff] at before after ⊢
              exact String.le_trans before after

theorem notNewer_total (newer : notNewer first second ≠ true) :
    notNewer second first = true := by
  cases first with
  | none => simp [notNewer] at newer
  | some first =>
      cases second with
      | none => rfl
      | some second =>
          rw [ne_eq, notNewer_iff] at newer
          rw [notNewer_iff]
          exact (String.le_total first second).resolve_left newer

theorem notNewer_antisymm (before : notNewer first second = true)
    (after : notNewer second first = true) : first = second := by
  cases first with
  | none =>
      cases second with
      | none => rfl
      | some second => simp [notNewer] at after
  | some first =>
      cases second with
      | none => simp [notNewer] at before
      | some second =>
          rw [notNewer_iff] at before after
          rw [String.le_antisymm before after]

end

theorem newest?_isSome (listed : entry ∈ entries) :
    (newest? entries).isSome := by
  cases entries with
  | nil => simp at listed
  | cons first rest =>
      unfold newest?
      split
      · rfl
      · split <;> rfl

/-- Nothing in a list is newer than the entry that is taken. -/
theorem notNewer_newest? (found : newest? entries = some entry) :
    ∀ other ∈ entries, notNewer other.revision entry.revision = true := by
  induction entries generalizing entry with
  | nil => exact List.forall_mem_nil _
  | cons first rest ih =>
      unfold newest? at found
      split at found
      next none =>
        obtain rfl := Option.some.inj found
        refine List.forall_mem_cons.mpr
          ⟨notNewer_refl first.revision, fun other listed => ?_⟩
        simpa [none] using newest?_isSome listed
      next best known =>
        split at found
        next order =>
          obtain rfl := Option.some.inj found
          exact List.forall_mem_cons.mpr ⟨order, ih known⟩
        next order =>
          obtain rfl := Option.some.inj found
          exact List.forall_mem_cons.mpr ⟨notNewer_refl first.revision,
            fun other listed =>
              notNewer_trans (ih known other listed) (notNewer_total order)⟩

/-- An entry as it is if its unit can be used. -/
def label (entry : UnitEntry) : UnitEntry :=
  { entry with usable := true }

/-- The same units, in any order and whether or not they can be used. -/
def Alike (entries entries' : List UnitEntry) : Prop :=
  ∀ label, label ∈ entries.map (·.label) ↔ label ∈ entries'.map (·.label)

theorem Alike.symm (alike : Alike entries entries') : Alike entries' entries :=
  fun label => (alike label).symm

theorem Alike.exists (alike : Alike entries entries')
    (listed : entry ∈ entries) :
    ∃ entry' ∈ entries', entry'.label = entry.label :=
  List.mem_map.mp ((alike _).mp (List.mem_map_of_mem listed))

/-- Whether entries are apart does not depend on which units can be used. -/
theorem AreApart.of_labels (apart : AreApart entries)
    (same : entries'.map (·.label) = entries.map (·.label)) :
    AreApart entries' := by
  have apart : (entries.map (·.label)).Pairwise fun first second =>
      first.repeats second = false := List.pairwise_map.mpr apart
  rw [← same] at apart
  exact List.pairwise_map.mp apart

theorem Alike.of_labels
    (same : entries'.map (·.label) = entries.map (·.label)) :
    Alike entries entries' :=
  fun label => by rw [same]

/-- Whether an import means a unit, if there is no newer one. -/
def suits (name : String) (revision : Option String) (submodule : Bool)
    (entry : UnitEntry) : Bool :=
  entry.isSubmodule == submodule && entry.name == name &&
    (revision.isNone || entry.revision == revision)

theorem suits_congr (same : other.label = entry.label) :
    other.suits name revision submodule =
      entry.suits name revision submodule := by
  have suited := congrArg (suits name revision submodule) same
  exact suited

theorem AreApart.pick?_eq (apart : AreApart entries) :
    pick? entries name revision submodule =
      newest? (entries.filter (suits name revision submodule)) := by
  refine congrArg newest? (List.filter_congr fun entry listed => ?_)
  rw [apart.isBindable listed, Bool.and_true]
  rfl

section

variable (apart : AreApart entries) (apart' : AreApart entries')
  (alike : Alike entries entries')
include apart apart' alike

theorem pick?_alike_of_some {entry' : UnitEntry}
    (picked : pick? entries name revision submodule = some entry)
    (picked' : pick? entries' name revision submodule = some entry') :
    entry'.label = entry.label := by
  rw [apart.pick?_eq] at picked
  rw [apart'.pick?_eq] at picked'
  obtain ⟨listed, suited⟩ := List.mem_filter.mp (newest?_mem picked)
  obtain ⟨listed', suited'⟩ := List.mem_filter.mp (newest?_mem picked')
  obtain ⟨mine, among, same⟩ := alike.exists listed
  obtain ⟨theirs, among', same'⟩ := alike.symm.exists listed'
  have revision {first second : UnitEntry} (same : first.label = second.label) :
      first.revision = second.revision := congrArg (·.revision) same
  -- Neither of the two is newer than the other.
  have older := notNewer_newest? picked' mine
    (List.mem_filter.mpr ⟨among, suits_congr same ▸ suited⟩)
  have newer := notNewer_newest? picked theirs
    (List.mem_filter.mpr ⟨among', suits_congr same' ▸ suited'⟩)
  rw [revision same] at older
  rw [revision same'] at newer
  have repeats : theirs.repeats entry = true := by
    have kind : theirs.isSubmodule = entry'.isSubmodule :=
      congrArg (·.isSubmodule) same'
    have name : theirs.name = entry'.name := congrArg (·.name) same'
    simp only [suits, Bool.and_eq_true, beq_iff_eq] at suited suited'
    rw [repeats_iff, kind, name, revision same']
    exact ⟨suited.1.2.trans suited'.1.2.symm, suited.1.1.trans suited'.1.1.symm,
      notNewer_antisymm older newer⟩
  rw [← same', apart.eq_of_repeats among' listed repeats]

theorem pick?_isSome_of_alike
    (picked : pick? entries name revision submodule = some entry) :
    (pick? entries' name revision submodule).isSome := by
  rw [apart.pick?_eq] at picked
  rw [apart'.pick?_eq]
  obtain ⟨listed, suited⟩ := List.mem_filter.mp (newest?_mem picked)
  obtain ⟨mine, among, same⟩ := alike.exists listed
  exact newest?_isSome
    (List.mem_filter.mpr ⟨among, suits_congr same ▸ suited⟩)

/-- Imports mean the same among the same units. -/
theorem pick?_alike :
    (pick? entries' name revision submodule).map (·.label) =
      (pick? entries name revision submodule).map (·.label) := by
  cases picked : pick? entries name revision submodule with
  | none =>
      cases picked' : pick? entries' name revision submodule with
      | none => rfl
      | some entry' =>
          have found := pick?_isSome_of_alike apart' apart alike.symm picked'
          simp [picked] at found
  | some entry =>
      obtain ⟨entry', picked'⟩ := Option.isSome_iff_exists.mp
        (pick?_isSome_of_alike apart apart' alike picked)
      rw [picked', Option.map_some, Option.map_some,
        pick?_alike_of_some apart apart' alike picked picked']

end

/-- The entry of a source. -/
theorem find?_source_iff (distinct : (entries.map (·.source)).Nodup)
    {source : SourceId} : entries.find? (·.source == source) = some entry ↔
      entry ∈ entries ∧ entry.source = source := by
  constructor
  · intro found
    exact ⟨List.mem_of_find?_eq_some found, by
      simpa using List.find?_some found⟩
  · rintro ⟨listed, rfl⟩
    obtain ⟨other, found⟩ : ∃ other,
        entries.find? (·.source == entry.source) = some other :=
      Option.isSome_iff_exists.mp
        (List.find?_isSome.mpr ⟨entry, listed, by simp⟩)
    have same : other.source = entry.source := by
      simpa using List.find?_some found
    rw [found, List.inj_on_of_nodup_map distinct
      (List.mem_of_find?_eq_some found) listed same]

theorem find?_alike (distinct : (entries.map (·.source)).Nodup)
    (distinct' : (entries'.map (·.source)).Nodup)
    (alike : Alike entries entries') (source : SourceId) :
    (entries'.find? (·.source == source)).map (·.label) =
      (entries.find? (·.source == source)).map (·.label) := by
  refine Option.ext fun label => ?_
  simp only [Option.map_eq_some_iff, find?_source_iff distinct,
    find?_source_iff distinct']
  have transfer {entries entries' : List UnitEntry}
      (alike : Alike entries entries')
      (found : ∃ entry, (entry ∈ entries ∧ entry.source = source) ∧
        entry.label = label) :
      ∃ entry, (entry ∈ entries' ∧ entry.source = source) ∧
        entry.label = label := by
    obtain ⟨entry, ⟨listed, rfl⟩, rfl⟩ := found
    obtain ⟨other, listed', same⟩ := alike.exists listed
    have sources : other.source = entry.source := congrArg (·.source) same
    exact ⟨other, ⟨listed', sources⟩, same⟩
  exact ⟨transfer alike.symm, transfer alike⟩

end UnitEntry

namespace Linking

open UnitEntry (AreApart Alike)

section

variable {entries entries' : List UnitEntry} (apart : AreApart entries)
  (apart' : AreApart entries') (alike : Alike entries entries')
include apart apart' alike

theorem bindImport_alike (declaration : Import) :
    bindImport entries' declaration = bindImport entries declaration := by
  have picks := @UnitEntry.pick?_alike _ _ declaration.module
    declaration.revisionDate false apart apart' alike
  unfold bindImport
  cases picked : UnitEntry.pick? entries declaration.module
      declaration.revisionDate false <;>
    cases picked' : UnitEntry.pick? entries' declaration.module
      declaration.revisionDate false <;>
    simp only [picked, picked', Option.map_none, Option.map_some, reduceCtorEq,
      Option.some.injEq] at picks ⊢
  next entry entry' =>
    have source : entry'.source = entry.source := congrArg (·.source) picks
    rw [source]

theorem bindInclude_alike (parent : String) (declaration : Include) :
    bindInclude entries' parent declaration =
      bindInclude entries parent declaration := by
  have picks := @UnitEntry.pick?_alike _ _ declaration.submodule
    declaration.revisionDate true apart apart' alike
  unfold bindInclude
  cases picked : UnitEntry.pick? entries declaration.submodule
      declaration.revisionDate true <;>
    cases picked' : UnitEntry.pick? entries' declaration.submodule
      declaration.revisionDate true <;>
    simp only [picked, picked', Option.map_none, Option.map_some, reduceCtorEq,
      Option.some.injEq] at picks ⊢
  next entry entry' =>
    have source : entry'.source = entry.source := congrArg (·.source) picks
    have belongsTo : entry'.belongsTo = entry.belongsTo :=
      congrArg (·.belongsTo) picks
    have name : entry'.name = entry.name := congrArg (·.name) picks
    rw [source, belongsTo, name]

/-- A unit is bound in the same way among the same units. -/
theorem bindUnit_alike (distinct : (entries.map (·.source)).Nodup)
    (distinct' : (entries'.map (·.source)).Nodup) (unit : LinkUnit) :
    bindUnit entries' unit = bindUnit entries unit := by
  have finds := UnitEntry.find?_alike distinct distinct' alike unit.source
  have imports : bindImport entries' = bindImport entries :=
    funext (bindImport_alike apart apart' alike)
  have includes : bindInclude entries' = bindInclude entries :=
    funext fun parent => funext (bindInclude_alike apart apart' alike parent)
  unfold bindUnit
  rw [imports, includes]
  cases found : entries.find? (·.source == unit.source) <;>
    cases found' : entries'.find? (·.source == unit.source) <;>
    simp only [found, found', Option.map_none, Option.map_some, reduceCtorEq,
      Option.some.injEq] at finds ⊢
  next entry entry' =>
    have belongsTo : entry'.belongsTo = entry.belongsTo :=
      congrArg (·.belongsTo) finds
    have name : entry'.name = entry.name := congrArg (·.name) finds
    cases unit.usable with
    | false => rfl
    | true =>
        cases unit.tree.header? with
        | none => rfl
        | some header => simp only [belongsTo, name]

end

theorem rejectRepeated_of_apart {accepted entries : List UnitEntry}
    (apart : AreApart (accepted ++ entries)) :
    rejectRepeated accepted entries = accepted ++ entries := by
  induction entries generalizing accepted with
  | nil => simp [rejectRepeated]
  | cons entry rest ih =>
      have fresh : accepted.any
          (fun other => other.usable && entry.repeats other) = false := by
        refine List.any_eq_false.mpr fun other listed => ?_
        have different := (List.pairwise_append.mp apart).2.2 other listed entry
          (List.mem_cons_self ..)
        intro found
        have same := UnitEntry.repeats_symm (Bool.and_eq_true_iff.mp found).2
        simp [different] at same
      rw [rejectRepeated]
      simp only [fresh, Bool.not_false, Bool.and_true]
      rw [ih (by simpa using apart), List.append_assoc, List.singleton_append]

theorem mem_rejectRepeated {accepted : List UnitEntry} {entry : UnitEntry}
    (listed : entry ∈ accepted) (entries : List UnitEntry) :
    entry ∈ rejectRepeated accepted entries := by
  induction entries generalizing accepted with
  | nil => exact listed
  | cons first rest ih => exact ih (List.mem_append_left _ listed)

/-- If nothing is rejected, nothing is repeated. -/
theorem areApart_of_rejectRepeated {accepted entries : List UnitEntry}
    (usable : ∀ entry ∈ rejectRepeated accepted entries, entry.usable = true)
    (apart : AreApart accepted) : AreApart (accepted ++ entries) := by
  induction entries generalizing accepted with
  | nil => simpa using apart
  | cons entry rest ih =>
      rw [rejectRepeated] at usable
      generalize repeated : accepted.any (fun other =>
        other.usable && entry.repeats other) = isRepeated at usable
      have isUsable := usable _
        (mem_rejectRepeated (List.mem_append_right _ (List.mem_singleton_self _)) rest)
      obtain ⟨known, rfl⟩ : entry.usable = true ∧ isRepeated = false := by
        simpa using isUsable
      have fresh : AreApart (accepted ++ [entry]) := by
        refine List.pairwise_append.mpr ⟨apart, List.pairwise_singleton _ _, ?_⟩
        intro other listed _ isEntry
        obtain rfl := List.mem_singleton.mp isEntry
        have accepted := usable other
          (mem_rejectRepeated (List.mem_append_left _ listed) rest)
        have different := List.any_eq_false.mp repeated other listed
        rw [accepted, Bool.true_and] at different
        exact Bool.eq_false_iff.mpr fun same =>
          different (UnitEntry.repeats_symm same)
      have same : ({ entry with usable := entry.usable && !false } : UnitEntry) =
          entry := by simp
      rw [same] at usable
      rw [← List.singleton_append, ← List.append_assoc]
      exact ih usable fresh

variable {units units' : List LinkUnit}

theorem entriesOf_of_apart (apart : AreApart (units.filterMap UnitEntry.of?)) :
    entriesOf units = units.filterMap UnitEntry.of? :=
  rejectRepeated_of_apart apart

theorem nodup_sources_of? (distinct : (units.map (·.source)).Nodup) :
    ((units.filterMap UnitEntry.of?).map (·.source)).Nodup := by
  rw [List.map_filterMap]
  refine List.pairwise_filterMap.mpr ((List.pairwise_map.mp distinct).imp ?_)
  intro unit other different source isSource source' isSource'
  obtain ⟨entry, known, rfl⟩ := Option.map_eq_some_iff.mp isSource
  obtain ⟨entry', known', rfl⟩ := Option.map_eq_some_iff.mp isSource'
  rwa [UnitEntry.of?_source known, UnitEntry.of?_source known']

/-- Units that are apart are not rejected. -/
theorem rejectUnit_of_apart (distinct : (units.map (·.source)).Nodup)
    {unit : LinkUnit} (member : unit ∈ units) :
    (rejectUnit (units.filterMap UnitEntry.of?) unit).1 = unit := by
  unfold rejectUnit
  split
  next entry root found _ =>
    obtain ⟨listed, source⟩ :=
      (UnitEntry.find?_source_iff (nodup_sources_of? distinct)).mp found
    obtain ⟨other, among, known⟩ := List.mem_filterMap.mp listed
    obtain rfl : other = unit := List.inj_on_of_nodup_map distinct among member
      ((UnitEntry.of?_source known).symm.trans source)
    have usable : entry.usable = other.usable := by
      unfold UnitEntry.of? at known
      split at known
      · rw [← Option.some.inj known]
      · simp at known
    simp [usable]
  · rfl

theorem bindSources_of_apart (distinct : (units.map (·.source)).Nodup)
    (apart : AreApart (units.filterMap UnitEntry.of?)) :
    (bindSources units).1 = units.map fun unit =>
      (bindUnit (units.filterMap UnitEntry.of?) unit).1 := by
  rw [bindSources_eq, entriesOf_of_apart apart]
  exact List.map_congr_left fun unit member => by
    rw [rejectUnit_of_apart distinct member]

/-- Units none of which is rejected define different things. -/
theorem areApart_of_kept (usable : ∀ unit ∈ units, unit.usable = true)
    (distinct : (units.map (·.source)).Nodup)
    (kept : ∀ unit ∈ units, (rejectUnit (entriesOf units) unit).1 = unit) :
    AreApart (units.filterMap UnitEntry.of?) := by
  suffices each : ∀ entry ∈ entriesOf units, entry.usable = true from
    areApart_of_rejectRepeated each List.Pairwise.nil
  intro entry listed
  have sources : (entriesOf units).map (·.source) =
      (units.filterMap UnitEntry.of?).map (·.source) :=
    rejectRepeated_sources [] _
  have found := (UnitEntry.find?_source_iff
    (sources ▸ nodup_sources_of? distinct)).mpr ⟨listed, rfl⟩
  obtain ⟨other, among, same⟩ := List.mem_map.mp
    (sources ▸ List.mem_map_of_mem listed)
  obtain ⟨unit, member, known⟩ := List.mem_filterMap.mp among
  rw [← same, UnitEntry.of?_source known] at found
  obtain ⟨root, isRoot⟩ : ∃ root, unit.tree.root? = some root := by
    unfold UnitEntry.of? at known
    split at known
    next root _ isRoot _ => exact ⟨root, isRoot⟩
    · simp at known
  have isKept := congrArg (·.usable) (kept unit member)
  cases isUsable : entry.usable with
  | true => rfl
  | false =>
      simp [rejectUnit, found, isRoot, usable unit member, isUsable] at isKept

theorem of?_bindUnit (entries : List UnitEntry) (unit : LinkUnit) :
    UnitEntry.of? (bindUnit entries unit).1 = UnitEntry.of? unit := by
  unfold bindUnit
  split
  next entry header _ _ declared =>
    obtain ⟨root, found, -⟩ := Option.bind_eq_some_iff.mp declared
    have isRoot : unit.tree.node? rootId = some root := found
    simp only [UnitEntry.of?, header?_mapHeader declared, declared,
      SchemaTree.root?, SchemaTree.node?_modifyConstruct, if_true, isRoot,
      Option.map_some, SchemaNode.kind, Construct.kind_mapHeader]
    rfl
  · rfl

end Linking

end YangSchema
