import YangSchema.Proofs.Compilation.Permuting

/-!
# Choosing the unit that an import means

Of the units that repeat each other the first one that can be used stays usable,
so no two usable units have the same name, kind and revision.  An import or an
include means the newest of the units that suit it and are no duplicates of a
usable one, and the last of those if there are several.  There is such a unit
whenever there is any that suits, for what a duplicate repeats suits as well.
-/

namespace YangSchema

namespace UnitEntry

variable {entries : List UnitEntry} {entry other : UnitEntry}
  {name : String} {revision : Option String} {submodule : Bool}

/-- An entry is the newest if none before it is newer and all behind it are
older. -/
theorem newest?_eq_some_iff : newest? entries = some entry ↔
    ∃ before after, entries = before ++ entry :: after ∧
      (∀ other ∈ before, notNewer other.revision entry.revision = true) ∧
      ∀ other ∈ after, notNewer entry.revision other.revision = false := by
  constructor
  · intro found
    induction entries with
    | nil => simp [newest?] at found
    | cons first rest ih =>
        unfold newest? at found
        split at found
        next none =>
          obtain rfl := Option.some.inj found
          refine ⟨[], rest, rfl, List.forall_mem_nil _, fun other listed => ?_⟩
          simpa [none] using newest?_isSome listed
        next best known =>
          split at found
          next order =>
            obtain rfl := Option.some.inj found
            obtain ⟨before, after, rfl, older, younger⟩ := ih known
            exact ⟨first :: before, after, rfl,
              List.forall_mem_cons.mpr ⟨order, older⟩, younger⟩
          next order =>
            obtain rfl := Option.some.inj found
            refine ⟨[], rest, rfl, List.forall_mem_nil _, fun other listed => ?_⟩
            refine Bool.eq_false_iff.mpr fun newer => order ?_
            exact notNewer_trans newer (notNewer_newest? known other listed)
  · rintro ⟨before, after, rfl, older, younger⟩
    induction before with
    | nil =>
        rw [List.nil_append, newest?]
        cases known : newest? after with
        | none => rfl
        | some best =>
            have older := younger best (newest?_mem known)
            simp [older]
    | cons first before ih =>
        obtain ⟨order, older⟩ := List.forall_mem_cons.mp older
        rw [List.cons_append, newest?, ih older]
        simp [order]

/-- The newest entry of those that are looked for, and the last one of these. -/
theorem newest?_filter_eq_some_iff {wanted : UnitEntry → Bool}
    (distinct : entries.Nodup) :
    newest? (entries.filter wanted) = some entry ↔
      (entry ∈ entries ∧ wanted entry = true) ∧
      (∀ other ∈ entries, wanted other = true →
        notNewer other.revision entry.revision = true) ∧
      ∀ before after, entries = before ++ entry :: after →
        ∀ other ∈ after, wanted other = true →
          other.revision ≠ entry.revision := by
  constructor
  · intro found
    have candidate := List.mem_filter.mp (newest?_mem found)
    refine ⟨candidate, fun other listed isWanted => ?_, ?_⟩
    · exact notNewer_newest? found other (List.mem_filter.mpr ⟨listed, isWanted⟩)
    rintro before after rfl other behind isWanted revision
    obtain ⟨older, newer, split, -, younger⟩ := newest?_eq_some_iff.mp found
    rw [List.filter_append, List.filter_cons_of_pos candidate.2] at split
    have apart := (distinct.filter wanted)
    rw [List.filter_append, List.filter_cons_of_pos candidate.2,
      List.nodup_middle, List.nodup_cons, List.mem_append, not_or] at apart
    obtain ⟨-, -, same⟩ :=
      (List.append_cons_inj_of_notMem apart.1.1 apart.1.2).mp split
    have newer := younger other (same ▸ List.mem_filter.mpr ⟨behind, isWanted⟩)
    rw [revision, notNewer_refl] at newer
    simp at newer
  · rintro ⟨⟨listed, isWanted⟩, newest, last⟩
    obtain ⟨before, after, rfl⟩ := List.append_of_mem listed
    rw [List.filter_append, List.filter_cons_of_pos isWanted]
    refine newest?_eq_some_iff.mpr ⟨_, _, rfl, fun other among => ?_,
      fun other among => Bool.eq_false_iff.mpr fun newer => ?_⟩
    · obtain ⟨among, isWanted⟩ := List.mem_filter.mp among
      exact newest other (List.mem_append_left _ among) isWanted
    · obtain ⟨behind, isWanted⟩ := List.mem_filter.mp among
      have among := List.mem_append_right before (List.mem_cons_of_mem entry behind)
      exact last before after rfl other behind isWanted
        (notNewer_antisymm (newest other among isWanted) newer)

/-- No usable entry but the entry itself has its name, kind and revision. -/
def IsOriginal (entries : List UnitEntry) (entry : UnitEntry) : Prop :=
  ∀ other ∈ entries, other.usable = true → entry.repeats other = true →
    other = entry

/-- The unit that an import or an include means:  of the units that suit it the
newest that is no duplicate of a usable one, and the last one of these. -/
structure IsMeant (entries : List UnitEntry) (name : String)
    (revision : Option String) (submodule : Bool) (entry : UnitEntry) :
    Prop where
  listed : entry ∈ entries
  suits : entry.suits name revision submodule = true
  original : entry.IsOriginal entries
  newest : ∀ other ∈ entries, other.suits name revision submodule = true →
    notNewer other.revision entry.revision = true
  last : ∀ before after, entries = before ++ entry :: after →
    ∀ other ∈ after, other.suits name revision submodule = true →
      other.IsOriginal entries → other.revision ≠ entry.revision

/-- No two usable units have the same name, kind and revision. -/
def UsableApart (entries : List UnitEntry) : Prop :=
  entries.Pairwise fun first second =>
    first.usable = true → second.usable = true → first.repeats second = false

theorem UsableApart.eq_of_repeats (apart : UsableApart entries)
    (listed : entry ∈ entries) (listed' : other ∈ entries)
    (usable : entry.usable = true) (usable' : other.usable = true)
    (same : entry.repeats other = true) : entry = other := by
  by_contra different
  have symmetric : Std.Symm fun first second : UnitEntry =>
      first.usable = true → second.usable = true →
        first.repeats second = false :=
    ⟨fun first second apart usable usable' => Bool.eq_false_iff.mpr fun same =>
      Bool.eq_false_iff.mp (apart usable' usable) (repeats_symm same)⟩
  have apart := List.Pairwise.forall apart listed listed' different usable usable'
  simp [same] at apart

/-- Whatever repeats an entry suits what the entry suits. -/
theorem suits_of_repeats (same : entry.repeats other = true) :
    other.suits name revision submodule =
      entry.suits name revision submodule := by
  obtain ⟨name, kind, revision⟩ := repeats_iff.mp same
  simp [suits, name, kind, revision]

section

variable (distinct : (entries.map (·.source)).Nodup)
  (apart : UsableApart entries)
include distinct apart

theorem isBindable_iff (listed : entry ∈ entries) :
    isBindable entries entry = true ↔ entry.IsOriginal entries := by
  simp only [isBindable, Bool.or_eq_true, Bool.not_eq_true', List.any_eq_false,
    Bool.and_eq_true, decide_eq_true_eq, not_and, Bool.not_eq_true]
  constructor
  · rintro (usable | fresh) other among usable' same
    · exact (apart.eq_of_repeats listed among usable usable' same).symm
    · by_contra different
      have apart : other.source ≠ entry.source := fun same =>
        different (List.inj_on_of_nodup_map distinct among listed same)
      simp [fresh other among ⟨apart, usable'⟩] at same
  · intro original
    refine or_iff_not_imp_left.mpr fun _ other among both => ?_
    obtain ⟨apart, usable'⟩ := both
    refine Bool.eq_false_iff.mpr fun same => apart ?_
    rw [original other among usable' same]

/-- What a duplicate repeats is as new and suits the same imports. -/
theorem exists_bindable (listed : entry ∈ entries) :
    ∃ other ∈ entries, isBindable entries other = true ∧
      other.suits name revision submodule =
        entry.suits name revision submodule ∧
      other.revision = entry.revision := by
  by_cases original : entry.IsOriginal entries
  · exact ⟨entry, listed, (isBindable_iff distinct apart listed).mpr original,
      rfl, rfl⟩
  simp only [IsOriginal, not_forall] at original
  obtain ⟨other, among, usable, same, -⟩ := original
  exact ⟨other, among, by simp [isBindable, usable], suits_of_repeats same,
    (repeats_iff.mp same).2.2⟩

/-- Something is picked whenever something suits. -/
theorem pick?_isSome_iff :
    (pick? entries name revision submodule).isSome ↔
      ∃ entry ∈ entries, entry.suits name revision submodule = true := by
  constructor
  · intro found
    obtain ⟨entry, picked⟩ := Option.isSome_iff_exists.mp found
    obtain ⟨listed, wanted⟩ := List.mem_filter.mp (newest?_mem picked)
    exact ⟨entry, listed, (Bool.and_eq_true_iff.mp wanted).1⟩
  · rintro ⟨entry, listed, suits⟩
    obtain ⟨other, among, isBindable, same, -⟩ :=
      exists_bindable distinct apart listed
    exact newest?_isSome (List.mem_filter.mpr
      ⟨among, Bool.and_eq_true_iff.mpr ⟨same.trans suits, isBindable⟩⟩)

/-- What is picked is what is meant. -/
theorem pick?_eq_some_iff :
    pick? entries name revision submodule = some entry ↔
      IsMeant entries name revision submodule entry := by
  have wanted (entry : UnitEntry) :
      (entry.suits name revision submodule && isBindable entries entry) = true ↔
        entry.suits name revision submodule = true ∧
          isBindable entries entry = true := Bool.and_eq_true_iff
  have found := @newest?_filter_eq_some_iff entries entry
    (fun entry => entry.suits name revision submodule && isBindable entries entry)
    (.of_map _ distinct)
  refine found.trans ?_
  simp only [wanted]
  constructor
  · rintro ⟨⟨listed, suits, isBindable⟩, newest, last⟩
    refine ⟨listed, suits, (isBindable_iff distinct apart listed).mp isBindable,
      fun other among suits' => ?_, ?_⟩
    · obtain ⟨twin, among, isBindable, same, revision⟩ :=
        exists_bindable distinct apart among
      exact revision ▸ newest twin among ⟨same.trans suits', isBindable⟩
    · rintro before after rfl other behind suits' original'
      have among := List.mem_append_right before (List.mem_cons_of_mem entry behind)
      exact last before after rfl other behind
        ⟨suits', (isBindable_iff distinct apart among).mpr original'⟩
  · rintro ⟨listed, suits, original, newest, last⟩
    refine ⟨⟨listed, suits, (isBindable_iff distinct apart listed).mpr original⟩,
      fun other among wanted => newest other among wanted.1, ?_⟩
    rintro before after rfl other behind ⟨suits', isBindable⟩
    have among := List.mem_append_right before (List.mem_cons_of_mem entry behind)
    exact last before after rfl other behind suits'
      ((isBindable_iff distinct apart among).mp isBindable)

end

end UnitEntry

end YangSchema
