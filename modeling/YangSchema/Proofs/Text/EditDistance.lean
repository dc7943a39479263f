import Mathlib.Order.Bounds.Basic
import YangSchema.Text.EditDistance

/-!
# Edit distances are least numbers of edits

An edit inserts, deletes or replaces one character anywhere in a text.  The
distance of two texts can be computed from their first characters:  the first
one of the source is deleted, the first one of the target is inserted, or the
one is replaced with the other.  An edit of the source changes this distance by
at most one, so no sequence of edits is shorter.

The rows of the table hold the distances of the texts read so far, the last
characters of which come first, and edits do not care for the direction in
which a text is read.
-/

namespace YangSchema.Text

variable {source middle target : List Char} {count more : Nat}

/-! ## Edits -/

/-- One character of a text is inserted, deleted or replaced. -/
inductive IsEdit : List Char → List Char → Prop
  | insert (front rest : List Char) (c : Char) :
      IsEdit (front ++ rest) (front ++ c :: rest)
  | delete (front rest : List Char) (c : Char) :
      IsEdit (front ++ c :: rest) (front ++ rest)
  | replace (front rest : List Char) (c d : Char) :
      IsEdit (front ++ c :: rest) (front ++ d :: rest)

/-- A number of edits, one after the other, turns one text into another. -/
inductive EditsInto : Nat → List Char → List Char → Prop
  | none (text : List Char) : EditsInto 0 text text
  | step {count : Nat} {source middle target : List Char}
      (edit : IsEdit source middle) (others : EditsInto count middle target) :
      EditsInto (count + 1) source target

theorem IsEdit.symm (edit : IsEdit source target) : IsEdit target source := by
  cases edit with
  | insert front rest c => exact .delete front rest c
  | delete front rest c => exact .insert front rest c
  | replace front rest c d => exact .replace front rest d c

theorem IsEdit.cons (c : Char) (edit : IsEdit source target) :
    IsEdit (c :: source) (c :: target) := by
  cases edit with
  | insert front rest d => exact .insert (c :: front) rest d
  | delete front rest d => exact .delete (c :: front) rest d
  | replace front rest d e => exact .replace (c :: front) rest d e

theorem IsEdit.reverse (edit : IsEdit source target) :
    IsEdit source.reverse target.reverse := by
  cases edit with
  | insert front rest c =>
      simpa using IsEdit.insert rest.reverse front.reverse c
  | delete front rest c =>
      simpa using IsEdit.delete rest.reverse front.reverse c
  | replace front rest c d =>
      simpa using IsEdit.replace rest.reverse front.reverse c d

namespace EditsInto

theorem single (edit : IsEdit source target) : EditsInto 1 source target :=
  .step edit (.none target)

theorem trans (first : EditsInto count source middle)
    (second : EditsInto more middle target) :
    EditsInto (count + more) source target := by
  induction first with
  | none text => simpa using second
  | step edit _ ih =>
      rw [Nat.add_right_comm]
      exact .step edit (ih second)

theorem symm (edits : EditsInto count source target) :
    EditsInto count target source := by
  induction edits with
  | none text => exact .none text
  | step edit _ ih => exact ih.trans (.single edit.symm)

theorem cons (c : Char) (edits : EditsInto count source target) :
    EditsInto count (c :: source) (c :: target) := by
  induction edits with
  | none text => exact .none _
  | step edit _ ih => exact .step (edit.cons c) ih

theorem reverse (edits : EditsInto count source target) :
    EditsInto count source.reverse target.reverse := by
  induction edits with
  | none text => exact .none _
  | step edit _ ih => exact .step edit.reverse ih

theorem reverse_iff :
    EditsInto count source.reverse target.reverse ↔
      EditsInto count source target := by
  refine ⟨fun edits => ?_, reverse⟩
  simpa using edits.reverse

theorem eq_of_zero (edits : EditsInto 0 source target) : source = target := by
  cases edits
  rfl

/-- A text is built up from nothing character by character. -/
theorem of_nil (text : List Char) : EditsInto text.length [] text := by
  induction text with
  | nil => exact .none []
  | cons c rest ih => exact ih.trans (.single (.insert [] rest c))

end EditsInto

/-! ## The distance by the first characters -/

/-- The least number of edits, by what becomes of the first characters. -/
def distance : List Char → List Char → Nat
  | [], target => target.length
  | source, [] => source.length
  | c :: source, d :: target =>
      min (min (distance source (d :: target) + 1)
        (distance (c :: source) target + 1))
        (distance source target + if c = d then 0 else 1)
  termination_by source target => source.length + target.length

@[simp]
theorem distance_nil_left (target : List Char) :
    distance [] target = target.length := by
  rw [distance]

@[simp]
theorem distance_nil_right (source : List Char) :
    distance source [] = source.length := by
  cases source with
  | nil => rw [distance]
  | cons c source =>
      rw [distance]
      simp

theorem distance_cons_cons (c d : Char) (source target : List Char) :
    distance (c :: source) (d :: target) =
      min (min (distance source (d :: target) + 1)
        (distance (c :: source) target + 1))
        (distance source target + if c = d then 0 else 1) := by
  rw [distance]

theorem distance_cons_left_le (c : Char) (source target : List Char) :
    distance (c :: source) target ≤ distance source target + 1 := by
  cases target with
  | nil => simp
  | cons d target =>
      rw [distance_cons_cons]
      omega

theorem distance_cons_right_le (d : Char) (source target : List Char) :
    distance source (d :: target) ≤ distance source target + 1 := by
  cases source with
  | nil => simp
  | cons c source =>
      rw [distance_cons_cons]
      omega

/-- As many edits suffice. -/
theorem editsInto_distance (source target : List Char) :
    EditsInto (distance source target) source target := by
  induction source, target using distance.induct with
  | case1 target =>
      rw [distance_nil_left]
      exact .of_nil target
  | case2 source _ =>
      rw [distance_nil_right]
      exact (EditsInto.of_nil source).symm
  | case3 c source d target deleted inserted replaced =>
      have delete : EditsInto (distance source (d :: target) + 1)
          (c :: source) (d :: target) :=
        .step (.delete [] source c) deleted
      have insert : EditsInto (distance (c :: source) target + 1)
          (c :: source) (d :: target) :=
        inserted.trans (.single (.insert [] target d))
      have replace : EditsInto (distance source target + if c = d then 0 else 1)
          (c :: source) (d :: target) := by
        split
        next same =>
          subst same
          exact replaced.cons c
        next other =>
          exact (replaced.cons c).trans (.single (.replace [] target c d))
      let enough (count : Nat) := EditsInto count (c :: source) (d :: target)
      rw [distance_cons_cons]
      exact min_rec' enough (min_rec' enough delete insert) replace

/-! ## No sequence of edits is shorter -/

theorem distance_le_distance_cons (c : Char) (source target : List Char) :
    distance source target ≤ distance (c :: source) target + 1 := by
  induction target with
  | nil =>
      simp only [distance_nil_right, List.length_cons]
      omega
  | cons d target ih =>
      have insert := distance_cons_right_le d source target
      rw [distance_cons_cons]
      split <;> omega

theorem distance_replace_le (c d : Char) (source target : List Char) :
    distance (c :: source) target ≤ distance (d :: source) target + 1 := by
  induction target with
  | nil => simp
  | cons e target ih =>
      rw [distance_cons_cons, distance_cons_cons]
      split <;> split <;> omega

theorem distance_cons_le (c : Char)
    (closer : ∀ target, distance source target ≤ distance middle target + 1)
    (target : List Char) :
    distance (c :: source) target ≤ distance (c :: middle) target + 1 := by
  induction target with
  | nil => simpa using closer []
  | cons d target ih =>
      have delete := closer (d :: target)
      have replace := closer target
      rw [distance_cons_cons, distance_cons_cons]
      split <;> omega

/-- An edit changes the distance by at most one. -/
theorem IsEdit.distance_le (edit : IsEdit source middle)
    (target : List Char) :
    distance source target ≤ distance middle target + 1 := by
  cases edit with
  | insert front rest c =>
      induction front generalizing target with
      | nil => exact distance_le_distance_cons c rest target
      | cons d front ih => exact distance_cons_le d ih target
  | delete front rest c =>
      induction front generalizing target with
      | nil => exact distance_cons_left_le c rest target
      | cons d front ih => exact distance_cons_le d ih target
  | replace front rest c d =>
      induction front generalizing target with
      | nil => exact distance_replace_le c d rest target
      | cons e front ih => exact distance_cons_le e ih target

theorem distance_self (text : List Char) : distance text text = 0 := by
  induction text with
  | nil => simp
  | cons c text ih =>
      rw [distance_cons_cons, ih, if_pos rfl]
      omega

theorem EditsInto.distance_le (edits : EditsInto count source target) :
    distance source target ≤ count := by
  induction edits with
  | none text => exact (distance_self text).le
  | @step count source middle target edit _ ih =>
      have one := edit.distance_le target
      omega

theorem isLeast_distance (source target : List Char) :
    IsLeast {count | EditsInto count source target}
      (distance source target) :=
  ⟨editsInto_distance source target, fun _ edits => edits.distance_le⟩

/-! ## Rows of the table -/

/-- The entries of a row behind the first one, for what has been read of the
source and of the target with the last characters first. -/
def entries (read seen : List Char) : List Char → List Nat
  | [] => []
  | d :: target =>
      distance read (d :: seen) :: entries read (d :: seen) target

/-- From the row above comes the row with one more character read. -/
theorem nextRow_eq (c : Char) (read seen target : List Char) :
    nextRow c target (distance read seen) (distance (c :: read) seen)
        (entries read seen target) =
      entries (c :: read) seen target := by
  induction target generalizing seen with
  | nil => rfl
  | cons d target ih =>
      rw [entries, entries, nextRow, ← distance_cons_cons, ih]

theorem getLastD_entries (read seen target : List Char) :
    (distance read seen :: entries read seen target).getLastD 0 =
      distance read (target.reverse ++ seen) := by
  induction target generalizing seen with
  | nil => rfl
  | cons d target ih =>
      rw [entries, List.reverse_cons, List.append_assoc, List.singleton_append,
        ← ih]
      rfl

/-- Reading the rest of the source leads to the distance of the whole texts. -/
theorem lastEntry_eq (read source target : List Char) :
    lastEntry target source (distance read [] :: entries read [] target) =
      distance (source.reverse ++ read) target.reverse := by
  induction source generalizing read with
  | nil =>
      rw [lastEntry, getLastD_entries, List.append_nil]
      rfl
  | cons c source ih =>
      have first : distance read [] + 1 = distance (c :: read) [] := by simp
      rw [lastEntry, first, nextRow_eq, ih]
      simp

theorem entries_nil (seen target : List Char) :
    entries [] seen target =
      List.range' (seen.length + 1) target.length := by
  induction target generalizing seen with
  | nil => rfl
  | cons d target ih => simp [entries, ih, List.range'_succ]

theorem editDistance_eq (source target : String) :
    editDistance source target =
      distance source.toList.reverse target.toList.reverse := by
  have row : List.range (target.toList.length + 1) =
      distance [] [] :: entries [] [] target.toList := by
    simp [entries_nil, List.range_eq_range', List.range'_succ]
  rw [editDistance, row, lastEntry_eq, List.append_nil]

theorem isLeast_editDistance (source target : String) :
    IsLeast {count | EditsInto count source.toList target.toList}
      (editDistance source target) := by
  have least := isLeast_distance source.toList.reverse target.toList.reverse
  simp only [EditsInto.reverse_iff] at least
  rwa [editDistance_eq]

/-! ## The first of the closest candidates -/

/-- An item costs less than all in front of it and no more than all behind. -/
def IsFirstLeast {α : Type} (cost : α → Nat) (items : List α) (item : α) :
    Prop :=
  ∃ front rest, items = front ++ item :: rest ∧
    (∀ other ∈ front, cost item < cost other) ∧
      ∀ other ∈ rest, cost item ≤ cost other

section FirstLeast

variable {α β : Type} {cost : α → Nat} {items : List α} {item first : α}

theorem not_isFirstLeast_nil : ¬ IsFirstLeast cost [] item := by
  rintro ⟨front, rest, nothing, -⟩
  simp at nothing

theorem isFirstLeast_cons_iff :
    IsFirstLeast cost (first :: items) item ↔
      (item = first ∧ ∀ other ∈ items, cost item ≤ cost other) ∨
        cost item < cost first ∧ IsFirstLeast cost items item := by
  constructor
  · rintro ⟨front, rest, whole, inFront, behind⟩
    cases front with
    | nil =>
        obtain ⟨rfl, rfl⟩ := List.cons.inj whole
        exact .inl ⟨rfl, behind⟩
    | cons other front =>
        obtain ⟨rfl, rfl⟩ := List.cons.inj whole
        obtain ⟨here, there⟩ := List.forall_mem_cons.mp inFront
        exact .inr ⟨here, front, rest, rfl, there, behind⟩
  · rintro (⟨rfl, behind⟩ | ⟨here, front, rest, rfl, inFront, behind⟩)
    · exact ⟨[], items, rfl, by simp, behind⟩
    · exact ⟨first :: front, rest, rfl,
        List.forall_mem_cons.mpr ⟨here, inFront⟩, behind⟩

theorem IsFirstLeast.le (least : IsFirstLeast cost items item) {other : α}
    (listed : other ∈ items) : cost item ≤ cost other := by
  obtain ⟨front, rest, rfl, inFront, behind⟩ := least
  obtain listed | rfl | listed := by simpa using listed
  · exact (inFront other listed).le
  · exact Nat.le_refl _
  · exact behind other listed

theorem IsFirstLeast.mem (least : IsFirstLeast cost items item) :
    item ∈ items := by
  obtain ⟨front, rest, rfl, -⟩ := least
  simp

theorem isFirstLeast_map_iff {f : β → α} {items : List β} :
    IsFirstLeast cost (items.map f) item ↔
      ∃ item', f item' = item ∧ IsFirstLeast (cost ∘ f) items item' := by
  induction items with
  | nil => simp [not_isFirstLeast_nil]
  | cons first items ih =>
      simp only [List.map_cons, isFirstLeast_cons_iff, ih, List.forall_mem_map,
        Function.comp_apply]
      constructor
      · rintro (⟨rfl, behind⟩ | ⟨less, item', rfl, least⟩)
        · exact ⟨first, rfl, .inl ⟨rfl, behind⟩⟩
        · exact ⟨item', rfl, .inr ⟨less, least⟩⟩
      · rintro ⟨item', rfl, ⟨rfl, behind⟩ | ⟨less, least⟩⟩
        · exact .inl ⟨rfl, behind⟩
        · exact .inr ⟨less, item', rfl, least⟩

/-- Items beyond a limit do not matter. -/
theorem isFirstLeast_filter_iff {limit : Nat} :
    IsFirstLeast cost (items.filter (cost · ≤ limit)) item ↔
      IsFirstLeast cost items item ∧ cost item ≤ limit := by
  induction items with
  | nil => simp [not_isFirstLeast_nil]
  | cons first items ih =>
      rw [isFirstLeast_cons_iff]
      by_cases close : cost first ≤ limit
      · rw [List.filter_cons_of_pos (by simpa using close),
          isFirstLeast_cons_iff, ih]
        constructor
        · rintro (⟨rfl, behind⟩ | ⟨less, least, close⟩)
          · refine ⟨.inl ⟨rfl, fun other listed => ?_⟩, close⟩
            by_cases close' : cost other ≤ limit
            · exact behind other (by simp [listed, close'])
            · omega
          · exact ⟨.inr ⟨less, least⟩, close⟩
        · rintro ⟨⟨rfl, behind⟩ | ⟨less, least⟩, close⟩
          · exact .inl ⟨rfl, fun other listed =>
              behind other (List.mem_filter.mp listed).1⟩
          · exact .inr ⟨less, least, close⟩
      · rw [List.filter_cons_of_neg (by simpa using close), ih]
        constructor
        · rintro ⟨least, close'⟩
          exact ⟨.inr ⟨by omega, least⟩, close'⟩
        · rintro ⟨⟨rfl, -⟩ | ⟨-, least⟩, close'⟩
          · exact absurd close' close
          · exact ⟨least, close'⟩

end FirstLeast

theorem leastBySecond_eq_none_iff {pairs : List (String × Nat)} :
    leastBySecond pairs = none ↔ pairs = [] := by
  cases pairs with
  | nil => simp [leastBySecond]
  | cons pair pairs =>
      rw [leastBySecond]
      split
      · simp
      · split <;> simp

theorem leastBySecond_eq_some_iff {pairs : List (String × Nat)}
    {pair : String × Nat} :
    leastBySecond pairs = some pair ↔ IsFirstLeast Prod.snd pairs pair := by
  induction pairs generalizing pair with
  | nil => simp [leastBySecond, not_isFirstLeast_nil]
  | cons first pairs ih =>
      rw [isFirstLeast_cons_iff, leastBySecond]
      cases found : leastBySecond pairs with
      | none =>
          obtain rfl := leastBySecond_eq_none_iff.mp found
          simp [not_isFirstLeast_nil, eq_comm]
      | some best =>
          have least := ih.mp found
          rw [← ih, found]
          dsimp only
          split
          next less =>
            constructor
            · intro same
              obtain rfl := Option.some.inj same
              exact .inr ⟨less, rfl⟩
            · rintro (⟨rfl, behind⟩ | ⟨-, same⟩)
              · have := behind best least.mem
                omega
              · exact same
          next other =>
            constructor
            · intro same
              obtain rfl := Option.some.inj same
              refine .inl ⟨rfl, fun other listed => ?_⟩
              have := least.le listed
              omega
            · rintro (⟨rfl, -⟩ | ⟨less, same⟩)
              · rfl
              · obtain rfl := Option.some.inj same
                exact absurd less other

/-- The first of the closest candidates is found, if it is close enough. -/
theorem findSimilar_eq_some_iff {name similar : String}
    {candidates : List String} :
    findSimilar name candidates = some similar ↔
      IsFirstLeast (editDistance name) candidates similar ∧
        editDistance name similar ≤ similarityLimit name := by
  have pairs : (candidates.map fun candidate =>
      (candidate, editDistance name candidate)).filter
        (fun pair => pair.2 ≤ similarityLimit name) = (candidates.filter
          (editDistance name · ≤ similarityLimit name)).map
            fun candidate => (candidate, editDistance name candidate) :=
    List.filter_map ..
  rw [findSimilar, pairs, Option.map_eq_some_iff, ← isFirstLeast_filter_iff]
  simp only [leastBySecond_eq_some_iff, isFirstLeast_map_iff]
  constructor
  · rintro ⟨_, ⟨candidate, rfl, least⟩, rfl⟩
    exact least
  · exact fun least => ⟨_, ⟨similar, rfl, least⟩, rfl⟩

theorem isSome_findSimilar_iff {name : String} {candidates : List String} :
    (findSimilar name candidates).isSome = true ↔
      ∃ candidate ∈ candidates,
        editDistance name candidate ≤ similarityLimit name := by
  rw [findSimilar, Option.isSome_map, Option.isSome_iff_ne_none, ne_eq,
    leastBySecond_eq_none_iff]
  simp

/-- The edit distance of two texts is the least number of edits that turn the
one into the other.  So it is a metric, and the first of the candidates with the
least distance from a name is the one that is offered, if any is near enough. -/
theorem editDistance_counts_edits :
    (∀ source target, IsLeast
      {count | EditsInto count source.toList target.toList}
        (editDistance source target)) ∧
    (∀ source target,
      editDistance source target = editDistance target source) ∧
    (∀ source target, editDistance source target = 0 ↔ source = target) ∧
    (∀ source middle target, editDistance source target ≤
      editDistance source middle + editDistance middle target) ∧
    ∀ name candidates,
      ((findSimilar name candidates).isSome = true ↔
        ∃ candidate ∈ candidates,
          editDistance name candidate ≤ similarityLimit name) ∧
      ∀ similar, findSimilar name candidates = some similar ↔
        IsFirstLeast (editDistance name) candidates similar ∧
          editDistance name similar ≤ similarityLimit name := by
  have edits (source target : String) :=
    (isLeast_editDistance source target).1
  have least (source target : String) {count : Nat}
      (edits : EditsInto count source.toList target.toList) :=
    (isLeast_editDistance source target).2 edits
  refine ⟨isLeast_editDistance, fun source target => ?_,
    fun source target => ⟨fun zero => ?_, ?_⟩, fun source middle target => ?_,
    fun name candidates =>
      ⟨isSome_findSimilar_iff, fun similar => findSimilar_eq_some_iff⟩⟩
  · exact Nat.le_antisymm (least _ _ (edits target source).symm)
      (least _ _ (edits source target).symm)
  · have none : EditsInto 0 source.toList target.toList :=
      zero ▸ edits source target
    exact String.toList_inj.mp none.eq_of_zero
  · rintro rfl
    exact Nat.le_zero.mp (least source source (.none _))
  · exact least _ _ ((edits source middle).trans (edits middle target))

end YangSchema.Text
