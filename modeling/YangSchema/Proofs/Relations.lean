import Mathlib.Data.List.Forall2

/-!
# Related lists and options

Two lists are related if their items are, place by place, and two options if
both are empty or their values are related.  What is done to both alike leaves
them related.
-/

namespace YangSchema

section

variable {α β γ δ : Type} {related : α → β → Prop} {first : Option α}
  {second : Option β}

/-- Nothing is related to nothing only. -/
theorem rel_cases (rel : Option.Rel related first second) :
    first = none ∧ second = none ∨
      ∃ item item', first = some item ∧ second = some item' ∧
        related item item' := by
  cases rel with
  | none => exact .inl ⟨rfl, rfl⟩
  | some relates => exact .inr ⟨_, _, rfl, rfl, relates⟩

theorem map_eq_of_rel {read : α → γ} {read' : β → γ}
    (rel : Option.Rel related first second)
    (same : ∀ {item item'}, related item item' → read' item' = read item) :
    second.map read' = first.map read := by
  cases rel with
  | none => rfl
  | some relates => exact congrArg some (same relates)

theorem bind_eq_of_rel {read : α → Option γ} {read' : β → Option γ}
    (rel : Option.Rel related first second)
    (same : ∀ {item item'}, related item item' → read' item' = read item) :
    second.bind read' = first.bind read := by
  cases rel with
  | none => rfl
  | some relates => exact same relates

theorem rel_bind {related' : γ → δ → Prop} {next : α → Option γ}
    {next' : β → Option δ} (rel : Option.Rel related first second)
    (further : ∀ {item item'}, related item item' →
      Option.Rel related' (next item) (next' item')) :
    Option.Rel related' (first.bind next) (second.bind next') := by
  cases rel with
  | none => exact .none
  | some relates => exact further relates

theorem rel_map {related' : γ → δ → Prop} {read : α → γ} {read' : β → δ}
    (rel : Option.Rel related first second)
    (further : ∀ {item item'}, related item item' →
      related' (read item) (read' item')) :
    Option.Rel related' (first.map read) (second.map read') := by
  cases rel with
  | none => exact .none
  | some relates => exact .some (further relates)

theorem rel_getElem? {items : List α} {items' : List β}
    (rel : List.Forall₂ related items items') (index : Nat) :
    Option.Rel related items[index]? items'[index]? := by
  induction rel generalizing index with
  | nil => exact .none
  | cons relates _ ih =>
      cases index with
      | zero => exact .some relates
      | succ index => exact ih index

theorem map_eq_of_forall₂ {items : List α} {items' : List β} {read : α → γ}
    {read' : β → γ} (rel : List.Forall₂ related items items')
    (same : ∀ {item item'}, related item item' → read' item' = read item) :
    items'.map read' = items.map read := by
  induction rel with
  | nil => rfl
  | cons relates _ ih => rw [List.map_cons, List.map_cons, same relates, ih]

/-- A search that asks the same of related items. -/
theorem rel_find? {items : List α} {items' : List β} {ask : α → Bool}
    {ask' : β → Bool} (rel : List.Forall₂ related items items')
    (same : ∀ {item item'}, related item item' → ask' item' = ask item) :
    Option.Rel related (items.find? ask) (items'.find? ask') := by
  induction rel with
  | nil => exact .none
  | cons relates _ ih =>
      rw [List.find?_cons, List.find?_cons, same relates]
      split
      · exact .some relates
      · exact ih

end

/-- Related lists stay related when they are changed at one place. -/
theorem forall₂_modify {α β : Type} {related : α → β → Prop} {items : List α}
    {items' : List β} (rel : List.Forall₂ related items items') (place : Nat)
    {change : α → α} {change' : β → β}
    (keeps : ∀ {item item'}, items[place]? = some item → related item item' →
      related (change item) (change' item')) :
    List.Forall₂ related (items.modify place change)
      (items'.modify place change') := by
  induction rel generalizing place with
  | nil => cases place <;> exact .nil
  | cons relates rest ih =>
      cases place with
      | zero => exact .cons (keeps rfl relates) rest
      | succ place => exact .cons relates (ih place keeps)

theorem forall₂_of_getElem? {α β : Type} {related : α → β → Prop}
    {items : List α} {items' : List β}
    (each : ∀ place : Nat, Option.Rel related items[place]? items'[place]?) :
    List.Forall₂ related items items' := by
  induction items generalizing items' with
  | nil =>
      cases items' with
      | nil => exact .nil
      | cons => exact absurd (each 0) nofun
  | cons item rest ih =>
      cases items' with
      | nil => exact absurd (each 0) nofun
      | cons item' rest' =>
          have first := each 0
          cases first with
          | some relates =>
              exact .cons relates (ih fun place => each (place + 1))

theorem forall₂_mem {α β : Type} {related : α → β → Prop} {items : List α}
    {items' : List β} (rel : List.Forall₂ related items items') :
    List.Forall₂ (fun item item' => item ∈ items ∧ related item item') items
      items' := by
  refine forall₂_of_getElem? fun place => ?_
  rcases rel_cases (rel_getElem? rel place) with
    ⟨before, after⟩ | ⟨_, _, before, after, relates⟩
  · rw [before, after]
    exact .none
  · rw [before, after]
    exact .some ⟨List.mem_of_getElem? before, relates⟩

theorem rel_filterMap {α β γ δ : Type} {related : α → β → Prop}
    {related' : γ → δ → Prop} {items : List α} {items' : List β}
    {read : α → Option γ} {read' : β → Option δ}
    (rel : List.Forall₂ related items items')
    (same : ∀ {item item'}, related item item' →
      Option.Rel related' (read item) (read' item')) :
    List.Forall₂ related' (items.filterMap read) (items'.filterMap read') := by
  induction rel with
  | nil => exact .nil
  | cons relates _ ih =>
      rw [List.filterMap_cons, List.filterMap_cons]
      rcases rel_cases (same relates) with
        ⟨before, after⟩ | ⟨_, _, before, after, relates⟩
      · rw [before, after]
        exact ih
      · rw [before, after]
        exact .cons relates ih

/-- What each item of one list contributes to two lists. -/
theorem rel_flatMap_same {α β γ : Type} {related : β → γ → Prop}
    (items : List α) {read : α → List β} {read' : α → List γ}
    (same : ∀ item, List.Forall₂ related (read item) (read' item)) :
    List.Forall₂ related (items.flatMap read) (items.flatMap read') := by
  induction items with
  | nil => exact .nil
  | cons item rest ih =>
      rw [List.flatMap_cons, List.flatMap_cons]
      exact List.rel_append (same item) ih

theorem rel_toList {α : Type} {related : α → α → Prop} {first second : Option α}
    (rel : Option.Rel related first second) :
    List.Forall₂ related first.toList second.toList := by
  cases rel with
  | none => exact .nil
  | some relates => exact .cons relates .nil

theorem rel_zipIdx {α : Type} {related : α → α → Prop} {items items' : List α}
    (rel : List.Forall₂ related items items') :
    List.Forall₂ (fun entry entry' => entry'.2 = entry.2 ∧
        items[entry.2]? = some entry.1 ∧ related entry.1 entry'.1)
      items.zipIdx items'.zipIdx := by
  obtain ⟨length, each⟩ := List.forall₂_iff_get.mp rel
  refine List.forall₂_iff_get.mpr
    ⟨by simp [length], fun index inside inside' => ?_⟩
  simp only [List.length_zipIdx] at inside inside'
  simp only [List.get_eq_getElem, List.getElem_zipIdx, Nat.zero_add]
  exact ⟨trivial, List.getElem?_eq_getElem inside, each index inside inside'⟩

/-- Lists stay related when they are sorted by what the relation preserves. -/
theorem rel_mergeSort {α : Type} {related : α → α → Prop}
    {items items' : List α} {le : α → α → Bool}
    (rel : List.Forall₂ related items items')
    (same : ∀ {first first' second second'}, related first first' →
      related second second' → le first' second' = le first second) :
    List.Forall₂ related (items.mergeSort le) (items'.mergeSort le) := by
  obtain ⟨length, each⟩ := List.forall₂_iff_zip.mp rel
  have first := List.map_fst_zip (Nat.le_of_eq length)
  have second := List.map_snd_zip (Nat.le_of_eq length.symm)
  replace each : ∀ pair ∈ items.zip items', related pair.1 pair.2 :=
    fun _ member => each member
  generalize items.zip items' = pairs at first second each
  subst first second
  -- Both lists are sorted together, as pairs.
  rw [← List.map_mergeSort (s := le) (f := Prod.fst) (l := pairs)
    (r := fun pair pair' => le pair.1 pair'.1) (fun _ _ _ _ => rfl)]
  rw [← List.map_mergeSort (s := le) (f := Prod.snd) (l := pairs)
    (r := fun pair pair' => le pair.1 pair'.1)
    (fun pair member pair' member' =>
      (same (each pair member) (each pair' member')).symm)]
  rw [List.forall₂_map_left_iff, List.forall₂_map_right_iff]
  exact List.forall₂_same.mpr fun pair member =>
    each pair (List.mem_mergeSort.mp member)

end YangSchema
