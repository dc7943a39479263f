/-!
# Results of computations that can fail

A sequence of steps succeeds exactly when each of its steps does, and raises
only errors of some sort if each of its steps does so.  The lemmas of this file
take such a sequence apart into its steps.
-/

namespace YangSchema

variable {ε α β : Type}

@[simp]
theorem bind_eq_ok_iff {computation : Except ε α} {next : α → Except ε β}
    {result : β} :
    computation >>= next = .ok result ↔
      ∃ value, computation = .ok value ∧ next value = .ok result := by
  cases computation <;> simp [bind, Except.bind]

@[simp]
theorem map_eq_ok_iff {computation : Except ε α} {change : α → β}
    {result : β} :
    change <$> computation = .ok result ↔
      ∃ value, computation = .ok value ∧ change value = result := by
  cases computation <;> simp [Functor.map, Except.map]

/-- What a computation yields if its errors are changed. -/
theorem eq_ok_of_mapError {ε' : Type} {computation : Except ε α}
    {change : ε → ε'} {value : α}
    (read : computation.mapError change = .ok value) :
    computation = .ok value := by
  cases computation with
  | error error => cases read
  | ok value' =>
      cases read
      rfl

@[simp]
theorem throw_ne_ok (error : ε) (result : α) :
    ¬ (throw error : Except ε α) = .ok result := by
  simp [throw, throwThe, MonadExceptOf.throw]

@[simp]
theorem pure_eq_ok_iff {value result : α} :
    (pure value : Except ε α) = .ok result ↔ value = result := by
  simp [pure, Except.pure]

theorem length_of_mapM {step : α → Except ε β} {items : List α}
    {results : List β} (ok : items.mapM step = .ok results) :
    results.length = items.length := by
  induction items generalizing results with
  | nil =>
      obtain rfl := pure_eq_ok_iff.mp ok
      rfl
  | cons item rest ih =>
      simp only [List.mapM_cons, bind_eq_ok_iff, pure_eq_ok_iff] at ok
      obtain ⟨first, _, others, others_ok, rfl⟩ := ok
      simp [ih others_ok]

theorem toOption_eq_some_iff {computation : Except ε α} {value : α} :
    computation.toOption = some value ↔ computation = .ok value := by
  cases computation <;> simp [Except.toOption]

/-- Where one item is replaced, one result is. -/
theorem mapM_set {step : α → Except ε β} {items : List α} {results : List β}
    {index : Nat} {item : α} {result : β} (ok : items.mapM step = .ok results)
    (made : step item = .ok result) :
    (items.set index item).mapM step = .ok (results.set index result) := by
  induction items generalizing results index with
  | nil =>
      obtain rfl := pure_eq_ok_iff.mp ok
      rfl
  | cons head rest ih =>
      simp only [List.mapM_cons, bind_eq_ok_iff, pure_eq_ok_iff] at ok
      obtain ⟨first, isFirst, others, isOthers, rfl⟩ := ok
      cases index with
      | zero =>
          simp only [List.set_cons_zero, List.mapM_cons, bind_eq_ok_iff,
            pure_eq_ok_iff]
          exact ⟨result, made, others, isOthers, rfl⟩
      | succ index =>
          simp only [List.set_cons_succ, List.mapM_cons, bind_eq_ok_iff,
            pure_eq_ok_iff]
          exact ⟨first, isFirst, _, ih isOthers, rfl⟩

/-- Every one of several checks has been passed. -/
theorem eq_ok_of_forM {check : α → Except ε PUnit} {items : List α}
    (passed : items.forM check = .ok ()) {item : α} (listed : item ∈ items) :
    check item = .ok () := by
  induction items with
  | nil => simp at listed
  | cons first rest ih =>
      obtain ⟨_, passedFirst, others⟩ := bind_eq_ok_iff.mp passed
      obtain rfl | listed := List.mem_cons.mp listed
      · exact passedFirst
      · exact ih others listed

theorem forM_congr {check check' : α → Except ε PUnit} {items : List α}
    (same : ∀ item ∈ items, check item = check' item) :
    items.forM check = items.forM check' := by
  induction items with
  | nil => rfl
  | cons first rest ih =>
      have others := ih fun item listed =>
        same item (List.mem_cons_of_mem first listed)
      show (check first >>= fun _ => rest.forM check) =
        (check' first >>= fun _ => rest.forM check')
      rw [same first List.mem_cons_self, others]

/-- A check that some condition calls for leaves the rest as it is. -/
theorem eq_ok_of_checked {condition : Prop} [Decidable condition]
    {check : Except ε β} {rest : Except ε α} {result : α}
    (ok : (if condition then check >>= fun _ => rest else rest) = .ok result) :
    rest = .ok result := by
  split at ok
  · obtain ⟨_, _, ok⟩ := bind_eq_ok_iff.mp ok
    exact ok
  · exact ok

theorem ite_eq_map {condition : Prop} [Decidable condition] {change : α → β}
    {first second : Except ε α} {first' second' : Except ε β}
    (same : first' = change <$> first) (same' : second' = change <$> second) :
    (if condition then first' else second') =
      change <$> if condition then first else second := by
  split
  · exact same
  · exact same'

/-- Every error of a computation is of some sort. -/
def Raises (allowed : ε → Prop) (computation : Except ε α) : Prop :=
  ∀ error, computation = .error error → allowed error

variable {allowed : ε → Prop}

theorem Raises.imp {allowed' : ε → Prop} {computation : Except ε α}
    (raises : Raises allowed computation)
    (weaker : ∀ error, allowed error → allowed' error) :
    Raises allowed' computation :=
  fun error failed => weaker error (raises error failed)

@[simp]
theorem raises_ok (value : α) : Raises allowed (.ok value) := by
  simp [Raises]

@[simp]
theorem raises_pure (value : α) :
    Raises allowed (pure value : Except ε α) := by
  simp [Raises, pure, Except.pure]

@[simp]
theorem raises_error_iff {error : ε} :
    Raises allowed (.error error : Except ε α) ↔ allowed error := by
  simp [Raises]

@[simp]
theorem raises_throw_iff {error : ε} :
    Raises allowed (throw error : Except ε α) ↔ allowed error := by
  simp [Raises, throw, throwThe, MonadExceptOf.throw]

@[simp]
theorem raises_bind_iff {computation : Except ε α} {next : α → Except ε β} :
    Raises allowed (computation >>= next) ↔
      Raises allowed computation ∧
        ∀ value, computation = .ok value → Raises allowed (next value) := by
  cases computation <;> simp [bind, Except.bind, Raises]

@[simp]
theorem raises_map_iff {computation : Except ε α} {change : α → β} :
    Raises allowed (change <$> computation) ↔ Raises allowed computation := by
  cases computation <;> simp [Functor.map, Except.map]

@[simp]
theorem raises_ite_iff {condition : Prop} [Decidable condition]
    {first second : Except ε α} :
    Raises allowed (if condition then first else second) ↔
      (condition → Raises allowed first) ∧
        (¬ condition → Raises allowed second) := by
  split <;> simp_all

theorem raises_mapError {ε' : Type} {change : ε' → ε}
    {computation : Except ε' α} (all : ∀ error, allowed (change error)) :
    Raises allowed (computation.mapError change) := by
  cases computation with
  | ok value => exact raises_ok value
  | error error => exact raises_error_iff.mpr (all error)

theorem raises_mapM {step : α → Except ε β}
    (all : ∀ item, Raises allowed (step item)) (items : List α) :
    Raises allowed (items.mapM step) := by
  induction items with
  | nil => simp
  | cons item rest ih => simp [all, ih]

theorem raises_forM {step : α → Except ε PUnit}
    (all : ∀ item, Raises allowed (step item)) (items : List α) :
    Raises allowed (items.forM step) := by
  induction items with
  | nil => exact raises_pure _
  | cons item rest ih =>
      exact raises_bind_iff.mpr ⟨all item, fun _ _ => ih⟩

end YangSchema
