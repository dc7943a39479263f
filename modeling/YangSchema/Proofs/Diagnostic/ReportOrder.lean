import Mathlib.Data.List.Perm.Basic
import YangSchema.Proofs.Diagnostic.Suppression

/-!
# Suppressing in report order

A diagnostic acts unless one that has acted before suppresses it, and what is
suppressed by none that acts is kept.  Which ones act depends on the report
order:  a diagnostic may act before the one that suppresses it has had its turn.
What nothing suppresses acts in every order, so the order makes no difference
exactly if whatever is suppressed at all is suppressed by such a root.
-/

namespace YangSchema

namespace Diagnostics

variable {diagnostics acted : Diagnostics} {first second : Diagnostic}

/-- One of the diagnostics suppresses `second`. -/
def suppressAny (diagnostics : Diagnostics) (second : Diagnostic) : Bool :=
  diagnostics.any (suppresses · second)

/-- A diagnostic has its turn behind those that have acted. -/
def act (acted : Diagnostics) (diagnostic : Diagnostic) : Diagnostics :=
  if acted.suppressAny diagnostic then acted else acted ++ [diagnostic]

/-- The diagnostics that act when all have their turn one after another. -/
def acting (diagnostics : Diagnostics) : Diagnostics :=
  diagnostics.foldl act []

theorem suppressAny_iff :
    diagnostics.suppressAny second = true ↔
      ∃ first ∈ diagnostics, suppresses first second = true := by
  simp [suppressAny]

theorem suppresses_self (diagnostic : Diagnostic) :
    suppresses diagnostic diagnostic = false := by
  refine Bool.eq_false_iff.mpr fun suppressed => ?_
  obtain ⟨-, -, precedes⟩ := precedes_of_suppresses suppressed
  exact precedes_wellFounded.irrefl.irrefl _ precedes

theorem acting_concat (before : Diagnostics) (diagnostic : Diagnostic) :
    acting (before ++ [diagnostic]) = act (acting before) diagnostic := by
  simp [acting]

/-! ## The marks of a run -/

/-- The diagnostics, marked where one of those that have acted suppresses. -/
def markedBy (diagnostics acted : Diagnostics) : List Marked :=
  diagnostics.map fun diagnostic => (diagnostic, acted.suppressAny diagnostic)

theorem markFrom_markedBy {index : Nat}
    (found : diagnostics[index]? = some first) :
    markFrom first index (diagnostics.markedBy acted) =
      diagnostics.markedBy (acted ++ [first]) := by
  refine List.ext_getElem? fun place => ?_
  simp only [markFrom, markedBy, List.getElem?_mapIdx, List.getElem?_map,
    Option.map_map]
  by_cases same : place = index
  · subst same
    simp [found, suppressAny, suppresses_self]
  · simp [same, suppressAny, Function.comp_def]

/-- From some index on those that none before it suppresses act. -/
theorem markAll_markedBy (steps index : Nat)
    (whole : index + steps = diagnostics.length) :
    markAll steps index
        (diagnostics.markedBy (acting (diagnostics.take index))) =
      diagnostics.markedBy (acting diagnostics) := by
  induction steps generalizing index with
  | zero => rw [markAll, List.take_of_length_le (by omega)]
  | succ steps ih =>
      have below : index < diagnostics.length := by omega
      have found := List.getElem?_eq_getElem below
      have further := ih (index + 1) (by omega)
      rw [List.take_add_one, found, Option.toList_some, acting_concat, act]
        at further
      have entry : (diagnostics.markedBy
          (acting (diagnostics.take index)))[index]? =
          some (diagnostics[index],
            (acting (diagnostics.take index)).suppressAny diagnostics[index]) := by
        simp [markedBy, found]
      rw [markAll, entry]
      cases silenced :
          (acting (diagnostics.take index)).suppressAny diagnostics[index] with
      | false =>
          simp only [silenced, Bool.false_eq_true, if_false] at further
          simp only
          rw [markFrom_markedBy found, further]
      | true =>
          simp only [silenced, if_true] at further
          exact further

/-- What none of those that act suppresses is kept. -/
theorem filtered_eq (diagnostics : Diagnostics) :
    diagnostics.filtered =
      diagnostics.filter (!(acting diagnostics).suppressAny ·) := by
  have start : (diagnostics.map fun diagnostic => (diagnostic, false)) =
      diagnostics.markedBy (acting (diagnostics.take 0)) := by
    simp [markedBy, acting, suppressAny]
  rw [filtered, start, markAll_markedBy _ 0 (Nat.zero_add _), markedBy,
    List.filter_map, List.map_map]
  simp [Function.comp_def]

/-! ## Who acts -/

theorem subset_foldl_act (rest : Diagnostics) : acted ⊆ rest.foldl act acted := by
  induction rest generalizing acted with
  | nil => exact List.Subset.refl _
  | cons diagnostic rest ih =>
      refine List.Subset.trans ?_ ih
      unfold act
      split
      · exact List.Subset.refl _
      · exact List.subset_append_left _ _

/-- Whoever acts is suppressed by none that has acted before. -/
theorem mem_foldl_act {rest : Diagnostics}
    (acts : first ∈ rest.foldl act acted) :
    first ∈ acted ∨ first ∈ rest ∧ acted.suppressAny first = false := by
  induction rest generalizing acted with
  | nil => exact .inl acts
  | cons diagnostic rest ih =>
      obtain before | ⟨later, spared⟩ := ih acts
      · unfold act at before
        split at before
        · exact .inl before
        next spared =>
          obtain before | new := List.mem_append.mp before
          · exact .inl before
          · obtain rfl := List.mem_singleton.mp new
            exact .inr ⟨List.mem_cons_self, Bool.eq_false_iff.mpr spared⟩
      · refine .inr ⟨List.mem_cons_of_mem _ later, ?_⟩
        unfold act at spared
        split at spared
        · exact spared
        · simp only [suppressAny, List.any_append, Bool.or_eq_false_iff] at spared
          exact spared.1

theorem acting_subset : acting diagnostics ⊆ diagnostics := by
  intro first acts
  obtain before | ⟨listed, -⟩ := mem_foldl_act acts
  · simp at before
  · exact listed

/-- A diagnostic acts if none that has acted before suppresses it. -/
theorem mem_acting (before after : Diagnostics)
    (spared : (acting before).suppressAny first = false) :
    first ∈ acting (before ++ first :: after) := by
  rw [acting, List.foldl_append, List.foldl_cons]
  refine subset_foldl_act after ?_
  change first ∈ act (acting before) first
  simp [act, spared]

/-- None of the diagnostics suppresses `root`. -/
def IsRoot (diagnostics : Diagnostics) (root : Diagnostic) : Prop :=
  ∀ other ∈ diagnostics, suppresses other root = false

theorem isRoot_iff {root : Diagnostic} :
    diagnostics.IsRoot root ↔ diagnostics.suppressAny root = false := by
  simp [IsRoot, suppressAny]

/-- Roots act whenever they have their turn. -/
theorem IsRoot.acts {root : Diagnostic} (isRoot : diagnostics.IsRoot root)
    (listed : root ∈ diagnostics) : root ∈ acting diagnostics := by
  obtain ⟨before, after, rfl⟩ := List.append_of_mem listed
  refine mem_acting before after (isRoot_iff.mp fun other acts => ?_)
  exact isRoot other (List.mem_append_left _ (acting_subset acts))

/-! ## The order makes no difference -/

/-- Whatever is suppressed is suppressed by what nothing suppresses. -/
def AreRooted (diagnostics : Diagnostics) : Prop :=
  ∀ second ∈ diagnostics,
    (∃ first ∈ diagnostics, suppresses first second = true) →
      ∃ root ∈ diagnostics, diagnostics.IsRoot root ∧
        suppresses root second = true

theorem suppressAny_perm {other : Diagnostics} (same : other.Perm diagnostics)
    (second : Diagnostic) :
    other.suppressAny second = diagnostics.suppressAny second := by
  rw [Bool.eq_iff_iff, suppressAny_iff, suppressAny_iff]
  simp only [same.mem_iff]

theorem AreRooted.perm {other : Diagnostics} (rooted : diagnostics.AreRooted)
    (same : other.Perm diagnostics) : other.AreRooted := by
  intro second listed suppressed
  simp only [IsRoot, same.mem_iff] at listed suppressed ⊢
  exact rooted second listed suppressed

/-- Then exactly the roots are kept. -/
theorem AreRooted.filtered_eq (rooted : diagnostics.AreRooted) :
    diagnostics.filtered = diagnostics.filter (!diagnostics.suppressAny ·) := by
  rw [Diagnostics.filtered_eq]
  refine List.filter_congr fun second listed => congrArg _ ?_
  rw [Bool.eq_iff_iff, suppressAny_iff, suppressAny_iff]
  constructor
  · rintro ⟨first, acts, suppressed⟩
    exact ⟨first, acting_subset acts, suppressed⟩
  · intro suppressed
    obtain ⟨root, inside, isRoot, suppressed⟩ := rooted second listed suppressed
    exact ⟨root, isRoot.acts inside, suppressed⟩

theorem not_mem_filtered (acts : first ∈ acting diagnostics)
    (suppressed : suppresses first second = true) :
    second ∉ diagnostics.filtered := by
  rw [filtered_eq, List.mem_filter, Bool.not_eq_true']
  rintro ⟨-, spared⟩
  have silenced := suppressAny_iff.mpr ⟨first, acts, suppressed⟩
  rw [spared] at silenced
  exact Bool.false_ne_true silenced

/-- Without a root that suppresses it a diagnostic is dropped in one order and
kept in another, provided that what suppresses it has such a root. -/
theorem exists_orders (listed : second ∈ diagnostics)
    (inside : first ∈ diagnostics) (suppressed : suppresses first second = true)
    (rootless : ∀ root ∈ diagnostics, diagnostics.IsRoot root →
      suppresses root second = false)
    (rooted : ∀ other ∈ diagnostics, suppresses other second = true →
      diagnostics.suppressAny other = true →
      ∃ root ∈ diagnostics, diagnostics.IsRoot root ∧
        suppresses root other = true) :
    ∃ one other : Diagnostics, one.Perm diagnostics ∧ other.Perm diagnostics ∧
      second ∉ one.filtered ∧ second ∈ other.filtered := by
  -- It is dropped when what suppresses it has the first turn.
  have acts : first ∈ acting (first :: diagnostics.erase first) :=
    mem_acting [] _ rfl
  have dropped := not_mem_filtered acts suppressed
  -- It is kept when the roots have their turns first.
  let front := diagnostics.filter (!diagnostics.suppressAny ·)
  let back := diagnostics.filter (diagnostics.suppressAny ·)
  have same : (front ++ back).Perm diagnostics := by
    refine List.perm_append_comm.trans ?_
    exact List.filter_append_perm (diagnostics.suppressAny ·) diagnostics
  have kept : second ∈ filtered (front ++ back) := by
    rw [filtered_eq, List.mem_filter, Bool.not_eq_true', ← isRoot_iff]
    refine ⟨same.mem_iff.mpr listed, fun other acts => ?_⟩
    refine Bool.eq_false_iff.mpr fun suppressed => ?_
    have inside := same.mem_iff.mp (acting_subset acts)
    cases known : diagnostics.suppressAny other with
    | false =>
        have spared := rootless other inside (isRoot_iff.mpr known)
        simp [suppressed] at spared
    | true =>
        -- Its root has acted before, so it could not act.
        obtain ⟨root, among, isRoot, silences⟩ :=
          rooted other inside suppressed known
        have ahead : root ∈ front := by
          simp [front, among, isRoot_iff.mp isRoot]
        have acted : root ∈ acting front := by
          refine IsRoot.acts (fun other member => ?_) ahead
          exact isRoot other (List.mem_of_mem_filter member)
        rw [acting, List.foldl_append] at acts
        obtain before | ⟨-, spared⟩ := mem_foldl_act acts
        · have := List.of_mem_filter (acting_subset before)
          simp [known] at this
        · exact absurd (suppressAny_iff.mpr ⟨root, acted, silences⟩)
            (Bool.eq_false_iff.mp spared)
  exact ⟨_, _, (List.perm_cons_erase inside).symm, same, dropped, kept⟩

/-- The same diagnostics are kept in every report order exactly if everything
that is suppressed by some diagnostic is suppressed by one that nothing
suppresses. -/
theorem filtered_perm_iff (diagnostics : Diagnostics) :
    (∀ other : Diagnostics, other.Perm diagnostics →
        other.filtered.Perm diagnostics.filtered) ↔
      diagnostics.AreRooted := by
  constructor
  · intro alike
    by_contra unrooted
    simp only [AreRooted, not_forall] at unrooted
    -- The first one that has no root, in the order of suppression.
    obtain ⟨second, ⟨listed, ⟨first, inside, suppressed⟩, rootless⟩, least⟩ :=
      precedes_wellFounded.has_min {second | ∃ (_ : second ∈ diagnostics)
        (_ : ∃ first ∈ diagnostics, suppresses first second = true),
        ¬ ∃ root ∈ diagnostics, diagnostics.IsRoot root ∧
          suppresses root second = true} unrooted
    have rooted : ∀ other ∈ diagnostics, suppresses other second = true →
        diagnostics.suppressAny other = true →
        ∃ root ∈ diagnostics, diagnostics.IsRoot root ∧
          suppresses root other = true := by
      intro other among silences known
      by_contra none
      exact least other ⟨among, suppressAny_iff.mp known, none⟩
        (precedes_of_suppresses silences).2.2
    obtain ⟨one, other, same, same', dropped, kept⟩ :=
      exists_orders listed inside suppressed (fun root among isRoot =>
        Bool.eq_false_iff.mpr fun silences =>
          rootless ⟨root, among, isRoot, silences⟩) rooted
    have equal := (alike other same').trans (alike one same).symm
    exact dropped (equal.mem_iff.mp kept)
  · intro rooted other same
    rw [rooted.filtered_eq, (rooted.perm same).filtered_eq,
      funext (suppressAny_perm same)]
    exact same.filter _

/-- An unclosed block silences an error inside it if it is reported before the
missing terminator that silences the block, and not otherwise. -/
theorem filtered_depends_on_order :
    let block := Diagnostic.ofKind 0 .unclosedBlock ⟨2, 10⟩
    let terminator := Diagnostic.ofKind 0 .expectedTerminator ⟨2, 3⟩
    let inner := Diagnostic.ofKind 0 .unexpectedToken ⟨5, 6⟩
    [block, terminator, inner].Perm [terminator, block, inner] ∧
      ¬ (filtered [block, terminator, inner]).Perm
        (filtered [terminator, block, inner]) := by
  decide

end Diagnostics

end YangSchema
