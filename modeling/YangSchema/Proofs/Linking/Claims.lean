import Mathlib.Data.List.Flatten
import YangSchema.Proofs.Linking.Applying
import YangSchema.Proofs.Linking.Fields
import YangSchema.Proofs.Schema.Places

/-!
# The fields that references lay claim to

A reference that a node makes itself writes its result to the fields of that
node; one that is made on behalf of another place writes nothing.  A derived type
that is pending also has a claim to the target of a leafref, which the reference
at the end of its typedef chain takes over.  A unit is tidy if no two references
lay claim to one field, and the fields of those that are pending have no value.
Writing an outcome down keeps a unit tidy, so links are only ever added.
-/

namespace YangSchema

/-- The fields that the result of a reference is written to. -/
def Reference.results (item : Reference) : List LinkField :=
  match item.origin, item.kind with
  | some _, _ => []
  | none, .uses => [⟨item.consumer, .uses⟩]
  | none, .augment => [⟨item.consumer, .augment⟩]
  | none, .base => [⟨item.consumer, .base⟩]
  | none, .ifFeature index => [⟨item.consumer, .feature index⟩]
  | none, .derivedType slot =>
      [⟨slot.node, .typedef slot.member⟩, ⟨slot.node, .effective slot.member⟩,
        ⟨slot.node, .identity slot.member⟩]
  | none, .identityref slot => [⟨slot.node, .identity slot.member⟩]
  | none, .leafref slot => [⟨slot.node, .leafrefTarget slot.member⟩]

/-- The field that a pending reference leaves to a reference which it may bring
in. -/
def Reference.legacy (item : Reference) : List LinkField :=
  match item.origin, item.kind with
  | none, .derivedType slot =>
      if item.isPending then [⟨slot.node, .leafrefTarget slot.member⟩] else []
  | _, _ => []

def Reference.claims (item : Reference) : List LinkField :=
  item.results ++ item.legacy

structure LinkUnit.IsTidy (unit : LinkUnit) : Prop where
  apart : (unit.queue.flatMap (·.claims)).Nodup
  vacant : ∀ item ∈ unit.queue, item.isPending = true →
    ∀ field ∈ item.claims, unit.tree.link? field = none

namespace Reference

variable {item : Reference} {field : LinkField}

theorem results_setState (item : Reference) (state : ReferenceState) :
    ({ item with state } : Reference).results = item.results := rfl

theorem claims_settled {state : ReferenceState} (settled : state ≠ .unresolved) :
    ({ item with state } : Reference).claims = item.results := by
  have done : ({ item with state } : Reference).isPending = false := by
    simpa [isPending] using settled
  have none : ({ item with state } : Reference).legacy = [] := by
    unfold legacy
    split
    · simp [done]
    · rfl
  rw [claims, none, List.append_nil, results_setState]

theorem claims_of_origin (origin : item.origin.isSome) : item.claims = [] := by
  obtain ⟨origin, made⟩ := Option.isSome_iff_exists.mp origin
  simp [claims, results, legacy, made]

theorem results_sublist (item : Reference) :
    item.results.Sublist item.claims :=
  List.sublist_append_left _ _

end Reference

/-- The place that a field belongs to, if references write to it. -/
def LinkField.place? (field : LinkField) : Option LinkPlace :=
  match field.part with
  | .uses => some (.uses field.node)
  | .augment => some (.augment field.node)
  | .base => some (.base field.node)
  | .feature index => some (.feature field.node index)
  | .typedef member | .effective member | .identity member
  | .leafrefTarget member => some (.type ⟨field.node, member⟩)
  | .importing _ | .including _ => none

namespace Reference

variable {item : Reference} {field : LinkField}

theorem place?_of_mem_claims (claimed : field ∈ item.claims) :
    field.place? = some item.linkPlace := by
  have origin : item.origin = none := by
    cases made : item.origin with
    | none => rfl
    | some origin =>
        simp [claims_of_origin (by simp [made] : item.origin.isSome)] at claimed
  unfold claims results legacy at claimed
  unfold linkPlace
  cases kind : item.kind <;>
    simp only [origin, kind, List.mem_append, List.mem_cons, List.not_mem_nil,
      or_false] at claimed
  case derivedType slot =>
    split at claimed
    · simp only [List.mem_cons, List.not_mem_nil, or_false] at claimed
      rcases claimed with (rfl | rfl | rfl) | rfl <;> rfl
    · simp only [List.not_mem_nil, or_false] at claimed
      rcases claimed with rfl | rfl | rfl <;> rfl
  all_goals
    subst claimed
    rfl

theorem nodup_claims (item : Reference) : item.claims.Nodup := by
  cases made : item.origin with
  | some origin =>
      rw [claims_of_origin (by simp [made])]
      exact List.nodup_nil
  | none =>
      cases kind : item.kind <;> simp [claims, results, legacy, made, kind]
      split <;> simp

end Reference

/-- References with places of their own have claims of their own. -/
theorem ReferenceQueue.nodup_claims {queue : ReferenceQueue}
    (places : (queue.map (·.linkPlace)).Nodup) :
    (queue.flatMap (·.claims)).Nodup := by
  refine List.nodup_flatMap.mpr ⟨fun item _ => item.nodup_claims, ?_⟩
  refine (List.pairwise_map.mp places).imp fun {item other} apart field claimed
    claimed' => apart ?_
  exact Option.some.inj ((Reference.place?_of_mem_claims claimed).symm.trans
    (Reference.place?_of_mem_claims claimed'))

namespace LinkUnit

variable {tree : SchemaTree} {item : Reference}

/-- A target is written to the fields of its reference. -/
theorem bindTarget_writesTo (tree : SchemaTree) (item : Reference)
    (target : NodeRef) :
    tree.WritesTo (· ∈ item.results) (bindTarget tree item target) := by
  cases made : item.origin with
  | some origin =>
      simp only [bindTarget, made, Option.isSome_some, if_true]
      exact .refl _ tree
  | none =>
      simp only [bindTarget, made, Option.isSome_none, Bool.false_eq_true,
        if_false]
      cases kind : item.kind with
      | derivedType slot => exact .refl _ tree
      | ifFeature index =>
          exact .modifyFeature index (fun _ => rfl)
            (by simp [Reference.results, made, kind])
      | identityref slot | leafref slot =>
          refine .modifyLinks fun links => ?_
          simp [Reference.results, made, kind]
      | uses | augment | base =>
          refine .modifyConstruct (fun construct _ => ?_)
            fun construct _ part other => ?_
          · cases construct <;> rfl
          · have another : part ≠ _ := fun same => other <| by
              rw [same]
              simp only [Reference.results, made, kind]
              exact List.mem_singleton_self _
            cases construct <;> cases part <;> first | rfl | contradiction

/-- A derivation is written to the fields of its reference. -/
theorem bindDerivation_writesTo (tree : SchemaTree) {slot : TypeSlot}
    (kind : item.kind = .derivedType slot) (derivation : Derivation) :
    tree.WritesTo (· ∈ item.results) (bindDerivation tree item slot derivation) := by
  unfold bindDerivation
  split
  · exact .refl _ tree
  next own =>
    have made : item.origin = none := by simpa using own
    refine .modifyLinks fun links => ?_
    simp [Reference.results, made, kind]

/-- What a settled reference brings in takes over what it leaves. -/
theorem claims_chainLeafref {slot : TypeSlot} {derivation : Derivation}
    (kind : item.kind = .derivedType slot) (pending : item.isPending = true) :
    ((chainLeafref item slot derivation).flatMap (·.claims)).Sublist
      item.legacy := by
  unfold chainLeafref
  cases derivation.leafref with
  | none => exact List.nil_sublist _
  | some path =>
      cases made : item.origin with
      | none => simp [Reference.claims, Reference.results, Reference.legacy,
          Reference.ofText, kind, pending, made]
      | some origin => simp [Reference.claims_of_origin]

theorem claims_followUps {slot : TypeSlot} {derivation : Derivation}
    {members : List Reference} (kind : item.kind = .derivedType slot)
    (pending : item.isPending = true)
    (foreign : ∀ member ∈ members, member.origin.isSome) :
    ((followUps tree item slot derivation members).flatMap (·.claims)).Sublist
      item.legacy := by
  have none : members.flatMap (·.claims) = [] :=
    List.flatMap_eq_nil_iff.mpr fun member listed =>
      Reference.claims_of_origin (foreign member listed)
  have all : ((members ++ chainLeafref item slot derivation).flatMap
      (·.claims)).Sublist item.legacy := by
    rw [List.flatMap_append, none]
    exact claims_chainLeafref kind pending
  exact (List.filter_sublist.flatMap _).trans all

namespace IsTidy

variable {unit : LinkUnit} {index : Nat} {front back more : ReferenceQueue}
  {state : ReferenceState}

/-- A pending reference is settled, and others take over what it leaves. -/
theorem settle (tidy : unit.IsTidy)
    (split : unit.queue = front ++ item :: back)
    (pending : item.isPending = true) (settled : state ≠ .unresolved)
    (writes : unit.tree.WritesTo (· ∈ item.results) tree)
    (taken : (more.flatMap (·.claims)).Sublist item.legacy) :
    IsTidy { unit with
      tree, queue := front ++ { item with state } :: (back ++ more) } := by
  obtain ⟨apart, vacant⟩ := tidy
  rw [split] at apart vacant
  have results : ({ item with state } : Reference).claims = item.results :=
    Reference.claims_settled settled
  constructor
  · -- The claims are those of before in another order, without some of them.
    have sublist : (front.flatMap (·.claims) ++ (item.results ++
        (more.flatMap (·.claims) ++ back.flatMap (·.claims)))).Sublist
        ((front ++ item :: back).flatMap (·.claims)) := by
      simp only [List.flatMap_append, List.flatMap_cons, Reference.claims,
        List.append_assoc]
      exact (List.Sublist.refl _).append <| (List.Sublist.refl _).append <|
        taken.append (.refl _)
    refine (List.Perm.nodup_iff ?_).mp (sublist.nodup apart)
    simp only [List.flatMap_append, List.flatMap_cons, results]
    exact List.perm_append_comm.append_left _ |>.append_left _
  · have others : ∀ other ∈ front ++ back, ∀ field ∈ other.claims,
        field ∉ item.claims := by
      have middle : (front ++ item :: back).Perm (item :: (front ++ back)) :=
        List.perm_middle
      have disjoint :=
        (middle.flatMap_right Reference.claims).nodup_iff.mp apart
      rw [List.flatMap_cons] at disjoint
      intro other listed field claimed mine
      exact List.disjoint_of_nodup_append disjoint mine
        (List.mem_flatMap.mpr ⟨other, listed, claimed⟩)
    have untouched : ∀ field ∉ item.results,
        unit.tree.link? field = none → tree.link? field = none :=
      fun field other none => (writes.others field other).trans none
    have own := item.nodup_claims
    intro other queued waiting field claimed
    simp only [List.mem_append, List.mem_cons] at queued
    obtain old | rfl | old | new :
        other ∈ front ∨ other = { item with state } ∨ other ∈ back ∨
          other ∈ more := queued
    · refine untouched field (fun mine => ?_) (vacant other (by simp [old])
        waiting field claimed)
      exact others other (by simp [old]) field claimed
        (item.results_sublist.mem mine)
    · exact absurd waiting (by simpa [Reference.isPending] using settled)
    · refine untouched field (fun mine => ?_) (vacant other (by simp [old])
        waiting field claimed)
      exact others other (by simp [old]) field claimed
        (item.results_sublist.mem mine)
    · have left : field ∈ item.legacy :=
        taken.mem (List.mem_flatMap.mpr ⟨other, new, claimed⟩)
      refine untouched field (fun mine => ?_) (vacant item (by simp) pending
        field (List.mem_append_right _ left))
      exact List.disjoint_of_nodup_append own mine left

/-- References on behalf of other places can be queued any time. -/
theorem append (tidy : unit.IsTidy)
    (foreign : ∀ item ∈ more, item.origin.isSome) :
    IsTidy { unit with queue := unit.queue ++ more } := by
  have none : more.flatMap (·.claims) = [] :=
    List.flatMap_eq_nil_iff.mpr fun item listed =>
      Reference.claims_of_origin (foreign item listed)
  constructor
  · simpa [List.flatMap_append, none] using tidy.apart
  · intro item queued pending field claimed
    obtain old | new := List.mem_append.mp queued
    · exact tidy.vacant item old pending field claimed
    · simp [Reference.claims_of_origin (foreign item new)] at claimed

end IsTidy

end LinkUnit

end YangSchema
