import YangSchema.Proofs.Compilation.Groupings
import YangSchema.Proofs.Linking.Splitting

/-!
# Splitting a module

When definitions of a module are moved into a new submodule that it includes, the names
of all units are still resolved, and to the same definitions where they stand now, if
only the module itself names what is moved, by its own names.  Another module that
imports it does not see what is in a submodule.
-/

namespace YangSchema

/-- A reference of one set of units and its counterpart in another one, which is
resolved to the same node where that stands then. -/
structure Splitting.Carries (σ : Splitting) (unit unit' : LinkUnit)
    (item item' : Reference) : Prop where
  ask : item'.ask unit'.source = (item.ask unit.source).move σ.ref
  resolved : ∃ target, item.state = .resolved target ∧
    item'.state = .resolved (σ.ref target)

theorem LinkUnit.mem_asks_iff {unit : LinkUnit} {ask : Ask} :
    ask ∈ unit.asks ↔
      ∃ item ∈ unit.queue, item.IsOwnName ∧ item.ask unit.source = ask := by
  simp only [asks, List.mem_map, List.mem_filter, Bool.and_eq_true,
    Option.isNone_iff_eq_none, and_assoc]
  exact exists_congr fun item => and_congr_right fun _ =>
    ⟨fun ⟨own, named, same⟩ => ⟨⟨own, named⟩, same⟩,
      fun ⟨⟨own, named⟩, same⟩ => ⟨own, named, same⟩⟩

theorem Linking.soughtKind_unplaced (kind : ReferenceKind) :
    soughtKind kind.unplaced = soughtKind kind := by
  cases kind <;> rfl

namespace Compilation

/-- In the end a name that a unit looks up for itself is in the state that it is put
into by what is found for it. -/
theorem state_of_ownName {limits : ParseLimits} {sources : Sources}
    {compilation : Compilation}
    (compiled : compile limits sources = .ok compilation) {unit : LinkUnit}
    (member : unit ∈ compilation.units) (usable : unit.usable = true)
    {item : Reference} (queued : item ∈ unit.queue) (own : item.IsOwnName) :
    item.state = LinkUnit.stateOf item.kind .unresolved
      ((Scene.ofUnits compilation.units .interFile).outcome unit.source item) := by
  simp only [compile, bind_eq_ok_iff, pure_eq_ok_iff] at compiled
  obtain ⟨parsed, -, rfl⟩ := compiled
  obtain ⟨units, alone, finished⟩ :=
    Linking.exists_linkAlone fun _ => ofParsed_isFinished parsed
  have distinct := ofParsed_distinct parsed
  rw [← alone, (Linking.linkAlone_evolves units).map_source] at distinct
  simp only [linked, ← alone] at member ⊢
  obtain ⟨place, known⟩ := List.mem_iff_getElem?.mp member
  obtain ⟨index, found⟩ := List.mem_iff_getElem?.mp queued
  obtain ⟨start, queued, -, agree⟩ :=
    Linking.linkAlone_standing distinct finished known usable found own
  have state := agree.state
  rw [found, LinkUnit.getElem?_apply_self queued] at state
  exact congrArg (·.state) (Option.some.inj state)

section

variable {limits : ParseLimits} {sources sources' : Sources}
  {first second : Compilation} {σ : Splitting}
  (compiled : compile limits sources = .ok first)
  (valid : first.isValid = true)
  (compiled' : compile limits sources' = .ok second)
  (splits : σ.Splits (.ofUnits first.units .interFile)
    (.ofUnits second.units .interFile))
  (closed : σ.IsClosed (.ofUnits first.units .interFile))
  (inside : σ.IsPrivate (.ofUnits first.units .interFile))
  (unambiguous : (Scene.ofUnits second.units .interFile).IsUnambiguous)
include compiled valid compiled' splits closed inside unambiguous

/-- What asks for the same from its new place is resolved to the same in its new
place. -/
theorem carries_of_ask {unit unit' : LinkUnit} {item item' : Reference}
    (member : unit ∈ first.units) (queued : item ∈ unit.queue)
    (own : item.IsOwnName) (member' : unit' ∈ second.units)
    (queued' : item' ∈ unit'.queue) (own' : item'.IsOwnName)
    (same : item'.ask unit'.source = (item.ask unit.source).move σ.ref) :
    σ.Carries unit unit' item item' := by
  have connected := compile_isConnected compiled
  have connected' := compile_isConnected compiled'
  have linked := isLinked_of_isValid compiled valid
  have nested (source : SourceId) :
      (Scene.ofUnits first.units .interFile).IsNestedAt source := by
    intro tree isTree
    obtain ⟨unit, member, rfl, -⟩ := Scene.tree?_mem isTree
    exact (connected.units unit member (linked unit member).usable).nested
  have usable : ∀ node ∈ (Scene.ofUnits first.units .interFile).nodeRefs,
      (Scene.ofUnits first.units .interFile).isUsable node.source = true := by
    intro node known
    obtain ⟨other, among, listed⟩ := List.mem_flatMap.mp known
    obtain ⟨id, -, rfl⟩ := List.mem_map.mp listed
    have found := @Scene.unit?_of_mem (.ofUnits first.units .interFile)
      connected.distinct other among
    simp [Scene.isUsable, found, (linked other among).usable]
  -- The reference of the first set is resolved.
  obtain ⟨target, resolved⟩ := (linked unit member).resolved item queued
  have state := (state_of_ownName compiled member (linked unit member).usable
    queued own).symm.trans resolved
  obtain ⟨node, known⟩ := ((connected.units unit member
    (linked unit member).usable).named queued .consumer).known
  have among := Scene.mem_nodeRefs_of_node? known
  have state' := (splits.relocates connected'.distinct closed inside nested usable
    unambiguous).resolves own own'.own same (by simp [known])
      (fun kind name sought parsed => ⟨among, ?_⟩) state
  · refine ⟨same, target, resolved, ?_⟩
    have home : unit'.source = σ.home ⟨unit.source, item.consumer⟩ :=
      congrArg (·.consumer.source) same
    have usable' := splits.isUsable_home connected'.distinct (usable _ among)
    have found := @Scene.unit?_of_mem (.ofUnits second.units .interFile)
      connected'.distinct unit' member'
    rw [← home, Scene.isUsable, found] at usable'
    exact (state_of_ownName compiled' member' usable' queued' own').trans state'
  · refine List.mem_flatMap.mpr ⟨unit, member, List.mem_append_right _ ?_⟩
    refine List.mem_filterMap.mpr ⟨item.ask unit.source,
      LinkUnit.mem_asks_iff.mpr ⟨item, queued, own, rfl⟩, ?_⟩
    rw [← Linking.soughtKind_unplaced] at sought
    simp [Ask.writing?, Reference.ask, sought, parsed]

/-- When definitions of a module are moved into a new submodule that it includes, all
names of a valid set are resolved in the new set, too, each to the same definition where
it stands then.  What is moved may name nothing else, and only the module itself may
name it, without the prefix of an import;  and no unit may declare what a submodule
that it includes declares, too. -/
theorem names_of_split_module :
    (∀ unit ∈ first.units, ∀ item ∈ unit.queue, item.IsOwnName →
      ∃ unit' ∈ second.units, ∃ item' ∈ unit'.queue, item'.IsOwnName ∧
        σ.Carries unit unit' item item') ∧
    ∀ unit' ∈ second.units, ∀ item' ∈ unit'.queue, item'.IsOwnName →
      ∃ unit ∈ first.units, ∃ item ∈ unit.queue, item.IsOwnName ∧
        σ.Carries unit unit' item item' := by
  constructor
  · intro unit member item queued own
    have asked : (item.ask unit.source).move σ.ref ∈
        second.units.flatMap (·.asks) :=
      splits.asks.mem_iff.mpr <| List.mem_map_of_mem <| List.mem_flatMap.mpr
        ⟨unit, member, LinkUnit.mem_asks_iff.mpr ⟨item, queued, own, rfl⟩⟩
    obtain ⟨unit', member', asked⟩ := List.mem_flatMap.mp asked
    obtain ⟨item', queued', own', same⟩ := LinkUnit.mem_asks_iff.mp asked
    exact ⟨unit', member', item', queued', own', carries_of_ask compiled valid
      compiled' splits closed inside unambiguous member queued own member' queued'
      own' same⟩
  · intro unit' member' item' queued' own'
    have asked : item'.ask unit'.source ∈
        (first.units.flatMap (·.asks)).map (·.move σ.ref) :=
      splits.asks.mem_iff.mp <| List.mem_flatMap.mpr
        ⟨unit', member', LinkUnit.mem_asks_iff.mpr ⟨item', queued', own', rfl⟩⟩
    obtain ⟨ask, asked, same⟩ := List.mem_map.mp asked
    obtain ⟨unit, member, asked⟩ := List.mem_flatMap.mp asked
    obtain ⟨item, queued, own, rfl⟩ := LinkUnit.mem_asks_iff.mp asked
    exact ⟨unit, member, item, queued, own, carries_of_ask compiled valid
      compiled' splits closed inside unambiguous member queued own member' queued'
      own' same.symm⟩

end

/-- The first nodes of the first unit are moved. -/
def frontMoved (count : Nat) (part : SourceId) : Splitting where
  whole := 0
  part := part
  moved := fun id => id != rootId && id ≤ count
  number := fun id => if id ≤ count then id else id - count

/-- A module still uses its grouping when that is in a submodule, with the typedef that
it needs. -/
theorem names_of_split_module_used :
    let whole : Source := ⟨.inline, "module m \x7b namespace \"u:m\"; " ++
      "prefix m; typedef t \x7b type string; \x7d grouping g \x7b " ++
      "leaf a \x7b type t; \x7d \x7d uses m:g; \x7d"⟩
    let rest : Source := ⟨.inline, "module m \x7b namespace \"u:m\"; " ++
      "prefix m; include n; uses m:g; \x7d"⟩
    let part : Source := ⟨.inline, "submodule n \x7b belongs-to m \x7b " ++
      "prefix m; \x7d typedef t \x7b type string; \x7d grouping g \x7b " ++
      "leaf a \x7b type t; \x7d \x7d \x7d"⟩
    ∃ first second unit unit' item item',
      compile .standard [whole] = .ok first ∧
      compile .standard [rest, part] = .ok second ∧
      unit ∈ first.units ∧ item ∈ unit.queue ∧ item.kind = .uses ∧
      item.state = .resolved ⟨0, 2⟩ ∧ unit' ∈ second.units ∧
      item' ∈ unit'.queue ∧ item'.text = "m:g" ∧
      item'.state = .resolved ⟨1, 2⟩ := by
  intro whole rest part
  have checked : ((compile .standard [whole]).toOption.any fun first =>
      (compile .standard [rest, part]).toOption.any fun second =>
        first.isValid &&
        decide ((frontMoved 3 1).Splits (.ofUnits first.units .interFile)
          (.ofUnits second.units .interFile)) &&
        decide ((frontMoved 3 1).IsClosed (.ofUnits first.units .interFile)) &&
        decide ((frontMoved 3 1).IsPrivate (.ofUnits first.units .interFile)) &&
        decide (Scene.ofUnits second.units .interFile).IsUnambiguous &&
        first.units.any fun unit => unit.queue.any fun item =>
          item.kind == .uses && item.text == "m:g" && item.origin == none &&
            item.state == .resolved ⟨0, 2⟩) = true := by
    decide +kernel
  cases compiled : compile .standard [whole] with
  | error error => simp [compiled, Except.toOption] at checked
  | ok first =>
      cases compiled' : compile .standard [rest, part] with
      | error error => simp [compiled, compiled', Except.toOption] at checked
      | ok second =>
          simp only [compiled, compiled', Except.toOption, Option.any_some,
            Bool.and_eq_true, decide_eq_true_eq, List.any_eq_true, beq_iff_eq]
            at checked
          obtain ⟨⟨⟨⟨⟨valid, splits⟩, closed⟩, inside⟩, unambiguous⟩, unit, member,
            item, queued, ⟨⟨kind, text⟩, own⟩, state⟩ := checked
          obtain ⟨unit', member', item', queued', -, ask, target, resolved,
              resolved'⟩ :=
            (names_of_split_module compiled valid compiled' splits closed inside
              unambiguous).1 unit member item queued ⟨own, by rw [kind]; rfl⟩
          obtain rfl := ReferenceState.resolved.inj (state.symm.trans resolved)
          exact ⟨first, second, unit, unit', item, item', rfl, rfl, member,
            queued, kind, state, member', queued',
            (congrArg (·.text) ask).trans text, resolved'⟩

/-- A module that imports another one does not see what has been moved into a
submodule of it. -/
theorem compile_hides_submodule :
    let whole : Source := ⟨.inline, "module m \x7b namespace \"u:m\"; " ++
      "prefix m; grouping g; \x7d"⟩
    let user : Source := ⟨.inline, "module x \x7b namespace \"u:x\"; " ++
      "prefix x; import m \x7b prefix m; \x7d uses m:g; \x7d"⟩
    let rest : Source := ⟨.inline, "module m \x7b namespace \"u:m\"; " ++
      "prefix m; include n; \x7d"⟩
    let part : Source := ⟨.inline, "submodule n \x7b belongs-to m \x7b " ++
      "prefix m; \x7d grouping g; \x7d"⟩
    ∃ first second,
      compile .standard [whole, user] = .ok first ∧
      compile .standard [rest, user, part] = .ok second ∧
      (frontMoved 1 2).Splits (.ofUnits first.units .interFile)
        (.ofUnits second.units .interFile) ∧
      (frontMoved 1 2).IsClosed (.ofUnits first.units .interFile) ∧
      (Scene.ofUnits second.units .interFile).IsUnambiguous ∧
      first.isValid = true ∧ second.isValid = false := by
  intro whole user rest part
  have checked : ((compile .standard [whole, user]).toOption.any fun first =>
      (compile .standard [rest, user, part]).toOption.any fun second =>
        decide ((frontMoved 1 2).Splits (.ofUnits first.units .interFile)
          (.ofUnits second.units .interFile)) &&
        decide ((frontMoved 1 2).IsClosed (.ofUnits first.units .interFile)) &&
        decide (Scene.ofUnits second.units .interFile).IsUnambiguous &&
        first.isValid && !second.isValid) = true := by
    decide +kernel
  cases compiled : compile .standard [whole, user] with
  | error error => simp [compiled, Except.toOption] at checked
  | ok first =>
      cases compiled' : compile .standard [rest, user, part] with
      | error error => simp [compiled, compiled', Except.toOption] at checked
      | ok second =>
          simp only [compiled, compiled', Except.toOption, Option.any_some,
            Bool.and_eq_true, decide_eq_true_eq, Bool.not_eq_true'] at checked
          obtain ⟨⟨⟨⟨splits, closed⟩, unambiguous⟩, valid⟩, invalid⟩ := checked
          exact ⟨first, second, rfl, rfl, splits, closed, unambiguous, valid,
            invalid⟩

end Compilation

end YangSchema
