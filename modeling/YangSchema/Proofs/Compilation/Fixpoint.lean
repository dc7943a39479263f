import YangSchema.Proofs.Compilation.Stages
import YangSchema.Proofs.Linking.Fixpoint

/-!
# Linking the units of a compilation ends

A unit that has just been read is in order:  nothing has been linked in it and no
typedef has been expanded.  It stays so while it is linked alone, and units that
have been linked alone are in order when they are put together and their imports
are bound.  So every phase of a compilation ends by itself, and then nothing is
found for what is still pending.
-/

namespace YangSchema

namespace Draft.IsFinished

variable {draft : Draft}

/-- A unit that has been read is in order. -/
theorem isOrderly (finished : draft.IsFinished) :
    Linking.IsOrderly .intraFile [draft.asUnit] where
  connected := finished.isConnected
  tidy unit member _ := by
    obtain rfl := List.mem_singleton.mp member
    exact finished.isTidy.1
  once unit member _ item queued := by
    obtain rfl := List.mem_singleton.mp member
    simp [Scene.expandedTypedefs, (finished.unlinked.queued item queued).own]
  grounded unit member _ id target linked := by
    obtain rfl := List.mem_singleton.mp member
    have empty := finished.link?_eq_none ⟨id, .augment⟩
    have bound : draft.tree.link? ⟨id, .augment⟩ = some (.node target) :=
      SchemaTree.link?_augment_iff.mpr linked
    simp [empty] at bound

theorem linkInside_isOrderly (finished : draft.IsFinished) :
    Linking.IsOrderly .intraFile [draft.linkInside.asUnit] := by
  have linked := finished.isOrderly.of_passes (Linking.link_passes _ _)
  rwa [(asUnit_linkInside draft).1] at linked

end Draft.IsFinished

namespace Linking

theorem bindUnit_queue (entries : List UnitEntry) (unit : LinkUnit) :
    (bindUnit entries unit).1.queue = unit.queue := by
  unfold bindUnit
  split <;> rfl

/-- A unit that is in order alone is bound to grounded nodes among others, too. -/
theorem isGroundedIn_of_alone {phase : LinkPhase} {units : List LinkUnit}
    {alone unit : LinkUnit} (orderly : IsOrderly .intraFile [alone])
    (usable : alone.usable = true) (preserves : unit.Preserves alone)
    (further : alone.tree.LinksFurther unit.tree)
    (augments : ∀ id target, unit.tree.Links id .augment target →
      alone.tree.Links id .augment target)
    (found : (Scene.ofUnits units phase).unit? alone.source = some unit) :
    unit.IsGroundedIn (.ofUnits units phase) := by
  have only : (Scene.ofUnits [alone] .intraFile).unit? alone.source =
      some alone := by
    simp [Scene.unit?, Scene.ofUnits]
  have single := List.mem_singleton_self alone
  intro id target linked
  have linked := augments id target linked
  refine (orderly.grounded alone single usable id target linked).grows
    orderly.connected (Scene.grows_of_alone preserves.before.unbound found
      preserves.resembles preserves.qualifier) ?_
    ((orderly.connected.units alone single usable).links linked).isTarget.live
  intro source tree tree' _ isTree isTree'
  obtain ⟨other, member, rfl, rfl⟩ := Scene.tree?_mem isTree
  obtain rfl : other = alone := List.mem_singleton.mp member
  simp only [Scene.tree?, found, Option.map_some, Option.some.injEq] at isTree'
  exact isTree' ▸ further

/-- Binding imports and includes binds no augment. -/
theorem links_bindUnit {entries : List UnitEntry} {unit : LinkUnit}
    {id : NodeId} {target : NodeRef}
    (linked : (bindUnit entries unit).1.tree.Links id .augment target) :
    unit.tree.Links id .augment target := by
  rw [← SchemaTree.link?_augment_iff] at linked ⊢
  rwa [← (bindUnit_writesTo entries unit).others ⟨id, .augment⟩
    fun written => by simp [LinkField.place?] at written]

/-- Units that have been linked alone are in order when their imports are bound. -/
theorem bindSources_isOrderly {units : List LinkUnit}
    (distinct : (units.map (·.source)).Nodup)
    (each : ∀ unit ∈ units, unit.usable = true →
      unit.IsLinkedAlone ∧ unit.IsDetached ∧ IsOrderly .intraFile [unit]) :
    IsOrderly .interFile (bindSources units).1 := by
  have connected : IsConnected .interFile (bindSources units).1 :=
    bindSources_isConnected distinct fun unit member usable =>
      (each unit member usable).1
  have whole : ∀ unit ∈ units, unit.usable = true →
      unit.IsTidy ∧ unit.IsDetached := fun unit member usable =>
    have ⟨_, detached, orderly⟩ := each unit member usable
    ⟨orderly.tidy unit (List.mem_singleton_self unit) usable, detached⟩
  have earlier : ∀ bound ∈ (bindSources units).1, bound.usable = true →
      ∃ unit ∈ units, unit.usable = true ∧
        bound = (bindUnit (entriesOf units) unit).1 := by
    intro bound member usable
    rw [bindSources_eq] at member
    obtain ⟨unit, among, rfl⟩ := List.mem_map.mp member
    rw [(bindUnit_front _ _).2] at usable
    have kept := rejectUnit_eq_self usable
    rw [kept] at usable
    exact ⟨unit, among, usable, by rw [kept]⟩
  refine
    { connected
      tidy := (bindSources_keeps whole).1
      once := fun bound member isUsable => ?_
      grounded := fun bound member isUsable => ?_ }
  · obtain ⟨unit, among, usable, rfl⟩ := earlier bound member isUsable
    have once := (each unit among usable).2.2.once unit
      (List.mem_singleton_self unit) usable
    rwa [LinkUnit.ExpandsOnce, bindUnit_queue]
  · obtain ⟨unit, among, usable, rfl⟩ := earlier bound member isUsable
    obtain ⟨alone, detached, orderly⟩ := each unit among usable
    have preserves := alone.bindUnit (entriesOf units)
    have found : (Scene.ofUnits (bindSources units).1 .interFile).unit?
        (bindUnit (entriesOf units) unit).1.source = some _ :=
      Scene.unit?_of_mem connected.distinct member
    rw [(bindUnit_front _ _).1] at found
    exact isGroundedIn_of_alone orderly usable preserves
      (LinkUnit.bindUnit_keeps _ (whole unit among)).2.tree
      (fun _ _ => links_bindUnit) found

end Linking

namespace Compilation

variable (parsed : ParsedSources)

theorem bindSources_ofParsed_isOrderly :
    Linking.IsOrderly .interFile
      (Linking.bindSources (ofParsed parsed).units).1 := by
  refine Linking.bindSources_isOrderly (ofParsed_distinct parsed)
    fun unit member usable => ?_
  obtain ⟨draft, finished, rfl⟩ := ofParsed_isFinished parsed member usable
  exact ⟨ofParsed_isLinkedAlone parsed member usable,
    finished.isTidy.2.evolves (Draft.asUnit_linkInside draft).2,
    finished.linkInside_isOrderly⟩

/-- Linking ends by itself with nothing left that could be settled, whatever the
sources say:  when the unit of a source is linked alone, and when all units are
linked with each other. -/
theorem linking_ends :
    (∀ (source : SourceId) (statements : List Statement)
      (before opened inner after : Draft) (unit : Statement),
      Draft.ReachesTopLevel (.empty source) false statements
        (.exit before opened inner unit) →
      unit.known ∈ [Keyword.module, .submodule] →
      Draft.closeUnit inner unit = .ok after →
        Linking.Ends .intraFile [inner.asUnit] ∧
          Linking.link .intraFile [inner.asUnit] = [after.asUnit]) ∧
    Linking.Ends .interFile (Linking.bindSources (ofParsed parsed).units).1 ∧
    Linking.link .interFile (Linking.bindSources (ofParsed parsed).units).1 =
      (ofParsed parsed).linked.units := by
  refine ⟨?_, (bindSources_ofParsed_isOrderly parsed).ends, rfl⟩
  intro source statements before opened inner after unit reached isUnit closed
  obtain ⟨⟨root, stack⟩, finished⟩ :=
    reached.isFinished (.empty source) (fun _ => .empty source) isUnit
  refine ⟨finished.isOrderly.ends, ?_⟩
  have linked := (Draft.asUnit_linkInside { inner with stack := [] }).1
  rwa [← Draft.closeUnit_eq_ok stack closed] at linked

/-- Typedefs and groupings that lead back to themselves, and a type of a name that
means nothing. -/
theorem linking_ends_circular :
    ∃ parsed, ParsedSources.ofSources .standard
        [⟨.inline, "module a \x7b namespace \"u:a\"; prefix a; " ++
            "typedef t \x7b type union \x7b type t; type u; \x7d \x7d " ++
            "typedef u \x7b type v; \x7d typedef v \x7b type u; \x7d " ++
            "grouping g \x7b uses h; \x7d grouping h \x7b uses g; \x7d " ++
            "leaf l \x7b type t; \x7d leaf m \x7b type w; \x7d \x7d"⟩] =
          .ok parsed ∧
      Linking.IsSettled .interFile (ofParsed parsed).linked.units ∧
      (ofParsed parsed).linked.units.any (fun unit => unit.usable &&
        unit.queue.any (·.isPending)) = true := by
  generalize written : ([_] : Sources) = sources
  have waits : (match ParsedSources.ofSources .standard sources with
      | .ok parsed => (ofParsed parsed).linked.units.any fun unit =>
          unit.usable && unit.queue.any (·.isPending)
      | .error _ => false) = true := by
    subst written
    decide +kernel
  cases parsing : ParsedSources.ofSources .standard sources with
  | error error => simp [parsing] at waits
  | ok parsed =>
      have ends := (linking_ends parsed).2.1.settled
      exact ⟨parsed, rfl, ends, by simpa [parsing] using waits⟩

end Compilation

end YangSchema
