import YangSchema.Proofs.Linking.RespelledLinking

/-!
# Findings under another prefix

The errors that linking finds are the same and stand at the same places.  Their
texts differ where they quote a name or a path.
-/

namespace YangSchema

namespace Respelling

variable {ρ : Respelling}

/-- Errors that are the same but for the spelling of the prefix. -/
structure Reports (ρ : Respelling) (error error' : StatementError) : Prop where
  rest : error' = { error with
    argument := error'.argument, detail := error'.detail, hint := error'.hint }
  argument : Option.Rel ρ.Spells error.argument error'.argument
  detail : ρ.Spells error.detail error'.detail
  hint : error'.hint = error.hint

/-- Diagnostics that are the same but for the spelling of the prefix. -/
structure Diagnoses (ρ : Respelling) (diagnostic diagnostic' : Diagnostic) :
    Prop where
  rest : diagnostic' = { diagnostic with message := diagnostic'.message }
  message : ρ.Spells diagnostic.message diagnostic'.message

theorem Reports.same (error : StatementError) : ρ.Reports error error where
  rest := rfl
  argument := by
    cases error.argument with
    | none => exact .none
    | some argument => exact .some (.same argument)
  detail := .same _
  hint := rfl

theorem Reports.toDiagnostic {error error' : StatementError}
    (reports : ρ.Reports error error') (source : SourceId) :
    ρ.Diagnoses (error.toDiagnostic source) (error'.toDiagnostic source) := by
  obtain ⟨rest, argument, detail, hint⟩ := reports
  generalize error'.argument = argument' at *
  generalize error'.detail = detail' at *
  generalize error'.hint = hint' at *
  subst rest hint
  refine ⟨rfl, ?_⟩
  have base := detail.around error.kind.surroundings.1 error.kind.surroundings.2
  have subject : ρ.Spells error.subject
      { error with argument := argument', detail := detail' }.subject := by
    unfold StatementError.subject
    generalize error.argument = written at argument ⊢
    cases argument with
    | none => exact .same _
    | some spells => exact .append (.same _) spells
  dsimp only [StatementError.toDiagnostic, StatementError.message]
  split
  · exact .append (.append (.append (.append (.append (.same _) subject)
      (.same _)) (.same _)) (.same _)) base
  · exact .append (.append (.append (.same _) subject) (.same _)) base

theorem nearMiss_congr {tree tree' : SchemaTree} (trees : ρ.Trees tree tree')
    {item item' : Reference} (kind : item'.kind = item.kind)
    (plain : (Linking.soughtKind item.kind).isSome →
      Text.afterLast ':' item'.text.toList =
        Text.afterLast ':' item.text.toList) :
    Linking.nearMiss tree' item' = Linking.nearMiss tree item := by
  unfold Linking.nearMiss
  rw [kind]
  cases sought : Linking.soughtKind item.kind with
  | none => rfl
  | some kind =>
      have names : ((tree'.nodes.toList.filter (·.kind == kind)).map
          (·.name)) =
          (tree.nodes.toList.filter (·.kind == kind)).map (·.name) := by
        refine map_eq_of_forall₂ (List.rel_filter (fun {node node'} nodes => ?_)
          trees.toList) Nodes.name
        dsimp only
        rw [nodes.kind]
      dsimp only
      rw [names, plain (by rw [sought]; rfl)]

variable {scene scene' : Scene} (scenes : ρ.Scenes scene scene')
  {unit unit' : LinkUnit} (units : ρ.Units unit unit')
include scenes units

theorem referenceHint_congr {item item' : Reference}
    (items : ρ.Items scene.Involves unit.source item item') :
    Linking.referenceHint scene' unit' item' =
      Linking.referenceHint scene unit item := by
  unfold Linking.referenceHint
  rw [items.origin, items.states.isPending]
  simp only [scenes.ancestors, scenes.kind?, scenes.nameOf]
  cases origin : item.origin with
  | some made => cases made <;> rfl
  | none =>
      dsimp only
      split
      · refine nearMiss_congr units.trees items.kind fun sought => ?_
        cases items.text with
        | leafref _ kind => rw [kind] at sought; cases sought
        | augment kind => rw [kind] at sought; cases sought
        | derived _ _ plain => exact plain origin
        | name _ _ names => exact names.plain
      · rfl

theorem referenceError? {item item' : Reference}
    (items : ρ.Items scene.Involves unit.source item item') :
    Option.Rel ρ.Reports (Linking.referenceError? scene unit item)
      (Linking.referenceError? scene' unit' item') := by
  have hint := referenceHint_congr scenes units items
  have states := items.states
  have spells := items.text.spells
  unfold Linking.referenceError?
  rw [items.kind, items.position, items.span, hint]
  generalize item.state = state at states ⊢
  generalize item'.state = state' at states ⊢
  cases states with
  | failed message => exact .some ⟨rfl, .some spells, message, rfl⟩
  | same state =>
      cases state with
      | unresolved => exact .some ⟨rfl, .some spells, spells, rfl⟩
      | failed failure => exact .some ⟨rfl, .some spells, .same _, rfl⟩
      | resolved => exact .none
      | blocked => exact .none

omit scenes in
theorem hasUnboundUses_congr (list : NodeId) :
    Linking.hasUnboundUses unit'.tree list =
      Linking.hasUnboundUses unit.tree list := by
  unfold Linking.hasUnboundUses
  rw [units.trees.children]
  congr 1
  funext child
  rcases rel_cases (units.trees.construct? child) with
    ⟨before, after⟩ | ⟨construct, _, before, after, same⟩
  · rw [before, after]
  · rw [before, after]
    cases same <;> rfl

theorem keyErrors_congr (list : NodeId) :
    Linking.keyErrors scene' unit' list =
      Linking.keyErrors scene unit list := by
  have source : unit'.source = unit.source := units.trees.source
  unfold Linking.keyErrors
  simp only [scenes.stepChildren, scenes.nameOf, scenes.kind?, source,
    hasUnboundUses_congr units]
  rcases rel_cases (units.trees.nodes list) with
    ⟨before, after⟩ | ⟨node, node', before, after, nodes⟩
  · rw [before, after]
  · rw [before, after]
    have constructs := nodes.construct
    have error (body : ListBody) (uniques : List (List String))
        (key : String) :
        Linking.keyError node' { body with uniques } key =
          Linking.keyError node body key := by
      rw [nodes.rest]
      rfl
    dsimp only
    generalize node.construct = construct at constructs ⊢
    generalize node'.construct = construct' at constructs ⊢
    cases constructs with
    | list uniques =>
        dsimp only
        rw [funext (error _ uniques)]
    | plain plain =>
        cases construct <;> first
          | rfl
          | simp [Construct.kind] at plain
    | _ => rfl

omit units in
theorem namesNode_congr {source : SourceId} (grouping : NodeRef)
    {refine refine' : Refine} (same : ρ.Refines source refine refine') :
    Linking.namesNode scene' grouping refine' =
      Linking.namesNode scene grouping refine := by
  have reads := same.target.parsed
  unfold Linking.namesNode
  generalize SchemaNodeId.parse refine.target = first at reads ⊢
  generalize SchemaNodeId.parse refine'.target = second at reads ⊢
  cases reads with
  | error => rfl
  | path same =>
      dsimp only
      rw [scenes.follow same.2]

omit units in
theorem refineErrors {source : SourceId} {node node' : SchemaNode}
    (nodes : ρ.Nodes source node node') :
    List.Forall₂ ρ.Reports (Linking.refineErrors scene node)
      (Linking.refineErrors scene' node') := by
  have constructs := nodes.construct
  unfold Linking.refineErrors
  generalize node.construct = construct at constructs ⊢
  generalize node'.construct = construct' at constructs ⊢
  cases constructs with
  | @uses body refines' name' same =>
      obtain ⟨name, target, refines⟩ := body
      cases target with
      | none => exact .nil
      | some target =>
          refine List.rel_map ?_ (List.rel_filter
            (fun {refine refine'} same => ?_) same)
          · intro refine refine' same
            have spells := same.target.spells
            dsimp only [StatementError.withHint]
            rw [scenes.nameOf, same.rest]
            exact ⟨rfl, .some spells, spells, rfl⟩
          · dsimp only
            rw [namesNode_congr scenes target same]
  | plain plain =>
      cases construct <;> first
        | exact .nil
        | simp [Construct.kind] at plain
  | _ => exact .nil

omit units in
theorem baseOf_congr (identity : NodeRef) :
    Linking.baseOf scene' identity = Linking.baseOf scene identity := by
  unfold Linking.baseOf
  rcases rel_cases (scenes.construct? identity) with
    ⟨before, after⟩ | ⟨construct, _, before, after, same⟩
  · rw [before, after]
  · rw [before, after]
    cases same <;> rfl

omit units in
theorem baseCycle_congr (start : NodeRef) (bound : Nat)
    (visited : List NodeRef) (current : Option NodeRef) :
    Linking.baseCycle scene' start bound visited current =
      Linking.baseCycle scene start bound visited current := by
  induction bound generalizing visited current with
  | zero => rfl
  | succ bound ih =>
      cases current with
      | none => rfl
      | some current =>
          unfold Linking.baseCycle
          rw [baseOf_congr scenes, ih]

theorem cycleErrors_congr (id : NodeId) :
    Linking.cycleErrors scene' unit' id =
      Linking.cycleErrors scene unit id := by
  have source : unit'.source = unit.source := units.trees.source
  unfold Linking.cycleErrors
  simp only [source, baseOf_congr scenes, baseCycle_congr scenes,
    scenes.nodeCount, funext scenes.nameOf]
  rcases rel_cases (units.trees.nodes id) with
    ⟨before, after⟩ | ⟨node, node', before, after, nodes⟩
  · rw [before, after]
  · rw [before, after, nodes.rest]
    generalize Linking.baseCycle scene _ _ _ _ = cycle?
    cases cycle? <;> rfl

theorem unitErrors
    (items : List.Forall₂ (ρ.Items scene.Involves unit.source) unit.queue
      unit'.queue) :
    List.Forall₂ ρ.Reports (Linking.unitErrors scene unit)
      (Linking.unitErrors scene' unit') := by
  unfold Linking.unitErrors
  have ids : unit'.tree.ids = unit.tree.ids := units.trees.ids
  rw [units.deferred, ids, funext (keyErrors_congr scenes units),
    funext (cycleErrors_congr scenes units)]
  have same (errors : List StatementError) :
      List.Forall₂ ρ.Reports errors errors :=
    List.forall₂_same.mpr fun error _ => .same error
  refine List.rel_append (List.rel_append (List.rel_append ?_ (same _)) ?_)
    (same _)
  · exact rel_filterMap items fun items => referenceError? scenes units items
  · exact List.rel_flatMap units.trees.toList fun _ _ => refineErrors scenes

/-- The errors stand in the same order. -/
theorem sortedErrors
    (items : List.Forall₂ (ρ.Items scene.Involves unit.source) unit.queue
      unit'.queue) :
    List.Forall₂ ρ.Reports (Linking.sortedErrors scene unit)
      (Linking.sortedErrors scene' unit') := by
  have errors := unitErrors scenes units items
  unfold Linking.sortedErrors
  refine rel_mergeSort errors fun reports reports' => ?_
  rw [reports.rest, reports'.rest]

omit scenes units

/-- The same errors are found in units that differ in the spelling of a prefix.
-/
theorem Runs.findings {leads : TypePlace → TypePlace → Prop}
    {units units' : List LinkUnit}
    (runs : ρ.Runs .interFile leads units units') :
    List.Forall₂ ρ.Diagnoses (Linking.findings units)
      (Linking.findings units') := by
  have scenes := scenes_ofUnits runs.links .interFile
  obtain ⟨links, rfl, -, -⟩ := runs
  unfold Linking.findings
  have usable : List.Forall₂
      (ρ.Links (Scene.ofUnits units .interFile).Involves)
      (units.filter (·.usable)) (units'.filter (·.usable)) := by
    refine List.rel_filter (fun {unit unit'} links => ?_) links
    dsimp only
    rw [links.units.usable]
  refine List.rel_flatMap (forall₂_mem usable) ?_
  rintro unit unit' ⟨member, links⟩
  have source : unit'.source = unit.source := links.units.trees.source
  dsimp only
  rw [source]
  exact List.rel_map (fun _ _ reports => reports.toDiagnostic _)
    (sortedErrors scenes links.units
      (links.items (List.of_mem_filter member)))

theorem Constructs.link? {source : SourceId} {construct construct' : Construct}
    (constructs : ρ.Constructs source construct construct') (part : LinkPart) :
    construct'.link? part = construct.link? part := by
  have types {read : TypeUse → Option LinkValue} (member : Option Nat)
      (links : ∀ use use', use'.links = use.links → read use' = read use) :
      (construct'.typeAt? member).bind read =
        (construct.typeAt? member).bind read :=
    bind_eq_of_rel (constructs.typeAt? member) fun types =>
      links _ _ (by rw [types.rest])
  cases part with
  | uses => cases constructs <;> rfl
  | augment => cases constructs <;> rfl
  | base => cases constructs <;> rfl
  | feature => rfl
  | typedef member => exact types member fun _ _ same => by rw [same]
  | effective member => exact types member fun _ _ same => by rw [same]
  | identity member => exact types member fun _ _ same => by rw [same]
  | leafrefTarget member => exact types member fun _ _ same => by rw [same]
  | importing index =>
      refine bind_eq_of_rel constructs.header?
        fun {header header'} headers => ?_
      by_cases here : source = ρ.source
      · rw [(headers.inside here).header, List.getElem?_map]
        cases header.imports[index]? with
        | none => rfl
        | some declaration =>
            simp only [Option.map_some, Option.bind_some, importing]
            split <;> rfl
      · rw [headers.outside here]
  | including index =>
      refine bind_eq_of_rel constructs.header?
        fun {header header'} headers => ?_
      rw [headers.includes]

/-- Linking has filled the same fields. -/
theorem Trees.link? {tree tree' : SchemaTree} (trees : ρ.Trees tree tree')
    (field : LinkField) : tree'.link? field = tree.link? field := by
  unfold SchemaTree.link?
  rcases rel_cases (trees.nodes field.node) with
    ⟨before, after⟩ | ⟨node, node', before, after, nodes⟩
  · rw [before, after]
  · rw [before, after, Option.bind_some, Option.bind_some]
    have constructs := nodes.construct.link? field.part
    cases part : field.part with
    | feature index =>
        have targets := congrArg (·[index]?) nodes.metadata
        simp only [List.getElem?_map] at targets
        unfold SchemaNode.link?
        dsimp only
        cases first : node.metadata.ifFeatures[index]? <;>
          cases second : node'.metadata.ifFeatures[index]? <;>
            simp_all
    | _ =>
        rw [part] at constructs
        exact constructs

end Respelling

end YangSchema
