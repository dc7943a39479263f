import YangSchema.Linking.Findings
import YangSchema.Proofs.Linking.Fields
import YangSchema.Proofs.Linking.Scenes
import YangSchema.Proofs.Relations

/-!
# Writing a prefix differently

In one source the prefix of an import is written differently: in the import and
wherever the prefix is used.  This file says what that does to a unit.  Names
and paths get the other prefix, and everything else stays as it is.
-/

namespace YangSchema

/-- To write `latter` for the prefix `former` in one source. -/
structure Respelling where
  source : SourceId
  former : String
  latter : String

namespace Respelling

/-- One text is another one with the prefix written differently in places. -/
inductive Spells (ρ : Respelling) : String → String → Prop
  | same (text : String) : Spells ρ text text
  | qualifier : Spells ρ (ρ.former ++ ":") (ρ.latter ++ ":")
  | append {first first' second second' : String}
      (front : Spells ρ first first') (back : Spells ρ second second') :
      Spells ρ (first ++ second) (first' ++ second')

/-- A name with the prefix written differently. -/
def name (ρ : Respelling) (name : QualifiedName) : QualifiedName :=
  if name.qualifier = some ρ.former then
    { name with qualifier := some ρ.latter }
  else
    name

/-- An import with the prefix written differently. -/
def importing (ρ : Respelling) (declaration : Import) : Import :=
  if declaration.qualifier = ρ.former then
    { declaration with qualifier := ρ.latter }
  else
    declaration

variable (ρ : Respelling)

/-- Two things are related if they belong to the respelled source and are the
same if they do not. -/
structure At {α : Type} (source : SourceId) (related : α → α → Prop)
    (item item' : α) : Prop where
  inside : source = ρ.source → related item item'
  outside : source ≠ ρ.source → item' = item

/-- A name of the respelled source, where the new prefix has not been in use. -/
structure Renames (name name' : QualifiedName) : Prop where
  fresh : name.qualifier ≠ some ρ.latter
  name : name' = ρ.name name

abbrev Names (source : SourceId) : QualifiedName → QualifiedName → Prop :=
  ρ.At source ρ.Renames

/-- The text of a name, with what it is read as. -/
structure NameText (source : SourceId) (text text' : String) : Prop where
  spells : ρ.Spells text text'
  parsed : Option.Rel (ρ.Names source) (QualifiedName.parse? text)
    (QualifiedName.parse? text')
  plain : Text.afterLast ':' text'.toList = Text.afterLast ':' text.toList

/-- What paths are read as, or why they are none. -/
inductive Reads {α : Type} (related : α → α → Prop) :
    Except PathError α → Except PathError α → Prop
  | path {path path' : α} (same : related path path') :
      Reads related (.ok path) (.ok path')
  | error {error error' : PathError}
      (spells : ρ.Spells error.message error'.message) :
      Reads related (.error error) (.error error')

/-- The text of a leafref path, with what it is read as. -/
structure PathText (source : SourceId) (text text' : String) : Prop where
  spells : ρ.Spells text text'
  absolute : isAbsolutePath text' = isAbsolutePath text
  parsed : ρ.Reads (fun path path' => path'.absolute = path.absolute ∧
      path'.up = path.up ∧
      List.Forall₂ (ρ.Names source) path.steps path'.steps)
    (LeafrefPath.parse text) (LeafrefPath.parse text')

/-- The text of a schema node identifier, with what it is read as. -/
structure NodeIdText (source : SourceId) (text text' : String) : Prop where
  spells : ρ.Spells text text'
  parsed : ρ.Reads (fun path path' => path'.absolute = path.absolute ∧
      List.Forall₂ (ρ.Names source) path.steps path'.steps)
    (SchemaNodeId.parse text) (SchemaNodeId.parse text')

structure Types (source : SourceId) (use use' : TypeUse) : Prop where
  rest : use' = { use with
    name := use'.name, path := use'.path, base := use'.base }
  name : ρ.Names source use.name use'.name
  path : Option.Rel (ρ.PathText source) use.path use'.path
  base : Option.Rel (fun base base' => ρ.Names source base base' ∧
    ρ.NameText source base.text base'.text) use.base use'.base

/-- The header of the respelled source; neither prefix is its own. -/
structure RenamesImport (header header' : ModuleHeader) : Prop where
  own : header.qualifier ≠ ρ.former
  fresh : header.qualifier ≠ ρ.latter
  unused : ∀ declaration ∈ header.imports, declaration.qualifier ≠ ρ.latter
  header : header' =
    { header with imports := header.imports.map ρ.importing }

abbrev Headers (source : SourceId) : ModuleHeader → ModuleHeader → Prop :=
  ρ.At source ρ.RenamesImport

structure Refines (source : SourceId) (refine refine' : Refine) : Prop where
  rest : refine' = { refine with
    target := refine'.target, default := refine'.default
    musts := refine'.musts }
  target : ρ.NodeIdText source refine.target refine'.target

/-- Defaults, conditions and the names that references stand for are not read by
linking, and may be written in any way. -/
inductive Constructs (source : SourceId) : Construct → Construct → Prop
  | module {header header' : ModuleHeader}
      (headers : ρ.Headers source header header') :
      Constructs source (.module header) (.module header')
  | submodule {header header' : ModuleHeader}
      (headers : ρ.Headers source header header') :
      Constructs source (.submodule header) (.submodule header')
  | list {body : ListBody} (uniques : List (List String)) :
      Constructs source (.list body) (.list { body with uniques })
  | leaf {body : LeafBody} {type : Option TypeUse} (default : Option String)
      (types : Option.Rel (ρ.Types source) body.type type) :
      Constructs source (.leaf body) (.leaf { body with type, default })
  | leafList {body : LeafListBody} {type : Option TypeUse}
      (types : Option.Rel (ρ.Types source) body.type type) :
      Constructs source (.leafList body) (.leafList { body with type })
  | typedef {body : TypedefBody} {type : Option TypeUse}
      (default : Option String)
      (types : Option.Rel (ρ.Types source) body.type type) :
      Constructs source (.typedef body) (.typedef { body with type, default })
  | union {members members' : List TypeUse}
      (types : List.Forall₂ (ρ.Types source) members members') :
      Constructs source (.union members) (.union members')
  | uses {body : UsesBody} {refines : List Refine} (grouping : QualifiedName)
      (same : List.Forall₂ (ρ.Refines source) body.refines refines) :
      Constructs source (.uses body) (.uses { body with grouping, refines })
  | augment {body : AugmentBody} (targetPath : String) :
      Constructs source (.augment body) (.augment { body with targetPath })
  | identity {body : IdentityBody} (base : Option QualifiedName) :
      Constructs source (.identity body) (.identity { body with base })
  | plain {construct : Construct} (plain : construct.kind ∈
      [ConstructKind.container, .choice, .case, .anyxml, .grouping,
        .enumeration, .bits, .extension, .feature, .rpc, .input, .output,
        .notification]) :
      Constructs source construct construct

/-- Linking reads nothing but the targets of features. -/
def Metadatas (metadata metadata' : Metadata) : Prop :=
  metadata'.ifFeatures.map (·.target) = metadata.ifFeatures.map (·.target)

structure Nodes (source : SourceId) (node node' : SchemaNode) : Prop where
  rest : node' = { node with
    construct := node'.construct, metadata := node'.metadata }
  construct : ρ.Constructs source node.construct node'.construct
  metadata : Metadatas node.metadata node'.metadata

structure Trees (tree tree' : SchemaTree) : Prop where
  source : tree'.source = tree.source
  nodes : ∀ id, Option.Rel (ρ.Nodes tree.source) (tree.node? id)
    (tree'.node? id)

variable {ρ} {source : SourceId}

theorem Spells.around {text text' : String} (front back : String)
    (spells : ρ.Spells text text') :
    ρ.Spells (front ++ text ++ back) (front ++ text' ++ back) :=
  .append (.append (.same front) spells) (.same back)

theorem At.eq {α : Type} {related : α → α → Prop} {item item' : α}
    (relates : ρ.At source related item item') (other : source ≠ ρ.source) :
    item' = item :=
  relates.outside other

/-- A local name does not change. -/
theorem Names.name {name name' : QualifiedName}
    (names : ρ.Names source name name') : name'.name = name.name := by
  by_cases here : source = ρ.source
  · rw [(names.inside here).name, Respelling.name]
    split <;> rfl
  · rw [names.outside here]

theorem Names.spells {name name' : QualifiedName}
    (names : ρ.Names source name name') : ρ.Spells name.text name'.text := by
  by_cases here : source = ρ.source
  · rw [(names.inside here).name, Respelling.name]
    split
    next former =>
      simp only [QualifiedName.text, former]
      exact .append .qualifier (.same name.name)
    · exact .same _
  · rw [names.outside here]
    exact .same _

theorem find?_importing (imports : List Import)
    (unused : ∀ declaration ∈ imports, declaration.qualifier ≠ ρ.latter) :
    ((imports.map ρ.importing).find? (·.qualifier == ρ.latter)).bind
        (·.resolved) =
      (imports.find? (·.qualifier == ρ.former)).bind (·.resolved) := by
  induction imports with
  | nil => rfl
  | cons declaration rest ih =>
      obtain ⟨fresh, others⟩ := List.forall_mem_cons.mp unused
      rw [List.map_cons, List.find?_cons, List.find?_cons, importing]
      by_cases former : declaration.qualifier = ρ.former
      · simp [former]
      · have isFormer : (declaration.qualifier == ρ.former) = false := by
          simpa using former
        have isLatter : (declaration.qualifier == ρ.latter) = false := by
          simpa using fresh
        simp only [former, if_false, isFormer, isLatter]
        exact ih others

theorem find?_importing_of_ne (imports : List Import) {qualifier : String}
    (former : qualifier ≠ ρ.former) (latter : qualifier ≠ ρ.latter) :
    ((imports.map ρ.importing).find? (·.qualifier == qualifier)).bind
        (·.resolved) =
      (imports.find? (·.qualifier == qualifier)).bind (·.resolved) := by
  induction imports with
  | nil => rfl
  | cons declaration rest ih =>
      rw [List.map_cons, List.find?_cons, List.find?_cons, importing]
      by_cases same : declaration.qualifier = ρ.former
      · have isFormer : (declaration.qualifier == qualifier) = false := by
          simpa [same] using Ne.symm former
        have isLatter : (ρ.latter == qualifier) = false := by
          simpa using Ne.symm latter
        simp only [same, if_true, isLatter]
        rw [← same, isFormer]
        exact ih
      · simp only [same, if_false]
        split
        · rfl
        · exact ih

theorem Headers.includes {header header' : ModuleHeader}
    (headers : ρ.Headers source header header') :
    header'.includes = header.includes := by
  by_cases here : source = ρ.source
  · rw [(headers.inside here).header]
  · rw [headers.outside here]

/-- A qualifier and the same one respelled mean the same import. -/
theorem importFor?_congr {header header' : ModuleHeader}
    (headers : ρ.Headers source header header') {name name' : QualifiedName}
    (names : ρ.Names source name name') :
    ((name'.qualifier.filter (· ≠ header'.qualifier)).map fun qualifier =>
        (header'.importFor? qualifier).bind (·.resolved)) =
      (name.qualifier.filter (· ≠ header.qualifier)).map fun qualifier =>
        (header.importFor? qualifier).bind (·.resolved) := by
  by_cases here : source = ρ.source
  · obtain ⟨own, fresh, unused, rfl⟩ := headers.inside here
    rw [(names.inside here).name, Respelling.name]
    have notLatter := (names.inside here).fresh
    cases qualifier : name.qualifier with
    | none => simp [qualifier]
    | some qualifier' =>
        rw [qualifier] at notLatter
        have notLatter : qualifier' ≠ ρ.latter := by simpa using notLatter
        by_cases former : qualifier' = ρ.former
        · subst former
          have kept : ∀ {text : String}, text ≠ header.qualifier →
              (some text).filter (· ≠ header.qualifier) = some text := by
            intro text other
            simp [Option.filter, other]
          simp only [if_true]
          rw [kept (Ne.symm fresh), kept (Ne.symm own)]
          simp only [Option.map_some, ModuleHeader.importFor?,
            find?_importing _ unused]
        · simp only [Option.some.injEq, former, if_false, qualifier]
          by_cases mine : qualifier' = header.qualifier
          · simp [Option.filter, mine]
          · have kept : (some qualifier').filter (· ≠ header.qualifier) =
                some qualifier' := by
              simp [Option.filter, mine]
            simp only [kept, Option.map_some, ModuleHeader.importFor?,
              find?_importing_of_ne _ former notLatter]
  · rw [headers.outside here, names.outside here]

section

variable {construct construct' : Construct}
  (constructs : ρ.Constructs source construct construct')
include constructs

theorem Constructs.kind : construct'.kind = construct.kind := by
  cases constructs <;> rfl

theorem Constructs.header? :
    Option.Rel (ρ.Headers source) construct.header? construct'.header? := by
  cases constructs with
  | module headers => exact .some headers
  | submodule headers => exact .some headers
  | plain plain =>
      cases construct <;> first
        | exact .none
        | simp [Construct.kind] at plain
  | _ => exact .none

theorem Constructs.typeAt? (member : Option Nat) :
    Option.Rel (ρ.Types source) (construct.typeAt? member)
      (construct'.typeAt? member) := by
  cases member with
  | none =>
      cases constructs with
      | leaf _ types => exact types
      | leafList types => exact types
      | typedef _ types => exact types
      | plain plain =>
          cases construct <;> first
            | exact .none
            | simp [Construct.kind] at plain
      | _ => exact .none
  | some index =>
      cases constructs with
      | union types => exact rel_getElem? types index
      | plain plain =>
          cases construct <;> first
            | exact .none
            | simp [Construct.kind] at plain
      | _ => exact .none

end

theorem Nodes.kind {node node' : SchemaNode}
    (nodes : ρ.Nodes source node node') : node'.kind = node.kind :=
  nodes.construct.kind

theorem Nodes.name {node node' : SchemaNode}
    (nodes : ρ.Nodes source node node') : node'.name = node.name := by
  rw [nodes.rest]

theorem Nodes.ancestors {node node' : SchemaNode}
    (nodes : ρ.Nodes source node node') : node'.ancestors = node.ancestors := by
  rw [nodes.rest]

namespace Trees

variable {tree tree' : SchemaTree} (trees : ρ.Trees tree tree')
include trees

theorem size : tree'.size = tree.size := by
  have none_iff (id : NodeId) :
      tree.node? id = none ↔ tree'.node? id = none := by
    rcases rel_cases (trees.nodes id) with
      ⟨before, after⟩ | ⟨_, _, before, after, _⟩ <;>
      simp [before, after]
  have bound (tree : SchemaTree) (id : NodeId) :
      tree.node? id = none ↔ tree.size ≤ id :=
    Array.getElem?_eq_none_iff
  apply Nat.le_antisymm
  · exact (bound _ _).mp ((none_iff _).mp tree.node?_size)
  · exact (bound _ _).mp ((none_iff _).mpr tree'.node?_size)

theorem ids : tree'.ids = tree.ids := by
  rw [SchemaTree.ids, SchemaTree.ids, trees.size]

theorem kind? (id : NodeId) : tree'.kind? id = tree.kind? id :=
  map_eq_of_rel (trees.nodes id) Nodes.kind

theorem ancestors (id : NodeId) : tree'.ancestors id = tree.ancestors id := by
  unfold SchemaTree.ancestors
  rcases rel_cases (trees.nodes id) with
    ⟨before, after⟩ | ⟨_, _, before, after, nodes⟩
  · rw [before, after]
  · rw [before, after]
    exact nodes.ancestors

theorem children (id : NodeId) : tree'.children id = tree.children id := by
  unfold SchemaTree.children SchemaTree.parent?
  simp only [trees.ids, trees.ancestors]

theorem findChild? (parent : NodeId) (kind : ConstructKind) (name : String) :
    tree'.findChild? parent kind name = tree.findChild? parent kind name := by
  unfold SchemaTree.findChild?
  rw [trees.children]
  congr 1
  funext child
  rcases rel_cases (trees.nodes child) with
    ⟨before, after⟩ | ⟨_, _, before, after, nodes⟩
  · rw [before, after]
  · rw [before, after]
    simp only [nodes.kind, nodes.name]

theorem isWithin (id : NodeId) (kind : ConstructKind) :
    tree'.isWithin id kind = tree.isWithin id kind := by
  unfold SchemaTree.isWithin SchemaTree.isKind
  simp only [trees.ancestors, trees.kind?]

theorem construct? (id : NodeId) : Option.Rel (ρ.Constructs tree.source)
    (tree.construct? id) (tree'.construct? id) :=
  rel_map (trees.nodes id) Nodes.construct

theorem header? :
    Option.Rel (ρ.Headers tree.source) tree.header? tree'.header? :=
  rel_bind (trees.nodes rootId) fun nodes => nodes.construct.header?

theorem typeAt? (slot : TypeSlot) : Option.Rel (ρ.Types tree.source)
    (tree.typeAt? slot) (tree'.typeAt? slot) := by
  rw [SchemaTree.typeAt?_eq, SchemaTree.typeAt?_eq]
  exact rel_bind (trees.construct? slot.node) (·.typeAt? slot.member)

end Trees

/-- Units whose trees are related; their references are left out. -/
structure Units (ρ : Respelling) (unit unit' : LinkUnit) : Prop where
  trees : ρ.Trees unit.tree unit'.tree
  usable : unit'.usable = unit.usable
  deferred : unit'.deferredKeys = unit.deferredKeys

structure Scenes (ρ : Respelling) (scene scene' : Scene) : Prop where
  units : List.Forall₂ ρ.Units scene.units scene'.units
  phase : scene'.phase = scene.phase
  augments : scene'.augments = scene.augments

namespace Scenes

variable {scene scene' : Scene} (scenes : ρ.Scenes scene scene')
include scenes

theorem unit? (source : SourceId) :
    Option.Rel ρ.Units (scene.unit? source) (scene'.unit? source) :=
  rel_find? scenes.units fun units => by
    simp only [LinkUnit.source, units.trees.source]

theorem tree? (source : SourceId) : Option.Rel
    (fun tree tree' => tree.source = source ∧ ρ.Trees tree tree')
    (scene.tree? source) (scene'.tree? source) := by
  unfold Scene.tree?
  rcases rel_cases (scenes.unit? source) with
    ⟨before, after⟩ | ⟨unit, unit', before, after, units⟩
  · rw [before, after]
    exact .none
  · rw [before, after]
    exact .some ⟨(Scene.unit?_mem before).2, units.trees⟩

theorem node? (ref : NodeRef) : Option.Rel (ρ.Nodes ref.source)
    (scene.node? ref) (scene'.node? ref) :=
  rel_bind (scenes.tree? ref.source) fun ⟨same, trees⟩ =>
    same ▸ trees.nodes ref.node

theorem construct? (ref : NodeRef) : Option.Rel (ρ.Constructs ref.source)
    (scene.construct? ref) (scene'.construct? ref) :=
  rel_map (scenes.node? ref) Nodes.construct

theorem type? (ref : NodeRef) : Option.Rel (ρ.Types ref.source)
    (scene.type? ref) (scene'.type? ref) :=
  rel_bind (scenes.construct? ref) (·.typeAt? none)

theorem kind? (ref : NodeRef) : scene'.kind? ref = scene.kind? ref :=
  map_eq_of_rel (scenes.node? ref) Nodes.kind

theorem nameOf (ref : NodeRef) : scene'.nameOf ref = scene.nameOf ref := by
  unfold Scene.nameOf
  rcases rel_cases (scenes.node? ref) with
    ⟨before, after⟩ | ⟨_, _, before, after, nodes⟩
  · rw [before, after]
  · rw [before, after]
    exact nodes.name

theorem ancestors (ref : NodeRef) :
    scene'.ancestors ref = scene.ancestors ref := by
  unfold Scene.ancestors
  rcases rel_cases (scenes.tree? ref.source) with
    ⟨before, after⟩ | ⟨_, _, before, after, -, trees⟩
  · rw [before, after]
  · rw [before, after]
    simp only [trees.ancestors]

theorem children (ref : NodeRef) :
    scene'.children ref = scene.children ref := by
  unfold Scene.children
  rcases rel_cases (scenes.tree? ref.source) with
    ⟨before, after⟩ | ⟨_, _, before, after, -, trees⟩
  · rw [before, after]
  · rw [before, after]
    simp only [trees.children]

theorem isUsable (source : SourceId) :
    scene'.isUsable source = scene.isUsable source := by
  unfold Scene.isUsable
  rcases rel_cases (scenes.unit? source) with
    ⟨before, after⟩ | ⟨_, _, before, after, units⟩
  · rw [before, after]
  · rw [before, after]
    exact units.usable

theorem nodeCount : scene'.nodeCount = scene.nodeCount := by
  have sizes : scene'.units.map (·.tree.size) =
      scene.units.map (·.tree.size) :=
    map_eq_of_forall₂ scenes.units (·.trees.size)
  rw [Scene.nodeCount, Scene.nodeCount, foldl_add_eq, foldl_add_eq, sizes]

theorem walkBound : scene'.walkBound = scene.walkBound := by
  rw [Scene.walkBound, Scene.walkBound, scenes.nodeCount]

theorem header? (source : SourceId) : Option.Rel (ρ.Headers source)
    ((scene.tree? source).bind (·.header?))
    ((scene'.tree? source).bind (·.header?)) :=
  rel_bind (scenes.tree? source) fun ⟨same, trees⟩ => same ▸ trees.header?

/-- Names that are related are looked up in the same units. -/
theorem scopes {source : SourceId} {name name' : QualifiedName}
    (names : ρ.Names source name name') :
    scene'.scopes source name'.qualifier =
      scene.scopes source name.qualifier := by
  unfold Scene.scopes
  rcases rel_cases (scenes.header? source) with
    ⟨before, after⟩ | ⟨header, header', before, after, headers⟩
  · rw [before, after]
  · rw [before, after]
    have includes := headers.includes
    have imports := importFor?_congr headers names
    dsimp only
    cases foreign : name.qualifier.filter (· ≠ header.qualifier) with
    | none =>
        rw [foreign, Option.map_none] at imports
        rw [Option.map_eq_none_iff.mp imports, scenes.phase, includes]
    | some qualifier =>
        rw [foreign, Option.map_some] at imports
        obtain ⟨qualifier', foreign', bound⟩ :=
          Option.map_eq_some_iff.mp imports
        rw [foreign']
        simp only [bound, scenes.isUsable]

theorem searchFrom (kind : ConstructKind) (name : String) (blocked : Bool)
    (sources : List SourceId) :
    scene'.searchFrom kind name blocked sources =
      scene.searchFrom kind name blocked sources := by
  induction sources generalizing blocked with
  | nil => rfl
  | cons source rest ih =>
      unfold Scene.searchFrom
      rcases rel_cases (scenes.unit? source) with
        ⟨before, after⟩ | ⟨_, _, before, after, units⟩
      · simp only [before, after, ih]
      · simp only [before, after, ih, units.usable, units.trees.findChild?]

theorem topLevel {source : SourceId} {name name' : QualifiedName}
    (names : ρ.Names source name name') (kind : ConstructKind) :
    scene'.topLevel source name' kind = scene.topLevel source name kind := by
  unfold Scene.topLevel
  simp only [scenes.scopes names, names.name, scenes.searchFrom]

theorem enclosing? (ref : NodeRef) (kind : ConstructKind) (name : String) :
    scene'.enclosing? ref kind name = scene.enclosing? ref kind name := by
  unfold Scene.enclosing?
  rcases rel_cases (scenes.tree? ref.source) with
    ⟨before, after⟩ | ⟨_, _, before, after, -, trees⟩
  · rw [before, after]
  · rw [before, after]
    simp only [trees.ancestors, trees.findChild?]

/-- A name means the same node as before. -/
theorem lexical {ref : NodeRef} {name name' : QualifiedName}
    (names : ρ.Names ref.source name name') (kind : ConstructKind) :
    scene'.lexical ref name' kind = scene.lexical ref name kind := by
  unfold Scene.lexical
  simp only [scenes.scopes names, names.name, scenes.searchFrom,
    scenes.enclosing?]

theorem grouping {uses : NodeRef} {name name' : QualifiedName}
    (names : ρ.Names uses.source name name') :
    scene'.grouping uses name' = scene.grouping uses name := by
  unfold Scene.grouping
  simp only [scenes.lexical names, scenes.ancestors, names.name]

end Scenes

end Respelling

end YangSchema
