import YangSchema.Linking.Scope
import YangSchema.Statement.Error

/-!
# Binding imports and includes

Each `import` and `include` of a usable unit is bound to a unit of the
compilation: to the exact revision where the statement gives one, and to the
newest otherwise. A unit that repeats the name and revision of an earlier usable
one becomes unusable and is never bound; one that merely failed is, so that
references into it are blocked.
-/

namespace YangSchema

/-- What identifies one unit of the compilation. -/
structure UnitEntry where
  source : SourceId
  name : String
  revision : Option String
  isSubmodule : Bool
  /-- The module that a submodule belongs to. -/
  belongsTo : Option String
  usable : Bool
  deriving DecidableEq, Repr

namespace UnitEntry

def of? (unit : LinkUnit) : Option UnitEntry :=
  match unit.tree.root?, unit.tree.header? with
  | some root, some header =>
      some {
        source := unit.source
        name := root.name
        revision := header.revision?
        isSubmodule := root.kind == .submodule
        belongsTo := header.belongsTo.map (·.module)
        usable := unit.usable }
  | _, _ => none

/-- Whether two entries have the same name, kind and revision. -/
def repeats (entry other : UnitEntry) : Bool :=
  other.name == entry.name && other.isSubmodule == entry.isSubmodule &&
    other.revision == entry.revision

/-- An absent revision is older than any date. -/
def notNewer : Option String → Option String → Bool
  | none, _ => true
  | some _, none => false
  | some date, some other => date < other || date == other

/-- The last of the newest entries. -/
def newest? : List UnitEntry → Option UnitEntry
  | [] => none
  | entry :: rest =>
      match newest? rest with
      | none => some entry
      | some best =>
          if notNewer entry.revision best.revision then some best
          else some entry

/-- Whether an entry can be bound: it is usable, or no usable entry of another
source repeats it. -/
def isBindable (entries : List UnitEntry) (entry : UnitEntry) : Bool :=
  entry.usable || !entries.any fun other =>
    other.source ≠ entry.source && other.usable && entry.repeats other

/-- The unit that an import or an include means. -/
def pick? (entries : List UnitEntry) (name : String)
    (revision : Option String) (submodule : Bool) : Option UnitEntry :=
  newest? <| entries.filter fun entry =>
    entry.isSubmodule == submodule && entry.name == name &&
      (revision.isNone || entry.revision == revision) &&
      isBindable entries entry

end UnitEntry

namespace Linking

/-- Appends a revision date to a name. -/
def withRevision (name : String) : Option String → String
  | some date => name ++ "@" ++ date
  | none => name

/-- The error about a unit that repeats another one. -/
def repeatedUnit (root : SchemaNode) (entry : UnitEntry) : StatementError :=
  (StatementError.atPlace .duplicateIdentifier root.kind.keyword
    (some root.name) root.position root.span
    (withRevision root.name entry.revision)).withHint
      "another source in the compilation set defines the same revision"

/-- Makes entries unusable that repeat an earlier usable one; `accepted` are the
entries decided so far. -/
def rejectRepeated (accepted : List UnitEntry) :
    List UnitEntry → List UnitEntry
  | [] => accepted
  | entry :: rest =>
      let repeated := accepted.any fun other =>
        other.usable && entry.repeats other
      rejectRepeated
        (accepted ++ [{ entry with usable := entry.usable && !repeated }]) rest

/-- The unit as its entry says, with the error if it has become unusable. -/
def rejectUnit (entries : List UnitEntry) (unit : LinkUnit) :
    LinkUnit × Diagnostics :=
  match entries.find? (·.source == unit.source), unit.tree.root? with
  | some entry, some root =>
      if unit.usable && !entry.usable then
        ({ unit with usable := false },
          [(repeatedUnit root entry).toDiagnostic unit.source])
      else
        (unit, [])
  | _, _ => (unit, [])

/-- Binds one import, or says why it cannot be bound. -/
def bindImport (entries : List UnitEntry) (declaration : Import) :
    Import × List StatementError :=
  match UnitEntry.pick? entries declaration.module declaration.revisionDate
      false with
  | some found => ({ declaration with resolved := some found.source }, [])
  | none =>
      (declaration,
        [(StatementError.atPlace .unresolvedReference "import"
          (some declaration.module) declaration.position declaration.span
          (withRevision declaration.module declaration.revisionDate)).withHint
            "add the imported module to the compilation set"])

/-- Binds one include to a submodule of the module `parent`. -/
def bindInclude (entries : List UnitEntry) (parent : String)
    (declaration : Include) : Include × List StatementError :=
  let problem (kind : DiagnosticKind) (detail : String) : StatementError :=
    .atPlace kind "include" (some declaration.submodule) declaration.position
      declaration.span detail
  match UnitEntry.pick? entries declaration.submodule
      declaration.revisionDate true with
  | some found =>
      if found.belongsTo = some parent then
        ({ declaration with resolved := some found.source }, [])
      else
        let owner := found.belongsTo.getD "?"
        (declaration, [problem .dataModelConstraintViolation
          s!"submodule `{found.name}` belongs to `{owner}`, not `{parent}`"])
  | none =>
      (declaration,
        [(problem .unresolvedReference declaration.submodule).withHint
          "add the submodule to the compilation set"])

/-- Binds the imports and includes of one unit. -/
def bindUnit (entries : List UnitEntry) (unit : LinkUnit) :
    LinkUnit × Diagnostics :=
  match unit.usable, entries.find? (·.source == unit.source),
      unit.tree.header? with
  | true, some entry, some header =>
      let imports := header.imports.map (bindImport entries)
      let parent := entry.belongsTo.getD entry.name
      let includes := header.includes.map (bindInclude entries parent)
      let errors := imports.flatMap (·.2) ++ includes.flatMap (·.2)
      let tree := unit.tree.modifyConstruct rootId fun construct =>
        construct.mapHeader fun header =>
          { header with
            imports := imports.map (·.1)
            includes := includes.map (·.1) }
      ({ unit with tree }, errors.map (·.toDiagnostic unit.source))
  | _, _, _ => (unit, [])

/-- Binds all imports and includes, and reports those that cannot be bound and
the units that repeat others. -/
def bindSources (units : List LinkUnit) : List LinkUnit × Diagnostics :=
  let entries := rejectRepeated [] (units.filterMap UnitEntry.of?)
  let rejected := units.map (rejectUnit entries)
  let bound := rejected.map fun (unit, _) => bindUnit entries unit
  (bound.map (·.1), rejected.flatMap (·.2) ++ bound.flatMap (·.2))

end Linking

end YangSchema
