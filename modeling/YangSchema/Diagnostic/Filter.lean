import YangSchema.Diagnostic.Diagnostic

/-!
# Suppressing errors that follow from others

Only a syntax error suppresses. It suppresses diagnostics of lower priority
that lie inside its span; at the same start, an error that names the root
cause suppresses a structural one, and otherwise priority decides. The pairs
are visited in report order, and a diagnostic that is suppressed already
neither suppresses others nor is looked at again.
-/

namespace YangSchema.Diagnostics

/-- Whether `first` suppresses `second`. -/
def suppresses (first second : Diagnostic) : Bool :=
  if first.source ≠ second.source ∨ !first.kind.isSyntaxError then
    false
  else if first.span.strictlyContains second.span ∧
      first.kind.suppresses second.kind then
    true
  else if first.span.start = second.span.start then
    if first.kind.isRootCause ∧ second.kind.isStructural then true
    else if second.kind.isRootCause ∧ first.kind.isStructural then false
    else first.kind.suppresses second.kind
  else
    false

/-- A diagnostic and whether it has been suppressed. -/
abbrev Marked := Diagnostic × Bool

/-- Marks what the diagnostic `first` at `index` suppresses. -/
def markFrom (first : Diagnostic) (index : Nat) (marked : List Marked) :
    List Marked :=
  marked.mapIdx fun other (second, suppressed) =>
    (second, suppressed || (other ≠ index && suppresses first second))

/-- Lets the diagnostics from `index` on suppress others, one after another. -/
def markAll : Nat → Nat → List Marked → List Marked
  | 0, _, marked => marked
  | steps + 1, index, marked =>
      match marked[index]? with
      | some (first, false) =>
          markAll steps (index + 1) (markFrom first index marked)
      | _ => markAll steps (index + 1) marked

/-- The diagnostics that no other one suppresses, in their order. -/
def filtered (diagnostics : Diagnostics) : Diagnostics :=
  let marked := markAll diagnostics.length 0
    (diagnostics.map fun diagnostic => (diagnostic, false))
  (marked.filter fun (_, suppressed) => !suppressed).map (·.1)

end YangSchema.Diagnostics
