import YangSchema.Snippet.Mark

/-!
# Where labels go below a line

The rightmost label may stand behind its mark, on the row of the underlines,
which is row zero. A label that would run into another one hangs on a row of
its own below, and so does the end of a bracket. Marks are placed from the
right to the left, and rows only grow.
-/

namespace YangSchema.Snippet

/-- A mark with the row of its label. -/
structure PlacedMark where
  row : Nat
  mark : Mark
  deriving DecidableEq, Repr

namespace Mark

/-- Marks of one span, the second without words. -/
def absorbs (mark next : Mark) : Bool :=
  next.start.column == mark.start.column &&
    next.start.character == mark.start.character &&
    next.stop.column == mark.stop.column &&
    next.stop.character == mark.stop.character &&
    !next.hasLabel

/-- Whether the label of a mark cannot stand on the row of the underlines
because of a mark farther left. -/
def mustHang (mark next : Mark) : Bool :=
  next.overlaps 0 mark && mark.hasLabel && !mark.absorbs next

/-- Whether `next`, farther left, needs a row below that of `mark`. -/
def crowds (row : Nat) (mark next : Mark) : Bool :=
  let room := next.label.elim 0 (·.utf8ByteSize + 2)
  let endsBracket := mark.endLane?.isSome
  let nextEndsBracket := next.endLane?.isSome
  (next.overlaps room mark && mark.hasLabel && next.hasLabel) ||
    (endsBracket && next.hasLabel) ||
    (mark.hasLabel && nextEndsBracket) ||
    (endsBracket && nextEndsBracket) ||
    (next.overlaps room mark && next.stop.column ≤ mark.stop.column &&
      next.hasLabel && row == 0)

end Mark

/-- Marks placed from row `row` on, and the last row that was reached. -/
def placeFrom (row : Nat) : List Mark → List PlacedMark × Nat
  | [] => ([], row)
  | mark :: later =>
      let own := if row = 0 ∧ later.any mark.mustHang then 1 else row
      let next := if later.any (mark.crowds own) then own + 1 else own
      let (placed, last) := placeFrom next later
      (⟨own, mark⟩ :: placed, last)

/-- The marks of a line with their rows, and the number of rows below the
underlines. -/
structure Placement where
  marks : List PlacedMark
  rowsBelow : Nat

namespace Placement

/-- From the rightmost start to the leftmost. -/
def fromRight (marks : List Mark) : List Mark :=
  marks.mergeSort fun first second =>
    second.start.column ≤ first.start.column

/-- When every mark opens a bracket the rows are turned round, so that the
lines of the brackets do not cross, and one row less is needed. -/
def turned (placement : Placement) : Placement :=
  if placement.marks.all (·.mark.opensLane?.isSome) then
    let last := (placement.marks.map (·.row)).foldl max 0
    { marks := placement.marks.map fun placed =>
        { placed with row := last - placed.row }
      rowsBelow := placement.rowsBelow - 1 }
  else
    placement

def ofMarks (marks : List Mark) : Placement :=
  let (placed, last) := placeFrom 0 (fromRight marks)
  turned ⟨placed, if last = 0 then 0 else last + 1⟩

/-- Wide marks first, so that narrow ones are drawn over them; of equally wide
ones the primary is drawn last. -/
def inDrawingOrder (placement : Placement) : List PlacedMark :=
  placement.marks.mergeSort fun first second =>
    second.mark.width < first.mark.width ||
      (first.mark.width == second.mark.width &&
        (!first.mark.isPrimary || second.mark.isPrimary))

end Placement

end YangSchema.Snippet
