/-!
# Edit distance and near misses

`editDistance` counts the single-character insertions, deletions and
substitutions between two texts, one row of the usual table at a time.
`findSimilar` picks the closest candidate for a misspelt name.
-/

namespace YangSchema.Text

/-- The row of the table below `row` for the character `c` of the first text.

`diagonal` is the entry above and to the left, `left` the entry just filled. -/
def nextRow (c : Char) : List Char → Nat → Nat → List Nat → List Nat
  | d :: target, diagonal, left, above :: row =>
      let cost := if c = d then 0 else 1
      let entry := min (min (above + 1) (left + 1)) (diagonal + cost)
      entry :: nextRow c target above entry row
  | _, _, _, _ => []

/-- Fills the remaining rows and returns the last entry of the last row. -/
def lastEntry (target : List Char) : List Char → List Nat → Nat
  | [], row => row.getLastD 0
  | _ :: _, [] => 0
  | c :: source, first :: row =>
      lastEntry target source
        ((first + 1) :: nextRow c target first (first + 1) row)

/-- The least number of single-character edits from `source` to `target`. -/
def editDistance (source target : String) : Nat :=
  lastEntry target.toList source.toList
    (List.range (target.toList.length + 1))

/-- How far a candidate may be from `name`: a third of its bytes, 1 to 3. -/
def similarityLimit (name : String) : Nat :=
  max 1 (min 3 (name.utf8ByteSize / 3))

/-- The first of the pairs with the least second component. -/
def leastBySecond : List (String × Nat) → Option (String × Nat)
  | [] => none
  | pair :: rest =>
      match leastBySecond rest with
      | none => some pair
      | some best => if best.2 < pair.2 then some best else some pair

/-- The first of the closest candidates within the limit of `name`. -/
def findSimilar (name : String) (candidates : List String) : Option String :=
  let close := (candidates.map fun candidate =>
      (candidate, editDistance name candidate)).filter
    fun pair => pair.2 ≤ similarityLimit name
  (leastBySecond close).map (·.1)

/-- The hint that offers a similar name. -/
def suggestion (name : String) (candidates : List String) : Option String :=
  (findSimilar name candidates).map fun similar =>
    s!"did you mean `{similar}`?"

end YangSchema.Text
