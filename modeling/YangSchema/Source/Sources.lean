import YangSchema.Source.Position

/-!
# Sources

The texts of one compilation, numbered from zero in the order in which they
were added.
-/

namespace YangSchema

abbrev SourceId := Nat

/-- Where a text came from. -/
inductive Provenance where
  | inline
  | standardInput
  | file (path : String)
  deriving DecidableEq, Repr

namespace Provenance

def displayName : Provenance → String
  | .inline => "<inline>"
  | .standardInput => "<stdin>"
  | .file path => path

def path? : Provenance → Option String
  | .file path => some path
  | _ => none

end Provenance

structure Source where
  provenance : Provenance
  text : String
  deriving DecidableEq, Repr

abbrev Sources := List Source

namespace Sources

def text (sources : Sources) (id : SourceId) : String :=
  match sources[id]? with
  | some source => source.text
  | none => ""

def displayName (sources : Sources) (id : SourceId) : String :=
  match sources[id]? with
  | some source => source.provenance.displayName
  | none => ""

def path? (sources : Sources) (id : SourceId) : Option String :=
  sources[id]?.bind (·.provenance.path?)

def position (sources : Sources) (id : SourceId) (offset : Nat) : Position :=
  Position.atOffset (sources.text id).toList offset

end Sources

/-! ## Line indexes

Positions can also be looked up. A line index lists the byte offsets at which
the lines of a text start, in 32 bits each. The line of an offset is found by
halving the list, and the characters between the start of that line and the
offset are counted.

Such a lookup checks itself. No line is taken from none, no start is read
beyond the end of the list, and the text is cut in front of its characters only
and not backwards. A check that fails is a mistake in the lookup, for which no
offset is to blame. -/

/-- What stands in front of a byte offset and what stands behind it, unless it
is inside of a character or beyond the end. -/
def cutAtByte : List Char → Nat → Option (List Char × List Char)
  | text, 0 => some ([], text)
  | [], _ + 1 => none
  | c :: rest, offset + 1 =>
      if c.utf8Size ≤ offset + 1 then
        (cutAtByte rest (offset + 1 - c.utf8Size)).map
          fun (before, behind) => (c :: before, behind)
      else
        none

/-- The characters between two byte offsets. -/
def slice? (text : List Char) (start stop : Nat) : Option (List Char) :=
  if start ≤ stop then do
    let (_, behind) ← cutAtByte text start
    let (between, _) ← cutAtByte behind (stop - start)
    return between
  else
    none

/-- The last offset up to the given one at which a text can be cut. -/
def floorBoundary (text : List Char) : Nat → Nat
  | 0 => 0
  | offset + 1 =>
      if (cutAtByte text (offset + 1)).isSome then offset + 1
      else floorBoundary text offset

/-- The number of entries with a property, which stand in front of the others.
It is at least `low` and at most `high`. -/
def partitionPoint {α : Type} (property : α → Bool) (entries : Array α)
    (low high : Nat) : Nat :=
  if low < high then
    let middle := (low + high) / 2
    if entries[middle]?.any property then
      partitionPoint property entries (middle + 1) high
    else
      partitionPoint property entries low middle
  else
    low
  termination_by high - low

structure LineIndex where
  text : List Char
  /-- The byte offset of the first character of every line. -/
  starts : Array UInt32

namespace LineIndex

/-- The offsets of the line breaks of a text that starts at `offset`. -/
def breaksFrom (offset : Nat) : List Char → List Nat
  | [] => []
  | c :: rest =>
      if c = '\n' then offset :: breaksFrom (offset + c.utf8Size) rest
      else breaksFrom (offset + c.utf8Size) rest

/-- Where lines start behind these breaks. -/
def startsFrom (offset : Nat) (text : List Char) : List UInt32 :=
  (breaksFrom offset text).map (·.toUInt32 + 1)

def ofText (text : List Char) : LineIndex :=
  { text
    starts := (0 :: startsFrom 0 text).toArray }

/-- The position of a byte offset. One inside of a character stands for the
start of that character, and one past the end for the end. -/
def position? (index : LineIndex) (offset : Nat) : Option Position :=
  let offset := min offset (byteLength index.text).toUInt32.toNat
  match partitionPoint (·.toNat ≤ offset) index.starts 0 index.starts.size with
  | 0 => none
  | last + 1 => do
      let start ← index.starts[last]?
      let stop := floorBoundary index.text offset
      let line ← slice? index.text start.toNat (max stop start.toNat)
      return ⟨last + 1, line.length + 1⟩

end LineIndex

end YangSchema
