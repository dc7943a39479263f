import YangSchema.Regex.Cursor
import YangSchema.Regex.Expression
import YangSchema.Text.Letter

/-!
# Parsing regular expressions

A pattern is read from left to right, and the first thing that fits nowhere is
the error. Groups, classes and escapes are read by functions of their own;
`bound` limits the number of parts and is never reached when it exceeds the
length of the pattern.
-/

namespace YangSchema.Regex

open Reader

/-! ## Escapes -/

/-- What a single character or an escape stands for. -/
inductive Primitive where
  | character (literal : Literal)
  | assertion
  | named (negated : Bool)
  | property (query : PropertyQuery)

namespace Primitive

def toExpression : Primitive → Expression
  | .character literal => .character literal
  | .assertion => .assertion
  | .named negated => .named negated
  | .property query => .property query

def toClassItem : Primitive → Except RegexError ClassItem
  | .character literal => .ok (.character literal)
  | .assertion => .error .classEscape
  | .named negated => .ok (.named negated)
  | .property query => .ok (.property query)

/-- The end of a range must be a single character. -/
def toBoundary : Primitive → Except RegexError Literal
  | .character literal => .ok literal
  | _ => .error .classBoundary

/-- A character that stands for itself. -/
def ofChar (c : Char) : Primitive :=
  .character ⟨c, false⟩

end Primitive

def hexValue? (c : Char) : Option Nat :=
  if c.isDigit then some (c.toNat - '0'.toNat)
  else if 'a' ≤ c ∧ c ≤ 'f' then some (c.toNat - 'a'.toNat + 10)
  else if 'A' ≤ c ∧ c ≤ 'F' then some (c.toNat - 'A'.toNat + 10)
  else none

/-- The value of digits in base sixteen. -/
def hexDigitsValue (digits : List Nat) : Nat :=
  digits.foldl (fun value digit => 16 * value + digit) 0

/-- The character of a number, unless it is none. -/
def character? (value : Nat) : Option Char :=
  if value.isValidChar then some (Char.ofNat value) else none

def hexLiteral (value : Nat) (isByte : Bool) : Reader Primitive :=
  match character? value with
  | some c => return .character ⟨c, isByte⟩
  | none => throw .invalidHex

/-- Reads a fixed number of hex digits behind those already read. -/
def readHexDigits : Nat → Nat → Reader Nat
  | 0, value => return value
  | count + 1, value => do
      match ← peek? with
      | none => throw .unfinishedEscape
      | some c =>
          match hexValue? c with
          | none => throw .invalidHexDigit
          | some digit =>
              advanceFar
              readHexDigits count (16 * value + digit)

/-- Reads hex digits between braces. -/
def readBracedHex : Reader Primitive := do
  advance
  let text ← takeAccepted (· != '}')
  match text.mapM hexValue? with
  | none => throw .invalidHexDigit
  | some digits =>
      if ← atEnd then
        throw .unfinishedEscape
      advanceFar
      if digits.isEmpty then
        throw .emptyHex
      hexLiteral (hexDigitsValue digits) false

/-- Reads the hex digits behind `\x`, `\u` or `\U`, which stand for two, four or
eight digits, or for any number between braces. -/
def readHex (count : Nat) : Reader Primitive := do
  advanceOr .unfinishedEscape
  if (← peek?) = some '{' then
    readBracedHex
  else
    hexLiteral (← readHexDigits count 0) (count == 2)

/-- The parts of a property and its value around `!=`, `:` or `=`. -/
def queryOf (name : List Char) : PropertyQuery :=
  match cutAtUnequal name with
  | some (property, value) => .valued property value
  | none =>
      match (Text.cutAt ':' name).or (Text.cutAt '=' name) with
      | some (property, value) => .valued property value
      | none => .named name
where
  /-- What stands before and after the first `!=`. -/
  cutAtUnequal : List Char → Option (List Char × List Char)
    | [] => none
    | '!' :: '=' :: rest => some ([], rest)
    | c :: rest =>
        (cutAtUnequal rest).map fun (before, after) => (c :: before, after)

/-- Reads the property behind `\p` or `\P`: one letter, or a query between
braces. -/
def readProperty : Reader Primitive := do
  advanceOr .unfinishedEscape
  match ← peek? with
  | some '{' =>
      advance
      let name ← takeAccepted (· != '}')
      if ← atEnd then
        throw .unfinishedEscape
      advance
      return .property (queryOf name)
  | some '\\' => throw .invalidPropertyName
  | some c =>
      advanceFar
      return .property (.named [c])
  | none => throw .unfinishedEscape

def boundaryNames : List String :=
  ["start", "end", "start-half", "end-half"]

/-- Reads the name of a word boundary behind `\b`, if it has one. A brace with
anything but a name in it belongs to a repetition. -/
def readBoundaryName : Reader Unit := do
  let isNameChar (c : Char) : Bool := c.isAlpha || c == '-'
  let brace ← unread
  advanceOr .unfinishedBoundary
  if (← peek?).any isNameChar then
    let name ← takeAccepted isNameChar
    if (← peek?) ≠ some '}' then
      throw .unclosedBoundary
    advance
    if !boundaryNames.contains (String.ofList name) then
      throw .unrecognizedBoundary
  else
    moveTo brace

/-- An escaped ASCII character stands for itself unless it is a letter, a digit
or an angle bracket. -/
def isEscapable (c : Char) : Bool :=
  c.toNat < 128 && !c.isAlphanum && c != '<' && c != '>'

/-- Letters that stand for a control character when they are escaped. -/
def controlEscape? : Char → Option Char
  | 'a' => some '\x07'
  | 'f' => some '\x0c'
  | 't' => some '\t'
  | 'n' => some '\n'
  | 'r' => some '\r'
  | 'v' => some '\x0b'
  | _ => none

/-- Reads an escape whose letter is all of it. -/
def readShortEscape (c : Char) : Reader Primitive := do
  advance
  if isEscapable c then
    return .ofChar c
  match controlEscape? c with
  | some control => return .ofChar control
  | none =>
      if ['A', 'z', 'B', '<', '>'].contains c then
        return .assertion
      if c = 'b' then
        if (← peek?) = some '{' then
          readBoundaryName
        return .assertion
      throw .unrecognizedEscape

/-- Reads a backslash and what it stands for. -/
def readEscape : Reader Primitive := do
  advance
  match ← peek? with
  | none => throw .unfinishedEscape
  | some c =>
      if c.isDigit then
        throw .backreference
      match c with
      | 'x' => readHex 2
      | 'u' => readHex 4
      | 'U' => readHex 8
      | 'p' | 'P' => readProperty
      | 'd' | 's' | 'w' =>
          advance
          return .named false
      | 'D' | 'S' | 'W' =>
          advance
          return .named true
      | _ => readShortEscape c

/-! ## Classes -/

def classNames : List String :=
  ["alnum", "alpha", "ascii", "blank", "cntrl", "digit", "graph", "lower",
    "print", "punct", "space", "upper", "word", "xdigit"]

/-- What follows a named class such as `[:alpha:]`, the first bracket passed
already, and whether the class is negated. -/
def namedClass? : List Char → Option (Bool × List Char)
  | ':' :: rest =>
      let (negated, rest) :=
        match rest with
        | '^' :: rest => (true, rest)
        | rest => (false, rest)
      match rest.span (· != ':') with
      | (name, ':' :: ']' :: behind) =>
          if classNames.contains (String.ofList name) then
            some (negated, behind)
          else
            none
      | _ => none
  | _ => none

/-- Reads one character or escape of a class. -/
def readClassPrimitive : Reader Primitive := do
  match ← peek? with
  | none => throw .unclosedClass
  | some '\\' => readEscape
  | some c =>
      advance
      return .ofChar c

/-- Reads a member of a class, or two around a hyphen. A hyphen in front of a
bracket or another hyphen makes no range. -/
def readClassRange : Reader ClassItem := do
  let first ← readClassPrimitive
  skipBlanks
  if ← atEnd then
    throw .unclosedClass
  let beyond := (← get).peekBeyond
  if (← peek?) ≠ some '-' ∨ beyond = some ']' ∨ beyond = some '-' then
    first.toClassItem
  else
    advanceOr .unclosedClass
    let last ← readClassPrimitive
    let low ← first.toBoundary
    let high ← last.toBoundary
    if low.character > high.character then
      throw .invertedRange
    return .range low high

/-- Reads the opening of a class: a bracket, a caret if it is negated, and
leading hyphens or a closing bracket, which are members. -/
def openClass : Reader (Bool × List ClassItem) := do
  advanceOr .unclosedClass
  let negated := (← peek?) == some '^'
  if negated then
    advanceOr .unclosedClass
  let hyphens ← takeAccepted (· == '-')
  if ← atEnd then
    throw .unclosedClass
  let item (c : Char) : ClassItem := .character ⟨c, false⟩
  if hyphens.isEmpty && (← peek?) == some ']' then
    advanceOr .unclosedClass
    return (negated, [item ']'])
  return (negated, hyphens.map item)

/-- The set of the items read so far, last one first, behind an operator and
what stands in front of it. -/
def closeSet (left : Option ClassSet) (items : List ClassItem) : ClassSet :=
  let right := ClassSet.item (.ofItems items.reverse)
  match left with
  | some left => .operation left right
  | none => right

/-- Reads a class up to its closing bracket. -/
def readClassSet : Nat → Option ClassSet → List ClassItem → Reader ClassSet
  | 0, _, _ => throw .unclosedClass
  | bound + 1, left, items => do
      skipBlanks
      match ← unread with
      | [] => throw .unclosedClass
      | ']' :: rest =>
          moveTo rest
          return closeSet left items
      | '[' :: rest =>
          match namedClass? rest with
          | some (negated, behind) =>
              moveTo behind
              readClassSet bound left (.named negated :: items)
          | none =>
              let (negated, leading) ← openClass
              let set ← readClassSet bound none leading.reverse
              readClassSet bound left (.bracketed negated set :: items)
      | '&' :: '&' :: rest | '-' :: '-' :: rest | '~' :: '~' :: rest =>
          moveTo rest
          readClassSet bound (some (closeSet left items)) []
      | _ =>
          let item ← readClassRange
          readClassSet bound left (item :: items)

def readClass (bound : Nat) : Reader Expression := do
  let (negated, leading) ← openClass
  return .bracketed negated (← readClassSet bound none leading.reverse)

/-! ## Repetitions -/

/-- Takes the expression to be repeated off those read so far; flags cannot be
repeated. -/
def repeated : List Expression → Except RegexError (Expression × List Expression)
  | [] | .setting _ :: _ => .error .nothingToRepeat
  | last :: others => .ok (last, others)

/-- Passes the mark of a lazy repetition. -/
def skipLazy : Reader Unit := do
  if (← peek?) = some '?' then
    advance

/-- Reads a repetition count, blanks around it dropped. -/
def readCount : Reader (Except RegexError Nat) := do
  moveTo ((← unread).dropWhile Text.isBlank)
  let digits ← takeAccepted Char.isDigit
  moveTo ((← unread).dropWhile Text.isBlank)
  skipBlanks
  let value := digits.foldl
    (fun value c => 10 * value + (c.toNat - '0'.toNat)) 0
  if digits.isEmpty then
    return .error .missingCount
  else if value < Nat.pow 2 32 then
    return .ok value
  else
    return .error .invalidCount

/-- Reads the counts of a repetition between braces. -/
def readCounts : Reader Unit := do
  advanceOr .unclosedCount
  let least ← readCount
  if ← atEnd then
    throw .unclosedCount
  let mut isInverted := false
  if (← peek?) = some ',' then
    advanceOr .unclosedCount
    let least ← least
    if (← peek?) ≠ some '}' then
      let most ← readCount
      isInverted := least > (← most)
  else
    let _ ← least
  if (← peek?) ≠ some '}' then
    throw .unclosedCount
  advanceFar
  skipLazy
  if isInverted then
    throw .invertedCounts

/-! ## Groups -/

def knownFlags : List Char :=
  ['i', 'm', 's', 'U', 'u', 'R', 'x']

/-- Reads flags up to a colon or a closing parenthesis. The flags behind a
hyphen are switched off. -/
def readFlags : Nat → (negated dangling : Bool) → Flags → Reader Flags
  | 0, _, _, _ => throw .unfinishedFlags
  | bound + 1, negated, dangling, flags => do
      match ← peek? with
      | none => throw .unfinishedFlags
      | some ':' | some ')' =>
          if dangling then
            throw .danglingNegation
          return flags
      | some '-' =>
          if negated then
            throw .repeatedNegation
          advance
          readFlags bound true true flags
      | some c =>
          if !knownFlags.contains c then
            throw .unrecognizedFlag
          if (flags.state? c).isSome then
            throw .repeatedFlag
          advance
          readFlags bound negated false (flags ++ [(c, !negated)])

/-- Whether a character may stand in the name of a group. -/
def isNameChar (isFirst : Bool) (c : Char) : Bool :=
  if isFirst then
    c == '_' || Text.isAlphabetic c
  else
    c == '_' || c == '.' || c == '[' || c == ']' || Text.isAlphanumeric c

/-- The name in front of `>`, and what follows. -/
def groupName : (isFirst : Bool) → List Char →
    Except RegexError (List Char × List Char)
  | _, [] => .error .unclosedGroupName
  | isFirst, c :: rest =>
      if c = '>' then
        .ok ([], rest)
      else if isNameChar isFirst c then
        (groupName false rest).map fun (name, behind) => (c :: name, behind)
      else
        .error .invalidGroupName

/-- Reads the name of a group, which no group before it has. -/
def readGroupName : Reader Unit := do
  let (name, behind) ← groupName true (← unread)
  moveTo behind
  if name.isEmpty then
    throw .emptyGroupName
  let names := (← get).names
  if names.contains name then
    throw .repeatedGroupName
  modify ({ · with names := name :: names })

/-- The opening of a group, or flags in parentheses that hold from there on. -/
inductive GroupHead where
  | group (flags : Flags)
  | setting (flags : Flags)

def readGroupHead : Reader GroupHead := do
  advanceFar
  for mark in ["?=", "?!", "?<=", "?<!"] do
    if ← accept mark then
      throw .lookAround
  if (← accept "?P<") || (← accept "?<") then
    readGroupName
    return .group []
  if ← accept "?" then
    let rest ← unread
    if rest.isEmpty then
      throw .unclosedGroup
    let flags ← readFlags (rest.length + 1) false false []
    let ending ← peek?
    advance
    if ending = some ':' then
      return .group flags
    if flags.isEmpty then
      throw .nothingToRepeat
    return .setting flags
  return .group []

/-! ## Expressions -/

/-- Applies what flags say about blanks. -/
def applyFlags (flags : Flags) : Reader Unit :=
  modify fun cursor =>
    { cursor with verbose := (flags.state? 'x').getD cursor.verbose }

/-- The expression of the branches and parts read so far, last ones first. -/
def closeExpression (branches parts : List Expression) : Expression :=
  .ofBranches (.ofParts parts.reverse :: branches).reverse

/-- Reads an expression up to a closing parenthesis or the end. -/
def readExpression :
    Nat → (branches parts : List Expression) → Reader Expression
  | 0, branches, parts => return closeExpression branches parts
  | bound + 1, branches, parts => do
      skipBlanks
      match ← peek? with
      | none | some ')' => return closeExpression branches parts
      | some '|' =>
          advance
          readExpression bound (.ofParts parts.reverse :: branches) []
      | some '(' =>
          match ← readGroupHead with
          | .setting flags =>
              applyFlags flags
              readExpression bound branches (.setting flags :: parts)
          | .group flags =>
              let verbose := (← get).verbose
              applyFlags flags
              let inner ← readExpression bound [] []
              if ← atEnd then
                throw .unclosedGroup
              modify ({ · with verbose })
              advance
              readExpression bound branches (.group flags inner :: parts)
      | some '[' =>
          let set ← readClass bound
          readExpression bound branches (set :: parts)
      | some '?' | some '*' | some '+' =>
          let (last, others) ← repeated parts
          advance
          skipLazy
          readExpression bound branches (.repetition last :: others)
      | some '{' =>
          let (last, others) ← repeated parts
          readCounts
          readExpression bound branches (.repetition last :: others)
      | some '\\' =>
          let primitive ← readEscape
          readExpression bound branches (primitive.toExpression :: parts)
      | some c =>
          advance
          let part : Expression :=
            match c with
            | '.' => .dot
            | '^' | '$' => .assertion
            | c => .character ⟨c, false⟩
          readExpression bound branches (part :: parts)

/-- Reads a whole pattern. -/
def readPattern (bound : Nat) : Reader Expression := do
  let expression ← readExpression bound [] []
  if !(← atEnd) then
    throw .unopenedGroup
  return expression

/-- The expression of a pattern. -/
def parse (pattern : List Char) : Except RegexError Expression :=
  (readPattern (pattern.length + 1)).run' ⟨pattern, false, []⟩

end YangSchema.Regex

/-!
## Patterns

A pattern is a regular expression that a `pattern` statement may have as its
argument.
-/

namespace YangSchema.Regex

/-- Fails unless a pattern is well-formed, not nested too deeply, and cannot
match anything but Unicode text. -/
def check (pattern : String) : Except RegexError Unit := do
  let expression ← parse pattern.toList
  if depthLimit < expression.depth then
    throw (.tooDeep depthLimit)
  let _ ← expression.check true

end YangSchema.Regex
