import YangSchema.Regex.Property

/-!
# Regular expressions

The tree of a parsed pattern. It is accepted when it is not nested too deeply,
names existing Unicode properties, and can match valid UTF-8 only: where
Unicode is switched off, nothing may stand for a byte outside ASCII.
-/

namespace YangSchema.Regex

/-- Flags with whether each is switched on or off. -/
abbrev Flags := List (Char × Bool)

/-- What the flags say about one of them. -/
def Flags.state? (flags : Flags) (flag : Char) : Option Bool :=
  flags.lookup flag

/-- One character of a pattern, which may be written as two hex digits. -/
structure Literal where
  character : Char
  isByte : Bool
  deriving DecidableEq, Repr

mutual

/-- What stands between the brackets of a class. -/
inductive ClassSet where
  | item (item : ClassItem)
  | operation (left right : ClassSet)

inductive ClassItem where
  | empty
  | character (literal : Literal)
  | range (first last : Literal)
  /-- A class with a name, such as `[:alpha:]` or `\d`. -/
  | named (negated : Bool)
  | property (query : PropertyQuery)
  | bracketed (negated : Bool) (set : ClassSet)
  | union (items : List ClassItem)

end

inductive Expression where
  | empty
  /-- Flags that hold from here on. -/
  | setting (flags : Flags)
  | character (literal : Literal)
  | dot
  | assertion
  | named (negated : Bool)
  | property (query : PropertyQuery)
  | bracketed (negated : Bool) (set : ClassSet)
  | repetition (inner : Expression)
  | group (flags : Flags) (inner : Expression)
  | alternation (branches : List Expression)
  | concatenation (parts : List Expression)

namespace ClassItem

/-- The union of items; a single one stands for itself. -/
def ofItems : List ClassItem → ClassItem
  | [] => empty
  | [item] => item
  | items => union items

end ClassItem

namespace Expression

/-- Expressions one after the other; a single one stands for itself. -/
def ofParts : List Expression → Expression
  | [] => empty
  | [part] => part
  | parts => concatenation parts

/-- A choice between expressions; a single one stands for itself. -/
def ofBranches : List Expression → Expression
  | [] => empty
  | [branch] => branch
  | branches => alternation branches

end Expression

/-! ## Nesting -/

mutual

def ClassSet.depth : ClassSet → Nat
  | .item item => item.depth
  | .operation left right => max left.depth right.depth + 1

def ClassItem.depth : ClassItem → Nat
  | .bracketed _ set => set.depth + 1
  | .union items => ClassItem.depthOfAll items + 1
  | _ => 0

def ClassItem.depthOfAll : List ClassItem → Nat
  | [] => 0
  | item :: items => max item.depth (ClassItem.depthOfAll items)

end

mutual

/-- How deeply the parts of an expression are nested. -/
def Expression.depth : Expression → Nat
  | .bracketed _ set => set.depth + 1
  | .repetition inner => inner.depth + 1
  | .group _ inner => inner.depth + 1
  | .alternation branches => Expression.depthOfAll branches + 1
  | .concatenation parts => Expression.depthOfAll parts + 1
  | _ => 0

def Expression.depthOfAll : List Expression → Nat
  | [] => 0
  | part :: parts => max part.depth (Expression.depthOfAll parts)

end

/-- The greatest depth that is accepted. -/
def depthLimit : Nat :=
  250

/-! ## Characters and bytes -/

/-- Without Unicode, what is negated matches bytes outside ASCII. -/
def checkNegation (unicode negated : Bool) : Except RegexError Unit :=
  if !unicode && negated then .error .invalidUtf8 else .ok ()

namespace Literal

/-- Without Unicode, two hex digits stand for a byte. -/
def check (literal : Literal) (unicode : Bool) : Except RegexError Unit :=
  if !unicode && literal.isByte && 128 ≤ literal.character.toNat then
    .error .invalidUtf8
  else
    .ok ()

/-- Without Unicode, a class has members inside ASCII only. -/
def checkMember (literal : Literal) (unicode : Bool) :
    Except RegexError Unit := do
  literal.check unicode
  if !unicode && 128 ≤ literal.character.toNat then
    throw .unicodeNotAllowed

end Literal

def PropertyQuery.checkIn (query : PropertyQuery) (unicode : Bool) :
    Except RegexError Unit :=
  if unicode then query.check else .error .unicodeNotAllowed

mutual

def ClassSet.check (unicode : Bool) : ClassSet → Except RegexError Unit
  | .item item => item.check unicode
  | .operation left right => do
      left.check unicode
      right.check unicode

def ClassItem.check (unicode : Bool) : ClassItem → Except RegexError Unit
  | .empty => .ok ()
  | .character literal => literal.checkMember unicode
  | .range first last => do
      first.checkMember unicode
      last.checkMember unicode
  | .named negated => checkNegation unicode negated
  | .property query => query.checkIn unicode
  | .bracketed negated set => do
      set.check unicode
      checkNegation unicode negated
  | .union items => ClassItem.checkAll unicode items

def ClassItem.checkAll (unicode : Bool) :
    List ClassItem → Except RegexError Unit
  | [] => .ok ()
  | item :: items => do
      item.check unicode
      ClassItem.checkAll unicode items

end

mutual

/-- Checks the characters of an expression from left to right. The result tells
whether Unicode is on behind it: flags hold until the group around them
ends. -/
def Expression.check (unicode : Bool) : Expression → Except RegexError Bool
  | .empty | .assertion => .ok unicode
  | .setting flags => .ok ((flags.state? 'u').getD unicode)
  | .character literal => do
      literal.check unicode
      return unicode
  | .dot => if unicode then .ok unicode else .error .invalidUtf8
  | .named negated => do
      checkNegation unicode negated
      return unicode
  | .property query => do
      query.checkIn unicode
      return unicode
  | .bracketed negated set => do
      set.check unicode
      checkNegation unicode negated
      return unicode
  | .repetition inner => inner.check unicode
  | .group flags inner => do
      let _ ← inner.check ((flags.state? 'u').getD unicode)
      return unicode
  | .alternation branches => Expression.checkAll unicode branches
  | .concatenation parts => Expression.checkAll unicode parts

def Expression.checkAll (unicode : Bool) :
    List Expression → Except RegexError Bool
  | [] => .ok unicode
  | part :: parts => do
      let unicode ← part.check unicode
      Expression.checkAll unicode parts

end

end YangSchema.Regex
