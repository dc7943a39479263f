import YangSchema.Json.Value
import YangSchema.Text.Blank

/-!
# Identifiers and qualified names

An identifier starts with an ASCII letter or an underscore, goes on with
letters, digits, underscores, hyphens and points, and does not start with
`xml` in any case. A qualified name is an identifier behind an optional
qualifier and a colon.
-/

namespace YangSchema

namespace Identifier

/-- Characters that may stand after the first one. -/
def isContinuation (c : Char) : Bool :=
  c.isAlphanum || c == '_' || c == '-' || c == '.'

def startsWithXml : List Char → Bool
  | x :: m :: l :: _ =>
      x.toLower == 'x' && m.toLower == 'm' && l.toLower == 'l'
  | _ => false

def isValid : List Char → Bool
  | [] => false
  | first :: rest =>
      (first.isAlpha || first == '_') && !startsWithXml (first :: rest) &&
        rest.all isContinuation

end Identifier

def isIdentifier (text : String) : Bool :=
  Identifier.isValid text.toList

/-- A name with the qualifier written in front of it. -/
structure QualifiedName where
  qualifier : Option String
  name : String
  deriving DecidableEq, Repr

namespace QualifiedName

/-- Cuts at the first colon; both sides must be identifiers. -/
def ofCharacters? (text : List Char) : Option QualifiedName :=
  match Text.cutAt ':' text with
  | some (qualifier, name) =>
      if Identifier.isValid qualifier && Identifier.isValid name then
        some ⟨some (String.ofList qualifier), String.ofList name⟩
      else
        none
  | none =>
      if Identifier.isValid text then some ⟨none, String.ofList text⟩ else none

def parse? (text : String) : Option QualifiedName :=
  ofCharacters? text.toList

def text (name : QualifiedName) : String :=
  match name.qualifier with
  | some qualifier => qualifier ++ ":" ++ name.name
  | none => name.name

def toJson (name : QualifiedName) : Json :=
  .object <| Json.optional "prefix" .string name.qualifier ++
    [("name", .string name.name)]

end QualifiedName

end YangSchema
