import YangSchema.Decimal.Shortest
import YangSchema.Json.Value

/-!
# JSON text

`compact` writes a value on one line and `pretty` indents members by two
spaces. Quotes, backslashes and control characters are escaped; an infinite
number is written as `null`.
-/

namespace YangSchema.Json

private def hexDigit (value : Nat) : Char :=
  if value < 10 then Char.ofNat (48 + value) else Char.ofNat (87 + value)

/-- The escape of one character inside a string. -/
def escapeCharacter (c : Char) : List Char :=
  match c with
  | '"' => ['\\', '"']
  | '\\' => ['\\', '\\']
  | '\n' => ['\\', 'n']
  | '\r' => ['\\', 'r']
  | '\t' => ['\\', 't']
  | '\x08' => ['\\', 'b']
  | '\x0c' => ['\\', 'f']
  | c =>
      if c.toNat < 0x20 then
        ['\\', 'u', '0', '0', hexDigit (c.toNat / 16), hexDigit (c.toNat % 16)]
      else
        [c]

def quoted (text : String) : String :=
  String.ofList ('"' :: (text.toList.flatMap escapeCharacter ++ ['"']))

private def numberText (value : Decimal.Binary64) : String :=
  value.scientific?.getD "null"

mutual

/-- The text of a value without any blanks. -/
def compact : Json → String
  | null => "null"
  | bool value => if value then "true" else "false"
  | int value => toString value
  | decimal value => numberText value
  | string value => quoted value
  | array items => "[" ++ ",".intercalate (compactItems items) ++ "]"
  | object members =>
      "\x7b" ++ ",".intercalate (compactMembers members) ++ "\x7d"

def compactItems : List Json → List String
  | [] => []
  | item :: items => compact item :: compactItems items

def compactMembers : List (String × Json) → List String
  | [] => []
  | (name, value) :: members =>
      (quoted name ++ ":" ++ compact value) :: compactMembers members

end

private def lineBreak (depth : Nat) : String :=
  "\n" ++ String.ofList (List.replicate (2 * depth) ' ')

/-- Puts every piece on its own line between two brackets. -/
private def enclosed (depth : Nat) (opening closing : String) :
    List String → String
  | [] => opening ++ closing
  | pieces =>
      let separator := lineBreak (depth + 1)
      opening ++ separator ++ ("," ++ separator).intercalate pieces ++
        lineBreak depth ++ closing

mutual

/-- The indented text of a value that stands at the given depth. -/
def prettyAt (depth : Nat) : Json → String
  | array items => enclosed depth "[" "]" (prettyItems (depth + 1) items)
  | object members =>
      enclosed depth "\x7b" "\x7d" (prettyMembers (depth + 1) members)
  | null => "null"
  | bool value => if value then "true" else "false"
  | int value => toString value
  | decimal value => numberText value
  | string value => quoted value

def prettyItems (depth : Nat) : List Json → List String
  | [] => []
  | item :: items => prettyAt depth item :: prettyItems depth items

def prettyMembers (depth : Nat) : List (String × Json) → List String
  | [] => []
  | (name, value) :: members =>
      (quoted name ++ ": " ++ prettyAt depth value) ::
        prettyMembers depth members

end

def pretty (value : Json) : String :=
  prettyAt 0 value

end YangSchema.Json
