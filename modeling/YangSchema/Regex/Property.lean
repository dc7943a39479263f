import YangSchema.Regex.Error
import YangSchema.Regex.PropertyNames

/-!
# Queries for Unicode properties

A query names a property, a general category or a script, or a property with
one of its values. Names are compared without regard to case, blanks, hyphens,
underscores and a leading `is`.
-/

namespace YangSchema.Regex

inductive PropertyQuery where
  | named (name : List Char)
  | valued (property value : List Char)
  deriving DecidableEq, Repr

namespace PropertyQuery

/-- Whether a name starts with `is` in any case. -/
def startsWithIs : List Char → Bool
  | i :: s :: _ => i.toLower == 'i' && s.toLower == 's'
  | _ => false

/-- A name in the form in which names are listed. The name `isc` is a short
name of its own and not a `c` behind an `is`. -/
def normalize (name : List Char) : String :=
  let behindIs := startsWithIs name
  let letters := (if behindIs then name.drop 2 else name).filter fun c =>
    c.toNat < 128 && c != ' ' && c != '_' && c != '-'
  let listed := String.ofList (letters.map Char.toLower)
  if behindIs && listed == "c" then "isc" else listed

/-- A name may stand for a value if its property has values in texts. -/
def checkValue (values : List String) (value : String) :
    Except RegexError Unit :=
  if values.contains value then .ok () else .error .unknownPropertyValue

/-- Looks for a property, then for a category, then for a script. -/
def checkNamed (name : String) : Except RegexError Unit :=
  if PropertyNames.binary.contains name ||
      PropertyNames.categories.contains name ||
      PropertyNames.scripts.contains name then
    .ok ()
  else if PropertyNames.surrogates.contains name ||
      PropertyNames.emptyScripts.contains name then
    .error .unknownPropertyValue
  else
    .error .unknownProperty

/-- The listed values of a property that can be asked for by value. -/
def valuesOf? (property : String) : Option (List String) :=
  match property with
  | "gc" | "generalcategory" => some PropertyNames.categories
  | "sc" | "script" | "scx" | "scriptextensions" => some PropertyNames.scripts
  | "age" => some PropertyNames.ages
  | "gcb" | "graphemeclusterbreak" =>
      some PropertyNames.graphemeClusterBreaks
  | "sb" | "sentencebreak" => some PropertyNames.sentenceBreaks
  | "wb" | "wordbreak" => some PropertyNames.wordBreaks
  | _ => none

/-- Fails when there is no such property, or none with that value. -/
def check : PropertyQuery → Except RegexError Unit
  | named name => checkNamed (normalize name)
  | valued property value =>
      let property := normalize property
      match valuesOf? property with
      | some values => checkValue values (normalize value)
      | none =>
          if PropertyNames.binary.contains property ||
              PropertyNames.unsupported.contains property then
            .error .unknownPropertyValue
          else
            .error .unknownProperty

end PropertyQuery

end YangSchema.Regex
