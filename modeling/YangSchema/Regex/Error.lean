/-!
# Errors in regular expressions
-/

namespace YangSchema

inductive RegexError where
  | unclosedGroup
  | unopenedGroup
  | lookAround
  | unclosedGroupName
  | invalidGroupName
  | emptyGroupName
  | repeatedGroupName
  | unrecognizedFlag
  | repeatedFlag
  | repeatedNegation
  | danglingNegation
  | unfinishedFlags
  | nothingToRepeat
  | unclosedCount
  | missingCount
  | invalidCount
  | invertedCounts
  | unclosedClass
  | classEscape
  | classBoundary
  | invertedRange
  | unfinishedEscape
  | unrecognizedEscape
  | backreference
  | invalidHexDigit
  | emptyHex
  | invalidHex
  | invalidPropertyName
  | unfinishedBoundary
  | unclosedBoundary
  | unrecognizedBoundary
  | tooDeep (limit : Nat)
  | invalidUtf8
  | unicodeNotAllowed
  | unknownProperty
  | unknownPropertyValue
  deriving DecidableEq, Repr

def RegexError.message : RegexError → String
  | unclosedGroup => "unclosed group"
  | unopenedGroup => "unopened group"
  | lookAround =>
      "look-around, including look-ahead and look-behind, is not supported"
  | unclosedGroupName => "unclosed capture group name"
  | invalidGroupName => "invalid capture group character"
  | emptyGroupName => "empty capture group name"
  | repeatedGroupName => "duplicate capture group name"
  | unrecognizedFlag => "unrecognized flag"
  | repeatedFlag => "duplicate flag"
  | repeatedNegation => "flag negation operator repeated"
  | danglingNegation => "dangling flag negation operator"
  | unfinishedFlags => "expected flag but got end of regex"
  | nothingToRepeat => "repetition operator missing expression"
  | unclosedCount => "unclosed counted repetition"
  | missingCount => "repetition quantifier expects a valid decimal"
  | invalidCount => "decimal literal invalid"
  | invertedCounts =>
      "invalid repetition count range, the start must be <= the end"
  | unclosedClass => "unclosed character class"
  | classEscape => "invalid escape sequence found in character class"
  | classBoundary => "invalid range boundary, must be a literal"
  | invertedRange =>
      "invalid character class range, the start must be <= the end"
  | unfinishedEscape =>
      "incomplete escape sequence, reached end of pattern prematurely"
  | unrecognizedEscape => "unrecognized escape sequence"
  | backreference => "backreferences are not supported"
  | invalidHexDigit => "invalid hexadecimal digit"
  | emptyHex => "hexadecimal literal empty"
  | invalidHex => "hexadecimal literal is not a Unicode scalar value"
  | invalidPropertyName => "invalid Unicode character class"
  | unfinishedBoundary =>
      "found either the beginning of a special word boundary or a bounded repetition on a \\b with an opening brace, but no closing brace"
  | unclosedBoundary =>
      "special word boundary assertion is either unclosed or contains an invalid character"
  | unrecognizedBoundary =>
      "unrecognized special word boundary assertion, valid choices are: start, end, start-half or end-half"
  | tooDeep limit =>
      s!"exceed the maximum number of nested parentheses/brackets ({limit})"
  | invalidUtf8 => "pattern can match invalid UTF-8"
  | unicodeNotAllowed => "Unicode not allowed here"
  | unknownProperty => "Unicode property not found"
  | unknownPropertyValue => "Unicode property value not found"

end YangSchema
