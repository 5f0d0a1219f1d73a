/-!
# Faults of regular expressions

Why the body of a regular expression is refused, and the words for it.
-/

namespace EcmaStack

/-- Why a regular expression is refused. -/
inductive PatternFault where
  | missingParen
  | unexpectedParen
  | missingArgument
  | nestedQuantifier
  | repeatCount
  | numberRange
  | openComment
  | openClass
  | reversedRange (first last : Char)
  /-- A range cannot end in a set such as the digits. -/
  | rangeSet (letter : Char)
  | subtraction
  | endEscape
  | fewHexDigits
  | missingBrace
  | largeCodePoint
  | incompleteProperty
  | unknownProperty (name : String)
  | grouping (text : String)
  | groupName
  | groupZero
  | nameReference
  | undefinedName (name : String)
  | undefinedNumber (number : Nat)
  | tooManyAlternatives
  | conditionCaptures
  | conditionComment
  | malformedCondition (number : Nat)
  | undefinedCondition (number : Nat)
  deriving DecidableEq

/-- The wording of a refused regular expression. -/
def PatternFault.message : PatternFault → String
  | .missingParen => "missing closing )"
  | .unexpectedParen => "unexpected )"
  | .missingArgument => "missing argument to repetition operator"
  | .nestedQuantifier => "invalid nested repetition operator"
  | .repeatCount => "invalid repeat count"
  | .numberRange => "capture group number out of range"
  | .openComment => "unterminated comment"
  | .openClass => "unterminated [] set"
  | .reversedRange first last =>
    "[" ++ first.toString ++ "-" ++ last.toString ++ "] range in reverse order"
  | .rangeSet letter => "cannot include class \\" ++ toString letter.toNat ++ " in character range"
  | .subtraction => "a subtraction must be the last element in a character class"
  | .endEscape => "illegal \\ at end of pattern"
  | .fewHexDigits => "insufficient hexadecimal digits"
  | .missingBrace => "missing closing \x7d"
  | .largeCodePoint => "hex values may not be larger than 0x10FFFF"
  | .incompleteProperty => "incomplete \\p\x7bX\x7d character escape"
  | .unknownProperty name => "unknown unicode category, script, or property '" ++ name ++ "'"
  | .grouping text => "unrecognized grouping construct: " ++ text
  | .groupName =>
    "invalid group name: group names must begin with a word character and have a matching terminator"
  | .groupZero => "capture number cannot be zero"
  | .nameReference => "malformed \\k<...> named back reference"
  | .undefinedName name => "reference to undefined group name " ++ name
  | .undefinedNumber number => "reference to undefined group number " ++ toString number
  | .tooManyAlternatives => "too many | in (?()|)"
  | .conditionCaptures => "alternation conditions do not capture and cannot be named"
  | .conditionComment => "alternation conditions cannot be comments"
  | .malformedCondition number => "(?(" ++ toString number ++ ") ) malformed"
  | .undefinedCondition number => "(?(" ++ toString number ++ ") ) reference to undefined group"

end EcmaStack
