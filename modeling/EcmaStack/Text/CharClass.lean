import EcmaStack.Text.CharRanges

/-!
# Classes of characters

The character classes the lexical grammar speaks of, and the class of printable characters. Each
is a Boolean test, so that a grammar can be stated with it and run.
-/

namespace EcmaStack.Text

/-- Whether a code point lies in one of the ranges. -/
def inRanges (ranges : List (Nat × Nat)) (n : Nat) : Bool :=
  ranges.any fun (first, last) => first ≤ n && n ≤ last

/-- The four characters that end a line. -/
def isLineTerminator (c : Char) : Bool :=
  c == '\n' || c == '\r' || c == '\u2028' || c == '\u2029'

/-- The space separators above U+007F. -/
def spaceRanges : List (Nat × Nat) :=
  [(0xa0, 0xa0), (0x1680, 0x1680), (0x2000, 0x200a), (0x202f, 0x202f), (0x205f, 0x205f),
    (0x3000, 0x3000)]

/-- White space that ends no line. -/
def isBlank (c : Char) : Bool :=
  c == '\t' || c == '\x0b' || c == '\x0c' || c == ' ' || c == '\ufeff' ||
    inRanges spaceRanges c.toNat

/-- A decimal digit. -/
def isDecimalDigit (c : Char) : Bool :=
  '0' ≤ c && c ≤ '9'

/-- The value of a digit in any base up to sixteen. -/
def digitValue? (c : Char) : Option Nat :=
  if isDecimalDigit c then some (c.toNat - '0'.toNat)
  else if 'a' ≤ c && c ≤ 'f' then some (c.toNat - 'a'.toNat + 10)
  else if 'A' ≤ c && c ≤ 'F' then some (c.toNat - 'A'.toNat + 10)
  else none

/-- Whether a character is a digit of the base. -/
def isDigitOf (base : Nat) (c : Char) : Bool :=
  match digitValue? c with
  | some d => d < base
  | none => false

/-- A letter of the basic alphabet, a dollar sign or an underscore. -/
def isBasicLetter (c : Char) : Bool :=
  ('a' ≤ c && c ≤ 'z') || ('A' ≤ c && c ≤ 'Z') || c == '$' || c == '_'

/-- Characters that older versions of the standard let start an identifier, though they are no
letters now. -/
def formerStartRanges : List (Nat × Nat) :=
  [(0x1885, 0x1886), (0x2118, 0x2118), (0x212e, 0x212e), (0x309b, 0x309c)]

/-- Characters of other categories that continue an identifier, the two joiners among them. -/
def furtherPartRanges : List (Nat × Nat) :=
  [(0xb7, 0xb7), (0x387, 0x387), (0x1369, 0x1371), (0x19da, 0x19da), (0x200c, 0x200d),
    (0x30fb, 0x30fb), (0xff65, 0xff65)]

/-- Whether a character above U+007F may start an identifier name. The vertical tilde, a letter,
is reserved for patterns. -/
def isForeignStart (c : Char) : Bool :=
  c != '\u2e2f' && (inRanges letterRanges c.toNat || inRanges letterNumberRanges c.toNat ||
    inRanges formerStartRanges c.toNat)

/-- Whether a character may start an identifier name. -/
def isIdentifierStart (c : Char) : Bool :=
  if c.toNat < 0x80 then isBasicLetter c else isForeignStart c

/-- Whether a character may continue an identifier name: besides those that start one, marks,
digits and connecting punctuation. -/
def isIdentifierPart (c : Char) : Bool :=
  if c.toNat < 0x80 then isBasicLetter c || isDecimalDigit c
  else
    isForeignStart c || inRanges nonspacingMarkRanges c.toNat ||
    inRanges spacingMarkRanges c.toNat || inRanges decimalDigitRanges c.toNat ||
    inRanges connectorRanges c.toNat || inRanges furtherPartRanges c.toNat

/-- Whether a character belongs to a word: a letter, a nonspacing mark, a decimal digit, a
connector or a joiner. -/
def isWordCharacter (c : Char) : Bool :=
  inRanges letterRanges c.toNat || inRanges nonspacingMarkRanges c.toNat ||
    inRanges decimalDigitRanges c.toNat ||
    inRanges connectorRanges c.toNat || c == '\u200c' || c == '\u200d'

/-- Whether a character is shown as it is in a quoted text. -/
def isPrintable (c : Char) : Bool :=
  inRanges printableRanges c.toNat

/-- Every character that may start an identifier may continue one. -/
theorem isIdentifierPart_of_isIdentifierStart {c : Char} (h : isIdentifierStart c = true) :
    isIdentifierPart c = true := by
  unfold isIdentifierStart at h
  unfold isIdentifierPart
  split <;> simp_all

/-- Whether a list of characters is an identifier name, written without escapes. -/
def isIdentifierName : List Char → Bool
  | [] => false
  | c :: rest => isIdentifierStart c && rest.all isIdentifierPart

end EcmaStack.Text
