import EcmaStack.Document.YamlMeaning

/-!
# Scalars of TOML documents

The texts, numbers, dates and times of a TOML document. A reader takes characters from the head
and leaves the rest; it gives nothing where what stands there is malformed.
-/

namespace EcmaStack

namespace Toml

/-- Whether a character parts words on a line. -/
def isBlank (c : Char) : Bool :=
  c == ' ' || c == '\t'

/-- Whether a character ends a line. -/
def isLineEnd (c : Char) : Bool :=
  c == '\n' || c == '\r'

/-- Whether a document holds only characters that may stand somewhere: no control characters,
and a carriage return only before a line feed. -/
def isClean : List Char → Bool
  | [] => true
  | '\r' :: '\n' :: rest => isClean rest
  | c :: rest => (c == '\t' || c == '\n' || (0x20 ≤ c.toNat && c.toNat != 0x7F)) && isClean rest

/-! ## Texts -/

/-- The number of so many hexadecimal digits at the head. -/
def hexValue? (width : Nat) (cs : List Char) : Option Nat :=
  let digits := cs.take width
  if digits.length == width && Yaml.allDigits 16 digits then
    some (positionalValue 16 (digits.filterMap Text.digitValue?))
  else none

/-- The character an escape stands for, and how many characters after the backslash it takes. -/
def escaped? : List Char → Option (Char × Nat)
  | 'b' :: _ => some ('\x08', 1)
  | 't' :: _ => some ('\t', 1)
  | 'n' :: _ => some ('\n', 1)
  | 'f' :: _ => some ('\x0c', 1)
  | 'r' :: _ => some ('\r', 1)
  | '\x22' :: _ => some ('\x22', 1)
  | '\\' :: _ => some ('\\', 1)
  | 'u' :: rest =>
    (hexValue? 4 rest).bind fun n => if n.isValidChar then some (Char.ofNat n, 5) else none
  | 'U' :: rest =>
    (hexValue? 8 rest).bind fun n => if n.isValidChar then some (Char.ofNat n, 9) else none
  | _ => none

/-- Prepend a character to a text that was read. -/
def prepend (c : Char) (read : Option (List Char × List Char)) : Option (List Char × List Char) :=
  read.map fun (text, rest) => (c :: text, rest)

/-- The rest of a text between double quotes, the first so many characters of which have been
used. -/
def basicFrom : Nat → List Char → Option (List Char × List Char)
  | _, [] => none
  | used + 1, _ :: rest => basicFrom used rest
  | 0, '\x22' :: rest => some ([], rest)
  | 0, '\\' :: rest =>
    match escaped? rest with
    | some (c, width) => prepend c (basicFrom width rest)
    | none => none
  | 0, c :: rest => if isLineEnd c then none else prepend c (basicFrom 0 rest)

/-- The rest of a text between single quotes. -/
def literalFrom : List Char → Option (List Char × List Char)
  | [] => none
  | '\x27' :: rest => some ([], rest)
  | c :: rest => if isLineEnd c then none else prepend c (literalFrom rest)

/-- How many of a character stand at the head. -/
def countHead (c : Char) (cs : List Char) : Nat :=
  (cs.takeWhile (· == c)).length

/-- Whether a backslash before these characters joins lines: only blanks stand before the line
end. -/
def joinsLines (cs : List Char) : Bool :=
  (cs.dropWhile isBlank).head?.any isLineEnd

/-- How many characters at the head are blanks and line ends. -/
def gapWidth (cs : List Char) : Nat :=
  (cs.takeWhile fun c => isBlank c || isLineEnd c).length

/-- Whether the backslash at the head stands for itself. -/
def isBackslash : List Char → Bool
  | '\\' :: _ => true
  | _ => false

/-- The rest of a text of several lines between tripled quotes. Up to two quotes may stand
before the closing ones, and three after a backslash that stands for itself. Escapes have a
meaning between double quotes only. -/
def longFrom (quote : Char) (escapes : Bool) :
    Nat → Bool → List Char → Option (List Char × List Char)
  | _, _, [] => none
  | used + 1, afterBackslash, _ :: rest => longFrom quote escapes used afterBackslash rest
  | 0, afterBackslash, c :: rest =>
    if c == quote && 2 ≤ countHead quote rest then
      let extra := countHead quote rest - 2
      if extra < (if afterBackslash then 4 else 3) then some (List.replicate extra quote,
        rest.drop (2 + extra)) else none
    else if escapes && c == '\\' then
      if joinsLines rest then longFrom quote escapes (gapWidth rest) false rest
      else
        match escaped? rest with
        | some (e, width) => prepend e (longFrom quote escapes width (isBackslash rest) rest)
        | none => none
    else prepend c (longFrom quote escapes 0 false rest)

/-- A text without a line end at its head. -/
def withoutFirstLineEnd : List Char → List Char
  | '\n' :: rest => rest
  | '\r' :: '\n' :: rest => rest
  | cs => cs

/-- A text on one line. -/
def shortText? : List Char → Option (List Char × List Char)
  | '\x22' :: rest => basicFrom 0 rest
  | '\x27' :: rest => literalFrom rest
  | _ => none

/-- A text. -/
def text? : List Char → Option (List Char × List Char)
  | '\x22' :: '\x22' :: '\x22' :: rest => longFrom '\x22' true 0 false (withoutFirstLineEnd rest)
  | '\x27' :: '\x27' :: '\x27' :: rest => longFrom '\x27' false 0 false (withoutFirstLineEnd rest)
  | cs => shortText? cs

/-! ## Numbers, dates and times -/

/-- Whether underscores stand between digits only. -/
def underscoresFit (base : Nat) : Bool → List Char → Bool
  | afterDigit, [] => afterDigit
  | afterDigit, '_' :: rest =>
    afterDigit && rest.head? != some '_' && !rest.isEmpty && underscoresFit base false rest
  | _, c :: rest => (Text.digitValue? c).any (· < base) && underscoresFit base true rest

/-- Digits of a base, with underscores between them. -/
def isDigits (base : Nat) (cs : List Char) : Bool :=
  underscoresFit base false cs

/-- The number of such digits. -/
def digitsNumber (base : Nat) (cs : List Char) : Nat :=
  positionalValue base ((withoutSeparators cs).filterMap Text.digitValue?)

/-- Decimal digits without a zero in front of others. -/
def isWhole (cs : List Char) : Bool :=
  isDigits 10 cs && !(cs.head? == some '0' && 1 < cs.length)

/-- Whether characters are a whole number of sixty-four bits. -/
def isInteger (cs : List Char) : Bool :=
  match cs with
  | '0' :: 'x' :: rest => isDigits 16 rest && digitsNumber 16 rest < Nat.pow 2 63
  | '0' :: 'o' :: rest => isDigits 8 rest && digitsNumber 8 rest < Nat.pow 2 63
  | '0' :: 'b' :: rest => isDigits 2 rest && digitsNumber 2 rest < Nat.pow 2 63
  | '-' :: rest => isWhole rest && digitsNumber 10 rest ≤ Nat.pow 2 63
  | _ => isWhole (Yaml.unsigned cs) && digitsNumber 10 (Yaml.unsigned cs) < Nat.pow 2 63

/-- Whether characters are a number with a fraction or an exponent, or one of the special
numbers. -/
def isFloat (cs : List Char) : Bool :=
  let body := Yaml.unsigned cs
  let mantissa := body.takeWhile fun c => c != 'e' && c != 'E'
  let exponent := (body.drop mantissa.length).drop 1
  let whole := mantissa.takeWhile (· != '.')
  let fraction := (mantissa.drop whole.length).drop 1
  let fractionFits := whole.length == mantissa.length || isDigits 10 fraction
  let exponentFits := mantissa.length == body.length || isDigits 10 (Yaml.unsigned exponent)
  ["inf".toList, "nan".toList].contains body ||
    (whole.length < body.length && isWhole whole && fractionFits && exponentFits &&
      (Yaml.isDecimal (withoutSeparators cs) && Yaml.isFinite (withoutSeparators cs)))

/-- What follows a date. -/
def afterDate? (cs : List Char) : Option (List Char) := do
  let (year, cs) ← Moment.field? 4 0 9999 cs
  let (month, cs) ← Moment.field? 2 1 12 (← Moment.mark? (· == '-') cs)
  let (_, cs) ← Moment.field? 2 1 (Moment.daysIn year month) (← Moment.mark? (· == '-') cs)
  return cs

/-- What follows a time of day. -/
def afterTime? (cs : List Char) : Option (List Char) := do
  let (_, cs) ← Moment.field? 2 0 23 cs
  let (_, cs) ← Moment.field? 2 0 59 (← Moment.mark? (· == ':') cs)
  let (_, cs) ← Moment.field? 2 0 59 (← Moment.mark? (· == ':') cs)
  return Moment.afterFraction (· == '.') cs

/-- Whether characters are a time zone, or nothing. -/
def isZone : List Char → Bool
  | [] => true
  | ['z'] => true
  | cs => Moment.afterZone? cs == some []

/-- Whether characters are a date, a time of day, or both. -/
def isMoment (cs : List Char) : Bool :=
  match afterDate? cs with
  | some [] => true
  | some (c :: rest) => (c == 'T' || c == 't' || c == ' ') && (afterTime? rest).any isZone
  | none => afterTime? cs == some []

/-- Whether a character may stand in a word: a number, a date, a time or a truth value. -/
def isWordChar (c : Char) : Bool :=
  c.isAlphanum || "+-._:".toList.contains c

/-- The word at the head. A blank between a date and a time belongs to the word. -/
def word (cs : List Char) : List Char × List Char :=
  let first := cs.takeWhile isWordChar
  let rest := cs.dropWhile isWordChar
  match rest with
  | ' ' :: c :: tail =>
    if c.isDigit && afterDate? first == some [] then
      let second := (c :: tail).takeWhile isWordChar
      (first ++ ' ' :: second, tail.drop (second.length - 1))
    else (first, rest)
  | _ => (first, rest)

end Toml

end EcmaStack
