import EcmaStack.Number.Literal

/-!
# What YAML scalars mean

A scalar without quotes and without a tag means what it looks like: nothing, a truth value, a
whole number, a number, a moment in time, or a text.
-/

/-!
## Dates and times

The parts of a date and of a time of day as documents write them: fields of digits within
bounds, days that the month has, fractions of a second and distances of time zones. A reader
takes characters from the head and leaves the rest; it gives nothing where what stands there is
malformed.
-/

namespace EcmaStack

namespace Moment

/-- The value of decimal digits. -/
def digitsValue (cs : List Char) : Nat :=
  cs.foldl (fun n c => 10 * n + (c.toNat - '0'.toNat)) 0

/-- A number of so many digits at the head, within bounds. -/
def field? (width low high : Nat) (cs : List Char) : Option (Nat × List Char) :=
  let digits := cs.take width
  let n := digitsValue digits
  if digits.length == width && digits.all Char.isDigit && low ≤ n && n ≤ high then some (n,
    cs.drop width) else none

/-- A number of one digit or two at the head, within bounds. Two are taken where there are two. -/
def shortField? (low high : Nat) (cs : List Char) : Option (Nat × List Char) :=
  if ((cs.drop 1).head?.any Char.isDigit) then field? 2 low high cs else field? 1 low high cs

/-- A character at the head. -/
def mark? (p : Char → Bool) : List Char → Option (List Char)
  | c :: rest => if p c then some rest else none
  | [] => none

/-- How many days a month has. -/
def daysIn (year month : Nat) : Nat :=
  if month == 2 then if year % 4 == 0 && (year % 100 != 0 || year % 400 == 0) then 29 else 28
  else if [4, 6, 9, 11].contains month then 30
  else 31

/-- What follows the fraction of a second, which may be missing. -/
def afterFraction (isPoint : Char → Bool) (cs : List Char) : List Char :=
  match cs with
  | p :: c :: rest => if isPoint p && c.isDigit then rest.dropWhile Char.isDigit else cs
  | _ => cs

/-- What follows a time zone: the letter for none, or a distance in hours and minutes. -/
def afterZone? : List Char → Option (List Char)
  | 'Z' :: rest => some rest
  | sign :: rest => do
    guard (sign == '+' || sign == '-')
    let (_, cs) ← field? 2 0 24 rest
    let (_, cs) ← field? 2 0 60 (← mark? (· == ':') cs)
    return cs
  | [] => none

end Moment

end EcmaStack

/-! ## Plain scalars -/

namespace EcmaStack

namespace Yaml

/-- What a scalar may mean. -/
inductive Meaning where
  | null
  | truth (b : Bool)
  | integer
  | float
  | timestamp
  | text
  deriving DecidableEq

/-! ### Words -/

/-- The words for truth. -/
def trueWords : List String := ["true", "True", "TRUE"]

/-- The words for falsehood. -/
def falseWords : List String := ["false", "False", "FALSE"]

/-- The words for nothing. -/
def nullWords : List String := ["", "~", "null", "Null", "NULL"]

/-- Words that older readers take for truth. -/
def oldTrueWords : List String := ["y", "Y", "yes", "Yes", "YES", "on", "On", "ON"]

/-- Words that older readers take for falsehood. -/
def oldFalseWords : List String := ["n", "N", "no", "No", "NO", "off", "Off", "OFF"]

/-- The words for special numbers. -/
def numberWords : List String :=
  [".nan", ".NaN", ".NAN", ".inf", ".Inf", ".INF", "+.inf", "+.Inf", "+.INF", "-.inf", "-.Inf",
    "-.INF"]

/-! ### Numbers -/

/-- A text without a sign in front. -/
def unsigned : List Char → List Char
  | '+' :: rest => rest
  | '-' :: rest => rest
  | cs => cs

/-- Whether characters are digits of a base, at least one of them. -/
def allDigits (base : Nat) (cs : List Char) : Bool :=
  !cs.isEmpty && cs.all (Text.isDigitOf base)

/-- The greatest size that a whole number of sixty-four bits may have. Without a sign all bits
count. -/
def sizeLimit : List Char → Nat
  | '-' :: _ => Nat.pow 2 63
  | '+' :: _ => Nat.pow 2 63 - 1
  | _ => Nat.pow 2 64 - 1

/-- Whether characters are a whole number of a base with an optional sign that has room. -/
def isWordOf (base : Nat) (cs : List Char) : Bool :=
  match readInteger? base cs with
  | some i => i.natAbs ≤ sizeLimit cs
  | none => false

/-- Whether characters are a whole number with room: its base is told by a mark after the sign,
and a zero in front of other digits stands for base eight. A mark for base two or eight may also
stand in front of a sign. -/
def isWord (cs : List Char) : Bool :=
  let sign := cs.take (cs.length - (unsigned cs).length)
  match unsigned cs with
  | '0' :: rest =>
    match splitRadix ('0' :: rest) with
    | (_, 10) => rest.isEmpty || (allDigits 8 rest && isWordOf 8 (sign ++ rest))
    | (digits, base) =>
      (allDigits base digits && isWordOf base (sign ++ digits)) ||
        (sign.isEmpty && (rest.head? == some 'b' || rest.head? == some 'o') &&
          unsigned digits != digits &&
          isWordOf base digits)
  | body => allDigits 10 body && isWordOf 10 (sign ++ body)

/-- Whether characters are an exponent, or nothing. -/
def isExponent : List Char → Bool
  | [] => true
  | 'e' :: rest | 'E' :: rest => allDigits 10 (unsigned rest)
  | _ => false

/-- Whether characters are a decimal number. -/
def isDecimal (cs : List Char) : Bool :=
  let isDigit (c : Char) : Bool := c.isDigit
  match unsigned cs with
  | '.' :: rest => (rest.head?.any isDigit) && isExponent (rest.dropWhile isDigit)
  | rest =>
    (rest.head?.any isDigit) &&
      match rest.dropWhile isDigit with
      | '.' :: fraction => isExponent (fraction.dropWhile isDigit)
      | tail => isExponent tail

/-- Whether characters are a number that is small enough to have a value. -/
def isFinite (cs : List Char) : Bool :=
  match Binary64.read? cs with
  | some x => !x.isInfinite
  | none => false

/-- Whether every underscore stands between digits; `afterDigit` tells what stands in front. -/
def underscoresPartDigits : Bool → List Char → Bool
  | _, [] => true
  | afterDigit, '_' :: rest =>
    afterDigit && rest.head?.any Char.isDigit && underscoresPartDigits false rest
  | _, c :: rest => underscoresPartDigits c.isDigit rest

/-- Whether characters that begin with a point are a number. -/
def isFraction (cs : List Char) : Bool :=
  underscoresPartDigits false cs && isDecimal (withoutSeparators cs) &&
    isFinite (withoutSeparators cs)

/-! ### Moments -/

/-- Whether characters are a time of day, with or without a zone. -/
def isTime (zoned : Bool) (cs : List Char) : Bool :=
  Option.isSome do
    let (_, cs) ← Moment.shortField? 0 23 cs
    let (_, cs) ← Moment.shortField? 0 59 (← Moment.mark? (· == ':') cs)
    let (_, cs) ← Moment.shortField? 0 59 (← Moment.mark? (· == ':') cs)
    let cs := Moment.afterFraction (fun c => c == '.' || c == ',') cs
    let cs ← if zoned then Moment.afterZone? cs else some cs
    guard cs.isEmpty

/-- Whether characters are a date, or a date with a time: a letter between them asks for a zone,
spaces for none. -/
def isTimestamp (cs : List Char) : Bool :=
  let afterDate? : Option (List Char) := do
    let (year, cs) ← Moment.field? 4 0 9999 cs
    let (month, cs) ← Moment.shortField? 1 12 (← Moment.mark? (· == '-') cs)
    let (_, cs) ← Moment.shortField? 1 (Moment.daysIn year month) (← Moment.mark? (· == '-') cs)
    return cs
  match afterDate? with
  | none => false
  | some [] => true
  | some ('T' :: rest) | some ('t' :: rest) => isTime true rest
  | some (' ' :: rest) => isTime false (rest.dropWhile (· == ' '))
  | some _ => false

/-! ### Meanings -/

/-- What a scalar without quotes and without a tag means. -/
def Meaning.of (s : String) : Meaning :=
  let cs := s.toList
  let bare := withoutSeparators cs
  if nullWords.contains s then .null
  else if trueWords.contains s then .truth true
  else if falseWords.contains s then .truth false
  else if numberWords.contains s then .float
  else match cs with
    | '.' :: _ => if isFraction cs then .float else .text
    | c :: _ =>
      if !(c.isDigit || c == '+' || c == '-') then .text
      else if isTimestamp cs then .timestamp
      else if isWord bare then .integer
      else if isDecimal bare && isFinite bare then .float
      else .text
    | [] => .text

/-! ### Numbers of base sixty -/

/-- Whether characters are groups of base sixty after their colons, and perhaps a fraction. -/
def isSexagesimalTail : Nat → List Char → Bool
  | _, [] => true
  | 0, _ => false
  | fuel + 1, ':' :: rest =>
    let digits := rest.takeWhile Char.isDigit
    (digits.length == 1 || (digits.length == 2 && Moment.digitsValue digits < 60)) &&
      isSexagesimalTail fuel (rest.dropWhile Char.isDigit)
  | _, '.' :: rest => rest.all fun c => c.isDigit || c == '_'
  | _, _ => false

/-- Whether older readers take a text for a number of base sixty. -/
def isSexagesimal (cs : List Char) : Bool :=
  let isDigit (c : Char) : Bool := c.isDigit || c == '_'
  match unsigned cs with
  | c :: rest =>
    let tail := rest.dropWhile isDigit
    c.isDigit && tail.head? == some ':' && isSexagesimalTail tail.length tail
  | [] => false

/-- Whether readers old and new take a scalar without quotes for a text. -/
def isPlainText (s : String) : Bool :=
  Meaning.of s == .text && !isSexagesimal s.toList && !oldTrueWords.contains s &&
    !oldFalseWords.contains s

end Yaml

end EcmaStack
