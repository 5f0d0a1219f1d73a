import EcmaStack.Number.Binary64
import EcmaStack.Text.CharClass

/-!
# Values of numeric literals

The value of a numeric literal's text. Underscores between digits carry nothing; `0x`, `0o` and `0b`
choose the base; a big integer ends in `n`.
-/

/-!
## Reading numbers

`Binary64.read?` reads a number as written by people and programs: a sign, a decimal with an
optional fraction and exponent, a hexadecimal significand with a binary exponent, or the words
for infinity and for what is no number. The result is the nearest double precision number,
infinity when out of range.
-/

namespace EcmaStack

open Text

/-- The value of a run of digits in a base, most significant first. -/
def positionalValue (base : Nat) (digits : List Nat) : Nat :=
  digits.foldl (fun n d => n * base + d) 0

/-- The longest run of digits of the base at the head, and what follows. -/
def splitDigits (base : Nat) (cs : List Char) : List Nat × List Char :=
  ((cs.takeWhile (isDigitOf base)).filterMap digitValue?, cs.dropWhile (isDigitOf base))

/-- A scaled whole number: `value * radix ^ exponent`. -/
structure Scaled where
  value : Nat
  exponent : Int

namespace Scaled

/-- Beyond this exponent every nonzero number is infinite, and below its negation zero. -/
def exponentLimit : Nat := 10000

/-- The nearest double precision number, given how many digits the value has. -/
def toBinary64 (negative : Bool) (radix : Nat) (s : Scaled) : Binary64 :=
  if s.value == 0 then .ofParts negative 0
  else if Int.ofNat exponentLimit < s.exponent then .infinity negative
  else if 0 ≤ s.exponent then .nearest negative (s.value * Nat.pow radix s.exponent.toNat) 1
  else .nearest negative s.value (Nat.pow radix (-s.exponent).toNat)

end Scaled

/-- A signed exponent after its mark, capped at ten thousand and something; `none` when it has
no digit. -/
def readExponent? (cs : List Char) : Option (Int × List Char) :=
  let (negative, cs) : Bool × List Char := match cs with
    | '+' :: rest => (false, rest)
    | '-' :: rest => (true, rest)
    | _ => (false, cs)
  match splitDigits 10 cs with
  | ([], _) => none
  | (digits, rest) =>
    let e := digits.foldl (fun e d => if e < Scaled.exponentLimit then e * 10 + d else e) 0
    some (if negative then -Int.ofNat e else Int.ofNat e, rest)

/-- Digits of the base with an optional point among them: the digits as one whole number, and
how many stand after the point. At least one digit is needed. -/
def readFixed? (base : Nat) (cs : List Char) : Option (Nat × Nat × List Char) :=
  let (whole, rest) := splitDigits base cs
  let (fraction, rest) := match rest with
    | '.' :: tail => splitDigits base tail
    | _ => ([], rest)
  if whole.isEmpty && fraction.isEmpty then none
  else some (positionalValue base (whole ++ fraction), fraction.length, rest)

/-- An unsigned decimal. -/
def readDecimal? (cs : List Char) : Option Scaled := do
  let (value, places, rest) ← readFixed? 10 cs
  match rest with
  | [] => return ⟨value, -Int.ofNat places⟩
  | m :: tail =>
    if m == 'e' || m == 'E' then
      let (e, rest) ← readExponent? tail
      if rest.isEmpty then return ⟨value, e - Int.ofNat places⟩ else none
    else none

/-- An unsigned hexadecimal significand with its binary exponent, which may not be missing. -/
def readHexadecimal? (cs : List Char) : Option Scaled := do
  let (value, places, rest) ← readFixed? 16 cs
  match rest with
  | m :: tail =>
    if m == 'p' || m == 'P' then
      let (e, rest) ← readExponent? tail
      if rest.isEmpty then return ⟨value, e - 4 * Int.ofNat places⟩ else none
    else none
  | [] => none

/-- The lower-case form of a basic letter; other characters stay. -/
def foldCase (cs : List Char) : String :=
  String.ofList (cs.map Char.toLower)

/-- Read the text of a number. -/
def Binary64.read? (cs : List Char) : Option Binary64 :=
  let (signed, negative, body) : Bool × Bool × List Char := match cs with
    | '+' :: rest => (true, false, rest)
    | '-' :: rest => (true, true, rest)
    | _ => (false, false, cs)
  let word := foldCase body
  if word == "inf" || word == "infinity" then some (.infinity negative)
  else if word == "nan" then if signed then none else some .nan
  else match body with
    | '0' :: x :: rest =>
      if x == 'x' || x == 'X' then (readHexadecimal? rest).map (·.toBinary64 negative 2)
      else (readDecimal? body).map (·.toBinary64 negative 10)
    | _ => (readDecimal? body).map (·.toBinary64 negative 10)

end EcmaStack

/-! ## Literals -/

namespace EcmaStack

open Text

/-- The text without its underscores. -/
def withoutSeparators (cs : List Char) : List Char :=
  cs.filter (· != '_')

/-- The digits of a literal and their base. A base mark with nothing after it is no base mark. -/
def splitRadix (cs : List Char) : List Char × Nat :=
  match cs with
  | '0' :: m :: d :: rest =>
    if m == 'x' || m == 'X' then (d :: rest, 16)
    else if m == 'o' || m == 'O' then (d :: rest, 8)
    else if m == 'b' || m == 'B' then (d :: rest, 2)
    else (cs, 10)
  | _ => (cs, 10)

/-- A whole number in a base with an optional sign. -/
def readInteger? (base : Nat) (cs : List Char) : Option Int :=
  let (negative, body) : Bool × List Char := match cs with
    | '+' :: rest => (false, rest)
    | '-' :: rest => (true, rest)
    | _ => (false, cs)
  match splitDigits base body with
  | (d :: ds, []) =>
    let n := Int.ofNat (positionalValue base (d :: ds))
    some (if negative then -n else n)
  | _ => none

/-- The value of a number literal. -/
def numberValue? (literal : String) : Option Binary64 :=
  match splitRadix (withoutSeparators literal.toList) with
  | (cs, 10) => Binary64.read? cs
  | (digits, base) => (readInteger? base digits).map .ofInt

/-- The text without one final `n`. -/
def withoutBigIntMark (cs : List Char) : List Char :=
  if cs.getLast? == some 'n' then cs.dropLast else cs

/-- The value of a big integer literal. -/
def bigIntValue? (literal : String) : Option Int :=
  let (digits, base) := splitRadix (withoutBigIntMark (withoutSeparators literal.toList))
  readInteger? base digits

end EcmaStack
