import EcmaStack.Token.Basic

/-!
# Numeric literals

Decimal literals with an optional fraction and exponent, literals in base two, eight and
sixteen, and big integers, which end in `n`. One underscore may stand between two digits. A
literal may not be followed directly by an identifier character.
-/

namespace EcmaStack

open Text

/-- The digits after the first, with single separators between them. -/
def readDigitsFrom (base : Nat) : Text → Nat → Except Rejection Cursor
  | [], offset => .ok ⟨[], offset⟩
  | .char '_' :: rest, offset =>
    match rest with
    | .char d :: tail =>
      if isDigitOf base d then readDigitsFrom base tail (offset + 1 + d.utf8Size)
      else .error ⟨.misplacedSeparator, offset, offset + 1, ⟨rest, offset + 1⟩⟩
    | _ => .error ⟨.misplacedSeparator, offset, offset + 1, ⟨rest, offset + 1⟩⟩
  | p :: rest, offset =>
    if isDigitOf base p.scalar then readDigitsFrom base rest (offset + p.width)
    else if isDecimalDigit p.scalar then
      .error ⟨.invalidDigit p.scalar base, offset, offset + 1, ⟨p :: rest, offset⟩⟩
    else .ok ⟨p :: rest, offset⟩

/-- A run of digits at a cursor that stands on one. -/
def readDigits (base : Nat) (c : Cursor) : Except Rejection Cursor :=
  match c.rest with
  | [] => .ok c
  | p :: rest => readDigitsFrom base rest (c.offset + p.width)

/-- Digits in a base marked by a letter, the cursor standing after the letter. -/
def readMarked (start base : Nat) (c : Cursor) : Except Rejection (Kind × Cursor) :=
  if c.at? (isDigitOf base) then do
    let d ← readDigits base c
    match d.take? 'n' with
    | some after => return (.bigint, after)
    | none => return (.number, d)
  else match c.peek? with
    | some x =>
      if isDecimalDigit x then .error ⟨.invalidDigit x base, c.offset, c.offset + 1, c⟩
      else .error ⟨.invalidNumber, start, c.offset, c⟩
    | none => .error ⟨.invalidNumber, start, c.offset, c⟩

/-- An optional fraction. -/
def readFraction (c : Cursor) : Except Rejection Cursor :=
  match c.take? '.' with
  | none => .ok c
  | some d =>
    if d.at? isDecimalDigit then readDigits 10 d
    else if d.at? (· == '_') then .error ⟨.misplacedSeparator, d.offset, d.offset + 1, d⟩
    else .ok d

/-- An optional exponent; `start` is where the number starts. -/
def readExponentPart (start : Nat) (c : Cursor) : Except Rejection Cursor :=
  match (c.take? 'e').or (c.take? 'E') with
  | none => .ok c
  | some d =>
    let d := ((d.take? '+').or (d.take? '-')).getD d
    if d.at? isDecimalDigit then readDigits 10 d else .error ⟨.invalidNumber, start, d.offset, d⟩

/-- What may follow the whole part of a decimal. -/
def readDecimalTail (start : Nat) (c : Cursor) : Except Rejection (Kind × Cursor) := do
  let c ← readFraction c
  let c ← readExponentPart start c
  return (.number, c)

/-- The base that a letter after a leading zero marks. -/
def markedBase? (c : Char) : Option Nat :=
  if c == 'b' || c == 'B' then some 2
  else if c == 'o' || c == 'O' then some 8
  else if c == 'x' || c == 'X' then some 16
  else none

/-- What may follow a leading zero. -/
def readAfterZero (start : Nat) (c : Cursor) : Except Rejection (Kind × Cursor) :=
  match c.rest with
  | .char x :: rest =>
    match markedBase? x with
    | some base => readMarked start base ⟨rest, c.offset + 1⟩
    | none =>
      if x == 'n' then .ok (.bigint, ⟨rest, c.offset + 1⟩)
      else if x == '_' then .error ⟨.misplacedSeparator, c.offset, c.offset + 1, c⟩
      else if isDecimalDigit x then .error ⟨.legacyOctal, start, c.offset + 1, c⟩
      else readDecimalTail start c
  | _ => readDecimalTail start c

/-- The literal at a cursor that stands on its first character. -/
def readNumberBody (c : Cursor) : Except Rejection (Kind × Cursor) :=
  match c.take? '0' with
  | some d => readAfterZero c.offset d
  | none =>
    if c.at? isDecimalDigit then do
      let d ← readDigits 10 c
      match d.take? 'n' with
      | some after => return (.bigint, after)
      | none => readDecimalTail c.offset d
    else readDecimalTail c.offset c

/-- Whether a number starts here: at a digit, or at a point before one. -/
def numberStarts (c : Cursor) : Bool :=
  match c.take? '.' with
  | some d => d.at? isDecimalDigit
  | none => c.at? isDecimalDigit

/-- A numeric literal. -/
def readNumber (c : Cursor) : Reading :=
  if numberStarts c then
    match readNumberBody c with
    | .error r => some r.token
    | .ok (kind, d) =>
      if d.identifierFollows then
        let after := (d.next?.map (·.2)).getD d
        some (.ofFault .invalidNumberEnd c.offset after.offset, after)
      else some ({ kind, start := c.offset, stop := d.offset }, d)
  else none

end EcmaStack
