import EcmaStack.Token.Identifier
import EcmaStack.Token.Number
import EcmaStack.Token.Quotation
import EcmaStack.Token.RegExp
import EcmaStack.Token.Trivia

/-!
# Scanning

`scanToken` reads the next token of a source. It never reads a regular expression or the
continuation of a template: a slash and a closing brace are punctuators until the grammar asks
for them to be read again (`rescanRegExp`, `rescanTemplate`).
-/

namespace EcmaStack

open Text

/-- The longest punctuator. A question mark and a point before a digit are two punctuators. -/
def readPunctuator (c : Cursor) : Reading :=
  match Punct.longestMatch? ((c.rest.take 4).map Piece.scalar) with
  | none => none
  | some (p, n) =>
    let (p, n) : Punct × Nat :=
      if p == .optionalDot && Cursor.at? ⟨c.rest.drop 2, 0⟩ isDecimalDigit then (.question, 1)
      else (p, n)
    some ({ kind := .punct p, start := c.offset, stop := c.offset + n },
      ⟨c.rest.drop n, c.offset + n⟩)

/-- The reader for a token that starts with a character. -/
def readerFor (x : Char) : Cursor → Reading :=
  if x == '\x22' || x == '\x27' then readString
  else if x == '\x60' then readTemplate
  else if isDecimalDigit x then readNumber
  else if x == '.' then fun c => (readNumber c).or (readPunctuator c)
  else if isBasicLetter x || x == '\\' || x == '#' || 0x80 ≤ x.toNat then readIdentifier
  else readPunctuator

/-- Skip what is no token and read the next token; a character that starts none is a fault of
its own. -/
def scanToken (c : Cursor) : Token × Cursor :=
  let trivia := c.skipTrivia
  let d := trivia.cursor
  let (token, after) : Token × Cursor :=
    match trivia.fault, d.next? with
    | some t, _ => (t, d)
    | none, none => ({ kind := .eof, start := d.offset, stop := d.offset }, d)
    | none, some (p, next) =>
      (readerFor p.scalar d).getD (.ofFault (.invalidCharacter p.scalar) d.offset next.offset, next)
  ({ token with newline := trivia.newline }, after)

/-- Read a token of a source again with another reader; where that does not fit, the token stays. -/
def rescan (reader : Cursor → Reading) (source : Text) (t : Token) : Token × Cursor :=
  match reader (Cursor.seek source t.start) with
  | some (again, d) => ({ again with newline := t.newline }, d)
  | none => (t, Cursor.seek source t.stop)

/-- Read a slash again as a regular expression. -/
def rescanRegExp (source : Text) (t : Token) : Token × Cursor :=
  rescan readRegExp source t

/-- Read a closing brace again as the continuation of a template. -/
def rescanTemplate (source : Text) (t : Token) : Token × Cursor :=
  rescan readTemplateContinuation source t

/-- Every token from the cursor on, the end included. A fault that read nothing ends the list. -/
def scanFrom : Nat → Cursor → List Token
  | 0, _ => []
  | fuel + 1, c =>
    let (t, d) := scanToken c
    if t.kind == .eof || (t.kind == .fault && d.offset == c.offset) then [t]
    else t :: scanFrom fuel d

/-- Every token of a source. Each takes at least one piece, so there are no more than pieces and
an end. -/
def scan (source : Text) : List Token :=
  scanFrom (source.length + 1) (.ofText source)

end EcmaStack
