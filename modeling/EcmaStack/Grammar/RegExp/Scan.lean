import EcmaStack.Grammar.RegExp.Fault
import EcmaStack.Text.CharClass

/-!
# Scanning regular expressions

A scan reads characters from the head of the body and leaves the rest. Where it fails it also
tells what was left, because the search for groups goes on behind a fault. This module has the
scans of numbers, counts, blanks and comments, and the options that groups switch.
-/

namespace EcmaStack

open Text

namespace RegExp

/-- What a scan gives: a value with the rest, or a fault with what was left where it was met. -/
abbrev Scan := Except (PatternFault × List Char)

/-- The rest after a scan, whether it failed or not. -/
def restOf {α : Type} : Scan (α × List Char) → List Char
  | .ok (_, rest) => rest
  | .error (_, rest) => rest

/-! ## Numbers and counts -/

/-- The rest of a decimal number, which must be below 2^31, after digits with a value. -/
def decimalFrom (value : Nat) : List Char → Scan (Nat × List Char)
  | [] => .ok (value, [])
  | c :: rest =>
    if isDecimalDigit c then
      let more := 10 * value + (c.toNat - '0'.toNat)
      if more < 0x80000000 then decimalFrom more rest else .error (.numberRange, rest)
    else .ok (value, c :: rest)

/-- Read a decimal number. Without a digit it is zero. -/
def decimal (cs : List Char) : Scan (Nat × List Char) :=
  decimalFrom 0 cs

/-- Whether braces with a count start here: digits, then perhaps a comma and digits, then the
closing brace. -/
def countFollows (cs : List Char) : Bool :=
  match cs with
  | '\x7b' :: rest =>
    if (rest.takeWhile isDecimalDigit).isEmpty then false
    else match rest.dropWhile isDecimalDigit with
      | '\x7d' :: _ => true
      | ',' :: tail =>
        match tail.dropWhile isDecimalDigit with
        | '\x7d' :: _ => true
        | _ => false
      | _ => false
  | _ => false

/-- Whether a character is a quantifier of its own, or opens a count. -/
def isQuantifierMark (c : Char) : Bool :=
  c == '*' || c == '+' || c == '?' || c == '\x7b'

/-- Whether a quantifier starts here. -/
def quantifierFollows (cs : List Char) : Bool :=
  match cs with
  | [] => false
  | c :: _ => if c == '\x7b' then countFollows cs else isQuantifierMark c

/-- Read a count in braces, the cursor standing after the opening brace, up to and including the
closing one: whether the least number of repetitions is at most the greatest. -/
def count (cs : List Char) : Scan (Bool × List Char) := do
  let (least, rest) ← decimal cs
  match rest with
  | ',' :: '\x7d' :: tail => return (true, tail)
  | ',' :: tail =>
    let (most, after) ← decimal tail
    return (least ≤ most, after.drop 1)
  | _ => return (true, rest.drop 1)

/-! ## Options -/

/-- The options that change how a body is read. -/
structure Options where
  /-- Blanks and comments after a number sign carry nothing. -/
  spaced : Bool := false
  /-- Groups without a name or a number are not counted. -/
  explicit : Bool := false
  /-- Code points may be written in braces. -/
  codePoints : Bool := false
  deriving DecidableEq

/-- The letters that switch options. -/
def isOptionLetter (c : Char) : Bool :=
  "imnsxduIMNSXDU".toList.contains c

/-- The options with that of a letter switched. -/
def Options.switch (o : Options) (c : Char) (on : Bool) : Options :=
  match c with
  | 'x' | 'X' => { o with spaced := on }
  | 'n' | 'N' => { o with explicit := on }
  | 'u' | 'U' => { o with codePoints := on }
  | _ => o

/-- Read letters that switch options on, or off after a minus sign. -/
def Options.read (o : Options) (on : Bool) : List Char → Options × List Char
  | [] => (o, [])
  | c :: rest =>
    if c == '-' then o.read false rest
    else if c == '+' then o.read true rest
    else if isOptionLetter c then (o.switch c on).read on rest
    else (o, c :: rest)

/-! ## Blanks and comments -/

/-- White space that carries nothing where the options say so. -/
def isSpace (c : Char) : Bool :=
  c == ' ' || ('\t' ≤ c && c ≤ '\r')

/-- What a place between two parts of a body belongs to. -/
inductive Gap where
  | blank
  | lineComment
  | groupComment

/-- Read what carries nothing: comments in a group of their own, and where the options say so
blanks and comments up to the end of a line. -/
def gapFrom (o : Options) : Gap → List Char → Scan (Unit × List Char)
  | .blank, '(' :: '?' :: '#' :: rest => gapFrom o .groupComment rest
  | .blank, c :: rest =>
    if o.spaced && isSpace c then gapFrom o .blank rest
    else if o.spaced && c == '#' then gapFrom o .lineComment rest
    else .ok ((), c :: rest)
  | .lineComment, c :: rest => gapFrom o (if c == '\n' then .blank else .lineComment) rest
  | .groupComment, c :: rest => gapFrom o (if c == ')' then .blank else .groupComment) rest
  | .groupComment, [] => .error (.openComment, [])
  | _, [] => .ok ((), [])

/-- What follows blanks and comments. -/
def skipGap (o : Options) (cs : List Char) : Scan (Unit × List Char) :=
  gapFrom o .blank cs

/-! ## Ordinary characters -/

/-- Whether a character has a meaning of its own in a body. -/
def isSpecial (c : Char) : Bool :=
  "$().[\\^|".toList.contains c || isQuantifierMark c

/-- Whether a character ends a run of ordinary ones. -/
def endsRun (o : Options) (c : Char) : Bool :=
  isSpecial c || (o.spaced && (isSpace c || c == '#'))

/-- What follows a run of ordinary characters. A brace that opens no count is one. -/
def skipRun (o : Options) : List Char → List Char
  | [] => []
  | c :: rest =>
    if !endsRun o c || (c == '\x7b' && !countFollows (c :: rest)) then skipRun o rest else c :: rest

end RegExp

end EcmaStack
