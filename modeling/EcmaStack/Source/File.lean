import EcmaStack.Text.Piece
import EcmaStack.Text.CharClass

/-!
# Source files and positions

A source file is a name and a text. Offsets count bytes from zero; lines and columns count from
one, and a column counts pieces of text from the start of its line, each stray byte as one. LF,
CR, CR LF, U+2028 and U+2029 end a line.
-/

namespace EcmaStack

open Text

/-- A place in a source file. -/
structure Position where
  file : String
  line : Int
  column : Int
  offset : Nat
  deriving DecidableEq

namespace Position

/-- Whether the position refers to a line. -/
def isValid (p : Position) : Bool :=
  0 < p.line

/-- The position as `file:line:column`, without the parts that are unknown. -/
def render (p : Position) : String :=
  let place := if p.isValid then s!"{p.line}:{p.column}" else ""
  if p.file.isEmpty then if place.isEmpty then "-" else place
  else if place.isEmpty then p.file
  else p.file ++ ":" ++ place

end Position

/-- A named source text, by its bytes. -/
structure SourceFile where
  name : String
  bytes : List UInt8

namespace SourceFile

/-- A source file with a text that is a string. -/
def ofString (name source : String) : SourceFile :=
  ⟨name, utf8Bytes source⟩

/-- The text, piece by piece. -/
def text (f : SourceFile) : Text :=
  Text.decode f.bytes

/-- How many bytes the file has. -/
def size (f : SourceFile) : Nat :=
  f.bytes.length

/-- The offsets at which the lines after the first start, for a text that starts at `offset`. -/
def lineStartsFrom : Nat → Text → List Nat
  | _, [] => []
  | offset, .char '\r' :: .char '\n' :: rest => (offset + 2) :: lineStartsFrom (offset + 2) rest
  | offset, p :: rest =>
    let next := offset + p.width
    if isLineTerminator p.scalar then next :: lineStartsFrom next rest else lineStartsFrom next rest

/-- The offsets at which lines start. -/
def lineStarts (f : SourceFile) : List Nat :=
  0 :: lineStartsFrom 0 f.text

/-- How many lines the file has; there is always a first. -/
def lineCount (f : SourceFile) : Nat :=
  f.lineStarts.length

/-- The bytes from `start` to `stop`, read on their own. -/
def slice (f : SourceFile) (start stop : Nat) : Text :=
  Text.decode ((f.bytes.drop start).take (stop - start))

/-- The position of an offset in a file with the given line starts. An offset beyond the end is
the end. -/
def positionIn (f : SourceFile) (starts : List Nat) (offset : Nat) : Position :=
  let offset := min offset f.size
  let passed := starts.takeWhile (· ≤ offset)
  let start := passed.getLast?.getD 0
  { file := f.name, line := passed.length, column := (f.slice start offset).length + 1, offset }

/-- The position of an offset. -/
def position (f : SourceFile) (offset : Nat) : Position :=
  f.positionIn f.lineStarts offset

/-- The position of an offset that may lie before the file: such an offset is the start. -/
def positionAt (f : SourceFile) (offset : Int) : Position :=
  f.position offset.toNat

/-- The text of a line without what ends it. The first line is number one; there is no text
elsewhere. -/
def line (f : SourceFile) (number : Int) : Text :=
  let starts := f.lineStarts
  if number < 1 || Int.ofNat starts.length < number then []
  else
    let i := number.toNat - 1
    let start := starts.getD i 0
    let stop := starts.getD (i + 1) f.size
    let isEnd (p : Piece) : Bool := isLineTerminator p.scalar
    ((f.slice start stop).reverse.dropWhile isEnd).reverse

/-- The columns before `column`, as blanks that keep tabs, so that a mark after them stands
below it. -/
def indentTo (column : Int) (line : Text) : List Char :=
  (line.take (column - 1).toNat).map fun p => if p.scalar == '\t' then '\t' else ' '

/-- The line of a position with a mark below its column; nothing for a position without a line. -/
def snippet (f : SourceFile) (p : Position) : Text :=
  if p.isValid then
    let line := f.line p.line
    line ++ .char '\n' :: (indentTo p.column line).map .char ++ [.char '^']
  else []

end SourceFile

end EcmaStack
