import EcmaStack.Document.TomlText
import EcmaStack.Document.Yaml.Place

/-!
# Texts in YAML documents

The scalars of a document: plain ones, which end where structure begins, quoted ones, and blocks
of text. A scalar may go over several lines. A single line end in a plain or quoted one is a
blank, and of several one is dropped; the line ends of Unicode are kept as they are. A reader
counts the characters that it takes.
-/

namespace EcmaStack

namespace Yaml

/-! ## Words and gaps -/

/-- What lies between two words, the last character first: nothing, blanks on a line, or line
ends. The first line end is missing where it was escaped. -/
inductive Gap where
  | none
  | blanks (cs : List Char)
  | lines (first : Option Char) (others : List Char)

namespace Gap

/-- The gap with a blank added. Blanks at the head of a line are dropped. -/
def blank (c : Char) : Gap → Gap
  | none => blanks [c]
  | blanks cs => blanks (c :: cs)
  | lines first others => lines first others

/-- The gap with a line end added. -/
def lineEnd (c : Char) : Gap → Gap
  | lines first others => lines first (c :: others)
  | _ => lines (some c) []

/-- What a gap is in a text, the last character first. -/
def text : Gap → List Char
  | none => []
  | blanks cs => cs
  | lines (some '\n') [] => [' ']
  | lines (some '\n') others => others
  | lines first others => others ++ first.toList

/-- Whether a line ends in the gap. -/
def endsLine : Gap → Bool
  | lines _ _ => true
  | _ => false

/-- Whether the gap is empty. -/
def isEmpty : Gap → Bool
  | none => true
  | _ => false

end Gap

/-- A text as far as it has been read, the last character first; the gap after it; and how many
characters of the document have been taken. -/
structure Draft where
  chars : List Char := []
  gap : Gap := .none
  size : Nat := 0

namespace Draft

/-- The draft with the gap settled. -/
def settle (d : Draft) : Draft :=
  { d with chars := d.gap.text ++ d.chars, gap := .none }

/-- The draft with a character added that takes so many of the document. -/
def add (d : Draft) (c : Char) (size : Nat) : Draft :=
  { chars := c :: d.settle.chars, size := d.size + size }

/-- The draft with a blank added. -/
def blank (d : Draft) (c : Char) : Draft :=
  { d with gap := d.gap.blank c, size := d.size + 1 }

/-- The draft with a line end added. The first half of a line end of two characters adds nothing. -/
def lineEnd (d : Draft) (c : Char) (rest : List Char) : Draft :=
  if c == '\r' && rest.head? == some '\n' then { d with size := d.size + 1 }
  else { d with gap := d.gap.lineEnd (breakChar c), size := d.size + 1 }

/-- The text of the draft. -/
def text (d : Draft) : String :=
  String.ofList d.chars.reverse

end Draft

/-! ## Plain texts -/

/-- Whether a plain text ends before a character: at a border of the document, at a comment, at
a line that stands less deep than `least`, at a colon that ends a word, and inside brackets at
structure. -/
def endsPlain (flow : Bool) (least : Nat) (gap : Gap) (column : Nat) (c : Char) (rest : List Char) :
    Bool :=
  isBorder column (c :: rest) || (!gap.isEmpty && (c == '#' || (!flow && column < least))) ||
    (c == ':' && endsWord rest) || (flow && (isFlowMark c || c == '?'))

/-- Read on in a plain text. A tab may not stand where a line is less deep than `least`. -/
def plainFrom (flow : Bool) (least : Nat) (d : Draft) (column : Nat) : List Char → Option Draft
  | [] => some d
  | c :: rest =>
    if isBreak c then plainFrom flow least (d.lineEnd c rest) 0 rest
    else if isBlank c then
      if c == '\t' && d.gap.endsLine && column < least then none
      else plainFrom flow least (d.blank c) (column + 1) rest
    else if endsPlain flow least d.gap column c rest then some d
    else plainFrom flow least (d.add c 1) (column + 1) rest

/-- A plain text at a place, whether a line ended after it, and the place after it. -/
def plain? (flow : Bool) (least : Nat) (p : Place) : Option (String × Bool × Place) := do
  let d ← plainFrom flow least {} p.column p.rest
  return (d.text, d.gap.endsLine, p.after d.size)

/-! ## Quoted texts -/

/-- Read on in a text between single quotes. -/
def singleFrom (d : Draft) (column : Nat) : List Char → Option Draft
  | [] => none
  | '\x27' :: '\x27' :: rest => singleFrom (d.add '\x27' 2) (column + 2) rest
  | c :: rest =>
    if isBreak c then singleFrom (d.lineEnd c rest) 0 rest
    else if isBlank c then singleFrom (d.blank c) (column + 1) rest
    else if isBorder column (c :: rest) then none
    else if c == '\x27' then some { d.settle with size := d.size + 1 }
    else singleFrom (d.add c 1) (column + 1) rest

/-- The character of so many hexadecimal digits, and how many characters the escape takes. -/
def hexEscape? (width : Nat) (cs : List Char) : Option (Char × Nat) :=
  (Toml.hexValue? width cs).bind fun n => if n.isValidChar then some (Char.ofNat n, width + 1)
    else none

/-- The character an escape stands for, and how many characters after the backslash it takes. -/
def escaped? : List Char → Option (Char × Nat)
  | 'x' :: rest => hexEscape? 2 rest
  | 'u' :: rest => hexEscape? 4 rest
  | 'U' :: rest => hexEscape? 8 rest
  | c :: _ =>
    ([('0', '\x00'), ('a', '\x07'), ('b', '\x08'), ('t', '\t'), ('\t', '\t'), ('n', '\n'),
      ('v', '\x0b'), ('f', '\x0c'), ('r', '\r'), ('e', '\x1b'), (' ', ' '), ('\x22', '\x22'),
      ('\x27', '\x27'), ('\\', '\\'), ('N', '\u0085'), ('_', '\u00a0'), ('L', '\u2028'),
      ('P', '\u2029')].lookup c).map (·, 1)
  | [] => none

/-- Read on in a text between double quotes, the next so many characters of which have been
taken. A backslash at the end of a line joins it to the next. -/
def doubleFrom (d : Draft) (column : Nat) : Nat → List Char → Option Draft
  | _, [] => none
  | taken + 1, _ :: rest => doubleFrom d column taken rest
  | 0, '\\' :: rest =>
    if 0 < breakWidth rest then
      doubleFrom { d.settle with gap := .lines none [], size := d.size + 1 + breakWidth rest } 0
        (breakWidth rest) rest
    else match escaped? rest with
      | some (c, width) => doubleFrom (d.add c (width + 1)) (column + width + 1) width rest
      | none => none
  | 0, c :: rest =>
    if isBreak c then doubleFrom (d.lineEnd c rest) 0 0 rest
    else if isBlank c then doubleFrom (d.blank c) (column + 1) 0 rest
    else if isBorder column (c :: rest) then none
    else if c == '\x22' then some { d.settle with size := d.size + 1 }
    else doubleFrom (d.add c 1) (column + 1) 0 rest

/-- A text between quotes at a place, and the place after it. -/
def quoted? (p : Place) : Option (String × Place) := do
  let d ← if p.sees '\x27' then singleFrom {} (p.column + 1) (p.rest.drop 1)
    else doubleFrom {} (p.column + 1) 0 (p.rest.drop 1)
  return (d.text, p.after (d.size + 1))

/-! ## Blocks of text -/

/-- What becomes of the line ends at the end of a block. -/
inductive Chomping where
  | strip
  | clip
  | keep
  deriving DecidableEq

/-- The mark for the end of a block. -/
def chomping : Place → Chomping × Place
  | p => if p.sees '+' then (.keep, p.next) else if p.sees '-' then (.strip, p.next) else (.clip, p)

/-- How deep the lines of a block are said to stand below what holds it; zero where nothing is
said. -/
def saidDepth? (p : Place) : Option (Nat × Place) :=
  match p.rest with
  | '0' :: _ => none
  | c :: _ => if c.isDigit then some (c.toNat - '0'.toNat, p.next) else some (0, p)
  | [] => some (0, p)

/-- The marks after the one that starts a block, in either order, and the place after their line. -/
def blockHeader? (p : Place) : Option (Chomping × Nat × Place) := do
  let (ending, p) := chomping p
  let (depth, p) ← saidDepth? p
  let (ending, p) := if ending == .clip then chomping p else (ending, p)
  return (ending, depth, ← p.afterHeader?)

/-- How many spaces start the widest of the lines that are nothing but spaces and the line after
them. No tab may follow the spaces. -/
def leadWidth? (column widest : Nat) : List Char → Option Nat
  | ' ' :: rest => leadWidth? (column + 1) widest rest
  | '\t' :: _ => none
  | c :: rest =>
    if isBreak c then leadWidth? 0 (max widest column) rest else some (max widest column)
  | [] => some (max widest column)

/-- A block as far as it has been read, the last character first: the end of its last line,
further line ends, whether its last line started with a blank, whether a line is being read, and
how many characters have been taken. -/
structure BlockDraft where
  chars : List Char := []
  ended : List Char := []
  more : List Char := []
  startedBlank : Bool := false
  inLine : Bool := false
  size : Nat := 0

namespace BlockDraft

/-- The block with the first character of a line added. Folding makes one line end between two
lines that start with words a blank, and drops the first of several. -/
def startLine (folded : Bool) (b : BlockDraft) (c : Char) : BlockDraft :=
  let joint :=
    if folded && !b.startedBlank && !isBlank c && b.ended == ['\n'] then
      if b.more.isEmpty then [' '] else []
    else b.ended
  { chars := c :: (b.more ++ joint ++ b.chars), startedBlank := isBlank c,
    inLine := true, size := b.size + 1 }

/-- The block with a line end added. -/
def lineEnd (b : BlockDraft) (c : Char) (rest : List Char) : BlockDraft :=
  if c == '\r' && rest.head? == some '\n' then { b with size := b.size + 1 }
  else if b.inLine then { b with ended := [breakChar c], inLine := false, size := b.size + 1 }
  else { b with more := breakChar c :: b.more, size := b.size + 1 }

/-- The block with a character of a line added. -/
def add (b : BlockDraft) (c : Char) : BlockDraft :=
  { b with chars := c :: b.chars, size := b.size + 1 }

/-- The text of a block. -/
def text (ending : Chomping) (b : BlockDraft) : String :=
  let tail := match ending with
    | .strip => []
    | .clip => b.ended
    | .keep => b.more ++ b.ended
  String.ofList (tail ++ b.chars).reverse

end BlockDraft

/-- Read on in a block whose lines stand at `depth`. It ends at a line that stands less deep. -/
def blockLines (folded : Bool) (depth : Nat) (b : BlockDraft) (column : Nat) :
    List Char → Option BlockDraft
  | [] => some b
  | c :: rest =>
    if isBreak c then blockLines folded depth (b.lineEnd c rest) 0 rest
    else if b.inLine then blockLines folded depth (b.add c) (column + 1) rest
    else if column < depth then
      if c == ' ' then blockLines folded depth { b with size := b.size + 1 } (column + 1) rest
      else if c == '\t' then none
      else some b
    else blockLines folded depth (b.startLine folded c) (column + 1) rest

/-- A block of text at a place where lines stand at least `least` deep, and the place after it. -/
def block? (least : Nat) (p : Place) : Option (String × Place) := do
  let folded := p.sees '>'
  let (ending, said, p) ← blockHeader? p.next
  let depth ← if said == 0 then (leadWidth? p.column 0 p.rest).map (max (max least 1) ·)
    else some (least - 1 + said)
  let b ← blockLines folded depth {} p.column p.rest
  return (b.text ending, p.after b.size)

end Yaml

end EcmaStack
