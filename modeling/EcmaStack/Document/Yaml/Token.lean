import EcmaStack.Document.Yaml.Place
import EcmaStack.Document.Yaml.Text

/-!
# Tokens of YAML documents

A document is a row of tokens: scalars, the marks of structure, and tokens for the start and end
of blocks, which no character stands for. A block starts where a mark or a key stands deeper
than what holds it, and ends at a line that stands less deep.

That something is a key shows only at the colon after it, on the same line and not far away. So
whatever may turn out to be a key is kept in mind, one candidate for each bracket that is open,
until it is one or cannot be one any more.
-/

namespace EcmaStack

namespace Yaml

/-- A token. -/
inductive Token where
  | directive (said : Directive)
  | documentStart
  | documentEnd
  | streamEnd
  | blockSequence
  | blockMapping
  | blockEnd
  | flowSequence
  | flowSequenceEnd
  | flowMapping
  | flowMappingEnd
  | blockEntry
  | flowEntry
  | key
  | value
  | alias (name : String)
  | anchor (name : String)
  | tag (written : WrittenTag)
  | scalar (plain : Bool) (text : String)

/-- Something that may turn out to be a key: how many tokens stand before it, where it starts,
and whether nothing else may stand there. -/
structure Candidate where
  number : Nat
  index : Nat
  line : Nat
  column : Nat
  required : Bool

/-- How far behind a key its colon may stand. -/
def keyReach : Nat := 1024

/-- How deep brackets and blocks may be nested. -/
def nestingLimit : Nat := 10000

/-- A document as far as it has been cut into tokens: the place reached, the tokens so far, the
last first, the candidates for keys, those of inner brackets first, whether a key may start
here, and the columns of open blocks, inner ones first. -/
structure Cutter where
  size : Nat
  place : Place
  tokens : List Token := []
  count : Nat := 0
  candidates : List (Option Candidate) := [none]
  keyMayStart : Bool := true
  columns : List Nat := []

namespace Cutter

/-- Whether brackets are open. -/
def inFlow (s : Cutter) : Bool :=
  1 < s.candidates.length

/-- The least column of what belongs to the innermost block. -/
def least (s : Cutter) : Nat :=
  match s.columns with
  | [] => 0
  | column :: _ => column + 1

/-- Add a token. -/
def push (s : Cutter) (t : Token) : Cutter :=
  { s with tokens := t :: s.tokens, count := s.count + 1 }

/-- Put a token after the first so many. -/
def insert (s : Cutter) (number : Nat) (t : Token) : Cutter :=
  { s with tokens := s.tokens.insertIdx (s.count - number) t, count := s.count + 1 }

/-! ## Blocks -/

/-- Open a block at a column, if it stands deep enough to be a new one; its token is put after
the first so many. -/
def openBlock? (s : Cutter) (column number : Nat) (t : Token) : Option Cutter :=
  if s.inFlow || column < s.least then some s
  else if nestingLimit ≤ s.columns.length then none
  else some { s.insert number t with columns := column :: s.columns }

/-- Close blocks that stand deeper than what starts at a column. -/
def closeFrom (column : Nat) (s : Cutter) : List Nat → Cutter
  | [] => { s with columns := [] }
  | c :: rest =>
    if column < c then closeFrom column (s.push .blockEnd) rest else { s with columns := c :: rest }

/-- Close blocks for a token at the place reached. Inside brackets blocks stay open. -/
def closeBlocks (s : Cutter) : Cutter :=
  if s.inFlow then s else closeFrom s.place.column s s.columns

/-- Close all blocks. -/
def closeAll (s : Cutter) : Cutter :=
  if s.inFlow then s
  else { s with
    tokens := List.replicate s.columns.length .blockEnd ++ s.tokens
    count := s.count + s.columns.length
    columns := [] }

/-! ## Candidates for keys -/

/-- Whether a candidate may still be a key. -/
def isLive (s : Cutter) (k : Candidate) : Bool :=
  k.line == s.place.line && s.place.index ≤ k.index + keyReach

/-- Give up the candidate of the innermost bracket; one that is required must not be given up. -/
def dropCandidate? (s : Cutter) : Option Cutter :=
  match s.candidates with
  | some k :: outer => if k.required then none else some { s with candidates := none :: outer }
  | _ => some s

/-- Keep in mind that a key may start here. -/
def noteCandidate? (s : Cutter) : Option Cutter :=
  if !s.keyMayStart then some s
  else do
    let s ← s.dropCandidate?
    let p := s.place
    let k : Candidate :=
      ⟨s.count, p.index, p.line, p.column, !s.inFlow && s.columns.head? == some p.column⟩
    return { s with candidates := some k :: s.candidates.drop 1 }

/-! ## Marks -/

/-- Pass a mark of so many characters. -/
def take (s : Cutter) (width : Nat) (t : Token) (keyMayStart : Bool) : Cutter :=
  { s.push t with place := s.place.after width, keyMayStart }

/-- A mark that opens brackets. -/
def openBrackets? (s : Cutter) (t : Token) : Option Cutter := do
  let s ← s.noteCandidate?
  if nestingLimit < s.candidates.length then none
  else some (take { s with candidates := none :: s.candidates } 1 t true)

/-- A mark that closes brackets. -/
def closeBrackets? (s : Cutter) (t : Token) : Option Cutter := do
  let s ← s.dropCandidate?
  let s := if s.inFlow then { s with candidates := s.candidates.drop 1 } else s
  return s.take 1 t false

/-- A mark after which a new entry starts, in a block of its own kind. -/
def entry? (s : Cutter) (block mark : Token) (keyMayStart : Bool) : Option Cutter := do
  let s ← if s.inFlow then some s
    else if s.keyMayStart then s.openBlock? s.place.column s.count block
    else none
  return (← s.dropCandidate?).take 1 mark keyMayStart

/-- A colon that no key on the same line stands before. -/
def valueAlone? (s : Cutter) : Option Cutter := do
  let s ← if s.inFlow then some s
    else if s.keyMayStart then s.openBlock? s.place.column s.count .blockMapping
    else none
  return s.take 1 .value !s.inFlow

/-- A colon. -/
def value? (s : Cutter) : Option Cutter :=
  match s.candidates with
  | some k :: outer =>
    if s.isLive k then do
      let s ← (s.insert k.number .key).openBlock? k.column k.number .blockMapping
      return take { s with candidates := none :: outer } 1 .value false
    else if k.required then none
    else valueAlone? { s with candidates := none :: outer }
  | _ => s.valueAlone?

/-- A border of the document. -/
def border? (s : Cutter) (t : Token) : Option Cutter := do
  return (← s.closeAll.dropCandidate?).take 3 t false

/-- A directive. -/
def directive? (s : Cutter) : Option Cutter := do
  let s ← s.closeAll.dropCandidate?
  let (said, place) ← Yaml.directive? s.place
  return { s.push (.directive said) with place, keyMayStart := false }

/-- The end of the document. It ends its line. -/
def finish? (s : Cutter) : Option Cutter := do
  let p := s.place
  let p := if p.column == 0 then p else { p with column := 0, line := p.line + 1 }
  let s ← (closeAll { s with place := p }).dropCandidate?
  return { s.push .streamEnd with keyMayStart := false }

/-! ## Nodes -/

/-- An anchor or an alias. -/
def anchor? (s : Cutter) (t : String → Token) : Option Cutter := do
  let s ← s.noteCandidate?
  let (name, place) ← anchorName? s.place.next
  return { s.push (t name) with place, keyMayStart := false }

/-- A tag. -/
def tag? (s : Cutter) : Option Cutter := do
  let s ← s.noteCandidate?
  let (tag, place) ← Yaml.tag? s.place
  return { s.push (.tag tag) with place, keyMayStart := false }

/-- A block of text. -/
def block? (s : Cutter) : Option Cutter := do
  let s ← s.dropCandidate?
  let (text, place) ← Yaml.block? s.least s.place
  return { s.push (.scalar false text) with place, keyMayStart := true }

/-- A text between quotes. -/
def quoted? (s : Cutter) : Option Cutter := do
  let s ← s.noteCandidate?
  let (text, place) ← Yaml.quoted? s.place
  return { s.push (.scalar false text) with place, keyMayStart := false }

/-- A plain text. A key may start after it if its line has ended. -/
def plain? (s : Cutter) : Option Cutter := do
  let s ← s.noteCandidate?
  let (text, lineEnded, place) ← Yaml.plain? s.inFlow s.least s.place
  return { s.push (.scalar true text) with place, keyMayStart := lineEnded }

/-- Whether a plain text may start with characters. -/
def startsPlain (flow : Bool) : List Char → Bool
  | [] => false
  | c :: rest =>
    if c == '-' then !rest.head?.any isBlank
    else if c == '?' || c == ':' then !flow && !endsWord rest
    else !(isBlank c || isFlowMark c || "#&*!|>%@".toList.contains c || c == '\x27' ||
      c == '\x22' || c == '\x60')

/-! ## Cutting -/

/-- Pass blanks, comments and line ends. Outside brackets a tab may not stand where a key may
start. -/
def passGap (flow : Bool) : Nat → Bool → Place → Bool × Place
  | 0, keyMayStart, p => (keyMayStart, p)
  | fuel + 1, keyMayStart, p =>
    let p := if p.index == 0 && p.sees '\ufeff' then p.next else p
    let p := p.afterAll fun c => c == ' ' || (c == '\t' && (flow || !keyMayStart))
    let p := if p.sees '#' then p.afterComments (fuel + 1) else p
    if p.seesBreak then passGap flow fuel (keyMayStart || !flow) p.nextLine else (keyMayStart, p)

/-- The token that starts with a character that is neither a directive nor a border. -/
def content? (s : Cutter) (c : Char) (rest : List Char) : Option Cutter :=
  match c with
  | '[' => s.openBrackets? .flowSequence
  | '\x7b' => s.openBrackets? .flowMapping
  | ']' => s.closeBrackets? .flowSequenceEnd
  | '\x7d' => s.closeBrackets? .flowMappingEnd
  | ',' => do return (← s.dropCandidate?).take 1 .flowEntry true
  | '*' => s.anchor? .alias
  | '&' => s.anchor? .anchor
  | '!' => s.tag?
  | '\x27' | '\x22' => s.quoted?
  | c =>
    if c == '-' && endsWord rest then s.entry? .blockSequence .blockEntry true
    else if c == '?' && (s.inFlow || endsWord rest) then s.entry? .blockMapping .key !s.inFlow
    else if c == ':' && (s.inFlow || endsWord rest) then s.value?
    else if (c == '|' || c == '>') && !s.inFlow then s.block?
    else if startsPlain s.inFlow (c :: rest) then s.plain?
    else none

/-- The document with one more token cut off. A comment may follow on the line, but not after a
dash alone. -/
def next? (s : Cutter) : Option Cutter :=
  let (keyMayStart, place) := passGap s.inFlow s.size s.keyMayStart s.place
  let s := closeBlocks { s with place, keyMayStart }
  match place.rest with
  | [] => s.finish?
  | c :: rest =>
    if place.column == 0 && c == '%' then s.directive?
    else if isBorder place.column (c :: rest) then
      s.border? (if c == '-' then .documentStart else .documentEnd)
    else do
      let s ← s.content? c rest
      match s.tokens with
      | .blockEntry :: _ => return s
      | _ => return { s with place := s.place.afterLineComment }

/-- Cut tokens off until the document ends or is malformed; which of the two is told. -/
def run : Nat → Cutter → Bool × Cutter
  | 0, s => (false, s)
  | fuel + 1, s =>
    match s.next? with
    | none => (false, s)
    | some s' =>
      match s'.tokens with
      | .streamEnd :: _ => (true, s')
      | _ => run fuel s'

/-- How many tokens can be told for sure: a candidate for a key that is still open hides what
follows it. -/
def settled (s : Cutter) : Nat :=
  let opens (k : Candidate) : Bool := k.required || s.isLive k
  ((s.candidates.filterMap id).filter opens).foldl (fun n k => min n k.number) s.count

end Cutter

/-- The tokens of a document that can be told, and whether they are all. Where a document is
malformed, the two tokens before the fault cannot be told. -/
structure Tokens where
  list : List Token
  complete : Bool

/-- The tokens of a document. -/
def Tokens.ofCharacters (cs : List Char) : Tokens :=
  let size := cs.length + 1
  let (ended, s) := Cutter.run (size + 1) { size, place := { rest := cs } }
  let known := if ended then s.settled else min s.settled (s.count - 2)
  ⟨s.tokens.reverse.take known, ended && known == s.count⟩

end Yaml

end EcmaStack
