import EcmaStack.Document.TomlText
import EcmaStack.Document.Yaml
import EcmaStack.Text.Encoding

/-!
# Places in YAML documents

A document arrives as bytes; a byte order mark at its head tells their encoding. All of it must
be well formed, and of the control characters only tabs and line ends may stand in it. A place
in a document knows its line and column, for it is by them that blocks are told.
-/

namespace EcmaStack

namespace Yaml

/-! ## Characters -/

/-- Whether a character may stand in a document. -/
def isAllowed (c : Char) : Bool :=
  let n := c.toNat
  n == 0x09 || n == 0x0A || n == 0x0D || (0x20 ≤ n && n ≤ 0x7E) || n == 0x85 ||
    (0xA0 ≤ n && n ≤ 0xFFFD) ||
    0x10000 ≤ n

/-- The characters of 16-bit units; nothing where a surrogate has no partner. -/
def ofUnits? : List Nat → Option (List Char)
  | [] => some []
  | [u] => if Text.isSurrogate u then none else some [Char.ofNat u]
  | u :: v :: rest =>
    if Text.isSurrogate u then
      if !Text.isLowSurrogate u && Text.isLowSurrogate v then
        (ofUnits? rest).map (Text.joinSurrogates u v :: ·)
      else none
    else (ofUnits? (v :: rest)).map (Char.ofNat u :: ·)

/-- The characters of UTF-16, `join` telling the order of bytes. -/
def ofUtf16? (join : UInt8 → UInt8 → Nat) (bytes : List UInt8) : Option (List Char) :=
  match Text.units join bytes with
  | (_, true) => none
  | (units, false) => ofUnits? units

/-- The characters of the bytes of a document, without its byte order mark. -/
def decoded? : List UInt8 → Option (List Char)
  | 0xFF :: 0xFE :: rest => ofUtf16? (fun a b => a.toNat + 256 * b.toNat) rest
  | 0xFE :: 0xFF :: rest => ofUtf16? (fun a b => 256 * a.toNat + b.toNat) rest
  | 0xEF :: 0xBB :: 0xBF :: rest => (Text.decode rest).toString?.map String.toList
  | bytes => (Text.decode bytes).toString?.map String.toList

/-- The characters of a document, if all of them may stand in one. -/
def characters? (bytes : List UInt8) : Option (List Char) := do
  let cs ← decoded? bytes
  if cs.all isAllowed then some cs else none

/-- Whether a blank, a line end or the end of the document comes next. -/
def endsWord (cs : List Char) : Bool :=
  cs.head?.all fun c => isBlank c || isBreak c

/-- Whether a character may stand in the name of an anchor or a directive. -/
def isNameChar (c : Char) : Bool :=
  c.isAlphanum || c == '_' || c == '-'

/-- Whether a character is structure inside brackets. -/
def isFlowMark (c : Char) : Bool :=
  c == ',' || c == '[' || c == ']' || c == '\x7b' || c == '\x7d'

/-- Whether characters at a column are a line that marks the border of a document. -/
def isBorder (column : Nat) : List Char → Bool
  | '-' :: '-' :: '-' :: rest => column == 0 && endsWord rest
  | '.' :: '.' :: '.' :: rest => column == 0 && endsWord rest
  | _ => false

/-- How many characters the line end at the head takes. -/
def breakWidth : List Char → Nat
  | '\r' :: '\n' :: _ => 2
  | c :: _ => if isBreak c then 1 else 0
  | [] => 0

/-- What a line end is in a text: all ends but those of Unicode are one. -/
def breakChar (c : Char) : Char :=
  if c == '\r' || c == '\u0085' then '\n' else c

/-! ## Places -/

/-- A place in a document: the characters from it on, how many stand before it, its line and
column, and how many lines have ended since the last character that is no blank. -/
structure Place where
  rest : List Char
  index : Nat := 0
  line : Nat := 0
  column : Nat := 0
  linesEnded : Nat := 0

namespace Place

/-- The place after the next character of a line. -/
def next (p : Place) : Place :=
  match p.rest with
  | [] => p
  | c :: rest =>
    { p with
      rest, index := p.index + 1, column := p.column + 1
      linesEnded := if isBlank c then p.linesEnded else 0 }

/-- The place after a line end. -/
def nextLine (p : Place) : Place :=
  let width := breakWidth p.rest
  if width == 0 then p
  else ⟨p.rest.drop width, p.index + width, p.line + 1, 0, p.linesEnded + 1⟩

/-- The place after so many characters. The two characters of a line end of two are passed
together. -/
def after : Nat → Place → Place
  | 0, p => p
  | n + 1, p =>
    match p.rest with
    | '\r' :: '\n' :: rest => after n { p with rest := '\n' :: rest, index := p.index + 1 }
    | _ => after n (if breakWidth p.rest == 0 then p.next else p.nextLine)

/-- The place after the characters that pass a test. -/
def afterAll (p : Place) (f : Char → Bool) : Place :=
  p.after (p.rest.takeWhile f).length

/-- Whether a character comes next. -/
def sees (p : Place) (c : Char) : Bool :=
  p.rest.head? == some c

/-- Whether a line ends here. -/
def seesBreak (p : Place) : Bool :=
  p.rest.head?.any isBreak

/-- Whether a line or the document ends here. -/
def seesLineEnd (p : Place) : Bool :=
  p.rest.head?.all isBreak

/-- The end of the line. -/
def lineEnd (p : Place) : Place :=
  p.afterAll (!isBreak ·)

/-- How far ahead a comment may start after what it belongs to. -/
def commentReach : Nat := 512

/-- The place after a comment and the comments on the lines below it. -/
def afterComments : Nat → Place → Place
  | 0, p => p
  | fuel + 1, p =>
    let p := p.lineEnd
    match p.rest with
    | c :: rest =>
      let gap := (rest.take (commentReach - 1)).takeWhile fun c =>
        isBlank c || c == '\n' || c == '\r'
      let commentFollows :=
        gap.length < commentReach - 1 && (rest.drop gap.length).head? == some '#'
      if (c == '\n' || c == '\r') && commentFollows then
        afterComments fuel (p.after (1 + gap.length))
      else p
    | [] => p

/-- The place after a comment at the end of a line that has something else on it. -/
def afterLineComment (p : Place) : Place :=
  let gap := (p.rest.take commentReach).takeWhile isBlank
  let commentFollows := gap.length < commentReach && (p.rest.drop gap.length).head? == some '#'
  if p.linesEnded == 0 && commentFollows then p.lineEnd else p

/-- The end of a line on which only blanks and a comment may follow, and the start of the next
line. -/
def afterHeader? (p : Place) : Option Place :=
  let p := p.afterAll isBlank
  let p := if p.sees '#' then p.lineEnd else p
  if p.seesLineEnd then some p.nextLine else none

end Place

end Yaml

end EcmaStack

/-!
## Names, tags and directives

The name of an anchor; the tag of a node, which is a handle and a suffix or stands between angle
brackets; and the directives at the head of a document, which give its version and the meaning
of handles. Characters of a tag may be escaped by a percent sign and the two digits of a byte.
-/

namespace EcmaStack

namespace Yaml

/-- The name of an anchor or an alias after its mark. -/
def anchorName? (p : Place) : Option (String × Place) :=
  let name := p.rest.takeWhile isNameChar
  let p := p.after name.length
  let ends := endsWord p.rest || p.rest.head?.any fun c =>
    "?:,]%@".toList.contains c || c == '\x7d' || c == '\x60'
  if !name.isEmpty && ends then some (String.ofList name, p) else none

/-! ## Tags -/

/-- Whether a character may stand in a tag. -/
def isTagChar (c : Char) : Bool :=
  isNameChar c || ";/?:@&=+$,.!~*()[]%".toList.contains c || c == '\x27'

/-- The byte of an escape at the head. -/
def escapedByte? : List Char → Option Nat
  | '%' :: rest => Toml.hexValue? 2 rest
  | _ => none

/-- How many bytes a character takes whose first byte is given. -/
def charWidth? (byte : Nat) : Option Nat :=
  if byte < 0x80 then some 1
  else if byte < 0xC0 then none
  else if byte < 0xE0 then some 2
  else if byte < 0xF0 then some 3
  else if byte < 0xF8 then some 4
  else none

/-- Whether a byte may follow the first of a character. -/
def mayFollow (byte : Nat) : Bool :=
  0x80 ≤ byte && byte < 0xC0

/-- The characters of a tag at the head, a byte each, and how many characters of the document
they take. `pending` bytes of an escaped character are still to come, and of an escape the next
`taken` characters have been read. -/
def tagFrom? (pending : Nat) : Nat → List Char → Option (List Char × Nat)
  | _, [] => if pending == 0 then some ([], 0) else none
  | taken + 1, _ :: rest => (tagFrom? pending taken rest).map fun (cs, size) => (cs, size + 1)
  | 0, c :: rest =>
    if c == '%' then
      match escapedByte? (c :: rest) with
      | none => none
      | some byte =>
        let left? :=
          if pending == 0 then (charWidth? byte).map (· - 1)
          else if mayFollow byte then some (pending - 1) else none
        match left? with
        | none => none
        | some left =>
          (tagFrom? left 2 rest).map fun (cs, size) => (Char.ofNat byte :: cs, size + 1)
    else if pending != 0 then none
    else if isTagChar c then (tagFrom? 0 0 rest).map fun (cs, size) => (c :: cs, size + 1)
    else some ([], 0)

/-- The characters of a tag at a place. -/
def tagChars? (p : Place) : Option (List Char × Place) := do
  let (cs, size) ← tagFrom? 0 0 p.rest
  return (cs, p.after size)

/-- A handle at a place: an exclamation mark, a name, and a second mark if one follows. -/
def handle? (p : Place) : Option (List Char × Place) :=
  if !p.sees '!' then none
  else
    let name := p.next.rest.takeWhile isNameChar
    let p := p.next.after name.length
    some (if p.sees '!' then ('!' :: name ++ ['!'], p.next) else ('!' :: name, p))

/-- Whether a handle ends in a second mark. -/
def isClosedHandle (handle : List Char) : Bool :=
  1 < handle.length && handle.getLast? == some '!'

/-- A tag as it is written: a handle, empty where the suffix is all of the tag, and a suffix. -/
structure WrittenTag where
  handle : String
  suffix : String

/-- A tag at a place. -/
def tag? (p : Place) : Option (WrittenTag × Place) := do
  let (tag, p) ←
    match p.rest with
    | '!' :: '<' :: _ => do
      let (suffix, p) ← tagChars? (p.after 2)
      if suffix.isEmpty || !p.sees '>' then none else some (WrittenTag.mk "" (String.ofList suffix),
        p.next)
    | _ => do
      let (handle, p) ← handle? p
      let (suffix, p) ← tagChars? p
      if isClosedHandle handle then
        if suffix.isEmpty then none
        else some (WrittenTag.mk (String.ofList handle) (String.ofList suffix), p)
      else
        let suffix := handle.drop 1 ++ suffix
        some (if suffix.isEmpty then .mk "" "!" else .mk "!" (String.ofList suffix), p)
  if endsWord p.rest then some (tag, p) else none

/-! ## Directives -/

/-- A directive: whether its version of YAML is one that can be read, or what a handle stands
for. -/
inductive Directive where
  | version (known : Bool)
  | tag (handle meaning : String)

/-- One of the two numbers of a version. -/
def versionNumber? (p : Place) : Option (Nat × Place) :=
  let digits := p.rest.takeWhile Char.isDigit
  if digits.isEmpty || 2 < digits.length then none
  else some (Moment.digitsValue digits, p.after digits.length)

/-- What a directive for the version says. -/
def versionDirective? (p : Place) : Option (Directive × Place) := do
  let (major, p) ← versionNumber? (p.afterAll isBlank)
  if !p.sees '.' then none
  else
    let (minor, p) ← versionNumber? p.next
    return (.version (major == 1 && minor == 1), p)

/-- What a directive for a handle says. -/
def tagDirective? (p : Place) : Option (Directive × Place) := do
  let (handle, p) ← handle? (p.afterAll isBlank)
  if !(isClosedHandle handle || handle.length == 1) || !p.rest.head?.any isBlank then none
  else
    let (meaning, p) ← tagChars? (p.afterAll isBlank)
    if meaning.isEmpty || !endsWord p.rest then none
    else some (.tag (String.ofList handle) (String.ofList meaning), p)

/-- A directive at a place, and the place after its line. -/
def directive? (p : Place) : Option (Directive × Place) := do
  let name := p.next.rest.takeWhile isNameChar
  let p := p.next.after name.length
  if !endsWord p.rest then none
  else
    let (said, p) ←
      if name == "YAML".toList then versionDirective? p
      else if name == "TAG".toList then tagDirective? p else none
    return (said, ← p.afterHeader?)

end Yaml

end EcmaStack
