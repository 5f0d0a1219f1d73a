import EcmaStack.Document.Json
import EcmaStack.Document.YamlMeaning
import EcmaStack.Text.Quoted

/-!
# YAML scalars

How a text stands in a YAML document. A scalar without quotes is read back as a number, a truth
value or nothing if it looks like one, so such a text is quoted; so is one whose characters
would be read as structure. A text of several lines stands as a block. Lines after the first are
indented by the column of the scalar.
-/

/-!
## Bytes in base 64

Three bytes are four characters of an alphabet of sixty-four. Where one or two bytes are left at
the end, padding fills the last group. Line ends among the characters carry nothing.
-/

namespace EcmaStack

namespace Base64

/-- The character of a number below sixty-four. -/
def digit (n : Nat) : Char :=
  if n < 26 then Char.ofNat ('A'.toNat + n)
  else if n < 52 then Char.ofNat ('a'.toNat + (n - 26))
  else if n < 62 then Char.ofNat ('0'.toNat + (n - 52))
  else if n == 62 then '+'
  else '/'

/-- The number of a character. -/
def value? (c : Char) : Option Nat :=
  if 'A' ≤ c && c ≤ 'Z' then some (c.toNat - 'A'.toNat)
  else if 'a' ≤ c && c ≤ 'z' then some (c.toNat - 'a'.toNat + 26)
  else if '0' ≤ c && c ≤ '9' then some (c.toNat - '0'.toNat + 52)
  else if c == '+' then some 62
  else if c == '/' then some 63
  else none

/-- Bytes as characters, with padding. -/
def encode : List UInt8 → List Char
  | [] => []
  | [a] =>
    let n := a.toNat * 16
    [digit (n / 64), digit (n % 64), '=', '=']
  | [a, b] =>
    let n := (a.toNat * 256 + b.toNat) * 4
    [digit (n / 4096), digit (n / 64 % 64), digit (n % 64), '=']
  | a :: b :: c :: rest =>
    let n := (a.toNat * 256 + b.toNat) * 256 + c.toNat
    digit (n / 262144) :: digit (n / 4096 % 64) :: digit (n / 64 % 64) :: digit (n % 64) ::
      encode rest

/-- The bytes of groups of four characters. -/
def decodeGroups? : List Char → Option (List UInt8)
  | [] => some []
  | [a, b, '=', '='] => do
    let n := (← value? a) * 64 + (← value? b)
    return [(n / 16).toUInt8]
  | [a, b, c, '='] => do
    let n := ((← value? a) * 64 + (← value? b)) * 64 + (← value? c)
    return [(n / 1024).toUInt8, (n / 4).toUInt8]
  | a :: b :: c :: d :: rest => do
    let n := (((← value? a) * 64 + (← value? b)) * 64 + (← value? c)) * 64 + (← value? d)
    return (n / 65536).toUInt8 :: (n / 256).toUInt8 :: n.toUInt8 :: (← decodeGroups? rest)
  | _ => none

/-- The bytes of characters; nothing where they are malformed. -/
def decode? (cs : List Char) : Option (List UInt8) :=
  decodeGroups? (cs.filter fun c => c != '\n' && c != '\r')

end Base64

end EcmaStack

/-! ## Writing scalars -/

namespace EcmaStack

namespace Yaml

/-! ### Characters -/

/-- Whether a character may stand in a document as it is. -/
def isPrintable (c : Char) : Bool :=
  let n := c.toNat
  n == 0x0A || (0x20 ≤ n && n ≤ 0x7E) || (0xA0 ≤ n && n ≤ 0xD7FF) ||
    (0xE000 ≤ n && n ≤ 0xFFFD && n != 0xFEFF)

/-- Whether a character ends a line. -/
def isBreak (c : Char) : Bool :=
  c == '\n' || c == '\r' || c == '\u0085' || c == '\u2028' || c == '\u2029'

/-- Whether a character parts words. -/
def isBlank (c : Char) : Bool :=
  c == ' ' || c == '\t'

/-! ### Which notation a text takes -/

/-- Whether a text starts like structure. -/
def startsLikeStructure (cs : List Char) : Bool :=
  let alone := match cs with
    | [_] => true
    | _ :: c :: _ => isBlank c
    | [] => false
  match cs with
  | '-' :: '-' :: '-' :: _ | '.' :: '.' :: '.' :: _ => true
  | c :: _ =>
    "#,[]&*!|>%@".toList.contains c || c == '\x7b' || c == '\x7d' || c == '\x27' || c == '\x22' ||
      c == '\x60' ||
      ((c == '?' || c == ':' || c == '-') && alone)
  | [] => false

/-- Whether a text holds a mark that is read as structure: a colon before a blank or the end, or
a number sign after a blank or a line end. -/
def holdsStructure : List Char → Bool
  | [] => false
  | ':' :: rest => rest.head?.all isBlank || holdsStructure rest
  | c :: rest =>
    ((isBlank c || isBreak c || c == '\x00') && rest.head? == some '#') || holdsStructure rest

/-- Whether a pair of characters stands next to each other. -/
def holdsPair (first second : Char → Bool) : List Char → Bool
  | a :: b :: rest => (first a && second b) || holdsPair first second (b :: rest)
  | _ => false

/-- The ways a text is written. -/
inductive Style where
  | plain
  | singleQuoted
  | doubleQuoted
  | block
  deriving DecidableEq

/-- Whether a text may stand as a block: nothing in it needs an escape, and no space is lost at
the end of a line. -/
def fitsBlock (cs : List Char) : Bool :=
  cs.all (fun c => c == '\t' || isPrintable c) && !holdsPair (· == ' ') isBreak cs &&
    cs.getLast? != some ' '

/-- Whether a text may stand between single quotes. -/
def fitsSingleQuotes (cs : List Char) : Bool :=
  cs.all isPrintable && !holdsPair (· == ' ') isBreak cs && !holdsPair isBreak (· == ' ') cs

/-- Whether a text may stand without quotes, as far as its characters go. -/
def fitsPlain (cs : List Char) : Bool :=
  fitsSingleQuotes cs && !cs.any isBreak && !startsLikeStructure cs && !holdsStructure cs &&
    cs.head? != some ' ' && cs.getLast? != some ' '

/-- The way a text is written. -/
def Style.of (s : String) : Style :=
  let cs := s.toList
  if cs.contains '\n' then if fitsBlock cs then .block else .doubleQuoted
  else if !isPlainText s then .doubleQuoted
  else if fitsPlain cs then .plain
  else if fitsSingleQuotes cs then .singleQuoted
  else .doubleQuoted

/-! ### Writing -/

/-- A part of a document, and whether it ends where a line starts. -/
structure Fragment where
  text : String
  atLineStart : Bool := false

/-- So many spaces. -/
def indentation (column : Nat) : List Char :=
  List.replicate column ' '

/-- The escape of a character between double quotes. -/
def escape (c : Char) : List Char :=
  let short : Option Char := match c with
    | '\x00' => some '0'
    | '\x07' => some 'a'
    | '\x08' => some 'b'
    | '\t' => some 't'
    | '\n' => some 'n'
    | '\x0b' => some 'v'
    | '\x0c' => some 'f'
    | '\r' => some 'r'
    | '\x1b' => some 'e'
    | '\x22' => some '\x22'
    | '\\' => some '\\'
    | '\u0085' => some 'N'
    | '\u00a0' => some '_'
    | '\u2028' => some 'L'
    | '\u2029' => some 'P'
    | _ => none
  let upper (width : Nat) : List Char := (Text.hexDigits width c.toNat).map Char.toUpper
  match short with
  | some s => ['\\', s]
  | none =>
    if c.toNat ≤ 0xFF then '\\' :: 'x' :: upper 2
    else if c.toNat ≤ 0xFFFF then '\\' :: 'u' :: upper 4
    else '\\' :: 'U' :: upper 8

/-- A text between double quotes. In a text that starts with a byte order mark every character
is escaped. -/
def doubleQuoted (cs : List Char) : List Char :=
  let all := cs.head? == some '\ufeff'
  let char (c : Char) : List Char :=
    if all || !isPrintable c || isBreak c || c == '\x22' || c == '\\' then escape c else [c]
  '\x22' :: cs.flatMap char ++ ['\x22']

/-- The rest of a text between single quotes: a quote is written twice, and what follows a line
end is indented. -/
def singleQuotedFrom (column : Nat) : Bool → List Char → List Char
  | _, [] => []
  | afterBreak, c :: rest =>
    if isBreak c then c :: singleQuotedFrom column true rest
    else (if afterBreak then indentation column else []) ++ (if c == '\x27' then [c, c] else [c]) ++
      singleQuotedFrom column false rest

/-- A text between single quotes. -/
def singleQuoted (column : Nat) (cs : List Char) : List Char :=
  '\x27' :: singleQuotedFrom column false cs ++ ['\x27']

/-- The header of a block of text: whether it starts with blanks, and what becomes of line ends
at its end. -/
def blockHeader (cs : List Char) : List Char :=
  '|' :: (if cs.head?.any fun c => c == ' ' || isBreak c then ['2'] else []) ++
    match cs.reverse with
    | c :: d :: _ => if !isBreak c then ['-'] else if isBreak d then ['+'] else []
    | [c] => if isBreak c then ['+'] else ['-']
    | [] => ['-']

/-- The rest of a block of text. The first character of a line is indented; a line that the text
has not ended yet ends in front of it. -/
def blockFrom (column : Nat) : (afterBreak atLineStart : Bool) → List Char → List Char
  | _, _, [] => []
  | afterBreak, atLineStart, c :: rest =>
    if isBreak c then c :: blockFrom column true true rest
    else (if afterBreak then (if atLineStart then [] else ['\n']) ++ indentation column else []) ++
      c :: blockFrom column false false rest

/-- A text as a scalar whose further lines start at a column. -/
def scalar (column : Nat) (s : String) : Fragment :=
  let cs := s.toList
  match Style.of s with
  | .plain => ⟨s, false⟩
  | .singleQuoted => ⟨String.ofList (singleQuoted column cs), false⟩
  | .doubleQuoted => ⟨String.ofList (doubleQuoted cs), false⟩
  | .block =>
    ⟨String.ofList (blockHeader cs ++ blockFrom column true false cs), cs.getLast?.any isBreak⟩

/-- A text in lines of so many characters, each ended; one that is shorter stays as it is. -/
def inLines (width : Nat) (cs : List Char) : List Char :=
  if cs.length < width then cs else (List.range ((cs.length + width - 1) / width)).flatMap fun i =>
    (cs.drop (i * width)).take width ++ ['\n']

/-- A text that is not well formed as a scalar: its bytes, with a tag that says so. -/
def binaryScalar (column : Nat) (bytes : List UInt8) : Fragment :=
  let f := scalar column (String.ofList (inLines 70 (Base64.encode bytes)))
  { f with text := "!!binary " ++ f.text }

end Yaml

end EcmaStack

/-!
## YAML documents

A value as a YAML document in block style: the fields of a record in order of their names, the
items of a list each after a dash, two spaces for each level. Empty lists and records stand on
the line of their key.
-/

namespace EcmaStack

namespace Yaml

/-- Fragments below each other, all starting at a column. -/
def below (column : Nat) : List Fragment → Fragment
  | [] => ⟨"", false⟩
  | [f] => f
  | f :: rest =>
    let r := below column rest
    let gap := String.ofList ((if f.atLineStart then [] else ['\n']) ++ indentation column)
    ⟨f.text ++ gap ++ r.text, r.atLineStart⟩

/-- How a value stands after its key or its dash: on the same line, or as lines of its own. -/
inductive Form where
  | inline (f : Fragment)
  | nested (f : Fragment)

/-- A value on the line of its key. -/
def Form.word (s : String) : Form :=
  .inline ⟨s, false⟩

/-- A field: its key and its value, whose own lines start at a column. -/
def field (column : Nat) (key : String) : Form → Fragment
  | .inline f => { f with text := key ++ ": " ++ f.text }
  | .nested f => { f with text := key ++ ":\n" ++ String.ofList (indentation column) ++ f.text }

/-- An item of a list. -/
def item : Form → Fragment
  | .inline f | .nested f => { f with text := "- " ++ f.text }

end Yaml

mutual

/-- How a value stands whose own lines start at a column. -/
def Datum.yaml (column : Nat) : Datum → Yaml.Form
  | .null => .word "null"
  | .bool b => .word (if b then "true" else "false")
  | .int i => .word (toString i)
  | .number x => .word (NumberLayout.yaml.write x)
  | .text s => .inline (Yaml.scalar column s)
  | .illFormed t => .inline (Yaml.binaryScalar column t.encode)
  | .list items =>
    if items.isEmpty then .word "[]" else .nested (Yaml.below column (Datum.yamlItems column items))
  | .record fields =>
    if fields.isEmpty then .word "\x7b\x7d"
    else .nested (Yaml.below column ((sortedFields (Datum.yamlFields column fields)).map (·.2)))

/-- The items of a list at a column. -/
def Datum.yamlItems (column : Nat) : List Datum → List Yaml.Fragment
  | [] => []
  | d :: rest => Yaml.item (d.yaml (column + 2)) :: Datum.yamlItems column rest

/-- Fields at a column, under their names. -/
def Datum.yamlFields (column : Nat) : List (String × Datum) → List (String × Yaml.Fragment)
  | [] => []
  | (key, d) :: rest =>
    (key, Yaml.field (column + 2) key (d.yaml (column + 2))) :: Datum.yamlFields column rest

end

/-- A YAML document. -/
def Datum.toYaml (d : Datum) : String :=
  match d.yaml 0 with
  | .inline f | .nested f => if f.atLineStart then f.text else f.text ++ "\n"

end EcmaStack
