import EcmaStack.Text.CharClass
import EcmaStack.Text.Piece
import EcmaStack.Token.Kind

/-!
# Tokens and the cursor

A **cursor** is a place in a source: the text that is left and the byte offset reached. A
**token** is a kind with a byte range and what was decoded on the way. Malformed input makes a
token too, of kind `fault`, that names its cause and covers the range the cause refers to.

Each reader takes a cursor and answers `none` where its token does not start; otherwise it
answers the token and the cursor after what was read.
-/

namespace EcmaStack

open Text

/-- What can be wrong inside a token. -/
inductive LexicalFault where
  | invalidCharacter (c : Char)
  | unterminatedString
  | unterminatedTemplate
  | unterminatedComment
  | unterminatedRegExp
  | invalidEscape
  | octalEscape
  | invalidNumberEnd
  | invalidNumber
  | invalidDigit (c : Char) (base : Nat)
  | misplacedSeparator
  | legacyOctal
  | invalidUnicodeEscape
  | unknownFlag (c : Char)
  | repeatedFlag (c : Char)
  deriving DecidableEq

/-- The wording of a lexical fault. -/
def LexicalFault.message : LexicalFault → String
  | .invalidCharacter c => "Invalid or unexpected token `" ++ c.toString ++ "`"
  | .unterminatedString => "Unterminated string"
  | .unterminatedTemplate => "Unterminated template literal"
  | .unterminatedComment => "Unterminated multiline comment"
  | .unterminatedRegExp => "Unterminated regular expression"
  | .invalidEscape => "Invalid escape sequence"
  | .octalEscape => "Octal escape sequences are not allowed"
  | .invalidNumberEnd => "Invalid characters after number"
  | .invalidNumber => "Invalid number"
  | .invalidDigit c base =>
    "Invalid digit `" ++ c.toString ++ "` in base " ++ toString base ++ " literal"
  | .misplacedSeparator => "Numeric separators are not allowed here"
  | .legacyOctal => "Legacy octal literals are not allowed"
  | .invalidUnicodeEscape => "Invalid Unicode escape sequence"
  | .unknownFlag c => "Invalid regular expression flag `" ++ c.toString ++ "`"
  | .repeatedFlag c => "Duplicate regular expression flag `" ++ c.toString ++ "`"

/-- A token. `value` is the decoded name (without `#`), string, template text or pattern; `raw`
is the template text as written, or the flags of a regular expression. -/
structure Token where
  kind : Kind
  start : Nat
  stop : Nat
  newline : Bool := false
  escaped : Bool := false
  value : Text := []
  raw : Text := []
  fault : Option LexicalFault := none

namespace Token

/-- The token before any has been read. -/
def blank : Token :=
  { kind := .unknown, start := 0, stop := 0 }

/-- The decoded value as a string. -/
def name (t : Token) : String :=
  t.value.toString

/-- A token of kind `fault`. -/
def ofFault (cause : LexicalFault) (start stop : Nat) : Token :=
  { kind := .fault, start, stop, fault := some cause }

end Token

/-- A place in a source: what is left to read, and how many bytes were read. -/
structure Cursor where
  rest : Text
  offset : Nat

/-- What a reader answers. -/
abbrev Reading := Option (Token × Cursor)

/-- Reading stopped inside a token: why, which range is to blame, and where reading can go on. -/
structure Rejection where
  cause : LexicalFault
  start : Nat
  stop : Nat
  cursor : Cursor

/-- The token of a rejection, with the cursor to go on from. -/
def Rejection.token (r : Rejection) : Token × Cursor :=
  (.ofFault r.cause r.start r.stop, r.cursor)

namespace Cursor

/-- The start of a source. -/
def ofText (source : Text) : Cursor :=
  ⟨source, 0⟩

/-- The place at a byte offset of a source. -/
def seek (source : Text) (offset : Nat) : Cursor :=
  ⟨dropBytes offset source, offset⟩

/-- The next character, without reading it. -/
def peek? (c : Cursor) : Option Char :=
  c.rest.head?.map Piece.scalar

/-- Read one piece. -/
def next? (c : Cursor) : Option (Piece × Cursor) :=
  match c.rest with
  | [] => none
  | p :: rest => some (p, ⟨rest, c.offset + p.width⟩)

/-- Whether the text that is left starts with the given characters. -/
def startsWith (c : Cursor) (cs : List Char) : Bool :=
  (cs.map Piece.char).isPrefixOf c.rest

/-- Skip pieces while their characters pass a test. -/
def skipWhileFrom (test : Char → Bool) : Text → Nat → Cursor
  | [], offset => ⟨[], offset⟩
  | p :: rest, offset =>
    if test p.scalar then skipWhileFrom test rest (offset + p.width) else ⟨p :: rest, offset⟩

/-- Skip pieces while their characters pass a test. -/
def skipWhile (c : Cursor) (test : Char → Bool) : Cursor :=
  skipWhileFrom test c.rest c.offset

/-- Whether the next character passes a test. -/
def at? (c : Cursor) (test : Char → Bool) : Bool :=
  match c.peek? with
  | some x => test x
  | none => false

/-- Whether an identifier character or an escape comes next. -/
def identifierFollows (c : Cursor) : Bool :=
  c.at? fun x => isIdentifierPart x || x == '\\'

/-- Read one character if it is the given one. -/
def take? (c : Cursor) (x : Char) : Option Cursor :=
  match c.rest with
  | .char y :: rest => if y == x then some ⟨rest, c.offset + y.utf8Size⟩ else none
  | _ => none

/-- The pieces read between two cursors, the second reached from the first. -/
def between (before after : Cursor) : Text :=
  before.rest.take (before.rest.length - after.rest.length)

theorem skipWhileFrom_length (test : Char → Bool) (text : Text) (offset : Nat) :
    (skipWhileFrom test text offset).rest.length ≤ text.length := by
  induction text generalizing offset with
  | nil => simp [skipWhileFrom]
  | cons p rest ih =>
    simp only [skipWhileFrom]
    split
    · exact Nat.le_trans (ih _) (Nat.le_succ _)
    · exact Nat.le_refl _

theorem take?_length {c d : Cursor} {x : Char} (h : c.take? x = some d) :
    d.rest.length < c.rest.length := by
  unfold take? at h
  split at h
  · next y rest hr =>
    split at h
    · simp only [Option.some.injEq] at h
      subst h
      simp [hr]
    · simp at h
  · simp at h

end Cursor

end EcmaStack
