/-!
# Text as pieces

Source text arrives as bytes. Read as UTF-8 it is a list of **pieces**: well-formed characters,
and stray bytes that start none. Every byte belongs to exactly one piece, so a piece's `width`
is what it adds to a byte offset, and `encode` gives the bytes back.

A stray byte is seen by a character test as U+FFFD (`Piece.scalar`) and keeps its own byte in the
text. Text made from a `String` holds no stray byte.
-/

namespace EcmaStack

/-- One piece of text read as UTF-8: a character, or a byte that starts no well-formed character. -/
inductive Piece where
  | char (c : Char)
  | stray (b : UInt8)
  deriving DecidableEq, Inhabited

/-- Text, piece by piece. -/
abbrev Text := List Piece

/-- The character that stands for what cannot be read. -/
def replacement : Char := '\ufffd'

namespace Piece

/-- The character a test sees: a stray byte is seen as U+FFFD. -/
def scalar : Piece → Char
  | char c => c
  | stray _ => replacement

/-- How many bytes the piece takes. -/
def width : Piece → Nat
  | char c => c.utf8Size
  | stray _ => 1

/-- The bytes of the piece. -/
def bytes : Piece → List UInt8
  | char c => String.utf8EncodeChar c
  | stray b => [b]

/-- Every piece takes at least one byte, so reading one moves an offset forward. -/
theorem width_pos (p : Piece) : 0 < p.width := by
  cases p with
  | char c => exact Char.utf8Size_pos c
  | stray _ => exact Nat.one_pos

end Piece

/-- Whether a byte continues a character. -/
def isContinuation (b : UInt8) : Bool :=
  0x80 ≤ b && b ≤ 0xBF

/-- The low six bits of a continuation byte. -/
def payload (b : UInt8) : Nat :=
  b.toNat % 64

/-- The least and the greatest second byte after a lead byte, and how many bytes follow the lead.
Overlong forms, surrogates and code points above U+10FFFF are excluded by the second byte. -/
def leadRange (b : UInt8) : Option (UInt8 × UInt8 × Nat) :=
  if 0xC2 ≤ b && b ≤ 0xDF then some (0x80, 0xBF, 1)
  else if b == 0xE0 then some (0xA0, 0xBF, 2)
  else if b == 0xED then some (0x80, 0x9F, 2)
  else if 0xE1 ≤ b && b ≤ 0xEF then some (0x80, 0xBF, 2)
  else if b == 0xF0 then some (0x90, 0xBF, 3)
  else if 0xF1 ≤ b && b ≤ 0xF3 then some (0x80, 0xBF, 3)
  else if b == 0xF4 then some (0x80, 0x8F, 3)
  else none

/-- The well-formed character at the head of the bytes. -/
def headChar? : List UInt8 → Option Char
  | [] => none
  | b :: rest =>
    if b < 0x80 then some (Char.ofNat b.toNat)
    else match leadRange b, rest with
      | some (lo, hi, 1), b₁ :: _ =>
        if lo ≤ b₁ && b₁ ≤ hi then some (Char.ofNat (b.toNat % 32 * 64 + payload b₁)) else none
      | some (lo, hi, 2), b₁ :: b₂ :: _ =>
        if lo ≤ b₁ && b₁ ≤ hi && isContinuation b₂ then
          some (Char.ofNat ((b.toNat % 16 * 64 + payload b₁) * 64 + payload b₂))
        else none
      | some (lo, hi, 3), b₁ :: b₂ :: b₃ :: _ =>
        if lo ≤ b₁ && b₁ ≤ hi && isContinuation b₂ && isContinuation b₃ then
          some (Char.ofNat (((b.toNat % 8 * 64 + payload b₁) * 64 + payload b₂) * 64 + payload b₃))
        else none
      | _, _ => none

namespace Text

/-- Read bytes as pieces; the first `pending` bytes belong to a character already read. -/
def decodeFrom : Nat → List UInt8 → Text
  | _, [] => []
  | pending + 1, _ :: rest => decodeFrom pending rest
  | 0, b :: rest =>
    match headChar? (b :: rest) with
    | some c => .char c :: decodeFrom (c.utf8Size - 1) rest
    | none => .stray b :: decodeFrom 0 rest

/-- Read bytes as pieces. -/
def decode (bytes : List UInt8) : Text :=
  decodeFrom 0 bytes

/-- The bytes of a text. -/
def encode (text : Text) : List UInt8 :=
  text.flatMap Piece.bytes

/-- How many bytes a text takes. -/
def width (text : Text) : Nat :=
  text.foldr (fun p n => p.width + n) 0

/-- The text of a string. -/
def ofString (s : String) : Text :=
  s.toList.map .char

/-- A string stands for its text where one is called for. -/
instance : Coe String Text :=
  ⟨ofString⟩

/-- A text as a string; a stray byte becomes U+FFFD. -/
def toString (text : Text) : String :=
  String.ofList (text.map Piece.scalar)

/-- A text as a string, when it holds no stray byte. -/
def toString? (text : Text) : Option String :=
  if text.all fun p => match p with | .char _ => true | .stray _ => false then
    some text.toString
  else none

/-- The pieces from byte offset `start` on. -/
def dropBytes : Nat → Text → Text
  | 0, text => text
  | _ + 1, [] => []
  | n + 1, p :: rest => dropBytes (n + 1 - p.width) rest

/-- The pieces that lie in the first `n` bytes. -/
def takeBytes : Nat → Text → Text
  | 0, _ => []
  | _ + 1, [] => []
  | n + 1, p :: rest => p :: takeBytes (n + 1 - p.width) rest

/-- The pieces in the byte range from `start` to `stop`. -/
def slice (text : Text) (start stop : Nat) : Text :=
  takeBytes (stop - start) (dropBytes start text)

@[simp] theorem width_nil : width [] = 0 := rfl

@[simp] theorem width_cons (p : Piece) (rest : Text) : width (p :: rest) = p.width + width rest :=
  rfl

@[simp] theorem width_append (a b : Text) : width (a ++ b) = width a + width b := by
  induction a with
  | nil => simp
  | cons p rest ih => simp [ih, Nat.add_assoc]

end Text

/-- The bytes of a string. -/
def utf8Bytes (s : String) : List UInt8 :=
  (Text.ofString s).encode

end EcmaStack
