import EcmaStack.Text.Piece
import EcmaStack.Text.CharClass

/-!
# Quoted text in listings

A text between double quotes in which nothing is invisible: printable characters stand as they
are, the usual control characters have short forms, and all else is written with hexadecimal
digits.
-/

namespace EcmaStack.Text

/-- The lower-case digit of a value below sixteen. -/
def hexDigit (n : Nat) : Char :=
  Nat.digitChar (n % 16)

/-- The last `width` hexadecimal digits of a number. -/
def hexDigits : Nat → Nat → List Char
  | 0, _ => []
  | width + 1, n => hexDigits width (n / 16) ++ [hexDigit n]

/-- The two digits of a byte. -/
def hexByte (b : UInt8) : List Char :=
  hexDigits 2 b.toNat

/-- Bytes as a run of hexadecimal digits, two for each. -/
def hexOfBytes (bytes : List UInt8) : String :=
  String.ofList (bytes.flatMap hexByte)

/-- Read a run of hexadecimal digits, two for each byte. -/
def bytesOfHex? : List Char → Option (List UInt8)
  | [] => some []
  | [_] => none
  | a :: b :: rest => do
    let hi ← digitValue? a
    let lo ← digitValue? b
    return UInt8.ofNat (16 * hi + lo) :: (← bytesOfHex? rest)

/-- The short form of a character, when it has one. -/
def shortEscape? (c : Char) : Option Char :=
  match c with
  | '\x07' => some 'a'
  | '\x08' => some 'b'
  | '\x0c' => some 'f'
  | '\n' => some 'n'
  | '\r' => some 'r'
  | '\t' => some 't'
  | '\x0b' => some 'v'
  | '\\' => some '\\'
  | '\x22' => some '\x22'
  | _ => none

/-- One piece as it stands between the quotes. -/
def quotePiece : Piece → List Char
  | .stray b => '\\' :: 'x' :: hexByte b
  | .char c =>
    match shortEscape? c with
    | some s => ['\\', s]
    | none =>
      if isPrintable c then [c]
      else if c.toNat < 0x20 || c.toNat == 0x7f then '\\' :: 'x' :: hexDigits 2 c.toNat
      else if c.toNat < 0x10000 then '\\' :: 'u' :: hexDigits 4 c.toNat
      else '\\' :: 'U' :: hexDigits 8 c.toNat

/-- A text between double quotes. -/
def quoted (text : Text) : String :=
  String.ofList ('\x22' :: text.flatMap quotePiece ++ ['\x22'])

end EcmaStack.Text
