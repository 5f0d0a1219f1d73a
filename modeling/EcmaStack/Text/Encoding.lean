import EcmaStack.Text.Piece

/-!
# Source encodings

A byte order mark at the head of a source selects its encoding and is dropped. Without one the
source is UTF-8, and each ill-formed run becomes one U+FFFD; with a UTF-8 mark the rest must be
well formed. In UTF-16 a surrogate without its partner and an odd last byte become U+FFFD.
-/

namespace EcmaStack.Text

/-- How many bytes at the head form the longest beginning of a character: the run that one
replacement character stands for. -/
def brokenRun : List UInt8 → Nat
  | [] => 0
  | b :: rest =>
    match leadRange b, rest with
    | some (lo, hi, follow), b₁ :: tail =>
      if lo ≤ b₁ && b₁ ≤ hi then
        2 + ((tail.take (follow - 2)).takeWhile isContinuation).length
      else 1
    | _, _ => 1

/-- Read UTF-8, one replacement character for each broken run. -/
def repairFrom : Nat → List UInt8 → List Char
  | _, [] => []
  | pending + 1, _ :: rest => repairFrom pending rest
  | 0, b :: rest =>
    match headChar? (b :: rest) with
    | some c => c :: repairFrom (c.utf8Size - 1) rest
    | none => replacement :: repairFrom (brokenRun (b :: rest) - 1) rest

/-- Whether a 16-bit unit is a surrogate. -/
def isSurrogate (u : Nat) : Bool :=
  0xD800 ≤ u && u < 0xE000

/-- Whether a 16-bit unit is the second half of a surrogate pair. -/
def isLowSurrogate (u : Nat) : Bool :=
  0xDC00 ≤ u && u < 0xE000

/-- The character of a surrogate pair; a first half that is none gives U+FFFD. -/
def joinSurrogates (high low : Nat) : Char :=
  if 0xD800 ≤ high && high < 0xDC00 && isLowSurrogate low then
    Char.ofNat (0x10000 + (high - 0xD800) * 0x400 + (low - 0xDC00))
  else replacement

/-- Read 16-bit units. -/
def decodeUnits : List Nat → List Char
  | [] => []
  | [u] => [if isSurrogate u then replacement else Char.ofNat u]
  | u :: v :: rest =>
    if isSurrogate u then
      if isLowSurrogate v then joinSurrogates u v :: decodeUnits rest
      else replacement :: decodeUnits (v :: rest)
    else Char.ofNat u :: decodeUnits (v :: rest)

/-- Pair bytes into 16-bit units, `join` telling the order; the flag is set when a byte is left. -/
def units (join : UInt8 → UInt8 → Nat) : List UInt8 → List Nat × Bool
  | [] => ([], false)
  | [_] => ([], true)
  | a :: b :: rest =>
    let (us, odd) := units join rest
    (join a b :: us, odd)

/-- Read UTF-16 with the given byte order. -/
def decodeUtf16 (join : UInt8 → UInt8 → Nat) (bytes : List UInt8) : List Char :=
  let (us, odd) := units join bytes
  decodeUnits us ++ if odd then [replacement] else []

/-- The only way reading a source can fail. -/
inductive EncodingFault where
  | invalidUtf8

/-- The wording of an encoding fault. -/
def EncodingFault.message : EncodingFault → String
  | .invalidUtf8 => "decode source: invalid UTF-8"

/-- Read the bytes of a source file. -/
def decodeSource : List UInt8 → Except EncodingFault String
  | 0xEF :: 0xBB :: 0xBF :: rest =>
    match (decode rest).toString? with
    | some s => .ok s
    | none => .error .invalidUtf8
  | 0xFF :: 0xFE :: rest =>
    .ok (String.ofList (decodeUtf16 (fun a b => a.toNat + 256 * b.toNat) rest))
  | 0xFE :: 0xFF :: rest =>
    .ok (String.ofList (decodeUtf16 (fun a b => 256 * a.toNat + b.toNat) rest))
  | bytes => .ok (String.ofList (repairFrom 0 bytes))

end EcmaStack.Text
