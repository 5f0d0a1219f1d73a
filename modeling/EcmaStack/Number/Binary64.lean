/-!
# Double precision numbers

A number is its sixty-four bits. Arithmetic is not needed here, only exact reading and writing,
so the value is taken apart into sign, significand and exponent over the natural numbers, and a
quotient of natural numbers is rounded to the nearest number, a tie going to the even
significand.
-/

namespace EcmaStack

/-- A double precision number, by its bits. -/
structure Binary64 where
  bits : UInt64
  deriving DecidableEq, Inhabited

namespace Binary64

/-- The bit that holds the sign. -/
def signBit : Nat := Nat.pow 2 63

/-- The bits of positive infinity: every exponent bit set. -/
def infinityBits : Nat := 0x7FF * Nat.pow 2 52

/-- The number with the given sign and remaining bits. -/
def ofParts (negative : Bool) (magnitude : Nat) : Binary64 :=
  ⟨UInt64.ofNat (if negative then signBit + magnitude else magnitude)⟩

/-- Infinity with a sign. -/
def infinity (negative : Bool) : Binary64 :=
  ofParts negative infinityBits

/-- The number that is no number. -/
def nan : Binary64 :=
  ⟨0x7FF8000000000001⟩

/-- Positive zero. -/
def zero : Binary64 :=
  ⟨0⟩

/-- Whether the sign bit is set. -/
def isNegative (x : Binary64) : Bool :=
  signBit ≤ x.bits.toNat

/-- The bits without the sign. -/
def magnitude (x : Binary64) : Nat :=
  x.bits.toNat % signBit

/-- Whether the number is no number. -/
def isNaN (x : Binary64) : Bool :=
  infinityBits < x.magnitude

/-- Whether the number is an infinity. -/
def isInfinite (x : Binary64) : Bool :=
  x.magnitude == infinityBits

/-- Significand `m` and binary exponent shifted by 1074: a finite value is `m * 2 ^ (e - 1074)`. -/
def significand (x : Binary64) : Nat × Nat :=
  let biased := x.magnitude / Nat.pow 2 52
  let fraction := x.magnitude % Nat.pow 2 52
  if biased == 0 then (fraction, 0) else (Nat.pow 2 52 + fraction, biased - 1)

/-- A quotient rounded to the nearest integer, a tie going to the even one. -/
def roundDiv (num den : Nat) : Nat :=
  let q := num / den
  let r := num % den
  if den < 2 * r || (2 * r == den && q % 2 == 1) then q + 1 else q

/-- The magnitude bits of the number nearest to `num / den`, for positive `num` and `den`. The
exponent is chosen so that the rounded significand has fifty-three bits; a carry out of it moves
the exponent along by itself. -/
def nearestMagnitude (num den : Nat) : Nat :=
  let guess : Int := Int.ofNat num.log2 - Int.ofNat den.log2 - 53
  let scaled (e : Int) : Nat × Nat :=
    if 0 ≤ e then (num, den * Nat.pow 2 e.toNat) else (num * Nat.pow 2 (-e).toNat, den)
  let (n₀, d₀) := scaled guess
  let e := if Nat.pow 2 53 * d₀ ≤ n₀ then guess + 1 else guess
  let e := max e (-1074)
  let (n, d) := scaled e
  min ((e + 1074).toNat * Nat.pow 2 52 + roundDiv n d) infinityBits

/-- The number nearest to `± num / den`. -/
def nearest (negative : Bool) (num den : Nat) : Binary64 :=
  ofParts negative (if num == 0 then 0 else nearestMagnitude num den)

/-- The number nearest to an integer. -/
def ofInt (i : Int) : Binary64 :=
  nearest (i < 0) i.natAbs 1

end Binary64

end EcmaStack
