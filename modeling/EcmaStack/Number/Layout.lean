import EcmaStack.Number.Binary64

/-!
# Layouts of numbers

A layout says where positional notation ends and how an exponent is written. The digits are
always the shortest that read back.
-/

/-!
## The fewest digits that read back

A finite number is the nearest double to every real in an interval around it.
`Binary64.shortest` is the decimal with the fewest digits in that interval, and of those the
nearest to the number, the even one of two that are equally near. The search goes through the
decimal grids with one, two, … seventeen digits and tests the two neighbours of the number on
each, in exact arithmetic.
-/

namespace EcmaStack

/-- The decimal `0.d₁d₂… * 10 ^ point`. -/
structure Digits where
  digits : List Nat
  point : Int
  deriving DecidableEq

namespace Digits

/-- The decimal digits of a number, most significant first, none for zero. -/
def ofNat (n : Nat) : List Nat :=
  if n == 0 then [] else (Nat.toDigits 10 n).map fun c => c.toNat - '0'.toNat

/-- Without zeros at the end. -/
def trimmed (d : Digits) : Digits :=
  { d with digits := (d.digits.reverse.dropWhile (· == 0)).reverse }

end Digits

namespace Binary64

/-- A positive number as a quotient, with the ends of its interval over the same denominator. -/
structure Neighbourhood where
  num : Nat
  low : Nat
  high : Nat
  den : Nat
  closed : Bool

/-- The interval of the reals that round to the number `m * 2 ^ (e - 1074)`. Below a power of
two the doubles lie twice as close. -/
def neighbourhood (m e : Nat) : Neighbourhood :=
  let scale := Nat.pow 2 e
  let below := if m == Nat.pow 2 52 && 0 < e then 1 else 2
  { num := 4 * m * scale, low := (4 * m - below) * scale, high := (4 * m + 2) * scale,
    den := Nat.pow 2 1076, closed := m % 2 == 0 }

namespace Neighbourhood

/-- The exponent `p` with `10 ^ (p - 1) ≤ num / den < 10 ^ p`. -/
def magnitude (n : Neighbourhood) : Int :=
  if n.den ≤ n.num then Int.ofNat (Digits.ofNat (n.num / n.den)).length
  else 1 - Int.ofNat (Digits.ofNat ((n.den + n.num - 1) / n.num - 1)).length

/-- Whether `k` units of `10 ^ unit` lie in the interval. -/
def holds (n : Neighbourhood) (unit : Int) (k : Nat) : Bool :=
  let up := Nat.pow 10 unit.toNat
  let down := Nat.pow 10 (-unit).toNat
  let x := k * up * n.den
  if n.closed then n.low * down ≤ x && x ≤ n.high * down else n.low * down < x && x < n.high * down

/-- The neighbour of the number on the grid of `10 ^ unit` that lies in the interval, the nearer
if both do, the even one if both are equally near. -/
def onGrid? (n : Neighbourhood) (unit : Int) : Option Nat :=
  let up := Nat.pow 10 unit.toNat
  let down := Nat.pow 10 (-unit).toNat
  let k := n.num * down / (n.den * up)
  let r := n.num * down % (n.den * up)
  match n.holds unit k, n.holds unit (k + 1) with
  | true, true =>
    some (if 2 * r < n.den * up || (2 * r == n.den * up && k % 2 == 0) then k else k + 1)
  | true, false => some k
  | false, true => some (k + 1)
  | false, false => none

/-- The first grid with a hit, from `places` digits on. -/
def search (n : Neighbourhood) : Nat → Nat → Digits
  | 0, _ => ⟨[], 0⟩
  | fuel + 1, places =>
    let unit := n.magnitude - Int.ofNat places
    match n.onGrid? unit with
    | some k =>
      let digits := Digits.ofNat k
      Digits.trimmed ⟨digits, unit + Int.ofNat digits.length⟩
    | none => n.search fuel (places + 1)

end Neighbourhood

/-- The shortest digits of a finite number, none for zero. Seventeen digits always suffice. -/
def shortest (x : Binary64) : Digits :=
  let (m, e) := x.significand
  if m == 0 then ⟨[], 0⟩ else (neighbourhood m e).search 17 1

end Binary64

end EcmaStack

/-! ## Ways to write a number -/

namespace EcmaStack

/-- How numbers are laid out as text. -/
structure NumberLayout where
  /-- The least decimal exponent written positionally. -/
  least : Int
  /-- The first decimal exponent no longer written positionally. -/
  limit : Int
  /-- The least number of exponent digits. -/
  exponentWidth : Nat
  nan : String
  infinity : String
  negativeInfinity : String

namespace NumberLayout

/-- Listings: exponents outside -4 … 5 get the exponent form, with two digits at least. -/
def listing : NumberLayout :=
  ⟨-4, 6, 2, "NaN", "+Inf", "-Inf"⟩

/-- JSON documents: exponents outside -6 … 20 get the exponent form. -/
def json : NumberLayout :=
  ⟨-6, 21, 1, "NaN", "+Inf", "-Inf"⟩

/-- YAML documents: as in listings, with that notation's own words. -/
def yaml : NumberLayout :=
  ⟨-4, 6, 2, ".nan", ".inf", "-.inf"⟩

/-- Decimal digits as characters. -/
def digitChars (digits : List Nat) : List Char :=
  digits.map Nat.digitChar

/-- Positional notation. -/
def positional (d : Digits) : List Char :=
  if 0 < d.point then
    let n := d.point.toNat
    let whole := d.digits.take n
    let fraction := d.digits.drop n
    digitChars (whole ++ List.replicate (n - whole.length) 0) ++
      if fraction.isEmpty then [] else '.' :: digitChars fraction
  else if d.digits.isEmpty then ['0']
  else '0' :: '.' :: digitChars (List.replicate (-d.point).toNat 0 ++ d.digits)

/-- A natural number with leading zeros up to a width. -/
def padded (width n : Nat) : List Char :=
  let digits := Nat.toDigits 10 n
  List.replicate (width - digits.length) '0' ++ digits

/-- One digit before the point, the rest after it, and the exponent with its sign. -/
def scientific (width : Nat) (d : Digits) : List Char :=
  let e := d.point - 1
  let tail := match d.digits.drop 1 with
    | [] => []
    | rest => '.' :: digitChars rest
  digitChars (d.digits.take 1) ++ tail ++
    'e' :: (if e < 0 then '-' else '+') :: padded width e.natAbs

/-- Write a number. -/
def write (layout : NumberLayout) (x : Binary64) : String :=
  if x.isNaN then layout.nan
  else if x.isInfinite then if x.isNegative then layout.negativeInfinity else layout.infinity
  else
    let d := x.shortest
    let exponent := d.point - 1
    let body :=
      if d.digits.isEmpty || (layout.least ≤ exponent && exponent < layout.limit) then positional d
      else scientific layout.exponentWidth d
    String.ofList (if x.isNegative then '-' :: body else body)

end NumberLayout

end EcmaStack
