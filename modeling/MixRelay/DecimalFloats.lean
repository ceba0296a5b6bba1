import MixRelay.ByteStrings

/-! # Binary floats and their decimal text

A finite float is a mantissa times a power of two. Reading rounds a decimal number to the nearest
float, ties to the even mantissa. Writing takes the fewest digits that read back, of several such
numbers the nearest, of two as near the greater one, and never uses an exponent. -/
namespace MixRelay.DecimalFloats

/-- The quotient rounded to the nearest whole number, halves to the even one. -/
def roundDiv (num den : Nat) : Nat :=
  let low := num / den
  let rest := 2 * (num % den)
  if rest < den then low else if den < rest then low + 1 else low + low % 2

/-- The numerator and denominator of `num / den` times a power of two. -/
def scale (num den : Nat) (power : Int) : Nat × Nat :=
  if 0 ≤ power then (num * 2 ^ power.toNat, den) else (num, den * 2 ^ (-power).toNat)

/-- The bits of the nearest float that is not negative; none above the greatest one. -/
def nearestBits? (num den : Nat) : Option UInt64 :=
  if num = 0 then some 0
  else
    let magnitude : Int := (num.log2 : Int) - (den.log2 : Int)
    let floorAt (q : Int) : Nat := let s := scale num den (-q); s.1 / s.2
    let low : Int := max (magnitude - 53) (-1074)
    let q : Int := if floorAt low < 2 ^ 53 then low else low + 1
    let s := scale num den (-q)
    let mantissa := roundDiv s.1 s.2
    let (mantissa, q) := if mantissa = 2 ^ 53 then (2 ^ 52, q + 1) else (mantissa, q)
    if mantissa < 2 ^ 52 then some (UInt64.ofNat mantissa)
    else if 972 ≤ q then none
    else some (UInt64.ofNat ((q + 1075).toNat * 2 ^ 52 + (mantissa - 2 ^ 52)))

/-- The float nearest to a whole number times a power of ten; none if that is too great. -/
def ofDecimal? (negative : Bool) (digits : Nat) (exponent : Int) : Option Float :=
  let size : Int := (Nat.toDigits 10 digits).length + exponent
  let bits? :=
    if digits = 0 ∨ size < -400 then some 0
    else if 400 < size then none
    else if 0 ≤ exponent then nearestBits? (digits * 10 ^ exponent.toNat) 1
    else nearestBits? digits (10 ^ (-exponent).toNat)
  bits?.map fun bits => Float.ofBits (if negative then bits ||| 0x8000000000000000 else bits)

/-- A positive finite float as a mantissa and a power of two. -/
def mantissaPower (bits : UInt64) : Nat × Int :=
  let field := (bits >>> 52).toNat % 2048
  let fraction := bits.toNat % 2 ^ 52
  if field = 0 then (fraction, -1074) else (2 ^ 52 + fraction, (field : Int) - 1075)

/-- The numbers that read as one float: from `low` to `high` over `den`, the ends included or not,
around `value` over `den`. -/
structure Interval where
  low : Nat
  value : Nat
  high : Nat
  den : Nat
  closed : Bool

def interval (mantissa : Nat) (power : Int) : Interval :=
  let gap := if mantissa = 2 ^ 52 ∧ -1074 < power then 1 else 2
  let (num, den) := scale 1 4 power
  ⟨(4 * mantissa - gap) * num, 4 * mantissa * num, (4 * mantissa + 2) * num, den,
    mantissa % 2 = 0⟩

namespace Interval

/-- Does `c` times a power of ten, as a quotient, lie in the interval? -/
def contains (i : Interval) (num den : Nat) : Bool :=
  if i.closed then i.low * den ≤ num * i.den && num * i.den ≤ i.high * den
  else i.low * den < num * i.den && num * i.den < i.high * den

/-- The number on the grid of a power of ten that is nearest to the value, among its two neighbours
that lie in the interval; halfway between them it is the upper one. -/
def onGrid? (i : Interval) (exponent : Int) : Option Nat :=
  let up := if 0 ≤ exponent then 10 ^ exponent.toNat else 1
  let down := if 0 ≤ exponent then 1 else 10 ^ (-exponent).toNat
  let below := i.value * down / (i.den * up)
  let hits := [below, below + 1].filter fun c => i.contains (c * up) down
  match hits with
  | [a, b] => if 2 * (i.value * down) < (a + b) * (i.den * up) then some a else some b
  | [a] => some a
  | _ => none

/-- The first grid with a hit, from a power of ten downwards. -/
def search (i : Interval) : Nat → Int → Nat × Int
  | 0, e => (0, e)
  | fuel + 1, e =>
    match i.onGrid? e with
    | some (c + 1) => (c + 1, e)
    | _ => i.search fuel (e - 1)

end Interval

/-- The shortest digits of a positive finite float, and the power of ten they are multiples of. -/
def shortest (bits : UInt64) : Nat × Int :=
  let (mantissa, power) := mantissaPower bits
  let i := interval mantissa power
  i.search 800 (Nat.toDigits 10 (i.value / i.den)).length

/-- Digits times a power of ten without an exponent; a whole number ends in a zero after the point. -/
def positional (digits : Nat) (exponent : Int) : String :=
  let ds := Nat.toDigits 10 digits
  if 0 ≤ exponent then String.ofList (ds ++ List.replicate exponent.toNat '0') ++ ".0"
  else
    let places := (-exponent).toNat
    let ds := List.replicate (places + 1 - ds.length) '0' ++ ds
    String.ofList (ds.take (ds.length - places)) ++ "." ++ String.ofList (ds.drop (ds.length - places))

/-- The text of a float; the sign of what is no number does not show. -/
def render (x : Float) : String :=
  let bits := x.toBits
  let sign := if bits < 0x8000000000000000 then "" else "-"
  let magnitude := bits &&& 0x7fffffffffffffff
  if x.isNaN then "nan"
  else if x.isInf then sign ++ "inf"
  else if magnitude = 0 then sign ++ "0.0"
  else
    let (digits, exponent) := shortest magnitude
    sign ++ positional digits exponent

end MixRelay.DecimalFloats
