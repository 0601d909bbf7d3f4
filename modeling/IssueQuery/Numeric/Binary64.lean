/-!
# Binary64 numbers as integers times powers of two

A finite floating-point number is a sign, a significand and a power of two.  `Dyadic.ofFloat` reads
them off the bit pattern and `Dyadic.toFloat` writes them back.  On this form the remainder of a
division is one remainder of natural numbers, so `floatRemainder` is exact.
-/

namespace IssueQuery

/-- The magnitude `significand * 2 ^ exponent`. -/
structure Dyadic where
  significand : Nat
  exponent : Int
  deriving DecidableEq

/-- The sign bit, which zeros and infinities carry too. -/
def signBit (x : Float) : Bool := x.toBits >>> 63 == 1

/-- The leading bit of the significand of a normal number, which the bit pattern leaves out. -/
def implicitBit : Nat := 1 <<< 52

namespace Dyadic

/-- The least exponent, that of the subnormal numbers. -/
def leastExponent : Int := -1074

/-- The magnitude of a finite number. -/
def ofFloat (x : Float) : Dyadic :=
  let fraction := x.toBits.toNat % implicitBit
  let biased := x.toBits.toNat / implicitBit % 2048
  if biased = 0 then ⟨fraction, leastExponent⟩
  else ⟨implicitBit + fraction, leastExponent + (biased - 1 : Nat)⟩

/-- The number with the given sign and magnitude, for a significand of at most 53 bits and an
exponent that is not below `leastExponent`: the significand moves up until it has its implicit bit
or the exponent is the least one. -/
def toFloat (negative : Bool) (d : Dyadic) : Float :=
  let room := (d.exponent - leastExponent).toNat
  let up := if d.significand = 0 then room else min room (52 - d.significand.log2)
  let significand := d.significand <<< up
  let biased := if significand < implicitBit then 0 else room - up + 1
  let magnitude := biased * implicitBit + significand % implicitBit
  Float.ofBits (UInt64.ofNat (magnitude + if negative then 1 <<< 63 else 0))

end Dyadic

/-- The value that is not a number. -/
def notANumber : Float := 0.0 / 0.0

/-- What is left of `x` after taking off as many whole multiples of `y` as go into it; the result
has the sign of `x`.  There is no remainder of an infinity or by zero, and an infinite divisor
leaves `x` as it is. -/
def floatRemainder (x y : Float) : Float :=
  if x.isNaN || y.isNaN || x.isInf || y == 0.0 then notANumber
  else if y.isInf then x
  else
    let a := Dyadic.ofFloat x
    let b := Dyadic.ofFloat y
    let exponent := min a.exponent b.exponent
    let dividend := a.significand <<< (a.exponent - exponent).toNat
    let divisor := b.significand <<< (b.exponent - exponent).toNat
    Dyadic.toFloat (signBit x) ⟨dividend % divisor, exponent⟩

end IssueQuery
