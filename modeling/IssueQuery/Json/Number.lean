import IssueQuery.Json.Basic

/-!
# Numbers of a JSON text

`Json.Numeral` holds the digits of a number as they are written, and `Json.Numeral.value?` is the
number they mean.  A numeral without fraction and exponent is a whole number as long as 64 bits can
hold it, with or without sign; `-0` is not whole.  All other numerals are floating: the leading
digits that fit into 64 bits are scaled by one power of ten, digits beyond them only count as
places, and a number that is too large has no value.
-/

namespace IssueQuery.Json

/-- The digits of a number as they are written. -/
structure Numeral where
  negative : Bool
  whole : List Nat
  /-- The digits after the point, if there is one. -/
  fraction : Option (List Nat)
  exponent : Option Int

namespace Numeral

/-- Takes up digits as long as the number stays below `2 ^ 64`: the number and the digits left. -/
def accumulate (n : Nat) : List Nat → Nat × List Nat
  | [] => (n, [])
  | d :: ds => if n * 10 + d < UInt64.size then accumulate (n * 10 + d) ds else (n, d :: ds)

/-- Divides by a power of ten, in steps that a floating-point number can hold. -/
def scaleDown (x : Float) (places : Nat) : Float :=
  if places ≤ 308 then x / Float.ofScientific 1 false places
  else if x == 0.0 then x
  else scaleDown (x / Float.ofScientific 1 false 308) (places - 308)
termination_by places

/-- Multiplies by a power of ten, if the result is finite. -/
def scaleUp? (x : Float) (places : Nat) : Option Float :=
  if x == 0.0 then some x
  else if places ≤ 308 then
    let scaled := x * Float.ofScientific 1 false places
    if scaled.isInf then none else some scaled
  else none

/-- The number `n * 10 ^ exponent`, rounded once for `n` and once for the power. -/
def scaled? (n : Nat) (exponent : Int) : Option Float :=
  if 0 ≤ exponent then scaleUp? (Float.ofNat n) exponent.toNat
  else some (scaleDown (Float.ofNat n) (-exponent).toNat)

/-- The number that a numeral means. -/
def value? (numeral : Numeral) : Option Json :=
  let (n, dropped) := accumulate 0 numeral.whole
  let signed (x : Float) : Json := float (if numeral.negative then -x else x)
  if numeral.fraction.isNone && numeral.exponent.isNone && dropped.isEmpty then
    if !numeral.negative then some (int n)
    else if 0 < n ∧ Int64.minValue.toInt ≤ -(n : Int) then some (int (-n))
    else some (signed (Float.ofNat n))
  else
    let decimals := numeral.fraction.getD []
    let (m, ignored) := accumulate n decimals
    let places : Int := (dropped.length : Int) - (decimals.length - ignored.length : Nat)
    (scaled? m (places + numeral.exponent.getD 0)).map signed

end Numeral

end IssueQuery.Json
