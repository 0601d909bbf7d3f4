import IssueQuery.Numeric.Binary64

/-!
# The shortest decimal text of a binary number

A number is written with the fewest digits that read back as the same number, and among those with
the digits nearest to it.  `Decimal.shortest` finds them in exact integer arithmetic: it looks at
the two neighbours of the number on the grids of one, two, up to seventeen digits, and stops at the
first grid that meets the interval of all reals that round to the number.  A `FloatFormat` holds
the decisions that a notation makes beyond that, and `FloatFormat.text` writes the digits down.
-/

namespace IssueQuery

/-- Which of two equally near candidates is taken. -/
inductive Tie where
  | up
  | toEven
  deriving DecidableEq

/-- The powers of ten. -/
def powerOfTen (n : Nat) : Nat := Nat.pow 10 n

/-- The number `coefficient * 10 ^ exponent`. -/
structure Decimal where
  coefficient : Nat
  exponent : Int
  deriving DecidableEq

namespace Decimal

/-- The reals that round to a binary number, over the common denominator `unit`. -/
structure Rounding where
  lower : Nat
  center : Nat
  upper : Nat
  unit : Nat
  /-- The ends belong to the interval. -/
  closed : Bool

namespace Rounding

/-- The interval reaches half way to both neighbours.  Below a power of two the neighbour is only
half as far, unless the exponent is the least one. -/
def ofDyadic (d : Dyadic) : Rounding :=
  let up := (d.exponent - 2).toNat
  let below := if d.significand = implicitBit ∧ d.exponent ≠ Dyadic.leastExponent then 1 else 2
  { lower := (4 * d.significand - below) <<< up
    center := (4 * d.significand) <<< up
    upper := (4 * d.significand + 2) <<< up
    unit := 1 <<< (2 - d.exponent).toNat
    closed := d.significand % 2 == 0 }

/-- The exponent of the leading decimal digit.  Every positive number has a digit other than zero
among the first 340 decimals. -/
def leadingExponent (r : Rounding) : Int :=
  (Nat.toDigits 10 (r.center * powerOfTen 340 / r.unit)).length - 341

/-- The neighbour of the number on the grid of the multiples of `10 ^ exponent` that lies in the
interval, the nearer one if both do. -/
def onGrid? (r : Rounding) (tie : Tie) (exponent : Int) : Option Decimal :=
  let scale := powerOfTen (-exponent).toNat
  let step := r.unit * powerOfTen exponent.toNat
  let floor := r.center * scale / step
  let rest := r.center * scale % step
  let inside (n : Nat) : Bool :=
    if r.closed then r.lower * scale ≤ n * step && n * step ≤ r.upper * scale
    else r.lower * scale < n * step && n * step < r.upper * scale
  let upward : Bool :=
    if 2 * rest = step then tie == .up || floor % 2 == 1 else step < 2 * rest
  match inside floor, inside (floor + 1) with
  | true, true => some ⟨if upward then floor + 1 else floor, exponent⟩
  | true, false => some ⟨floor, exponent⟩
  | false, true => some ⟨floor + 1, exponent⟩
  | false, false => none

end Rounding

/-- The shortest decimal that reads back as the number, which must not be zero.  Seventeen digits
always suffice. -/
def shortest (tie : Tie) (d : Dyadic) : Decimal :=
  let r := Rounding.ofDyadic d
  let leading := r.leadingExponent
  ((List.range 17).findSome? fun (k : Nat) => r.onGrid? tie (leading - k)).getD ⟨0, 0⟩

end Decimal

/-- The decisions of a notation for floating-point numbers. -/
structure FloatFormat where
  /-- How a tie between two shortest candidates ends. -/
  tie : Tie
  /-- Whether a number is written positionally, from the exponent of its leading digit. -/
  positional : Int → Bool
  /-- Whether a whole number is written with `.0`. -/
  wholePoint : Bool

namespace FloatFormat

/-- Digits with the point after the first `whole` of them, filled up with zeros on either side. -/
def positionalText (format : FloatFormat) (digits : List Char) (leading : Int) : String :=
  if leading < 0 then
    String.ofList ('0' :: '.' :: (List.replicate (-leading - 1).toNat '0' ++ digits))
  else
    let whole := leading.toNat + 1
    let fraction := digits.drop whole
    String.ofList (digits.take whole ++ List.replicate (whole - digits.length) '0') ++
      if fraction.isEmpty then (if format.wholePoint then ".0" else "")
      else String.ofList ('.' :: fraction)

/-- One digit, the others after a point, and a signed exponent. -/
def scientificText (digits : List Char) (leading : Int) : String :=
  String.ofList (digits.take 1) ++
    (if digits.length ≤ 1 then "" else String.ofList ('.' :: digits.drop 1)) ++
    (if leading < 0 then "e-" else "e+") ++ toString leading.natAbs

/-- The text of a positive or zero magnitude. -/
def magnitudeText (format : FloatFormat) (d : Dyadic) : String :=
  if d.significand = 0 then format.positionalText ['0'] 0
  else
    let decimal := Decimal.shortest format.tie d
    let all := Nat.toDigits 10 decimal.coefficient
    let digits := (all.reverse.dropWhile (· == '0')).reverse
    let leading := decimal.exponent + (all.length - 1 : Nat)
    if format.positional leading then format.positionalText digits leading
    else scientificText digits leading

/-- The text of a number. -/
def text (format : FloatFormat) (x : Float) : String :=
  if x.isNaN then "NaN"
  else (if signBit x then "-" else "") ++
    if x.isInf then "inf" else format.magnitudeText (Dyadic.ofFloat x)

end FloatFormat

end IssueQuery
