import EdgePlacement.Decimal.Binary64
import EdgePlacement.Decimal.Whole

/-!
# Shortest decimal numbers

The shortest decimal number that is nearer to a given binary64 number than to any other, and of
those the nearest one; and how its digits are laid out. The digits are found on the grids of one,
two, … seventeen digits: the first grid with a point in the rounding interval wins, and there only
the two points around the number itself can be nearest.
-/

namespace EdgePlacement.Decimal

structure Digits where
  digits : Nat
  exponent : Int
  deriving DecidableEq

/-- A positive binary64 number with its rounding interval, in quarters of a unit of its mantissa. -/
structure RoundingInterval where
  low : Nat
  value : Nat
  high : Nat
  /-- A quarter unit is `2 ^ exponent`. -/
  exponent : Int
  closed : Bool

/-- The neighbour below a power of two is half a unit away, that below the smallest normal number
excepted. Halfway points belong to the even mantissa. -/
def roundingInterval (mantissa : Nat) (exponent : Int) : RoundingInterval where
  low := if mantissa = Nat.pow 2 52 && -1074 < exponent then 4 * mantissa - 1 else 4 * mantissa - 2
  value := 4 * mantissa
  high := 4 * mantissa + 2
  exponent := exponent - 2
  closed := mantissa % 2 == 0

/-- A common measure of the interval and of the grid with spacing `10 ^ spacing`: multiplied by
`bound`, a bound of the interval is in the same units as a grid point multiplied by `point`. -/
structure CommonMeasure where
  bound : Nat
  point : Nat

def commonMeasure (interval : RoundingInterval) (spacing : Int) : CommonMeasure where
  bound := Nat.pow 2 interval.exponent.toNat * Nat.pow 10 (-spacing).toNat
  point := Nat.pow 2 (-interval.exponent).toNat * Nat.pow 10 spacing.toNat

def RoundingInterval.holds (interval : RoundingInterval) (measure : CommonMeasure) (point : Nat) :
    Bool :=
  let low := interval.low * measure.bound
  let high := interval.high * measure.bound
  let here := point * measure.point
  if interval.closed then low ≤ here && here ≤ high else low < here && here < high

/-- Of the two grid points around the value those in the interval count, and the nearer one wins; at
equal distance it is the even one. -/
def pointOnGrid? (interval : RoundingInterval) (spacing : Int) : Option Nat :=
  let measure := commonMeasure interval spacing
  let value := interval.value * measure.bound
  let below := value / measure.point
  let above := below + 1
  match interval.holds measure below, interval.holds measure above with
  | true, true =>
    let gapBelow := value - below * measure.point
    let gapAbove := above * measure.point - value
    if gapBelow < gapAbove then some below
    else if gapAbove < gapBelow then some above
    else some (if below % 2 == 0 then below else above)
  | true, false => some below
  | false, true => some above
  | false, false => none

def RoundingInterval.reaches (interval : RoundingInterval) (power : Int) : Bool :=
  let measure := commonMeasure interval power
  measure.point ≤ interval.value * measure.bound

def leadingExponent (interval : RoundingInterval) : Int :=
  let guess := (interval.exponent + Nat.log2 interval.value) * 30103 / 100000
  if interval.reaches (guess + 1) then guess + 1
  else if interval.reaches guess then guess
  else guess - 1

def firstGrid? (interval : RoundingInterval) (leading : Int) : List Nat → Option Digits
  | [] => none
  | count :: rest =>
    let spacing := leading - count
    match pointOnGrid? interval spacing with
    | some point => some ⟨point, spacing⟩
    | none => firstGrid? interval leading rest

def Digits.dropZeros : Nat → Digits → Digits
  | 0, d => d
  | fuel + 1, d =>
    if d.digits ≠ 0 && d.digits % 10 == 0 then dropZeros fuel ⟨d.digits / 10, d.exponent + 1⟩ else d

/-- Seventeen digits always suffice. -/
def shortestDigits (mantissa : Nat) (exponent : Int) : Digits :=
  let interval := roundingInterval mantissa exponent
  let found := firstGrid? interval (leadingExponent interval) (List.range 17)
  (found.getD ⟨mantissa, 0⟩).dropZeros 20

/-- The decisions of a number format: which leading exponents are written positionally, whether a
whole number shows a zero after its point, the least count of exponent digits, and the words for the
values without digits. -/
structure NumberLayout where
  leastPositional : Int
  mostPositional : Int
  wholeMark : String
  exponentWidth : Nat
  infiniteWord : String
  undefinedWord : String

/-- Numbers stand in reports and exported tables positionally from `0.0001` up to below `10 ^
16`. -/
def plainLayout : NumberLayout where
  leastPositional := -4
  mostPositional := 15
  wholeMark := ".0"
  exponentWidth := 2
  infiniteWord := "inf"
  undefinedWord := "nan"

def zeros (count : Nat) : List Char :=
  List.replicate count '0'

def layPositional (layout : NumberLayout) (digits : List Char) (leading : Int) : List Char :=
  if leading < 0 then ['0', '.'] ++ zeros (-leading - 1).toNat ++ digits
  else
    let wholeCount := leading.toNat + 1
    if digits.length ≤ wholeCount then
      digits ++ zeros (wholeCount - digits.length) ++ layout.wholeMark.toList
    else digits.take wholeCount ++ ['.'] ++ digits.drop wholeCount

def layScientific (layout : NumberLayout) (digits : List Char) (leading : Int) : List Char :=
  let mantissa :=
    match digits with
    | first :: second :: rest => first :: '.' :: second :: rest
    | single => single
  let exponent := Nat.toDigits 10 leading.natAbs
  mantissa ++ ['e', if leading < 0 then '-' else '+'] ++
    zeros (layout.exponentWidth - exponent.length) ++ exponent

def layDigits (layout : NumberLayout) (d : Digits) : List Char :=
  let digits := Nat.toDigits 10 d.digits
  let leading := d.exponent + digits.length - 1
  if layout.leastPositional ≤ leading && leading ≤ layout.mostPositional then
    layPositional layout digits leading
  else layScientific layout digits leading

def shortestText (layout : NumberLayout) (x : Float) : String :=
  match Binary64.classify x with
  | .undefined => layout.undefinedWord
  | .infinite negative => signText negative ++ layout.infiniteWord
  | .finite ⟨negative, mantissa, exponent⟩ =>
    signText negative ++
      if mantissa = 0 then String.ofList ['0'] ++ layout.wholeMark
      else String.ofList (layDigits layout (shortestDigits mantissa exponent))

def numberText (x : Float) : String :=
  shortestText plainLayout x

end EdgePlacement.Decimal
