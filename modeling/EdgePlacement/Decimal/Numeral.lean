import EdgePlacement.Text.Blank
import EdgePlacement.Text.Digit

/-!
# Written numbers

Two ways of writing a number are read. A *cell* holds an optional sign and either ASCII digits with
at most one point and an optional exponent, or a word for infinity. A *general* numeral may further
stand between blanks, use the digits of any script, separate digits by single underscores, and be
the word for an undefined number. What is read is a `Numeral`, the number in exact decimal form.
-/

namespace EdgePlacement.Decimal

open EdgePlacement.Text

/-- A finite numeral is `digits · 10 ^ exponent` with a sign. -/
inductive Numeral where
  | finite (negative : Bool) (digits : Nat) (exponent : Int)
  | infinite (negative : Bool)
  | undefined
  deriving DecidableEq

namespace Numeral

def isDigit (c : Char) : Bool :=
  (plainDigitValue? c).isSome

def valueOfDigits (digits : List Char) : Nat :=
  digits.foldl (fun value c => 10 * value + (plainDigitValue? c).getD 0) 0

def takeSign : List Char → Bool × List Char
  | '-' :: rest => (true, rest)
  | '+' :: rest => (false, rest)
  | rest => (false, rest)

def readExponent? : List Char → Option Int
  | [] => some 0
  | mark :: rest =>
    if mark = 'e' || mark = 'E' then
      let (negative, digits) := takeSign rest
      if digits.isEmpty || !digits.all isDigit then none
      else
        let size : Int := valueOfDigits digits
        some (if negative then -size else size)
    else none

def readFinite? (negative : Bool) (s : List Char) : Option Numeral :=
  let whole := s.takeWhile isDigit
  let afterWhole := s.dropWhile isDigit
  let (fraction, afterFraction) :=
    match afterWhole with
    | '.' :: rest => (rest.takeWhile isDigit, rest.dropWhile isDigit)
    | rest => ([], rest)
  if whole.isEmpty && fraction.isEmpty then none
  else
    (readExponent? afterFraction).map fun exponent =>
      .finite negative (valueOfDigits (whole ++ fraction)) (exponent - fraction.length)

def lowerWord (s : List Char) : String :=
  String.ofList (s.map fun c =>
    if 0x41 ≤ c.toNat && c.toNat ≤ 0x5a then Char.ofNat (c.toNat + 0x20) else c)

def readCell? (s : String) : Option Numeral :=
  let (negative, rest) := takeSign s.toList
  if lowerWord rest == "inf" || lowerWord rest == "infinity" then some (.infinite negative)
  else readFinite? negative rest

/-- A whole number of at most 64 bits, with or without a sign. -/
def readWord? (s : String) : Option Int :=
  let (negative, digits) := takeSign s.toList
  if digits.isEmpty || !digits.all isDigit then none
  else
    let size : Int := valueOfDigits digits
    let value := if negative then -size else size
    if -9223372036854775808 ≤ value && value < 18446744073709551616 then some value else none

/-- A zero without a sign. -/
def dropZeroSign : Numeral → Numeral
  | finite _ 0 _ => finite false 0 0
  | numeral => numeral

/-- Underscores are dropped where a digit stands on both sides; elsewhere they spoil the numeral. -/
def dropSeparators? : Option Char → List Char → Option (List Char)
  | _, [] => some []
  | before, '_' :: rest =>
    if (before.map isDigit).getD false && (rest.head?.map isDigit).getD false then
      dropSeparators? (some '_') rest
    else none
  | _, c :: rest => (dropSeparators? (some c) rest).map (c :: ·)

def plainDigits (s : List Char) : List Char :=
  s.map fun c =>
    match digitValue? c with
    | some value => Char.ofNat (0x30 + value)
    | none => c

/-- The blanks around a numeral; the information separators are not among them. -/
def isMargin (c : Char) : Bool :=
  isBlank c && !(0x1c ≤ c.toNat && c.toNat ≤ 0x1f)

def dropMargins (s : List Char) : List Char :=
  ((s.dropWhile isMargin).reverse.dropWhile isMargin).reverse

def read? (s : String) : Option Numeral := do
  let s ← dropSeparators? none (plainDigits (dropMargins s.toList))
  let (negative, rest) := takeSign s
  if lowerWord rest == "inf" || lowerWord rest == "infinity" then return .infinite negative
  else if lowerWord rest == "nan" then return .undefined
  else readFinite? negative rest

def readWhole? (s : String) : Option Int := do
  let s ← dropSeparators? none (plainDigits (dropMargins s.toList))
  let (negative, digits) := takeSign s
  if digits.isEmpty || !digits.all isDigit then none
  else
    let size : Int := valueOfDigits digits
    return if negative then -size else size

def infinity : Float :=
  Float.ofBits 0x7ff0000000000000

def undefinedFloat : Float :=
  Float.ofBits 0x7ff8000000000000

def withSign (negative : Bool) (size : Float) : Float :=
  if negative then -size else size

/-- Below `10 ^ -330` every number rounds to zero, from `10 ^ 310` on to infinity; the bounds keep
the powers of ten that are computed small. -/
def magnitudeToFloat (digits : Nat) (exponent : Int) : Float :=
  let top := exponent + (Nat.toDigits 10 digits).length
  if digits = 0 || top < -330 then Float.ofBits 0
  else if 310 < top then infinity
  else if exponent < 0 then Float.ofScientific digits true (-exponent).toNat
  else Float.ofScientific digits false exponent.toNat

def toFloat : Numeral → Float
  | finite negative digits exponent => withSign negative (magnitudeToFloat digits exponent)
  | infinite negative => withSign negative infinity
  | undefined => undefinedFloat

def toRat? : Numeral → Option Rat
  | finite negative digits exponent =>
    let size : Rat :=
      if exponent < 0 then mkRat digits (Nat.pow 10 (-exponent).toNat)
      else ((digits * Nat.pow 10 exponent.toNat : Nat) : Int)
    some (if negative then -size else size)
  | _ => none

end Numeral

/-- The double nearest to a whole number; none when it lies beyond the finite ones. -/
def floatOfWhole? (n : Int) : Option Float :=
  let size := Numeral.magnitudeToFloat n.natAbs 0
  if size == Numeral.infinity then none else some (Numeral.withSign (n < 0) size)

class Denoted (α : Type) where
  ofNumeral? : Numeral → Option α
  ofWhole? : Int → Option α

instance : Denoted Float where
  ofNumeral? numeral := some numeral.toFloat
  ofWhole? := floatOfWhole?

instance : Denoted Rat where
  ofNumeral? := Numeral.toRat?
  ofWhole? n := some n

end EdgePlacement.Decimal
