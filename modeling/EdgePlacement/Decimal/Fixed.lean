import EdgePlacement.Decimal.Rounding
import EdgePlacement.Decimal.Shortest

/-!
# Numbers with a fixed count of decimal places

The exact value of a binary64 number, rounded to a count of places; a half goes to the even
neighbour.
-/

namespace EdgePlacement.Decimal

def placePoint (places : Nat) (units : Nat) : List Char :=
  let digits := Nat.toDigits 10 units
  let padded := zeros (places + 1 - digits.length) ++ digits
  if places = 0 then padded
  else
    let wholeCount := padded.length - places
    padded.take wholeCount ++ ['.'] ++ padded.drop wholeCount

/-- `mantissa · 2 ^ exponent` in units of the last place. -/
def unitsOfPlace (places : Nat) (mantissa : Nat) (exponent : Int) : Nat :=
  roundHalfEven (mantissa * Nat.pow 10 places * Nat.pow 2 exponent.toNat)
    (Nat.pow 2 (-exponent).toNat)

def fixedText (places : Nat) (x : Float) : String :=
  match Binary64.classify x with
  | .undefined => plainLayout.undefinedWord
  | .infinite negative => signText negative ++ plainLayout.infiniteWord
  | .finite ⟨negative, mantissa, exponent⟩ =>
    signText negative ++ String.ofList (placePoint places (unitsOfPlace places mantissa exponent))

/-- Zeros at the end of the fraction dropped; the point stays. -/
def trimFraction (text : List Char) : List Char :=
  if text.contains '.' then (text.reverse.dropWhile (· = '0')).reverse else text

end EdgePlacement.Decimal
