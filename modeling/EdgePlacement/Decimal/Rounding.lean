/-!
# Rounding a quotient

The whole number nearest to a quotient, a half going to the even neighbour.
-/

namespace EdgePlacement.Decimal

def roundHalfEven (num den : Nat) : Nat :=
  let down := num / den
  let rest := num % den
  if 2 * rest < den then down
  else if den < 2 * rest then down + 1
  else if down % 2 == 0 then down
  else down + 1

end EdgePlacement.Decimal
