/-!
# Whole numbers as text
-/

namespace EdgePlacement.Decimal

def signText (negative : Bool) : String :=
  if negative then "-" else ""

def countText (n : Nat) : String :=
  String.ofList (Nat.toDigits 10 n)

def wholeText (n : Int) : String :=
  signText (n < 0) ++ countText n.natAbs

end EdgePlacement.Decimal
