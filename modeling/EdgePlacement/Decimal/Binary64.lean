/-!
# Binary64 numbers taken apart

A finite binary64 number is `mantissa · 2 ^ exponent` with a sign; the numbers above and below it
are one unit of the mantissa away, except below a power of two.
-/

namespace EdgePlacement.Decimal

structure Binary64 where
  negative : Bool
  mantissa : Nat
  exponent : Int
  deriving DecidableEq

inductive Binary64.Class where
  | finite (value : Binary64)
  | infinite (negative : Bool)
  | undefined
  deriving DecidableEq

/-- Subnormal numbers share the exponent of the smallest normal ones. -/
def Binary64.classify (x : Float) : Binary64.Class :=
  let bits : Nat := x.toBits.toNat
  let negative := bits / Nat.pow 2 63 == 1
  let field : Nat := bits / Nat.pow 2 52 % Nat.pow 2 11
  let fraction : Nat := bits % Nat.pow 2 52
  if field == 2047 then
    if fraction == 0 then .infinite negative else .undefined
  else if field == 0 then .finite ⟨negative, fraction, -1074⟩
  else .finite ⟨negative, fraction + Nat.pow 2 52, (field : Int) - 1075⟩

def isFinite (x : Float) : Bool :=
  match Binary64.classify x with
  | .finite _ => true
  | _ => false

def exactValue? (x : Float) : Option Rat :=
  match Binary64.classify x with
  | .finite ⟨negative, mantissa, exponent⟩ =>
    let size : Rat :=
      if 0 ≤ exponent then ((mantissa * Nat.pow 2 exponent.toNat : Nat) : Int)
      else mkRat mantissa (Nat.pow 2 (-exponent).toNat)
    some (if negative then -size else size)
  | _ => none

end EdgePlacement.Decimal
