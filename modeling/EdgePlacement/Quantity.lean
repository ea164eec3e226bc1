/-!
# Quantities

The numbers in which capacities, requirements, latencies and fractions are given. Every rule of the
library is written over the operations of `Quantity` alone: it runs on binary64 numbers, where sums
are rounded and some comparisons hold of no value, and it can be reasoned about on the rationals,
where they are exact.
-/

namespace EdgePlacement

class Quantity (α : Type) extends
    Zero α, One α, Add α, Sub α, Mul α, Div α, LT α, LE α, BEq α, OfScientific α where
  decidableLT : ∀ a b : α, Decidable (a < b)
  decidableLE : ∀ a b : α, Decidable (a ≤ b)

attribute [reducible, instance] Quantity.decidableLT Quantity.decidableLE

instance : Quantity Float where
  toZero := Zero.ofOfNat0
  toOne := One.ofOfNat1
  toAdd := instAddFloat
  toSub := instSubFloat
  toMul := instMulFloat
  toDiv := instDivFloat
  toLT := instLTFloat
  toLE := instLEFloat
  toBEq := instBEqFloat
  toOfScientific := instOfScientificFloat
  decidableLT := Float.decLt
  decidableLE := Float.decLe

instance : Quantity Rat where
  toZero := Zero.ofOfNat0
  toOne := One.ofOfNat1
  toAdd := Rat.instAdd
  toSub := Rat.instSub
  toMul := Rat.instMul
  toDiv := Rat.instDiv
  toLT := Rat.instLT
  toLE := Rat.instLE
  toBEq := instBEqOfDecidableEq
  toOfScientific := Rat.instOfScientific
  decidableLT := Rat.instDecidableLt
  decidableLE := Rat.instDecidableLe

namespace Quantity

variable {α : Type} [Quantity α]

def ofNat (n : Nat) : α :=
  OfScientific.ofScientific n false 0

/-- A value that is not above zero, or not comparable with it, counts as zero. -/
def positivePart (v : α) : α :=
  if 0 < v then v else 0

/-- The value moved up to zero when it is below; a value not comparable with zero stays. -/
def liftToZero (v : α) : α :=
  if v < 0 then 0 else v

def clipToUnit (v : α) : α :=
  if v < 0 then 0 else if 1 < v then 1 else v

def magnitude (v : α) : α :=
  if v < 0 then 0 - v else v

/-- The sum from left to right, starting at zero. -/
def total (values : List α) : α :=
  values.foldl (· + ·) 0

/-- The first of the values that no later one exceeds by the time it is met; zero if there is
none. -/
def largest : List α → α
  | [] => 0
  | first :: rest => rest.foldl (fun best v => if best < v then v else best) first

/-- Values that differ decide an order between two items; equal ones leave it to `next`. -/
def precedesOr (a b : α) (next : Bool) : Bool :=
  if a == b then next else decide (a < b)

/-- Two costs are tied when they are equal or differ by at most `tolerance`, taken both as a bound
and relative to either of them. An infinite cost ties only with an equal one. -/
def tied (tolerance a b : α) : Bool :=
  if a == b then true
  else
    let gap := magnitude (b - a)
    if gap - gap == 0 then
      gap ≤ magnitude (tolerance * b) || gap ≤ magnitude (tolerance * a) || gap ≤ tolerance
    else false

end Quantity
end EdgePlacement
