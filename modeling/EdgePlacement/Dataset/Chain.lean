import EdgePlacement.Decimal.Numeral
import EdgePlacement.Random.MersenneTwister
import EdgePlacement.Service

/-!
# Demands along a chain of services

One demand from each service to the next, its bandwidth a whole number drawn from a range.
-/

namespace EdgePlacement

open EdgePlacement.Decimal EdgePlacement.Random

structure WholeRange where
  low : Int
  high : Int

namespace WholeRange

def size (range : WholeRange) : Nat :=
  (range.high - range.low).toNat

/-- Half of the draws at least are below any bound: so many misses do not happen. -/
def drawLimit : Nat := 4096

def draw {α : Type} (range : WholeRange) (g : MersenneTwister) :
    Except (Fault α) (Int × MersenneTwister) :=
  if range.size = 0 then .error .emptyRange
  else
    match g.below? range.size drawLimit with
    | some (drawn, g) => .ok (range.low + drawn, g)
    | none => .error .drawsExhausted

end WholeRange

def chainBandwidths : WholeRange := ⟨10, 60⟩

variable {α : Type} [Quantity α] [Denoted α]

def chainFrom (range : WholeRange) : List (String × String) → MersenneTwister →
    Except (Fault α) (List (Demand α))
  | [], _ => .ok []
  | (source, target) :: rest, g => do
    let (drawn, g) ← range.draw g
    match Denoted.ofWhole? drawn with
    | none => .error .numberTooLarge
    | some bandwidth =>
      let demand ← Demand.checked ⟨source, target, bandwidth⟩
      return demand :: (← chainFrom range rest g)

/-- Without a seed the draws begin wherever `unseeded` does. -/
def chainDemands (names : List String) (range : WholeRange) (unseeded : MersenneTwister)
    (seed : Option Int) : Except (Fault α) (List (Demand α)) :=
  chainFrom range (names.zip names.tail) ((seed.map MersenneTwister.ofSeed).getD unseeded)

end EdgePlacement
