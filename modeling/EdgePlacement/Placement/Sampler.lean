import EdgePlacement.Quantity
import EdgePlacement.Random.Pcg

/-!
# Sampling one of several alternatives

A sampler takes one draw from a generator and picks an alternative by its share. Shares that it does
not admit are refused before a draw is used.
-/

namespace EdgePlacement

/-- `σ` is the state of the generator and `δ` a draw. -/
structure Sampler (α σ δ : Type) where
  ofSeed? : Int → Option σ
  draw : σ → δ × σ
  admits : Nat → List α → Bool
  pick : List α → δ → Nat

namespace Sampler

variable {α : Type} [Quantity α]

def runningSums (start : α) : List α → List α
  | [] => []
  | share :: rest => (start + share) :: runningSums (start + share) rest

/-- The bounds of the alternatives in the unit interval: the running sums, scaled so that the last
one is one. -/
def bounds (shares : List α) : List α :=
  let sums := runningSums 0 shares
  match sums.getLast? with
  | some all => sums.map (· / all)
  | none => []

/-- Goes on with a sum and with what the rounding of its last step has added to it too much. -/
def compensatedFrom (sum excess : α) : List α → α
  | [] => sum
  | share :: rest =>
    let step := share - excess
    let next := sum + step
    compensatedFrom next ((next - sum) - step) rest

def compensatedTotal : List α → α
  | [] => 0
  | share :: rest => compensatedFrom share 0 rest

/-- Each alternative has one share, none of them negative, and all together make one but for
rounding. -/
def shareTest (count : Nat) (shares : List α) : Bool :=
  shares.length == count && !(shares.any fun share => decide (share < 0)) &&
    decide (Quantity.magnitude (compensatedTotal shares - 1) ≤ 1.4901161193847656e-08)

def stretchOf (shares : List α) (drawn : α) : Nat :=
  ((bounds shares).filter fun bound => decide (bound ≤ drawn)).length

end Sampler

def pcgSampler : Sampler Float Random.Pcg Float where
  ofSeed? seed := if seed < 0 then none else some (Random.Pcg.ofSeed seed.toNat)
  draw := Random.Pcg.unit
  admits := Sampler.shareTest
  pick := Sampler.stretchOf

end EdgePlacement
