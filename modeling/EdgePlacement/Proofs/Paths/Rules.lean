import Mathlib.Algebra.Order.Ring.Rat
import Mathlib.Algebra.Order.AbsoluteValue.Basic
import Mathlib.Tactic.Linarith
import EdgePlacement.Network.Paths
import EdgePlacement.Proofs.Paths.LeastCosts

/-!
# The two cost rules are exact

Counts of links are exact, and so are latencies where they are rational. Whether two latencies tie
is not transitive; but what lies between the least latency and one that ties with it ties as well.
-/

namespace EdgePlacement

set_option autoImplicit false

theorem hop_rule_exact : hopRule.Exact where
  start := rfl
  add _ _ := rfl
  less _ _ := rfl
  tiedSelf best := by simp [hopRule]
  tiedBetween best a b _ least between tied := by
    have same : b = best := by simpa [hopRule] using tied
    have between' : a = best := le_antisymm (between.trans same.le) least
    simpa [hopRule] using between'

namespace Quantity

def IsClose (tolerance a b : Rat) : Prop :=
  |a - b| ≤ max (tolerance * max |a| |b|) tolerance

theorem magnitude_eq_abs (v : Rat) : magnitude v = |v| := by
  have below : (v < (Zero.zero : Rat)) = (v < 0) := rfl
  unfold magnitude
  change (if v < 0 then (0 : Rat) - v else v) = |v|
  split_ifs with negative
  · rw [abs_of_neg negative, zero_sub]
  · rw [abs_of_nonneg (not_lt.mp negative)]

theorem tied_iff (tolerance a b : Rat) :
    tied tolerance a b = true ↔
      a = b ∨ |b - a| ≤ |tolerance| * |b| ∨ |b - a| ≤ |tolerance| * |a| ∨ |b - a| ≤ tolerance := by
  have finite : (|b - a| - |b - a| == (0 : Rat)) = true := by simp
  unfold tied
  simp only [magnitude_eq_abs]
  change (if (a == b) = true then true
    else if (|b - a| - |b - a| == (0 : Rat)) = true then
      decide (|b - a| ≤ |tolerance * b|) || decide (|b - a| ≤ |tolerance * a|) ||
        decide (|b - a| ≤ tolerance)
    else false) = true ↔ _
  rw [if_pos finite, abs_mul, abs_mul]
  by_cases same : a = b
  · simp [same]
  · simp [same, or_assoc]

theorem tied_iff_is_close {tolerance : Rat} (nonneg : 0 ≤ tolerance) (a b : Rat) :
    tied tolerance a b = true ↔ IsClose tolerance a b := by
  unfold IsClose
  rw [tied_iff, abs_of_nonneg nonneg, abs_sub_comm b a, le_max_iff,
    mul_max_of_nonneg _ _ nonneg, le_max_iff]
  constructor
  · rintro (rfl | right | left | flat)
    · exact Or.inr (by simpa using nonneg)
    · exact Or.inl (Or.inr right)
    · exact Or.inl (Or.inl left)
    · exact Or.inr flat
  · rintro ((left | right) | flat)
    · exact Or.inr (Or.inr (Or.inl left))
    · exact Or.inr (Or.inl right)
    · exact Or.inr (Or.inr (Or.inr flat))

/-- Against a relative tolerance of at least one everything ties; against a lower one the gap to
the best cost grows more slowly than the bound falls. -/
theorem tied_between (tolerance best a b : Rat) (bestNonneg : 0 ≤ best) (least : best ≤ a)
    (between : a ≤ b) (tiedUpper : tied tolerance b best = true) :
    tied tolerance a best = true := by
  rw [tied_iff] at tiedUpper ⊢
  have aNonneg : 0 ≤ a := bestNonneg.trans least
  have bNonneg : 0 ≤ b := aNonneg.trans between
  rw [abs_sub_comm, abs_of_nonneg bestNonneg, abs_of_nonneg bNonneg,
    abs_of_nonneg (sub_nonneg.mpr (least.trans between))] at tiedUpper
  rw [abs_sub_comm, abs_of_nonneg bestNonneg, abs_of_nonneg aNonneg,
    abs_of_nonneg (sub_nonneg.mpr least)]
  have gap : a - best ≤ b - best := sub_le_sub_right between best
  rcases tiedUpper with same | toBest | toUpper | flat
  · exact Or.inl (le_antisymm (between.trans same.le) least)
  · exact Or.inr (Or.inl (gap.trans toBest))
  · refine Or.inr (Or.inr (Or.inl ?_))
    by_cases wide : 1 ≤ |tolerance|
    · nlinarith
    · nlinarith
  · exact Or.inr (Or.inr (Or.inr (gap.trans flat)))

end Quantity

theorem latency_rule_exact (t : Topology Rat) : t.latencyRule.Exact where
  start := rfl
  add _ _ := rfl
  less _ _ := rfl
  tiedSelf best := (Quantity.tied_iff t.tieTolerance best best).mpr (Or.inl rfl)
  tiedBetween := Quantity.tied_between t.tieTolerance

end EdgePlacement
