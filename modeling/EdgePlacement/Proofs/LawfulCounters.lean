import EdgePlacement.Proofs.Binary64.Counting
import EdgePlacement.Quantity

/-!
# The laws that counters rely on

Usage and used bandwidth are counted in quantities that may be rounded and may be no number at all.
The laws are the little that keeps such a counter between zero and its capacity; they hold of the
binary64 numbers as they do of the rationals.
-/

namespace EdgePlacement

set_option autoImplicit false

/-- A right operand that is merely not below zero may be incomparable with it. -/
class LawfulCounter (α : Type) [Quantity α] : Prop where
  zero_le_zero : (0 : α) ≤ 0
  trans : ∀ a b c : α, a ≤ b → b ≤ c → a ≤ c
  le_of_lt : ∀ a b : α, a < b → a ≤ b
  within_of_fits : ∀ a capacity : α, a ≤ capacity + 0 → a ≤ capacity
  sum_above : ∀ a b bound : α, 0 ≤ a → ¬ b < 0 → a + b ≤ bound → 0 ≤ a + b
  sum_within : ∀ a b capacity : α, 0 ≤ a → 0 ≤ b → 0 ≤ capacity → ¬ capacity < a + b →
    a + b ≤ capacity
  difference_within : ∀ a b : α, 0 ≤ a → ¬ b < 0 → 0 < a - b → a - b ≤ a
  not_below : ∀ a : α, 0 ≤ a → ¬ a < 0

instance : LawfulCounter Float where
  zero_le_zero := (Binary64.le_iff 0 0).mpr
    ⟨Binary64.zero_is_number, Binary64.zero_is_number, le_rfl⟩
  trans a b c lower upper := by
    obtain ⟨number, -, below⟩ := (Binary64.le_iff a b).mp lower
    obtain ⟨-, number', below'⟩ := (Binary64.le_iff b c).mp upper
    exact (Binary64.le_iff a c).mpr ⟨number, number', below.trans below'⟩
  le_of_lt a b less := by
    obtain ⟨number, number', below⟩ := (Binary64.lt_iff a b).mp less
    exact (Binary64.le_iff a b).mpr ⟨number, number', below.le⟩
  within_of_fits _ _ := Binary64.le_of_le_add_zero
  sum_above a b bound above notBelow within :=
    Binary64.zero_le_add_of_number above notBelow ((Binary64.le_iff (a + b) bound).mp within).1
  sum_within a b capacity above above' capacityAbove notExceeded := by
    have number := ((Binary64.le_iff 0 (a + b)).mp (Binary64.zero_le_add above above')).2.1
    have capacityNumber := ((Binary64.le_iff 0 capacity).mp capacityAbove).2.1
    refine (Binary64.le_iff (a + b) capacity).mpr ⟨number, capacityNumber, not_lt.mp ?_⟩
    intro exceeded
    exact notExceeded ((Binary64.lt_iff capacity (a + b)).mpr ⟨capacityNumber, number, exceeded⟩)
  difference_within _ _ := Binary64.sub_le_self
  not_below a above below := by
    obtain ⟨-, -, atLeast⟩ := (Binary64.le_iff 0 a).mp above
    obtain ⟨-, -, less⟩ := (Binary64.lt_iff a 0).mp below
    exact absurd less (not_lt.mpr atLeast)

instance : LawfulCounter Rat where
  zero_le_zero := le_refl (0 : Rat)
  trans a b c lower upper := le_trans (a := a) lower upper
  le_of_lt a b less := LT.lt.le (a := a) less
  within_of_fits a capacity within := by
    change a ≤ capacity
    exact (add_zero capacity : capacity + 0 = capacity) ▸ within
  sum_above a b bound above notBelow within := add_nonneg (a := a) above (not_lt.mp notBelow)
  sum_within a b capacity _ _ _ notExceeded := not_lt.mp notExceeded
  difference_within a b _ notBelow _ := sub_le_self a (not_lt.mp notBelow)
  not_below a above below := lt_irrefl a (LT.lt.trans_le (a := a) below above)

namespace Quantity

theorem positive_part_eq_max (v : Rat) : positivePart v = max 0 v := by
  unfold positivePart
  change (if (0 : Rat) < v then v else 0) = max 0 v
  split_ifs with positive
  · exact (max_eq_right positive.le).symm
  · exact (max_eq_left (not_lt.mp positive)).symm

variable {α : Type} [Quantity α] [LawfulCounter α]

theorem positive_part_above (v : α) : 0 ≤ positivePart v := by
  unfold positivePart
  split_ifs with positive
  · exact LawfulCounter.le_of_lt 0 v positive
  · exact LawfulCounter.zero_le_zero

theorem lift_not_below (v : α) : ¬ liftToZero v < 0 := by
  unfold liftToZero
  split_ifs with below
  · exact LawfulCounter.not_below 0 LawfulCounter.zero_le_zero
  · exact below

theorem positive_part_difference_within (a b : α) (above : 0 ≤ a) (notBelow : ¬ b < 0) :
    positivePart (a - b) ≤ a := by
  unfold positivePart
  split_ifs with positive
  · exact LawfulCounter.difference_within a b above notBelow positive
  · exact above

end Quantity
end EdgePlacement
