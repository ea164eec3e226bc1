import Mathlib.Data.List.GetD
import EdgePlacement.Resources

/-!
# Resources dimension by dimension

What is done to resources is done to each of their four values, and what is asked of them is asked
of each.
-/

namespace EdgePlacement

set_option autoImplicit false

variable {α : Type} [Quantity α]

/-- No component is below zero; one may be infinite or no number. -/
def Resources.NotNegative (request : Resources α) : Prop :=
  request.isNegative = false

namespace Resources

theorem get_of_fn {β : Type} (f : Dimension → β) (d : Dimension) : (ofFn f).get d = f d := by
  cases d <;> rfl

theorem get_add (r s : Resources α) (d : Dimension) : (r + s).get d = r.get d + s.get d :=
  get_of_fn _ d

theorem get_sub (r s : Resources α) (d : Dimension) : (r - s).get d = r.get d - s.get d :=
  get_of_fn _ d

theorem get_zero (d : Dimension) : (0 : Resources α).get d = 0 := by
  cases d <;> rfl

theorem get_floor_zero (r : Resources α) (d : Dimension) :
    r.floorZero.get d = Quantity.positivePart (r.get d) :=
  get_of_fn _ d

omit [Quantity α] in
theorem ext_get {r s : Resources α} (same : ∀ d, r.get d = s.get d) : r = s := by
  cases r
  cases s
  congr 1
  · exact same .storage
  · exact same .compute
  · exact same .uplink
  · exact same .downlink

theorem dimension_listed (d : Dimension) : d ∈ Dimension.all := by
  cases d <;> decide

theorem not_negative_iff (r : Resources α) : r.NotNegative ↔ ∀ d, ¬ r.get d < 0 := by
  simp [NotNegative, isNegative, dimension_listed]

theorem fits_in_iff (r capacity : Resources α) (tolerance : α) :
    r.fitsIn capacity tolerance = true ↔ ∀ d, r.get d ≤ capacity.get d + tolerance := by
  simp [fitsIn, dimension_listed]

end Resources

theorem at_every_position {β : Type} (holds : β → Prop) {entries : List β} {past : β}
    (listed : ∀ entry ∈ entries, holds entry) (unlisted : holds past) (i : Nat) :
    holds (entries.getD i past) := by
  rcases Nat.lt_or_ge i entries.length with inside | outside
  · rw [List.getD_eq_getElem _ _ inside]
    exact listed _ (List.getElem_mem inside)
  · rw [List.getD_eq_default _ _ outside]
    exact unlisted

end EdgePlacement
