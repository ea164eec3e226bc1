import EdgePlacement.Proofs.Binary64.Rounding

/-!
# The order of binary64 numbers

The comparisons of binary64 numbers are the comparisons of the extended real numbers that they stand
for, and hold of no pair in which one of the two is not a number.
-/

namespace EdgePlacement.Binary64

open Float.Model Float.Model.UnpackedFloat

set_option autoImplicit false

/-- The extended real number that an unpacked number stands for. What is not a number gets a value
that no statement uses. -/
noncomputable def extent : UnpackedFloat → EReal
  | .infinity .positive => ⊤
  | .infinity .negative => ⊥
  | .notANumber => 0
  | .zero _ => 0
  | .finite .positive mantissa exponent _ => (magnitude mantissa exponent : ℝ)
  | .finite .negative mantissa exponent _ => ((-magnitude mantissa exponent : ℝ) : EReal)

theorem magnitude_lt_of_exponent_lt {left right : Nat} {lower upper : Int}
    (settledLeft : Settled left lower) (settledRight : Settled right upper)
    (exponents : lower < upper) : magnitude left lower < magnitude right upper := by
  have top : 2 ^ 52 ≤ right := by
    rcases settledRight.full with full | lowest
    · exact full
    · have := settledLeft.lowest
      omega
  have aligned : magnitude right upper =
      magnitude (right * 2 ^ (upper - lower).toNat) lower := by
    rw [← magnitude_lower_exponent right (upper - lower).toNat upper]
    congr 1
    omega
  have doubled : 2 ≤ 2 ^ (upper - lower).toNat := Nat.le_self_pow (by omega) 2
  rw [aligned, ← not_le, magnitude_le_iff, not_le]
  calc left < 2 ^ 52 * 2 := settledLeft.bounded
    _ ≤ right * 2 ^ (upper - lower).toNat := Nat.mul_le_mul top doubled

theorem compare_magnitudes (left right : Nat) (exponent : Int) :
    compare (magnitude left exponent) (magnitude right exponent) = compare left right := by
  have ascending : StrictMono fun mantissa : Nat => magnitude mantissa exponent := by
    intro lesser greater below
    exact lt_of_not_ge fun above => absurd ((magnitude_le_iff _ _ exponent).mp above) (by omega)
  rw [← cmp_eq_compare, ← cmp_eq_compare]
  exact ascending.cmp_map_eq left right

theorem compare_settled {left right : Nat} {lower upper : Int}
    (settledLeft : Settled left lower) (settledRight : Settled right upper) :
    (compare lower upper).then (compare left right) =
      compare (magnitude left lower) (magnitude right upper) := by
  rcases lt_trichotomy lower upper with below | same | above
  · rw [compare_lt_iff_lt.mpr below,
      compare_lt_iff_lt.mpr (magnitude_lt_of_exponent_lt settledLeft settledRight below)]
    rfl
  · subst same
    rw [compare_eq_iff_eq.mpr rfl]
    exact (compare_magnitudes left right lower).symm
  · rw [compare_gt_iff_gt.mpr above,
      compare_gt_iff_gt.mpr (magnitude_lt_of_exponent_lt settledRight settledLeft above)]
    rfl

theorem extent_finite_positive (mantissa : Nat) (exponent : Int) (positive : 0 < mantissa) :
    0 < extent (.finite .positive mantissa exponent positive) :=
  EReal.coe_pos.mpr (magnitude_positive mantissa exponent positive)

theorem extent_finite_negative (mantissa : Nat) (exponent : Int) (positive : 0 < mantissa) :
    extent (.finite .negative mantissa exponent positive) < 0 :=
  EReal.coe_neg'.mpr (neg_lt_zero.mpr (magnitude_positive mantissa exponent positive))

theorem compare_stored {left right : UnpackedFloat} (storedLeft : Stored left)
    (storedRight : Stored right) (number : left ≠ .notANumber) (number' : right ≠ .notANumber) :
    left.compare right = some (compare (extent left) (extent right)) := by
  rcases left with ⟨⟨⟩⟩ | _ | _ | ⟨⟨⟩, mantissa, exponent, positive⟩ <;>
    rcases right with ⟨⟨⟩⟩ | _ | _ | ⟨⟨⟩, mantissa', exponent', positive'⟩
  all_goals try contradiction
  all_goals simp only [UnpackedFloat.compare]
  all_goals first | rfl | congr 1
  all_goals first
    | (symm; rw [compare_lt_iff_lt]) | (symm; rw [compare_gt_iff_gt]) | skip
  -- What is left: equal zeros, zeros beside finite numbers, and two finite numbers.
  · exact (compare_eq_iff_eq.mpr rfl).symm
  · exact extent_finite_negative mantissa' exponent' positive'
  · exact extent_finite_positive mantissa' exponent' positive'
  · exact extent_finite_negative mantissa exponent positive
  · have descending : StrictAnti fun size : ℝ => ((-size : ℝ) : EReal) :=
      fun _ _ smaller => EReal.coe_lt_coe_iff.mpr (neg_lt_neg smaller)
    rw [compare_settled storedLeft.1 storedRight.1, ← cmp_eq_compare, ← cmp_eq_compare, cmp_swap]
    exact (descending.cmp_map_eq _ _).symm
  · exact (extent_finite_negative mantissa exponent positive).trans
      (extent_finite_positive mantissa' exponent' positive')
  · exact extent_finite_positive mantissa exponent positive
  · exact (extent_finite_negative mantissa' exponent' positive').trans
      (extent_finite_positive mantissa exponent positive)
  · rw [compare_settled storedLeft.1 storedRight.1, ← cmp_eq_compare, ← cmp_eq_compare]
    exact (EReal.coe_strictMono.cmp_map_eq _ _).symm

theorem unpacked_le_iff {left right : UnpackedFloat} (storedLeft : Stored left)
    (storedRight : Stored right) :
    left.le right = true ↔
      left ≠ .notANumber ∧ right ≠ .notANumber ∧ extent left ≤ extent right := by
  by_cases number : left = .notANumber
  · subst number
    simp [UnpackedFloat.le, UnpackedFloat.compare]
  by_cases number' : right = .notANumber
  · subst number'
    cases left <;> simp [UnpackedFloat.le, UnpackedFloat.compare]
  rw [UnpackedFloat.le, compare_stored storedLeft storedRight number number']
  simp only [ne_eq, number, number', not_false_eq_true, true_and, Option.any_some]
  exact Ordering.isLE_iff_ne_gt.trans compare_le_iff_le

theorem unpacked_lt_iff {left right : UnpackedFloat} (storedLeft : Stored left)
    (storedRight : Stored right) :
    left.lt right = true ↔
      left ≠ .notANumber ∧ right ≠ .notANumber ∧ extent left < extent right := by
  by_cases number : left = .notANumber
  · subst number
    simp [UnpackedFloat.lt, UnpackedFloat.compare]
  by_cases number' : right = .notANumber
  · subst number'
    cases left <;> simp [UnpackedFloat.lt, UnpackedFloat.compare]
  rw [UnpackedFloat.lt, compare_stored storedLeft storedRight number number']
  simp only [ne_eq, number, number', not_false_eq_true, true_and, beq_iff_eq, Option.some.injEq]
  exact compare_lt_iff_lt

/-! ## Words -/

noncomputable def value (word : Float) : EReal :=
  extent word.toModel.unpack

def IsNumber (word : Float) : Prop :=
  word.toModel.unpack ≠ .notANumber

theorem is_number_iff (word : Float) : IsNumber word ↔ word.isNaN = false := by
  change word.toModel.unpack ≠ .notANumber ↔ word.toModel.unpack.isNaN = false
  rw [ne_eq, ← UnpackedFloat.isNaN_iff, Bool.not_eq_true]

theorem le_iff (left right : Float) :
    left ≤ right ↔ IsNumber left ∧ IsNumber right ∧ value left ≤ value right := by
  change decide (left.toModel ≤ right.toModel) = true ↔ _
  rw [decide_eq_true_iff]
  exact unpacked_le_iff (unpack_stored left.toModel) (unpack_stored right.toModel)

theorem lt_iff (left right : Float) :
    left < right ↔ IsNumber left ∧ IsNumber right ∧ value left < value right := by
  change decide (left.toModel < right.toModel) = true ↔ _
  rw [decide_eq_true_iff]
  exact unpacked_lt_iff (unpack_stored left.toModel) (unpack_stored right.toModel)

theorem beq_iff {left right : Float} (number : IsNumber left) (number' : IsNumber right) :
    (left == right) = true ↔ value left = value right := by
  change left.toModel.unpack.beq right.toModel.unpack = true ↔ _
  rw [UnpackedFloat.beq, compare_stored (unpack_stored _) (unpack_stored _) number number',
    beq_iff_eq, Option.some.injEq, compare_eq_iff_eq]
  rfl

theorem zero_is_number : IsNumber 0 := by
  intro absurdity
  cases absurdity

theorem value_zero : value 0 = 0 := rfl

end EdgePlacement.Binary64
