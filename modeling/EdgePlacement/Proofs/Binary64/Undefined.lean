import EdgePlacement.Proofs.Binary64.Quotients

/-!
# Operations that give no number

A word that is no number compares with nothing, and nothing that is computed from it is a number.
Sums and products of finite numbers are numbers, and so are sums of numbers that are not below zero.
-/

namespace EdgePlacement.Binary64

open Float.Model Float.Model.UnpackedFloat

set_option autoImplicit false

theorem is_nan_iff (word : Float) : word.isNaN = true ↔ ¬ IsNumber word := by
  rw [is_number_iff, Bool.not_eq_false]

theorem is_nan_iff_unpacked (word : Float) :
    word.isNaN = true ↔ word.toModel.unpack = .notANumber := by
  have number : IsNumber word ↔ word.toModel.unpack ≠ .notANumber := Iff.rfl
  rw [is_nan_iff, number, not_not]

/-! ## Comparisons -/

theorem is_number_of_zero_le {word : Float} (above : 0 ≤ word) : IsNumber word :=
  ((le_iff 0 word).mp above).2.1

theorem is_number_of_finite {word : Float} (finite : word.isFinite = true) : IsNumber word := by
  intro lost
  change word.toModel.unpack.isFinite = true at finite
  rw [lost] at finite
  cases finite

theorem zero_le_of_accepted {capacity : Float} (number : capacity.isNaN = false)
    (accepted : ¬ capacity < 0) : 0 ≤ capacity := by
  have isNumber := (is_number_iff capacity).mpr number
  refine (le_iff 0 capacity).mpr ⟨zero_is_number, isNumber, not_lt.mp ?_⟩
  intro below
  exact accepted ((lt_iff capacity 0).mpr ⟨isNumber, zero_is_number, below⟩)

theorem not_exceeded_iff {word bound : Float} (number : IsNumber word)
    (boundNumber : IsNumber bound) : ¬ bound < word ↔ word ≤ bound := by
  rw [lt_iff, le_iff, ← not_lt]
  tauto

/-- A check for an excess finds none wherever one of the two is no number. -/
theorem not_exceeded_cases (word bound : Float) :
    ¬ bound < word ↔ word.isNaN = true ∨ bound.isNaN = true ∨ word ≤ bound := by
  rw [is_nan_iff, is_nan_iff, lt_iff, le_iff, ← not_lt]
  tauto

/-! ## Sums and differences -/

theorem add_is_nan {left right : Float} (lost : left.isNaN = true ∨ right.isNaN = true) :
    (left + right).isNaN = true := by
  rw [is_nan_iff_unpacked, is_nan_iff_unpacked] at lost
  rw [is_nan_iff_unpacked]
  change (Float.Model.pack (UnpackedFloat.add Format.binary64 left.toModel.unpack
    right.toModel.unpack)).unpack = .notANumber
  rcases lost with lost | lost
  · rw [lost]
    exact unpack_pack_not_a_number
  · rw [lost]
    cases left.toModel.unpack <;> exact unpack_pack_not_a_number

theorem add_is_nan_iff {left right : Float} (leftBound : left.isNaN = true ∨ 0 ≤ left)
    (rightBound : ¬ right < 0) :
    (left + right).isNaN = true ↔ left.isNaN = true ∨ right.isNaN = true := by
  constructor
  · intro lost
    by_contra numbers
    obtain ⟨leftNumber, rightNumber⟩ := not_or.mp numbers
    have leftAbove : 0 ≤ left := leftBound.resolve_left leftNumber
    have rightAbove : 0 ≤ right :=
      zero_le_of_accepted (Bool.eq_false_iff.mpr rightNumber) rightBound
    have sum := is_number_of_zero_le (zero_le_add leftAbove rightAbove)
    exact (is_nan_iff _).mp lost sum
  · exact add_is_nan

theorem sub_is_nan {left : Float} (lost : left.isNaN = true) (right : Float) :
    (left - right).isNaN = true := by
  rw [is_nan_iff_unpacked] at lost ⊢
  change (Float.Model.pack (UnpackedFloat.sub Format.binary64 left.toModel.unpack
    right.toModel.unpack)).unpack = .notANumber
  rw [lost]
  exact unpack_pack_not_a_number

theorem normalize_number (mantissa exponent : Int) (sign : Sign) :
    (Float.Model.pack
      (UnpackedFloat.normalize Format.binary64 mantissa exponent sign)).unpack ≠ .notANumber := by
  unfold UnpackedFloat.normalize
  rcases lt_trichotomy mantissa 0 with below | zero | above
  · rw [compare_lt_iff_lt.mpr below]
    exact signed_number (round_signed .negative _ _ (by omega))
  · rw [compare_eq_iff_eq.mpr zero]
    simp [unpack_pack_zero]
  · rw [compare_gt_iff_gt.mpr above]
    exact signed_number (round_signed .positive _ _ (by omega))

theorem sub_unpacked_number {left right : UnpackedFloat} (storedLeft : Stored left)
    (storedRight : Stored right) (number : left ≠ .notANumber) (number' : right ≠ .notANumber)
    (finite : left.isFinite = true ∨ right.isFinite = true) :
    (Float.Model.pack (UnpackedFloat.sub Format.binary64 left right)).unpack ≠ .notANumber := by
  cases left with
  | notANumber => exact absurd rfl number
  | infinity sign =>
      cases right with
      | notANumber => exact absurd rfl number'
      | infinity sign' => simp [UnpackedFloat.isFinite] at finite
      | zero sign' => simp [UnpackedFloat.sub, unpack_pack_infinity]
      | finite sign' mantissa' exponent' positive' =>
          simp [UnpackedFloat.sub, unpack_pack_infinity]
  | zero sign =>
      cases right with
      | notANumber => exact absurd rfl number'
      | infinity sign' => simp [UnpackedFloat.sub, unpack_pack_infinity]
      | zero sign' =>
          simp only [UnpackedFloat.sub]
          split_ifs <;> simp [unpack_pack_zero]
      | finite sign' mantissa' exponent' positive' =>
          have stored : Stored (.finite (-sign') mantissa' exponent' positive') := storedRight
          simp [UnpackedFloat.sub, unpack_pack_stored _ stored]
  | finite sign mantissa exponent positive =>
      cases right with
      | notANumber => exact absurd rfl number'
      | infinity sign' => simp [UnpackedFloat.sub, unpack_pack_infinity]
      | zero sign' => simp [UnpackedFloat.sub, unpack_pack_stored _ storedLeft]
      | finite sign' mantissa' exponent' positive' => exact normalize_number _ _ _

theorem sub_is_number {left right : Float} (number : IsNumber left) (number' : IsNumber right)
    (finite : left.isFinite = true ∨ right.isFinite = true) : IsNumber (left - right) :=
  sub_unpacked_number (unpack_stored left.toModel) (unpack_stored right.toModel) number number'
    finite

theorem zero_sub_le {word : Float} (above : 0 ≤ word) : 0 - word ≤ 0 := by
  have number := sub_is_number zero_is_number (is_number_of_zero_le above) (Or.inl rfl)
  refine (le_iff (0 - word) 0).mpr ⟨number, zero_is_number, ?_⟩
  have stored := unpack_stored word.toModel
  rw [upper_word_iff] at above
  change extent (Float.Model.pack (UnpackedFloat.sub Format.binary64 (.zero .positive)
    word.toModel.unpack)).unpack ≤ 0
  generalize word.toModel.unpack = unpacked at above stored ⊢
  cases above with
  | infinity =>
      simp only [UnpackedFloat.sub, unpack_pack_infinity]
      exact bot_le
  | zero sign =>
      simp only [UnpackedFloat.sub]
      split_ifs <;> simp [unpack_pack_zero, extent]
  | finite mantissa exponent positive =>
      have stored' : Stored (.finite (-Sign.positive) mantissa exponent positive) := stored
      simp only [UnpackedFloat.sub]
      rw [unpack_pack_stored _ stored']
      exact (extent_finite_negative mantissa exponent positive).le

/-! ## Products -/

theorem mul_is_nan {left right : Float} (lost : left.isNaN = true ∨ right.isNaN = true) :
    (left * right).isNaN = true := by
  rw [is_nan_iff_unpacked, is_nan_iff_unpacked] at lost
  rw [is_nan_iff_unpacked]
  change (Float.Model.pack (UnpackedFloat.mul Format.binary64 left.toModel.unpack
    right.toModel.unpack)).unpack = .notANumber
  rcases lost with lost | lost
  · rw [lost]
    exact unpack_pack_not_a_number
  · rw [lost]
    cases left.toModel.unpack <;> exact unpack_pack_not_a_number

theorem mul_is_number {left right : Float} (finite : left.isFinite = true)
    (finite' : right.isFinite = true) : IsNumber (left * right) := by
  have storedLeft := unpack_stored left.toModel
  have storedRight := unpack_stored right.toModel
  change left.toModel.unpack.isFinite = true at finite
  change right.toModel.unpack.isFinite = true at finite'
  change (Float.Model.pack (UnpackedFloat.mul Format.binary64 left.toModel.unpack
    right.toModel.unpack)).unpack ≠ .notANumber
  generalize left.toModel.unpack = unpacked at *
  generalize right.toModel.unpack = unpacked' at *
  rcases unpacked with _ | _ | sign | ⟨sign, mantissa, exponent, positive⟩
  · cases finite
  · cases finite
  all_goals rcases unpacked' with _ | _ | sign' | ⟨sign', mantissa', exponent', positive'⟩
  case finite.finite =>
    exact signed_number
      (round_with_accuracy_signed _ .exact (product_reached storedLeft.1 storedRight.1))
  all_goals first
    | (rw [UnpackedFloat.mul, unpack_pack_zero]; nofun)
    | cases finite'

theorem zero_le_mul {left right : Float} (leftBound : 0 ≤ left) (rightBound : 0 ≤ right)
    (number : IsNumber (left * right)) : 0 ≤ left * right := by
  rw [upper_word_iff] at leftBound rightBound ⊢
  have storedLeft := unpack_stored left.toModel
  have storedRight := unpack_stored right.toModel
  change (Float.Model.pack (UnpackedFloat.mul Format.binary64 left.toModel.unpack
    right.toModel.unpack)).unpack ≠ .notANumber at number
  change Upper (Float.Model.pack (UnpackedFloat.mul Format.binary64 left.toModel.unpack
    right.toModel.unpack)).unpack
  generalize left.toModel.unpack = unpacked at *
  generalize right.toModel.unpack = unpacked' at *
  rcases leftBound with _ | sign | ⟨mantissa, exponent, positive⟩ <;>
    rcases rightBound with _ | sign' | ⟨mantissa', exponent', positive'⟩
  case finite.finite =>
    exact signed_positive_upper
      (round_with_accuracy_signed .positive .exact (product_reached storedLeft.1 storedRight.1))
  case infinity.zero => exact absurd unpack_pack_not_a_number number
  case zero.infinity => exact absurd unpack_pack_not_a_number number
  all_goals rw [UnpackedFloat.mul]
  all_goals first
    | (rw [unpack_pack_infinity]; exact .infinity)
    | (rw [unpack_pack_zero]; exact .zero _)

end EdgePlacement.Binary64
