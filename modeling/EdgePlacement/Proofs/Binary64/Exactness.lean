import EdgePlacement.Proofs.Binary64.Counting

/-!
# Exact sums are taken back exactly

A number that fits the format is not changed by rounding. Where a sum of two counters has not been
rounded, subtracting one of them again therefore gives the other one back, to the last bit.
-/

namespace EdgePlacement.Binary64

open Float.Model Float.Model.UnpackedFloat

set_option autoImplicit false

/-! ## Numbers that fit the format -/

theorem rounding_exponent_raised (mantissa places : Nat) (exponent : Int)
    (positive : 0 < mantissa) :
    roundingExponent (mantissa * 2 ^ places) (exponent - places) =
      roundingExponent mantissa exponent := by
  unfold roundingExponent
  rw [log2_mul_pow mantissa places positive]
  push_cast
  congr 1
  ring

theorem rounding_exponent_of_same_magnitude {left right : Nat} {lower upper : Int}
    (positive : 0 < left) (order : lower ≤ upper)
    (same : magnitude right lower = magnitude left upper) :
    roundingExponent right lower = roundingExponent left upper := by
  rw [magnitude_at_lower left order] at same
  have mantissas : right = left * 2 ^ (upper - lower).toNat :=
    le_antisymm ((magnitude_le_iff _ _ lower).mp same.le) ((magnitude_le_iff _ _ lower).mp same.ge)
  have exponents : lower = upper - ((upper - lower).toNat : Int) := by omega
  rw [mantissas, ← rounding_exponent_raised left (upper - lower).toNat upper positive, ← exponents]

theorem settled_rounding_exponent {mantissa : Nat} {exponent : Int}
    (settled : Settled mantissa exponent) : roundingExponent mantissa exponent = exponent := by
  obtain ⟨positive, bounded, lowest, full⟩ := settled
  have above : mantissa.log2 < 53 := (Nat.log2_lt positive.ne').mpr bounded
  unfold roundingExponent
  rcases full with top | bottom
  · have below : 52 ≤ mantissa.log2 := (Nat.le_log2 positive.ne').mpr top
    omega
  · omega

/-- What the format holds is rounded to itself, however its exponent was written. -/
theorem round_of_settled {mantissa top : Nat} {exponent topExponent : Int}
    (positive : 0 < mantissa) (settled : Settled top topExponent)
    (same : magnitude mantissa exponent = magnitude top topExponent) (sign : Sign) :
    UnpackedFloat.round Format.binary64 sign mantissa exponent =
      .finite sign top topExponent settled.positive := by
  have unit : roundingExponent mantissa exponent = topExponent := by
    rw [← settled_rounding_exponent settled]
    rcases le_total exponent topExponent with below | above
    · exact rounding_exponent_of_same_magnitude settled.positive below same
    · exact (rounding_exponent_of_same_magnitude positive above same.symm).symm
  obtain ⟨raised, places, scale, -, rounded⟩ := round_eq_shifted sign mantissa exponent positive
  have units : mantissa * 2 ^ raised = top * 2 ^ places := by
    rw [← magnitude_lower_exponent mantissa raised, scale, unit,
      ← magnitude_lower_exponent top places] at same
    exact le_antisymm ((magnitude_le_iff _ _ _).mp same.le) ((magnitude_le_iff _ _ _).mp same.ge)
  have kept : (shifted (mantissa * 2 ^ raised) places).roundedMantissa = top :=
    le_antisymm (rounded_shifted_le _ _ _ units.le) (le_rounded_shifted _ _ _ units.ge)
  rw [rounded, kept, unit, carried, dif_neg settled.positive.ne', if_pos settled.bounded]

/-! ## Sums that were not rounded -/

theorem magnitude_add (left right : Nat) (exponent : Int) :
    magnitude (left + right) exponent = magnitude left exponent + magnitude right exponent := by
  unfold magnitude
  push_cast
  ring

theorem sub_of_exact_sum {left right sum : Nat} {exponent exponent' sumExponent : Int}
    (positiveRight : 0 < right) (positiveSum : 0 < sum) (settled : Settled left exponent)
    (exact : magnitude sum sumExponent = magnitude left exponent + magnitude right exponent') :
    UnpackedFloat.sub Format.binary64 (.finite .positive sum sumExponent positiveSum)
        (.finite .positive right exponent' positiveRight) =
      .finite .positive left exponent settled.positive := by
  simp only [UnpackedFloat.sub, decreaseExponent, Nat.shiftLeft_eq, Sign.apply]
  generalize lower : min sumExponent exponent' = common
  have alignedSum := magnitude_at_lower sum (lower ▸ min_le_left sumExponent exponent')
  have alignedRight := magnitude_at_lower right (lower ▸ min_le_right sumExponent exponent')
  generalize sum * 2 ^ (sumExponent - common).toNat = whole at alignedSum ⊢
  generalize right * 2 ^ (exponent' - common).toNat = part at alignedRight ⊢
  rw [alignedSum, alignedRight] at exact
  have larger : part < whole := by
    rw [← not_le, ← magnitude_le_iff _ _ common, exact, not_le]
    exact lt_add_of_pos_left _ (magnitude_positive left exponent settled.positive)
  have whole_eq : whole = whole - part + part := by omega
  rw [whole_eq, magnitude_add] at exact
  have difference : (whole : Int) - (part : Int) = ((whole - part : Nat) : Int) := by omega
  rw [difference, normalize_positive _ _ _ (by omega)]
  exact round_of_settled (by omega) settled (add_right_cancel exact) .positive

/-! ## Counters -/

theorem word_eq_of_unpacked {left right : Float}
    (same : left.toModel.unpack = right.toModel.unpack) : left = right := by
  obtain ⟨⟨⟨left⟩, validLeft⟩⟩ := left
  obtain ⟨⟨⟨right⟩, validRight⟩⟩ := right
  have bits : left = right :=
    (unpack_inj_of_valid validLeft validRight).mp same
  subst bits
  rfl

/-- A finite counter that is not below zero; zero has its positive sign. -/
structure IsCounter (word : Float) : Prop where
  nonneg : 0 ≤ word
  finite : word.isFinite = true
  unsigned : word ≠ -0.0

theorem finite_upper_cases {unpacked : UnpackedFloat} (stored : Stored unpacked)
    (upper : Upper unpacked) (finite : unpacked.isFinite = true) :
    (∃ sign, unpacked = .zero sign) ∨
      ∃ mantissa exponent, ∃ settled : Settled mantissa exponent,
        unpacked = .finite .positive mantissa exponent settled.positive := by
  cases upper with
  | infinity => cases finite
  | zero sign => exact Or.inl ⟨sign, rfl⟩
  | finite mantissa exponent positive => exact Or.inr ⟨mantissa, exponent, stored.1, rfl⟩

theorem extent_eq_magnitude_iff {unpacked : UnpackedFloat} (upper : Upper unpacked) {size : ℝ}
    (positive : 0 < size) :
    extent unpacked = (size : EReal) ↔ ∃ mantissa exponent positive,
      unpacked = .finite .positive mantissa exponent positive ∧
        magnitude mantissa exponent = size := by
  constructor
  · intro same
    cases upper with
    | infinity => cases same
    | zero sign => exact absurd (EReal.coe_eq_zero.mp same.symm) positive.ne'
    | finite mantissa exponent above =>
        exact ⟨mantissa, exponent, above, rfl, EReal.coe_eq_coe_iff.mp same⟩
  · rintro ⟨mantissa, exponent, above, rfl, rfl⟩
    rfl

theorem sub_self_unpacked {mantissa : Nat} {exponent : Int} (positive : 0 < mantissa) :
    UnpackedFloat.sub Format.binary64 (.finite .positive mantissa exponent positive)
      (.finite .positive mantissa exponent positive) = .zero .positive := by
  simp only [UnpackedFloat.sub, sub_self]
  rfl

/-- Added to zero or by zero, numbers stay what they are; between two others, the sum is a finite
number because it is exact. -/
theorem unpacked_sub_of_exact_add {left right : UnpackedFloat} (storedLeft : Stored left)
    (storedRight : Stored right) (upperLeft : Upper left) (upperRight : Upper right)
    (finiteLeft : left.isFinite = true) (finiteRight : right.isFinite = true)
    (unsigned : left ≠ .zero .negative)
    (exact : extent (Float.Model.pack (UnpackedFloat.add Format.binary64 left right)).unpack =
      extent left + extent right) :
    (Float.Model.pack (UnpackedFloat.sub Format.binary64
      (Float.Model.pack (UnpackedFloat.add Format.binary64 left right)).unpack right)).unpack =
      left := by
  have upperSum := add_upper storedLeft storedRight upperLeft upperRight
  rcases finite_upper_cases storedLeft upperLeft finiteLeft with
    ⟨sign, rfl⟩ | ⟨mantissa, exponent, settled, rfl⟩ <;>
    rcases finite_upper_cases storedRight upperRight finiteRight with
      ⟨sign', rfl⟩ | ⟨mantissa', exponent', settled', rfl⟩
  · cases sign with
    | negative => exact absurd rfl unsigned
    | positive => cases sign' <;> rfl
  · cases sign with
    | negative => exact absurd rfl unsigned
    | positive =>
        simp only [UnpackedFloat.add]
        rw [unpack_pack_stored _ storedRight, sub_self_unpacked, unpack_pack_zero]
  · simp only [UnpackedFloat.add]
    rw [unpack_pack_stored _ storedLeft]
    simp only [UnpackedFloat.sub]
    exact unpack_pack_stored _ storedLeft
  · have total : extent (.finite .positive mantissa exponent settled.positive) +
        extent (.finite .positive mantissa' exponent' settled'.positive) =
          ((magnitude mantissa exponent + magnitude mantissa' exponent' : ℝ) : EReal) := rfl
    have above : 0 < magnitude mantissa exponent + magnitude mantissa' exponent' :=
      add_pos (magnitude_positive _ _ settled.positive) (magnitude_positive _ _ settled'.positive)
    rw [total] at exact
    obtain ⟨sum, sumExponent, positiveSum, same, size⟩ :=
      (extent_eq_magnitude_iff upperSum above).mp exact
    rw [same, sub_of_exact_sum settled'.positive positiveSum settled size]
    exact unpack_pack_stored _ storedLeft

/-- A number that was added to a counter is taken back without a trace when the sum was exact. -/
theorem sub_of_exact_add {counter number : Float} (isCounter : IsCounter counter)
    (nonneg : 0 ≤ number) (finite : number.isFinite = true)
    (exact : value (counter + number) = value counter + value number) :
    counter + number - number = counter := by
  obtain ⟨counterNonneg, counterFinite, unsigned⟩ := isCounter
  have unsigned' : counter.toModel.unpack ≠ .zero .negative :=
    fun same => unsigned (word_eq_of_unpacked same)
  apply word_eq_of_unpacked
  exact unpacked_sub_of_exact_add (unpack_stored counter.toModel) (unpack_stored number.toModel)
    ((upper_word_iff counter).mp counterNonneg) ((upper_word_iff number).mp nonneg) counterFinite
    finite unsigned' exact

theorem upper_finite_iff {unpacked : UnpackedFloat} (upper : Upper unpacked) :
    unpacked.isFinite = true ↔ extent unpacked < ⊤ := by
  cases upper with
  | infinity => exact iff_of_false Bool.false_ne_true (lt_irrefl _)
  | zero sign => exact iff_of_true rfl EReal.zero_lt_top
  | finite mantissa exponent positive => exact iff_of_true rfl (EReal.coe_lt_top _)

theorem is_finite_of_le {lesser greater : Float} (nonneg : 0 ≤ lesser) (below : lesser ≤ greater)
    (finite : greater.isFinite = true) : lesser.isFinite = true := by
  obtain ⟨_, number, values⟩ := (le_iff lesser greater).mp below
  have above : 0 ≤ value lesser := ((le_iff 0 lesser).mp nonneg).2.2
  have upperGreater : Upper greater.toModel.unpack :=
    (upper_iff greater.toModel.unpack).mpr ⟨number, above.trans values⟩
  have bounded : value greater < ⊤ := (upper_finite_iff upperGreater).mp finite
  exact (upper_finite_iff ((upper_word_iff lesser).mp nonneg)).mpr (values.trans_lt bounded)

theorem counter_zero_or_positive {counter : Float} (isCounter : IsCounter counter) :
    counter = 0 ∨ 0 < counter := by
  obtain ⟨nonneg, finite, unsigned⟩ := isCounter
  rcases finite_upper_cases (unpack_stored counter.toModel) ((upper_word_iff counter).mp nonneg)
    finite with ⟨sign, zero⟩ | ⟨mantissa, exponent, settled, same⟩
  · left
    cases sign with
    | positive => exact word_eq_of_unpacked zero
    | negative => exact absurd (word_eq_of_unpacked zero) unsigned
  · right
    have above : 0 < value counter := by
      unfold value
      rw [same]
      exact extent_finite_positive mantissa exponent settled.positive
    obtain ⟨-, number, -⟩ := (le_iff 0 counter).mp nonneg
    exact (lt_iff 0 counter).mpr ⟨zero_is_number, number, above⟩

end EdgePlacement.Binary64
