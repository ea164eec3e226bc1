import EdgePlacement.Proofs.Binary64.Exactness

/-!
# Products and quotients of binary64 numbers

Products and quotients of finite numbers are rounded from a mantissa that may have lost a remainder.
The result has the sign of the operation, is never undefined, and is finite unless the exact value
lies beyond the greatest finite number.
-/

namespace EdgePlacement.Binary64

open Float.Model Float.Model.UnpackedFloat

set_option autoImplicit false

/-! ## Rounding with a remainder -/

/-- The remainder counts only where the bound is met exactly. -/
def Within (accuracy : Accuracy) (mantissa bound : Nat) : Prop :=
  mantissa < bound ∨ accuracy = .exact ∧ mantissa = bound

theorem rounded_within_le {accuracy : Accuracy} {mantissa places bound : Nat}
    (within : Within accuracy mantissa (bound * 2 ^ places)) :
    (shiftedFrom accuracy mantissa places).roundedMantissa ≤ bound := by
  rcases within with below | ⟨rfl, same⟩
  · exact rounded_shifted_from_le accuracy mantissa places bound below
  · exact rounded_shifted_le mantissa places bound same.le

theorem rounded_units {mantissa : Nat} {exponent : Int} (accuracy : Accuracy)
    (reached : exponent ≤ roundingExponent mantissa exponent) :
    Rounded
      (shiftedFrom accuracy mantissa
        (roundingExponent mantissa exponent - exponent).toNat).roundedMantissa
      (roundingExponent mantissa exponent) := by
  refine ⟨rounded_units_from_le accuracy mantissa exponent,
    lowest_le_rounding_exponent mantissa exponent, ?_⟩
  by_cases bottom : roundingExponent mantissa exponent = -1074
  · exact Or.inr bottom
  · left
    have top : roundingExponent mantissa exponent = mantissa.log2 + exponent - 52 := by
      unfold roundingExponent at bottom ⊢
      omega
    have positive : mantissa ≠ 0 := by
      rintro rfl
      rw [Nat.log2_zero] at top
      omega
    apply le_rounded_shifted_from
    rw [← pow_add]
    refine (Nat.pow_le_pow_right (by decide) ?_).trans (Nat.log2_self_le positive)
    omega

theorem round_with_accuracy_signed (sign : Sign) (accuracy : Accuracy) {mantissa : Nat}
    {exponent : Int} (reached : exponent ≤ roundingExponent mantissa exponent) :
    Signed sign (Float.Model.pack
      (roundWithAccuracy Format.binary64 sign mantissa exponent accuracy)).unpack := by
  rw [round_with_accuracy_from_eq sign accuracy mantissa exponent reached]
  exact packed_carried_signed sign (rounded_units accuracy reached)

theorem packed_carried_finite (sign : Sign) {units : Nat} {unit : Int}
    (rounded : Rounded units unit) (inRange : unit ≤ 971) (room : units = 2 ^ 53 → unit < 971) :
    (Float.Model.pack (carried sign units unit)).unpack.isFinite = true := by
  have lowest := rounded.lowest
  unfold carried
  split_ifs with zero small
  · rw [unpack_pack_zero]
    rfl
  · have settled : Settled units unit :=
      ⟨Nat.pos_of_ne_zero zero, small, lowest, rounded.full⟩
    rw [unpack_pack_settled _ _ _ _ settled, if_pos inRange]
    rfl
  · have below := room (le_antisymm rounded.bounded (not_lt.mp small))
    have settled : Settled (2 ^ 52) (unit + 1) := ⟨by decide, by decide, by omega, Or.inl le_rfl⟩
    rw [unpack_pack_settled _ _ _ _ settled, if_pos (by omega)]
    rfl

/-- What does not lie beyond the greatest finite number is rounded to a finite one. -/
theorem round_with_accuracy_finite (sign : Sign) {accuracy : Accuracy} {mantissa : Nat}
    {exponent : Int} (reached : exponent ≤ roundingExponent mantissa exponent)
    (low : exponent ≤ 971)
    (within : Within accuracy mantissa ((2 ^ 53 - 1) * 2 ^ (971 - exponent).toNat)) :
    (Float.Model.pack
      (roundWithAccuracy Format.binary64 sign mantissa exponent accuracy)).unpack.isFinite =
        true := by
  have top : mantissa < 2 ^ (1024 - exponent).toNat := by
    have split : 2 ^ (1024 - exponent).toNat = 2 ^ 53 * 2 ^ (971 - exponent).toNat := by
      rw [← pow_add]
      congr 1
      omega
    have positive : 0 < 2 ^ (971 - exponent).toNat := by positivity
    rw [split]
    rcases within with below | ⟨-, same⟩ <;> omega
  have inRange : roundingExponent mantissa exponent ≤ 971 := by
    unfold roundingExponent
    by_cases zero : mantissa = 0
    · rw [zero, Nat.log2_zero]
      omega
    · have logarithm := (Nat.log2_lt zero).mpr top
      omega
  rw [round_with_accuracy_from_eq sign accuracy mantissa exponent reached]
  apply packed_carried_finite sign (rounded_units accuracy reached) inRange
  intro carry
  by_contra level
  have last : roundingExponent mantissa exponent = 971 := by omega
  rw [last] at carry
  have bounded := rounded_within_le within
  omega

/-! ## Products -/

/-- A product of stored numbers is not finer than what it is rounded to. -/
theorem product_reached {mantissa mantissa' : Nat} {exponent exponent' : Int}
    (settled : Settled mantissa exponent) (settled' : Settled mantissa' exponent') :
    exponent + exponent' ≤ roundingExponent (mantissa * mantissa') (exponent + exponent') := by
  have logarithm : ∀ {full other : Nat}, 2 ^ 52 ≤ full → 0 < other → 52 ≤ (full * other).log2 := by
    intro full other top positive
    have product : full * other ≠ 0 := by positivity
    exact (Nat.le_log2 product).mpr (top.trans (Nat.le_mul_of_pos_right full positive))
  have lowest := lowest_le_rounding_exponent (mantissa * mantissa') (exponent + exponent')
  have reached : 52 ≤ (mantissa * mantissa').log2 →
      exponent + exponent' ≤ roundingExponent (mantissa * mantissa') (exponent + exponent') := by
    unfold roundingExponent
    omega
  rcases settled.full with full | bottom
  · exact reached (logarithm full settled'.positive)
  · rcases settled'.full with full' | bottom'
    · exact reached (mul_comm mantissa' mantissa ▸ logarithm full' settled.positive)
    · omega

/-! ## Quotients -/

theorem div_core_eq (mantissa mantissa' : Nat) (exponent exponent' : Int) :
    ∃ places : Nat,
      divCore Format.binary64 mantissa exponent mantissa' exponent' =
        (mantissa * 2 ^ places / mantissa', exponent - exponent' - places,
          accuracyOfFraction (mantissa * 2 ^ places % mantissa') mantissa') ∧
      exponent - exponent' - places ≤
        max (mantissa.log2 + exponent - mantissa'.log2 - exponent' - 53) (-1074) := by
  have width : Format.binary64.mantissaBits = 53 := rfl
  have lowest : Format.binary64.minExponent = -1074 := rfl
  unfold divCore Format.targetExponent totalExponent
  rw [width, lowest]
  dsimp only
  generalize target : min (exponent - exponent') (max ((mantissa.log2 : Int) + 1 + exponent -
    (mantissa'.log2 + 1 + exponent') - (53 : Nat)) (-1074)) = unit
  refine ⟨(exponent - exponent' - unit).toNat, ?_, ?_⟩
  · rw [Nat.shiftLeft_eq]
    congr 2
    omega
  · omega

theorem quotient_reached {mantissa mantissa' : Nat} {exponent exponent' : Int} {places : Nat}
    (positive : 0 < mantissa) (positive' : 0 < mantissa')
    (fine : exponent - exponent' - places ≤
      max (mantissa.log2 + exponent - mantissa'.log2 - exponent' - 53) (-1074)) :
    exponent - exponent' - places ≤
      roundingExponent (mantissa * 2 ^ places / mantissa') (exponent - exponent' - places) := by
  unfold roundingExponent
  by_cases bottom : exponent - exponent' - places ≤ -1074
  · omega
  · have enough : mantissa'.log2 + 53 ≤ mantissa.log2 + places := by omega
    have quotient : 2 ^ (mantissa.log2 + places - mantissa'.log2 - 1) ≤
        mantissa * 2 ^ places / mantissa' := by
      rw [Nat.le_div_iff_mul_le positive']
      calc 2 ^ (mantissa.log2 + places - mantissa'.log2 - 1) * mantissa'
          ≤ 2 ^ (mantissa.log2 + places - mantissa'.log2 - 1) * 2 ^ (mantissa'.log2 + 1) :=
            Nat.mul_le_mul_left _ Nat.lt_log2_self.le
        _ = 2 ^ mantissa.log2 * 2 ^ places := by
            rw [← pow_add, ← pow_add]
            congr 1
            omega
        _ ≤ mantissa * 2 ^ places :=
            Nat.mul_le_mul_right _ (Nat.log2_self_le positive.ne')
    have nonzero : mantissa * 2 ^ places / mantissa' ≠ 0 := by
      have := Nat.one_le_two_pow.trans quotient
      omega
    have logarithm := (Nat.le_log2 nonzero).mpr quotient
    omega

theorem exact_of_no_remainder {remainder divisor : Nat} (nothing : remainder = 0) :
    accuracyOfFraction remainder divisor = .exact := by
  rw [accuracyOfFraction, if_pos nothing]

/-- The quotient that has lost its remainder is within any bound that the exact one is within. -/
theorem quotient_within {dividend divisor bound : Nat}
    (below : dividend ≤ bound * divisor) :
    Within (accuracyOfFraction (dividend % divisor) divisor) (dividend / divisor) bound := by
  have most : dividend / divisor ≤ bound := Nat.div_le_of_le_mul (by rwa [Nat.mul_comm])
  rcases most.lt_or_eq with less | same
  · exact Or.inl less
  · have whole := Nat.div_add_mod dividend divisor
    rw [same, Nat.mul_comm] at whole
    exact Or.inr ⟨exact_of_no_remainder (by omega), same⟩

theorem div_is_number {left right : UnpackedFloat} (number : left ≠ .notANumber)
    (finite : ∃ sign mantissa exponent positive, right = .finite sign mantissa exponent positive) :
    (Float.Model.pack (UnpackedFloat.div Format.binary64 left right)).unpack ≠ .notANumber := by
  obtain ⟨sign', mantissa', exponent', positive', rfl⟩ := finite
  rcases left with sign | _ | sign | ⟨sign, mantissa, exponent, positive⟩
  · rw [UnpackedFloat.div, unpack_pack_infinity]
    nofun
  · exact absurd rfl number
  · rw [UnpackedFloat.div, unpack_pack_zero]
    nofun
  · obtain ⟨places, core, fine⟩ := div_core_eq mantissa mantissa' exponent exponent'
    rw [UnpackedFloat.div, core]
    exact signed_number
      (round_with_accuracy_signed _ _ (quotient_reached positive positive' fine))

theorem quotient_of_zero (sign : Sign) (divisor : UnpackedFloat) :
    (Float.Model.pack (UnpackedFloat.div Format.binary64 (.zero sign) divisor)).unpack =
        .notANumber ∨
      ∃ sign', (Float.Model.pack (UnpackedFloat.div Format.binary64 (.zero sign) divisor)).unpack =
        .zero sign' := by
  rcases divisor with sign' | _ | sign' | ⟨sign', mantissa, exponent, positive⟩
  · exact Or.inr ⟨sign / sign', unpack_pack_zero _⟩
  · exact Or.inl unpack_pack_not_a_number
  · exact Or.inl unpack_pack_not_a_number
  · exact Or.inr ⟨sign / sign', unpack_pack_zero _⟩

/-! ## Quotients of words -/

theorem number_of_positive_divisor {left right : Float} (number : IsNumber left)
    (positive : 0 < right) (finite : right.isFinite = true) : IsNumber (left / right) := by
  obtain ⟨-, rightNumber, above⟩ := (lt_iff 0 right).mp positive
  have upper : Upper right.toModel.unpack := (upper_iff _).mpr ⟨rightNumber, above.le⟩
  rcases finite_upper_cases (unpack_stored right.toModel) upper finite with
    ⟨sign, zero⟩ | ⟨mantissa, exponent, settled, same⟩
  · unfold value at above
    rw [zero] at above
    exact absurd above (lt_irrefl _)
  · exact div_is_number number ⟨_, _, _, _, same⟩

theorem positive_of_quotient {word divisor : Float} (quotient : 0 < word / divisor)
    (notBelow : ¬ word < 0) : 0 < word := by
  obtain ⟨-, number, above⟩ := (lt_iff 0 (word / divisor)).mp quotient
  change (Float.Model.pack (UnpackedFloat.div Format.binary64 word.toModel.unpack
    divisor.toModel.unpack)).unpack ≠ .notANumber at number
  change 0 < extent (Float.Model.pack (UnpackedFloat.div Format.binary64 word.toModel.unpack
    divisor.toModel.unpack)).unpack at above
  rcases (not_below_word_iff word).mp notBelow with noNumber | upper
  · rw [noNumber] at number
    exact absurd unpack_pack_not_a_number number
  · rw [lt_iff]
    refine ⟨zero_is_number, ((upper_iff _).mp upper).1, ?_⟩
    unfold value
    generalize word.toModel.unpack = unpacked at upper number above ⊢
    cases upper with
    | infinity => exact EReal.zero_lt_top
    | finite mantissa exponent positive => exact extent_finite_positive mantissa exponent positive
    | zero sign =>
        rcases quotient_of_zero sign divisor.toModel.unpack with none | ⟨sign', zero⟩
        · exact absurd none number
        · rw [zero] at above
          exact absurd above (lt_irrefl _)

end EdgePlacement.Binary64
