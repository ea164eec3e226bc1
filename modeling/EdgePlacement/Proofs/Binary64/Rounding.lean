import EdgePlacement.Proofs.Binary64.Packing

/-!
# Rounding to binary64

A positive number `mantissa * 2 ^ exponent` is rounded in units of `2 ^ roundingExponent`. The count
of units never passes a whole number that the exact value did not pass, which is all that the order
of rounded results needs.
-/

namespace EdgePlacement.Binary64

open Float.Model Float.Model.UnpackedFloat

set_option autoImplicit false

noncomputable def magnitude (mantissa : Nat) (exponent : Int) : ℝ :=
  mantissa * (2 : ℝ) ^ exponent

theorem magnitude_lower_exponent (mantissa places : Nat) (exponent : Int) :
    magnitude (mantissa * 2 ^ places) (exponent - places) = magnitude mantissa exponent := by
  unfold magnitude
  rw [Nat.cast_mul, Nat.cast_pow, Nat.cast_ofNat, mul_assoc, ← zpow_natCast,
    ← zpow_add₀ (by norm_num : (2 : ℝ) ≠ 0)]
  congr 2
  ring

theorem magnitude_at_lower (mantissa : Nat) {lower exponent : Int} (order : lower ≤ exponent) :
    magnitude mantissa exponent =
      magnitude (mantissa * 2 ^ (exponent - lower).toNat) lower := by
  rw [← magnitude_lower_exponent mantissa (exponent - lower).toNat exponent]
  congr 1
  omega

theorem magnitude_le_iff (left right : Nat) (exponent : Int) :
    magnitude left exponent ≤ magnitude right exponent ↔ left ≤ right := by
  have unit : (0 : ℝ) < (2 : ℝ) ^ exponent := by positivity
  unfold magnitude
  rw [mul_le_mul_iff_left₀ unit, Nat.cast_le]

theorem magnitude_pow (places : Nat) (exponent : Int) :
    magnitude (2 ^ places) exponent = (2 : ℝ) ^ (places + exponent) := by
  unfold magnitude
  rw [zpow_add₀ (by norm_num : (2 : ℝ) ≠ 0), zpow_natCast, Nat.cast_pow, Nat.cast_ofNat]

theorem magnitude_zero (exponent : Int) : magnitude 0 exponent = 0 := by
  simp [magnitude]

theorem magnitude_one (exponent : Int) : magnitude 1 exponent = (2 : ℝ) ^ exponent := by
  simp [magnitude]

theorem magnitude_nonneg (mantissa : Nat) (exponent : Int) : 0 ≤ magnitude mantissa exponent := by
  unfold magnitude
  positivity

theorem magnitude_positive (mantissa : Nat) (exponent : Int) (positive : 0 < mantissa) :
    0 < magnitude mantissa exponent := by
  unfold magnitude
  positivity

/-- The exponent of the units that a number is rounded in. -/
def roundingExponent (mantissa : Nat) (exponent : Int) : Int :=
  max (mantissa.log2 + exponent - 52) (-1074)

theorem lowest_le_rounding_exponent (mantissa : Nat) (exponent : Int) :
    -1074 ≤ roundingExponent mantissa exponent :=
  le_max_right _ _

theorem log2_mul_pow (mantissa places : Nat) (positive : 0 < mantissa) :
    (mantissa * 2 ^ places).log2 = mantissa.log2 + places := by
  induction places with
  | zero => simp
  | succ places ih =>
      have nonzero : mantissa * 2 ^ places ≠ 0 := by positivity
      rw [pow_succ, ← mul_assoc, mul_comm _ 2, Nat.log2_two_mul nonzero, ih, add_assoc]

theorem target_exponent_eq (mantissa : Nat) (exponent : Int) :
    Format.binary64.targetExponent (totalExponent mantissa exponent) =
      roundingExponent mantissa exponent := by
  have lowest : Format.binary64.minExponent = -1074 := rfl
  have width : Format.binary64.mantissaBits = 53 := rfl
  unfold Format.targetExponent totalExponent roundingExponent
  rw [lowest, width]
  congr 1
  push_cast
  ring

/-! ## Shifting bits out -/

/-- The mantissa after some places are shifted out, with what rounding must know of them. -/
def shifted (mantissa places : Nat) : ExtendedMantissa :=
  ExtendedMantissa.ofMantissaAndAccuracy mantissa .exact >>> places

def shiftedFrom (accuracy : Accuracy) (mantissa places : Nat) : ExtendedMantissa :=
  ExtendedMantissa.ofMantissaAndAccuracy mantissa accuracy >>> places

theorem shifted_from_mantissa (accuracy : Accuracy) (mantissa places : Nat) :
    (shiftedFrom accuracy mantissa places).mantissa = mantissa / 2 ^ places := by
  unfold shiftedFrom
  induction places with
  | zero =>
      rw [pow_zero, Nat.div_one]
      rcases accuracy with _ | ⟨_ | _ | _⟩ <;> rfl
  | succ places ih =>
      change (ExtendedMantissa.ofMantissaAndAccuracy mantissa accuracy >>> places).mantissa / 2 = _
      rw [ih, Nat.div_div_eq_div_mul, pow_succ]

theorem shifted_mantissa (mantissa places : Nat) :
    (shifted mantissa places).mantissa = mantissa / 2 ^ places :=
  shifted_from_mantissa .exact mantissa places

theorem shifted_exact (mantissa places : Nat) (divides : 2 ^ places ∣ mantissa) :
    shifted mantissa places = ⟨mantissa / 2 ^ places, false, false⟩ := by
  unfold shifted
  induction places with
  | zero =>
      rw [pow_zero, Nat.div_one]
      rfl
  | succ places ih =>
      obtain ⟨quotient, same⟩ := divides
      have before : mantissa = 2 ^ places * (2 * quotient) := by
        rw [same, pow_succ]
        ring
      have half : mantissa / 2 ^ places = 2 * quotient := by
        rw [before, Nat.mul_div_cancel_left _ (by positivity)]
      have after : mantissa / 2 ^ (places + 1) = quotient := by
        rw [same, Nat.mul_div_cancel_left _ (by positivity)]
      change (ExtendedMantissa.ofMantissaAndAccuracy mantissa .exact >>> places).shiftRightOne = _
      rw [ih ⟨2 * quotient, before⟩, half, after]
      simp [ExtendedMantissa.shiftRightOne]

theorem rounded_mantissa_bounds (extended : ExtendedMantissa) :
    extended.mantissa ≤ extended.roundedMantissa ∧
      extended.roundedMantissa ≤ extended.mantissa + 1 := by
  obtain ⟨mantissa, roundBit, stickyBit⟩ := extended
  have parity : mantissa % 2 < 2 := Nat.mod_lt _ (by decide)
  cases roundBit <;> cases stickyBit <;>
    simp only [ExtendedMantissa.roundedMantissa, ExtendedMantissa.accuracy,
      Accuracy.roundToNearestEven] <;> omega

theorem rounded_shifted_le (mantissa places bound : Nat) (within : mantissa ≤ bound * 2 ^ places) :
    (shifted mantissa places).roundedMantissa ≤ bound := by
  by_cases divides : 2 ^ places ∣ mantissa
  · rw [shifted_exact mantissa places divides]
    exact Nat.div_le_of_le_mul (by rwa [Nat.mul_comm])
  · have strict : mantissa < bound * 2 ^ places :=
      lt_of_le_of_ne within fun same => divides ⟨bound, by rw [same, Nat.mul_comm]⟩
    have below : mantissa / 2 ^ places < bound :=
      (Nat.div_lt_iff_lt_mul (by positivity)).mpr strict
    have rounded := (rounded_mantissa_bounds (shifted mantissa places)).2
    rw [shifted_mantissa] at rounded
    exact rounded.trans below

theorem le_rounded_shifted_from (accuracy : Accuracy) (mantissa places bound : Nat)
    (within : bound * 2 ^ places ≤ mantissa) :
    bound ≤ (shiftedFrom accuracy mantissa places).roundedMantissa := by
  have rounded := (rounded_mantissa_bounds (shiftedFrom accuracy mantissa places)).1
  rw [shifted_from_mantissa] at rounded
  exact ((Nat.le_div_iff_mul_le (by positivity)).mpr within).trans rounded

theorem le_rounded_shifted (mantissa places bound : Nat) (within : bound * 2 ^ places ≤ mantissa) :
    bound ≤ (shifted mantissa places).roundedMantissa :=
  le_rounded_shifted_from .exact mantissa places bound within

theorem rounded_shifted_from_le (accuracy : Accuracy) (mantissa places bound : Nat)
    (below : mantissa < bound * 2 ^ places) :
    (shiftedFrom accuracy mantissa places).roundedMantissa ≤ bound := by
  have kept : mantissa / 2 ^ places < bound := (Nat.div_lt_iff_lt_mul (by positivity)).mpr below
  have rounded := (rounded_mantissa_bounds (shiftedFrom accuracy mantissa places)).2
  rw [shifted_from_mantissa] at rounded
  exact rounded.trans kept

theorem shift_to_target_from_eq (accuracy : Accuracy) (mantissa : Nat) (exponent : Int) :
    shiftToTargetExponent Format.binary64 mantissa exponent accuracy =
      (shiftedFrom accuracy mantissa (roundingExponent mantissa exponent - exponent).toNat,
        exponent + ((roundingExponent mantissa exponent - exponent).toNat : Int)) := by
  unfold shiftToTargetExponent
  rw [target_exponent_eq]
  rfl

theorem shift_to_target_eq (mantissa : Nat) (exponent : Int) :
    shiftToTargetExponent Format.binary64 mantissa exponent .exact =
      (shifted mantissa (roundingExponent mantissa exponent - exponent).toNat,
        exponent + ((roundingExponent mantissa exponent - exponent).toNat : Int)) :=
  shift_to_target_from_eq .exact mantissa exponent

/-! ## The rounded number -/

/-- A count of units as rounding leaves it: at most 53 bits, or the next number above these. -/
structure Rounded (units : Nat) (exponent : Int) : Prop where
  bounded : units ≤ 2 ^ 53
  lowest : -1074 ≤ exponent
  full : 2 ^ 52 ≤ units ∨ exponent = -1074

def carried (sign : Sign) (units : Nat) (exponent : Int) : UnpackedFloat :=
  if zero : units = 0 then .zero sign
  else if units < 2 ^ 53 then .finite sign units exponent (Nat.pos_of_ne_zero zero)
  else .finite sign (2 ^ 52) (exponent + 1) (by decide)

theorem shift_in_place (units : Nat) (exponent : Int) (bounded : units < 2 ^ 53)
    (lowest : -1074 ≤ exponent) :
    shiftToTargetExponent Format.binary64 units exponent .exact =
      (⟨units, false, false⟩, exponent) := by
  have logarithm : units.log2 ≤ 52 := by
    by_cases zero : units = 0
    · simp [zero]
    · have := (Nat.log2_lt zero).mpr bounded
      omega
  have still : (roundingExponent units exponent - exponent).toNat = 0 := by
    unfold roundingExponent
    omega
  rw [shift_to_target_eq, still, shifted_exact units 0 (one_dvd _)]
  simp

theorem shift_carry (exponent : Int) (lowest : -1074 ≤ exponent) :
    shiftToTargetExponent Format.binary64 (2 ^ 53) exponent .exact =
      (⟨2 ^ 52, false, false⟩, exponent + 1) := by
  have logarithm : Nat.log2 (2 ^ 53) = 53 := Nat.log2_two_pow
  have once : (roundingExponent (2 ^ 53) exponent - exponent).toNat = 1 := by
    unfold roundingExponent
    rw [logarithm]
    omega
  rw [shift_to_target_eq, once, shifted_exact (2 ^ 53) 1 (by decide)]
  rfl

theorem rounded_units_from_le (accuracy : Accuracy) (mantissa : Nat) (exponent : Int) :
    (shiftedFrom accuracy mantissa
      (roundingExponent mantissa exponent - exponent).toNat).roundedMantissa ≤ 2 ^ 53 := by
  apply rounded_shifted_from_le
  have above := Nat.lt_log2_self (n := mantissa)
  rw [← pow_add]
  refine above.trans_le (Nat.pow_le_pow_right (by decide) ?_)
  unfold roundingExponent
  omega

theorem rounded_units_le (mantissa : Nat) (exponent : Int) :
    (shifted mantissa (roundingExponent mantissa exponent - exponent).toNat).roundedMantissa ≤
      2 ^ 53 :=
  rounded_units_from_le .exact mantissa exponent

theorem round_with_accuracy_from_eq (sign : Sign) (accuracy : Accuracy) (mantissa : Nat)
    (exponent : Int) (reached : exponent ≤ roundingExponent mantissa exponent) :
    roundWithAccuracy Format.binary64 sign mantissa exponent accuracy =
      carried sign
        (shiftedFrom accuracy mantissa
          (roundingExponent mantissa exponent - exponent).toNat).roundedMantissa
        (roundingExponent mantissa exponent) := by
  have lowest := lowest_le_rounding_exponent mantissa exponent
  have most := rounded_units_from_le accuracy mantissa exponent
  have arrived : exponent + ((roundingExponent mantissa exponent - exponent).toNat : Int) =
      roundingExponent mantissa exponent := by omega
  unfold roundWithAccuracy
  rw [shift_to_target_from_eq, arrived]
  dsimp only
  generalize (shiftedFrom accuracy mantissa
    (roundingExponent mantissa exponent - exponent).toNat).roundedMantissa = units at most ⊢
  rcases most.lt_or_eq with small | carry
  · rw [shift_in_place units _ small lowest]
    simp only [carried, small, if_true]
  · rw [carry, shift_carry _ lowest]
    simp [carried]

theorem round_with_accuracy_eq (sign : Sign) (mantissa : Nat) (exponent : Int)
    (reached : exponent ≤ roundingExponent mantissa exponent) :
    roundWithAccuracy Format.binary64 sign mantissa exponent .exact =
      carried sign
        (shifted mantissa (roundingExponent mantissa exponent - exponent).toNat).roundedMantissa
        (roundingExponent mantissa exponent) :=
  round_with_accuracy_from_eq sign .exact mantissa exponent reached

theorem full_units_le (mantissa : Nat) (exponent : Int) (positive : 0 < mantissa)
    (raised : roundingExponent mantissa exponent ≠ -1074) :
    magnitude (2 ^ 52) (roundingExponent mantissa exponent) ≤ magnitude mantissa exponent := by
  have top : roundingExponent mantissa exponent = mantissa.log2 + exponent - 52 := by
    unfold roundingExponent at raised ⊢
    omega
  have same : magnitude (2 ^ 52) (roundingExponent mantissa exponent) =
      magnitude (2 ^ mantissa.log2) exponent := by
    rw [magnitude_pow, magnitude_pow, top]
    congr 1
    push_cast
    ring
  rw [same, magnitude_le_iff]
  exact Nat.log2_self_le positive.ne'

/-- Before the bits below the unit are shifted out, a number with a coarser exponent is raised. -/
theorem round_eq_shifted (sign : Sign) (mantissa : Nat) (exponent : Int) (positive : 0 < mantissa) :
    ∃ raised places : Nat,
      exponent - (raised : Int) = roundingExponent mantissa exponent - places ∧
      (shifted (mantissa * 2 ^ raised) places).roundedMantissa ≤ 2 ^ 53 ∧
      round Format.binary64 sign mantissa exponent =
        carried sign (shifted (mantissa * 2 ^ raised) places).roundedMantissa
          (roundingExponent mantissa exponent) := by
  let unit := roundingExponent mantissa exponent
  let raised := (exponent - unit).toNat
  let places := (unit - (exponent - raised)).toNat
  have scale : exponent - (raised : Int) = unit - places := by
    dsimp only [raised, places]
    omega
  have sameUnit : roundingExponent (mantissa * 2 ^ raised) (exponent - raised) = unit := by
    unfold unit
    unfold roundingExponent
    rw [log2_mul_pow mantissa raised positive]
    push_cast
    congr 1
    ring
  have rounded := round_with_accuracy_eq sign (mantissa * 2 ^ raised) (exponent - raised)
    (by rw [sameUnit, scale]; omega)
  have most := rounded_units_le (mantissa * 2 ^ raised) (exponent - raised)
  rw [sameUnit] at rounded most
  refine ⟨raised, places, scale, most, ?_⟩
  unfold Float.Model.UnpackedFloat.round
  rw [target_exponent_eq]
  simp only [decreaseExponent, Nat.shiftLeft_eq]
  exact rounded

/-- A positive number is rounded to a count of units that passes no whole count which the number
does not pass, neither upwards nor downwards. -/
theorem round_eq_carried (sign : Sign) (mantissa : Nat) (exponent : Int) (positive : 0 < mantissa) :
    ∃ units, round Format.binary64 sign mantissa exponent =
        carried sign units (roundingExponent mantissa exponent) ∧
      Rounded units (roundingExponent mantissa exponent) ∧
      ∀ bound,
        (magnitude mantissa exponent ≤ magnitude bound (roundingExponent mantissa exponent) →
          units ≤ bound) ∧
        (magnitude bound (roundingExponent mantissa exponent) ≤ magnitude mantissa exponent →
          bound ≤ units) := by
  obtain ⟨raised, places, scale, most, rounded⟩ := round_eq_shifted sign mantissa exponent positive
  have rescaled : magnitude mantissa exponent =
      magnitude (mantissa * 2 ^ raised) (roundingExponent mantissa exponent - places) := by
    rw [← scale, magnitude_lower_exponent]
  refine ⟨_, rounded, ⟨most, lowest_le_rounding_exponent mantissa exponent, ?_⟩,
    fun bound => ⟨fun within => ?_, fun within => ?_⟩⟩
  · by_cases bottom : roundingExponent mantissa exponent = -1074
    · exact Or.inr bottom
    · left
      have full := full_units_le mantissa exponent positive bottom
      rw [rescaled, ← magnitude_lower_exponent (2 ^ 52) places, magnitude_le_iff] at full
      exact le_rounded_shifted _ _ _ full
  · rw [rescaled, ← magnitude_lower_exponent bound places, magnitude_le_iff] at within
    exact rounded_shifted_le _ _ _ within
  · rw [rescaled, ← magnitude_lower_exponent bound places, magnitude_le_iff] at within
    exact le_rounded_shifted _ _ _ within

end EdgePlacement.Binary64
