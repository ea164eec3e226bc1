import EdgePlacement.Decimal.Numeral
import EdgePlacement.Proofs.Binary64.Exactness
import EdgePlacement.Proofs.Binary64.Quotients

/-!
# The doubles that numerals denote

A numeral as the program reads it denotes a number. It is finite unless the text spells an infinity
or a decimal number beyond the greatest finite double.
-/

namespace EdgePlacement.Binary64

open Float.Model Float.Model.UnpackedFloat EdgePlacement.Decimal

set_option autoImplicit false

@[irreducible] def largestFinite : Nat := (2 ^ 53 - 1) * 2 ^ 971

/-! ## Numbers of moderate size -/

def Moderate : UnpackedFloat → Prop
  | .finite .positive _ exponent _ => -60 ≤ exponent ∧ exponent ≤ 60
  | _ => False

instance (unpacked : UnpackedFloat) : Decidable (Moderate unpacked) :=
  match unpacked with
  | .finite .positive _ exponent _ => inferInstanceAs (Decidable (-60 ≤ exponent ∧ exponent ≤ 60))
  | .finite .negative _ _ _ => isFalse nofun
  | .infinity _ => isFalse nofun
  | .notANumber => isFalse nofun
  | .zero _ => isFalse nofun

theorem moderate_cases {unpacked : UnpackedFloat} (moderate : Moderate unpacked)
    (stored : Stored unpacked) :
    ∃ mantissa exponent, ∃ settled : Settled mantissa exponent,
      unpacked = .finite .positive mantissa exponent settled.positive ∧ -60 ≤ exponent ∧
        exponent ≤ 60 := by
  rcases unpacked with _ | _ | _ | ⟨⟨⟩, mantissa, exponent, positive⟩
  all_goals try exact absurd moderate id
  exact ⟨mantissa, exponent, stored.1, rfl, moderate⟩

def FiniteUpper (unpacked : UnpackedFloat) : Prop :=
  Upper unpacked ∧ unpacked.isFinite = true

theorem small_within {accuracy : Accuracy} {mantissa places : Nat} (small : mantissa < 2 ^ 200)
    (room : 200 ≤ places) : Within accuracy mantissa ((2 ^ 53 - 1) * 2 ^ places) := by
  left
  calc mantissa < 2 ^ 200 := small
    _ ≤ 2 ^ places := Nat.pow_le_pow_right (by decide) room
    _ ≤ (2 ^ 53 - 1) * 2 ^ places := Nat.le_mul_of_pos_left _ (by decide)

theorem moderate_product {left right : UnpackedFloat} (moderate : Moderate left)
    (moderate' : Moderate right) (stored : Stored left) (stored' : Stored right) :
    FiniteUpper (Float.Model.pack (UnpackedFloat.mul Format.binary64 left right)).unpack := by
  obtain ⟨mantissa, exponent, settled, rfl, low, high⟩ := moderate_cases moderate stored
  obtain ⟨mantissa', exponent', settled', rfl, low', high'⟩ := moderate_cases moderate' stored'
  have reached := product_reached settled settled'
  have bounded := Nat.mul_lt_mul'' settled.bounded settled'.bounded
  refine ⟨signed_positive_upper (round_with_accuracy_signed .positive .exact reached),
    round_with_accuracy_finite .positive reached (by omega) (small_within ?_ (by omega))⟩
  exact bounded.trans (by decide)

theorem moderate_quotient {left right : UnpackedFloat} (moderate : Moderate left)
    (moderate' : Moderate right) (stored : Stored left) (stored' : Stored right) :
    FiniteUpper (Float.Model.pack (UnpackedFloat.div Format.binary64 left right)).unpack := by
  obtain ⟨mantissa, exponent, settled, rfl, low, high⟩ := moderate_cases moderate stored
  obtain ⟨mantissa', exponent', settled', rfl, low', high'⟩ := moderate_cases moderate' stored'
  obtain ⟨places, core, fine⟩ := div_core_eq mantissa mantissa' exponent exponent'
  have reached := quotient_reached settled.positive settled'.positive fine
  rw [UnpackedFloat.div, core]
  refine ⟨signed_positive_upper (round_with_accuracy_signed .positive _ reached),
    round_with_accuracy_finite .positive reached (by omega) (quotient_within ?_)⟩
  have scale : (971 - (exponent - exponent' - places)).toNat =
      (971 - (exponent - exponent')).toNat + places := by omega
  rw [scale, pow_add, ← mul_assoc, mul_right_comm]
  refine Nat.mul_le_mul_right _ (settled.bounded.le.trans ?_)
  calc 2 ^ 53 ≤ 2 ^ (971 - (exponent - exponent')).toNat :=
        Nat.pow_le_pow_right (by decide) (by omega)
    _ ≤ (2 ^ 53 - 1) * 2 ^ (971 - (exponent - exponent')).toNat :=
        Nat.le_mul_of_pos_left _ (by decide)
    _ ≤ (2 ^ 53 - 1) * 2 ^ (971 - (exponent - exponent')).toNat * mantissa' :=
        Nat.le_mul_of_pos_right _ settled'.positive

/-! ## Short decimals -/

theorem power_of_ten_moderate :
    ∀ exponent : Fin 23, Moderate
      Float.exactlyRepresentablePowersOfTen[exponent].toModel.unpack := by
  decide +kernel

theorem whole_moderate {digits : Nat} (positive : 0 < digits) (bounded : digits < 2 ^ 53) :
    Moderate digits.toUInt64.toFloat.toModel.unpack := by
  have same : digits.toUInt64.toNat = digits := by
    rw [Nat.toUInt64, UInt64.toNat_ofNat']
    omega
  have packed : digits.toUInt64.toFloat.toModel =
      Float.Model.pack (UnpackedFloat.round Format.binary64 .positive digits 0) := by
    change Float.Model.pack (UnpackedFloat.normalize Format.binary64
      (digits.toUInt64.toNat : Int) 0 .positive) = _
    rw [same, normalize_positive digits 0 .positive positive]
  obtain ⟨units, carry, rounded, -⟩ := round_eq_carried .positive digits 0 positive
  have logarithm := (Nat.log2_lt positive.ne').mpr bounded
  have unit : -52 ≤ roundingExponent digits 0 ∧ roundingExponent digits 0 ≤ 0 := by
    unfold roundingExponent
    omega
  have filled : 2 ^ 52 ≤ units := by
    rcases rounded.full with full | bottom
    · exact full
    · omega
  rw [packed, carry]
  unfold carried
  split_ifs with zero small
  · omega
  · have settled : Settled units (roundingExponent digits 0) :=
      ⟨by omega, small, rounded.lowest, rounded.full⟩
    rw [unpack_pack_settled _ _ _ _ settled, if_pos (by omega)]
    exact ⟨by omega, by omega⟩
  · have settled : Settled (2 ^ 52) (roundingExponent digits 0 + 1) :=
      ⟨by decide, by decide, by omega, Or.inl le_rfl⟩
    rw [unpack_pack_settled _ _ _ _ settled, if_pos (by omega)]
    exact ⟨by omega, by omega⟩

theorem short_decimal {digits : Nat} (positive : 0 < digits) (bounded : digits < 2 ^ 53)
    (inverse : Bool) {places : Nat} (short : places ≤ 22) :
    FiniteUpper (Float.ofScientific digits inverse places).toModel.unpack := by
  have power := power_of_ten_moderate ⟨places, by omega⟩
  have whole := whole_moderate positive bounded
  unfold Float.ofScientific
  rw [dif_pos ⟨bounded, short⟩]
  cases inverse with
  | false => exact moderate_product whole power (unpack_stored _) (unpack_stored _)
  | true => exact moderate_quotient whole power (unpack_stored _) (unpack_stored _)

/-! ## Long decimals -/

def InRange (digits : Nat) (exponent : Int) : Prop :=
  digits * 10 ^ exponent.toNat ≤ largestFinite * 10 ^ (-exponent).toNat

theorem Within.of_le {mantissa bound : Nat} (below : mantissa ≤ bound) :
    Within .exact mantissa bound :=
  below.lt_or_eq.imp id fun same => ⟨rfl, same⟩

theorem full_mantissa_lt {bits places top : Nat} (above : bits + places ≤ top) :
    (2 ^ bits - 1) * 2 ^ places < 2 ^ top := by
  refine lt_of_lt_of_le ?_ (Nat.pow_le_pow_right (by decide) above)
  rw [pow_add]
  exact Nat.mul_lt_mul_of_pos_right (Nat.sub_lt (by positivity) one_pos) (by positivity)

theorem largest_finite_lt {top : Nat} (above : 1024 ≤ top) : largestFinite < 2 ^ top := by
  unfold largestFinite
  exact full_mantissa_lt above

theorem in_range_exponent_lt {digits : Nat} {exponent : Int} (positive : 0 < digits)
    (inRange : InRange digits exponent) : exponent < 1024 := by
  by_contra large
  have none : (-exponent).toNat = 0 := by omega
  unfold InRange at inRange
  rw [none, pow_zero, mul_one] at inRange
  have beyond : largestFinite < 2 ^ exponent.toNat := largest_finite_lt (by omega)
  refine absurd beyond (not_lt.mpr ?_)
  calc 2 ^ exponent.toNat ≤ 10 ^ exponent.toNat := Nat.pow_le_pow_left (by decide) _
    _ ≤ digits * 10 ^ exponent.toNat := Nat.le_mul_of_pos_left _ positive
    _ ≤ largestFinite := inRange

theorem scaled_product {digits : Nat} (power : Nat) (positive : 0 < digits) (positive' : 0 < power)
    (mantissaPositive : 0 < digits <<< 53) :
    let product := UnpackedFloat.mul Format.binary64
      (.finite .positive (digits <<< 53) (-53) mantissaPositive)
      (.finite .positive power 0 positive')
    Upper (Float.Model.pack product).unpack ∧
      (digits * power ≤ largestFinite → (Float.Model.pack product).unpack.isFinite = true) := by
  have scaled : digits <<< 53 * power = digits * power * 2 ^ 53 := by
    rw [Nat.shiftLeft_eq, mul_right_comm]
  rw [UnpackedFloat.mul, scaled]
  have top : 2 ^ 53 ≤ digits * power * 2 ^ 53 := Nat.le_mul_of_pos_left _ (by positivity)
  have logarithm := (Nat.le_log2 (by positivity)).mpr top
  have reached : (-53 : Int) + 0 ≤ roundingExponent (digits * power * 2 ^ 53) (-53 + 0) := by
    unfold roundingExponent
    omega
  refine ⟨signed_positive_upper (round_with_accuracy_signed .positive .exact reached),
    fun inRange => round_with_accuracy_finite .positive reached (by omega) (.of_le ?_)⟩
  have scale : (971 - ((-53 : Int) + 0)).toNat = 971 + 53 := rfl
  unfold largestFinite at inRange
  rw [scale, pow_add, ← mul_assoc]
  exact Nat.mul_le_mul_right _ inRange

theorem scaled_quotient {digits : Nat} (power : Nat) (positive : 0 < digits)
    (positive' : 0 < power) :
    let quotient := UnpackedFloat.div Format.binary64
      (.finite .positive digits 0 positive) (.finite .positive power 0 positive')
    Upper (Float.Model.pack quotient).unpack ∧
      (digits ≤ largestFinite * power → (Float.Model.pack quotient).unpack.isFinite = true) := by
  obtain ⟨places, core, fine⟩ := div_core_eq digits power 0 0
  have reached := quotient_reached positive positive' fine
  rw [UnpackedFloat.div, core]
  refine ⟨signed_positive_upper (round_with_accuracy_signed .positive _ reached),
    fun inRange => round_with_accuracy_finite .positive reached (by omega) (quotient_within ?_)⟩
  have scale : (971 - ((0 : Int) - 0 - places)).toNat = 971 + places := by omega
  unfold largestFinite at inRange
  rw [scale, pow_add, ← mul_assoc, mul_right_comm]
  exact Nat.mul_le_mul_right _ inRange

theorem long_decimal {digits : Nat} (positive : 0 < digits) (exponent : Int) :
    Upper (Float.Model.ofScientific digits exponent).unpack ∧
      (InRange digits exponent →
        (Float.Model.ofScientific digits exponent).unpack.isFinite = true) := by
  unfold Float.Model.ofScientific UnpackedFloat.ofScientific
  split_ifs with zero large small nonneg
  · omega
  · rw [unpack_pack_infinity]
    refine ⟨.infinity, fun inRange => ?_⟩
    have bounded := in_range_exponent_lt positive inRange
    have beyond : (2048 : Int) < exponent := large
    omega
  · rw [unpack_pack_zero]
    exact ⟨.zero .positive, fun _ => rfl⟩
  · obtain ⟨upper, finite⟩ := scaled_product (10 ^ exponent.toNat) positive (by positivity)
      (Nat.shiftLeft_pos_iff.mpr positive)
    refine ⟨upper, fun inRange => finite ?_⟩
    have none : (-exponent).toNat = 0 := by omega
    unfold InRange at inRange
    rwa [none, pow_zero, mul_one] at inRange
  · obtain ⟨upper, finite⟩ :=
      scaled_quotient (10 ^ (-exponent).toNat) positive (by positivity)
    refine ⟨upper, fun inRange => finite ?_⟩
    have none : exponent.toNat = 0 := by omega
    unfold InRange at inRange
    rwa [none, pow_zero, mul_one] at inRange

/-! ## Decimals -/

theorem decimal {digits : Nat} (positive : 0 < digits) (inverse : Bool) (places : Nat) :
    Upper (Float.ofScientific digits inverse places).toModel.unpack ∧
      (InRange digits (if inverse then -places else places) →
        (Float.ofScientific digits inverse places).toModel.unpack.isFinite = true) := by
  by_cases short : digits < 2 ^ 53 ∧ places ≤ 22
  · obtain ⟨upper, finite⟩ := short_decimal positive short.1 inverse short.2
    exact ⟨upper, fun _ => finite⟩
  · have long : (Float.ofScientific digits inverse places).toModel =
        Float.Model.ofScientific digits (if inverse then -places else places) := by
      unfold Float.ofScientific
      rw [dif_neg short]
      cases inverse with
      | false => rfl
      | true =>
          simp only [if_true]
          rw [Int.negOfNat_eq]
          rfl
    rw [long]
    exact long_decimal positive _

theorem largest_finite_lt_power_of_ten : largestFinite < 10 ^ 310 := by
  have beyond : largestFinite < 2 ^ (205 * 5) := largest_finite_lt (by decide)
  refine beyond.trans_le ?_
  rw [pow_mul, pow_mul 10 62 5]
  exact Nat.pow_le_pow_left (by decide) 5

theorem power_le_of_digit_count {digits : Nat} (positive : 0 < digits) :
    10 ^ ((Nat.toDigits 10 digits).length - 1) ≤ digits := by
  rcases Nat.eq_zero_or_pos ((Nat.toDigits 10 digits).length - 1) with single | several
  · rw [single, pow_zero]
    exact positive
  · by_contra fewer
    have shorter := (Nat.length_toDigits_le_iff (by decide) several).mpr (not_le.mp fewer)
    omega

theorem top_of_in_range {digits : Nat} {exponent : Int} (positive : 0 < digits)
    (inRange : InRange digits exponent) :
    exponent + (Nat.toDigits 10 digits).length ≤ 310 := by
  by_contra beyond
  have places : 310 + (-exponent).toNat ≤
      (Nat.toDigits 10 digits).length - 1 + exponent.toNat := by omega
  refine absurd largest_finite_lt_power_of_ten (not_lt.mpr ?_)
  apply Nat.le_of_mul_le_mul_right (c := 10 ^ (-exponent).toNat) _ (by positivity)
  calc 10 ^ 310 * 10 ^ (-exponent).toNat = 10 ^ (310 + (-exponent).toNat) := (pow_add ..).symm
    _ ≤ 10 ^ ((Nat.toDigits 10 digits).length - 1 + exponent.toNat) :=
        Nat.pow_le_pow_right (by decide) places
    _ = 10 ^ ((Nat.toDigits 10 digits).length - 1) * 10 ^ exponent.toNat := pow_add ..
    _ ≤ digits * 10 ^ exponent.toNat :=
        Nat.mul_le_mul_right _ (power_le_of_digit_count positive)
    _ ≤ largestFinite * 10 ^ (-exponent).toNat := inRange

theorem magnitude_to_float (digits : Nat) (exponent : Int) :
    Upper (Numeral.magnitudeToFloat digits exponent).toModel.unpack ∧
      (InRange digits exponent →
        (Numeral.magnitudeToFloat digits exponent).toModel.unpack.isFinite = true) := by
  have nothing : (Float.ofBits 0).toModel.unpack = .zero .positive := rfl
  have infinite : Numeral.infinity.toModel.unpack = .infinity .positive := rfl
  unfold Numeral.magnitudeToFloat
  rcases digits.eq_zero_or_pos with rfl | positive
  · simp only [decide_true, Bool.true_or, if_true, nothing]
    exact ⟨.zero .positive, fun _ => rfl⟩
  · dsimp only
    split_ifs with low beyond negative
    · rw [nothing]
      exact ⟨.zero .positive, fun _ => rfl⟩
    · rw [infinite]
      refine ⟨.infinity, fun inRange => ?_⟩
      have top := top_of_in_range positive inRange
      omega
    · have same : (if true then -((-exponent).toNat : Int) else (-exponent).toNat) = exponent := by
        simp only [if_true]
        omega
      have ending := decimal positive true (-exponent).toNat
      rwa [same] at ending
    · have same : (if false then -(exponent.toNat : Int) else exponent.toNat) = exponent := by
        simp only [Bool.false_eq_true, if_false]
        omega
      have ending := decimal positive false exponent.toNat
      rwa [same] at ending

/-! ## Numerals -/

theorem negated_unpack (word : Float) : (-word).toModel.unpack = word.toModel.unpack.neg := by
  have stored := unpack_stored word.toModel
  change (Float.Model.pack word.toModel.unpack.neg).unpack = word.toModel.unpack.neg
  apply unpack_pack_stored
  cases unpacked : word.toModel.unpack with
  | finite sign mantissa exponent positive =>
      rw [unpacked] at stored
      exact stored
  | infinity | zero | notANumber => trivial

theorem with_sign_number (negative : Bool) {size : Float} (number : IsNumber size) :
    IsNumber (Numeral.withSign negative size) := by
  cases negative with
  | false => exact number
  | true =>
      change (-size).toModel.unpack ≠ .notANumber
      have unpacked : size.toModel.unpack ≠ .notANumber := number
      rw [negated_unpack]
      cases same : size.toModel.unpack with
      | notANumber => exact absurd same unpacked
      | infinity | zero | finite => nofun

theorem with_sign_finite (negative : Bool) {size : Float} (finite : size.isFinite = true) :
    (Numeral.withSign negative size).isFinite = true := by
  cases negative with
  | false => exact finite
  | true =>
      change (-size).toModel.unpack.isFinite = true
      have unpacked : size.toModel.unpack.isFinite = true := finite
      rw [negated_unpack]
      cases same : size.toModel.unpack with
      | notANumber | infinity =>
          rw [same] at unpacked
          cases unpacked
      | zero | finite => rfl

theorem numeral_is_number {numeral : Numeral} (written : numeral ≠ .undefined) :
    IsNumber numeral.toFloat := by
  cases numeral with
  | undefined => exact absurd rfl written
  | infinite negative => exact with_sign_number negative nofun
  | finite negative digits exponent =>
      refine with_sign_number negative ?_
      have upper := (magnitude_to_float digits exponent).1
      exact ((upper_iff _).mp upper).1

theorem rational_size (digits : Nat) (exponent : Int) :
    (if exponent < 0 then mkRat digits (Nat.pow 10 (-exponent).toNat)
      else ((digits * Nat.pow 10 exponent.toNat : Nat) : Int) : Rat) =
      digits * 10 ^ exponent.toNat / 10 ^ (-exponent).toNat := by
  split_ifs with below
  · have none : exponent.toNat = 0 := by omega
    rw [none, Rat.mkRat_eq_div]
    simp
  · have none : (-exponent).toNat = 0 := by omega
    rw [none]
    simp

theorem in_range_of_rational {negative : Bool} {digits : Nat} {exponent : Int} {number : Rat}
    (denotes : (Numeral.finite negative digits exponent).toRat? = some number)
    (bounded : |number| ≤ largestFinite) : InRange digits exponent := by
  simp only [Numeral.toRat?, Option.some.injEq, rational_size] at denotes
  have size : |number| = digits * 10 ^ exponent.toNat / 10 ^ (-exponent).toNat := by
    rw [← denotes]
    cases negative with
    | false =>
        rw [if_neg Bool.false_ne_true]
        exact abs_of_nonneg (by positivity)
    | true =>
        rw [if_pos rfl, abs_neg]
        exact abs_of_nonneg (by positivity)
  rw [size, div_le_iff₀ (by positivity)] at bounded
  unfold InRange
  exact_mod_cast bounded

/-- A numeral of a rational number that is not beyond the finite doubles denotes one of these. -/
theorem numeral_is_finite {numeral : Numeral} {number : Rat}
    (denotes : numeral.toRat? = some number) (bounded : |number| ≤ largestFinite) :
    numeral.toFloat.isFinite = true := by
  cases numeral with
  | undefined => cases denotes
  | infinite negative => cases denotes
  | finite negative digits exponent =>
      refine with_sign_finite negative ((magnitude_to_float digits exponent).2 ?_)
      exact in_range_of_rational denotes bounded

theorem read_cell_written {cell : String} {numeral : Numeral}
    (read : Numeral.readCell? cell = some numeral) : numeral ≠ .undefined := by
  unfold Numeral.readCell? at read
  split at read
  split_ifs at read
  · cases read
    nofun
  · simp only [Numeral.readFinite?] at read
    split_ifs at read
    obtain ⟨exponent, -, rfl⟩ := Option.map_eq_some_iff.mp read
    nofun

end EdgePlacement.Binary64
