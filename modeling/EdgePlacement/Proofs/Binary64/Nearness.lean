import EdgePlacement.Proofs.Binary64.Undefined

/-!
# How far a result is from the exact one

A sum of two numbers of one sign, their difference and their product are exact up to one rounding.
A rounding changes a number by a factor of no more than `growth`, or by less than the least positive
number of the format when the result falls below the range where the mantissa has all its bits. Sums
and differences of numbers of the format never fall below it by more than a whole number of units,
which is kept.
-/

namespace EdgePlacement.Binary64

open Float.Model Float.Model.UnpackedFloat

set_option autoImplicit false

/-! ## Sizes -/

noncomputable def unpackedSize : UnpackedFloat → ENNReal
  | .infinity _ => ⊤
  | .notANumber => 0
  | .zero _ => 0
  | .finite _ mantissa exponent _ => ENNReal.ofReal (magnitude mantissa exponent)

/-- How far a word is from zero, and so its value when it is not below zero. -/
noncomputable def size (word : Float) : ENNReal :=
  unpackedSize word.toModel.unpack

noncomputable def growth : ENNReal := 1 + ENNReal.ofReal (magnitude 1 (-52))

noncomputable def least : ENNReal := ENNReal.ofReal (magnitude 1 (-1074))

/-- Either of the two is reached from the other by some slack and some growths. A result that went
beyond the format need not be reached. -/
structure Near (growths : Nat) (slack exact result : ENNReal) : Prop where
  above : exact ≤ growth ^ growths * (result + slack)
  below : result ≠ ⊤ → result ≤ growth ^ growths * (exact + slack)

theorem one_le_growth : 1 ≤ growth :=
  le_self_add

theorem growth_finite : growth ≠ ⊤ := by
  simp [growth]

theorem growth_mul_top : growth * ⊤ = ⊤ :=
  ENNReal.mul_top (one_pos.trans_le one_le_growth).ne'

theorem least_finite : least ≠ ⊤ := by
  simp [least]

namespace Near

theorem refl (exact : ENNReal) : Near 0 0 exact exact := by
  constructor
  · rw [pow_zero, one_mul, add_zero]
  · intro
    rw [pow_zero, one_mul, add_zero]

theorem weaken {growths growths' : Nat} {slack slack' exact result : ENNReal}
    (near : Near growths slack exact result) (more : growths ≤ growths')
    (looser : slack ≤ slack') : Near growths' slack' exact result := by
  have grown : growth ^ growths ≤ growth ^ growths' := pow_le_pow_right' one_le_growth more
  constructor
  · exact near.above.trans (mul_le_mul' grown (by gcongr))
  · intro inRange
    exact (near.below inRange).trans (mul_le_mul' grown (by gcongr))

theorem add {growths : Nat} {slack slack' exact exact' result result' : ENNReal}
    (near : Near growths slack exact result) (near' : Near growths slack' exact' result') :
    Near growths (slack + slack') (exact + exact') (result + result') := by
  constructor
  · calc exact + exact'
        ≤ growth ^ growths * (result + slack) + growth ^ growths * (result' + slack') :=
          add_le_add near.above near'.above
      _ = growth ^ growths * (result + result' + (slack + slack')) := by ring
  · intro inRange
    obtain ⟨inRange, inRange'⟩ := ENNReal.add_ne_top.mp inRange
    calc result + result'
        ≤ growth ^ growths * (exact + slack) + growth ^ growths * (exact' + slack') :=
          add_le_add (near.below inRange) (near'.below inRange')
      _ = growth ^ growths * (exact + exact' + (slack + slack')) := by ring

theorem rounded {growths : Nat} {slack slack' exact middle result : ENNReal}
    (near : Near growths slack exact middle) (step : Near 1 slack' middle result)
    (finite : slack' ≠ ⊤) : Near (growths + 1) (slack + slack') exact result := by
  obtain ⟨above, below⟩ := step
  rw [pow_one] at above below
  constructor
  · have absorbed : slack ≤ growth * slack := le_mul_of_one_le_left' one_le_growth
    calc exact ≤ growth ^ growths * (middle + slack) := near.above
      _ ≤ growth ^ growths * (growth * (result + slack') + growth * slack) := by gcongr
      _ = growth ^ (growths + 1) * (result + (slack + slack')) := by ring
  · intro inRange
    have middleInRange : middle ≠ ⊤ :=
      ne_top_of_le_ne_top (ENNReal.mul_ne_top growth_finite (ENNReal.add_ne_top.mpr
        ⟨inRange, finite⟩)) above
    have absorbed : slack' ≤ growth ^ growths * slack' :=
      le_mul_of_one_le_left' (one_le_pow_of_one_le' one_le_growth growths)
    calc result ≤ growth * (middle + slack') := below inRange
      _ ≤ growth * (growth ^ growths * (exact + slack) + growth ^ growths * slack') := by
          gcongr
          exact near.below middleInRange
      _ = growth ^ (growths + 1) * (exact + (slack + slack')) := by ring

end Near

/-! ## One rounding -/

/-- The rounded units are off by less than one of them, and by nothing where the exact number is a
whole count of the least units. -/
theorem round_off_by_unit (sign : Sign) (mantissa : Nat) (exponent : Int)
    (positive : 0 < mantissa) : ∃ units,
      UnpackedFloat.round Format.binary64 sign mantissa exponent =
        carried sign units (roundingExponent mantissa exponent) ∧
      Rounded units (roundingExponent mantissa exponent) ∧
      magnitude mantissa exponent ≤
        magnitude units (roundingExponent mantissa exponent) +
          (2 : ℝ) ^ roundingExponent mantissa exponent ∧
      magnitude units (roundingExponent mantissa exponent) ≤
        magnitude mantissa exponent + (2 : ℝ) ^ roundingExponent mantissa exponent ∧
      (roundingExponent mantissa exponent = -1074 → -1074 ≤ exponent →
        magnitude units (roundingExponent mantissa exponent) = magnitude mantissa exponent) := by
  obtain ⟨units, same, rounded, least⟩ := round_eq_carried sign mantissa exponent positive
  refine ⟨units, same, rounded, ?_, ?_, ?_⟩
  all_goals generalize roundingExponent mantissa exponent = unit at *
  all_goals have unitPositive : (0 : ℝ) < (2 : ℝ) ^ unit := by positivity
  all_goals have exactPositive := magnitude_positive mantissa exponent positive
  · have floor := Nat.lt_floor_add_one (magnitude mantissa exponent / (2 : ℝ) ^ unit)
    have whole : magnitude ⌊magnitude mantissa exponent / (2 : ℝ) ^ unit⌋₊ unit ≤
        magnitude mantissa exponent :=
      (le_div_iff₀ unitPositive).mp (Nat.floor_le (by positivity))
    have counted : (⌊magnitude mantissa exponent / (2 : ℝ) ^ unit⌋₊ : ℝ) ≤ units :=
      Nat.cast_le.mpr ((least _).2 whole)
    rw [div_lt_iff₀ unitPositive] at floor
    unfold magnitude at floor counted ⊢
    nlinarith
  · have ceiling := Nat.ceil_lt_add_one (a := magnitude mantissa exponent / (2 : ℝ) ^ unit)
      (by positivity)
    have whole : magnitude mantissa exponent ≤
        magnitude ⌈magnitude mantissa exponent / (2 : ℝ) ^ unit⌉₊ unit :=
      (div_le_iff₀ unitPositive).mp (Nat.le_ceil _)
    have counted : (units : ℝ) ≤ ⌈magnitude mantissa exponent / (2 : ℝ) ^ unit⌉₊ :=
      Nat.cast_le.mpr ((least _).1 whole)
    rw [← sub_lt_iff_lt_add, lt_div_iff₀ unitPositive] at ceiling
    unfold magnitude at ceiling counted ⊢
    nlinarith
  · rintro rfl order
    have aligned := magnitude_at_lower mantissa order
    have count : units = mantissa * 2 ^ (exponent - -1074).toNat :=
      le_antisymm ((least _).1 aligned.le) ((least _).2 aligned.ge)
    rw [aligned, count]

/-- Rounded units are packed as they are, unless they go beyond the range. -/
theorem packed_size_cases (sign : Sign) {units : Nat} {unit : Int} (rounded : Rounded units unit) :
    unpackedSize (Float.Model.pack (carried sign units unit)).unpack =
        ENNReal.ofReal (magnitude units unit) ∨
      unpackedSize (Float.Model.pack (carried sign units unit)).unpack = ⊤ := by
  have packed : ∀ {mantissa : Nat} {exponent : Int} (settled : Settled mantissa exponent),
      unpackedSize (Float.Model.pack
          (.finite sign mantissa exponent settled.positive)).unpack =
          ENNReal.ofReal (magnitude mantissa exponent) ∨
        unpackedSize (Float.Model.pack
          (.finite sign mantissa exponent settled.positive)).unpack = ⊤ := by
    intro mantissa exponent settled
    rw [unpack_pack_settled _ _ _ _ settled]
    split_ifs
    · exact Or.inl rfl
    · exact Or.inr rfl
  have lowest := rounded.lowest
  unfold carried
  split_ifs with zero small
  · left
    rw [unpack_pack_zero, zero]
    simp [unpackedSize, magnitude]
  · exact packed ⟨Nat.pos_of_ne_zero zero, small, lowest, rounded.full⟩
  · have carry : units = 2 ^ 53 := le_antisymm rounded.bounded (not_lt.mp small)
    have shift : magnitude (2 ^ 53) unit = magnitude (2 ^ 52) (unit + 1) := by
      rw [magnitude_pow, magnitude_pow]
      congr 1
      push_cast
      ring
    rw [carry, shift]
    exact packed ⟨by decide, by decide, by omega, Or.inl le_rfl⟩

theorem growth_mul {real : ℝ} (above : 0 ≤ real) :
    growth * ENNReal.ofReal real = ENNReal.ofReal (real + (2 : ℝ) ^ (-52 : Int) * real) := by
  unfold growth
  rw [magnitude_one, add_mul, one_mul, ← ENNReal.ofReal_mul (by positivity),
    ← ENNReal.ofReal_add above (by positivity)]

/-- A unit is a share of any number that has all the bits of the mantissa in such units. -/
theorem unit_le_share {real : ℝ} {unit : Int} (full : magnitude (2 ^ 52) unit ≤ real) :
    (2 : ℝ) ^ unit ≤ (2 : ℝ) ^ (-52 : Int) * real := by
  calc (2 : ℝ) ^ unit = (2 : ℝ) ^ (-52 : Int) * magnitude (2 ^ 52) unit := by
        rw [magnitude_pow, ← zpow_add₀ (by norm_num : (2 : ℝ) ≠ 0)]
        congr 1
        push_cast
        ring
    _ ≤ (2 : ℝ) ^ (-52 : Int) * real := by gcongr

theorem le_of_within_least {left right : ℝ} {slack : ENNReal} (above : 0 ≤ right)
    (within : left ≤ right + (2 : ℝ) ^ (-1074 : Int)) (enough : least ≤ slack) :
    ENNReal.ofReal left ≤ growth ^ 1 * (ENNReal.ofReal right + slack) := by
  have lastUnit : ENNReal.ofReal ((2 : ℝ) ^ (-1074 : Int)) = least := by
    rw [least, magnitude_one]
  calc ENNReal.ofReal left
      ≤ ENNReal.ofReal (right + (2 : ℝ) ^ (-1074 : Int)) := ENNReal.ofReal_le_ofReal within
    _ = ENNReal.ofReal right + least := by
        rw [ENNReal.ofReal_add above (by positivity), lastUnit]
    _ ≤ ENNReal.ofReal right + slack := by gcongr
    _ ≤ growth ^ 1 * (ENNReal.ofReal right + slack) := by
        rw [pow_one]
        exact le_mul_of_one_le_left' one_le_growth

theorem le_of_within_unit {left right : ℝ} {unit : Int} (above : 0 ≤ right)
    (full : magnitude (2 ^ 52) unit ≤ right) (within : left ≤ right + (2 : ℝ) ^ unit)
    (slack : ENNReal) : ENNReal.ofReal left ≤ growth ^ 1 * (ENNReal.ofReal right + slack) := by
  have share := unit_le_share full
  calc ENNReal.ofReal left
      ≤ ENNReal.ofReal (right + (2 : ℝ) ^ (-52 : Int) * right) :=
        ENNReal.ofReal_le_ofReal (within.trans (by linarith))
    _ = growth * ENNReal.ofReal right := (growth_mul above).symm
    _ ≤ growth ^ 1 * (ENNReal.ofReal right + slack) := by
        rw [pow_one]
        gcongr
        exact le_self_add

theorem near_round (sign : Sign) (mantissa : Nat) (exponent : Int) (positive : 0 < mantissa)
    {slack : ENNReal} (enough : -1074 ≤ exponent ∨ least ≤ slack) :
    Near 1 slack (ENNReal.ofReal (magnitude mantissa exponent))
      (unpackedSize (Float.Model.pack
        (UnpackedFloat.round Format.binary64 sign mantissa exponent)).unpack) := by
  obtain ⟨units, same, rounded, off, off', exact⟩ :=
    round_off_by_unit sign mantissa exponent positive
  have exactNonneg := magnitude_nonneg mantissa exponent
  have roundedNonneg := magnitude_nonneg units (roundingExponent mantissa exponent)
  rw [same]
  rcases packed_size_cases sign rounded with packed | infinite
  · rw [packed]
    by_cases bottom : roundingExponent mantissa exponent = -1074
    · rcases enough with whole | enough
      · rw [exact bottom whole]
        exact (Near.refl _).weaken (Nat.zero_le 1) zero_le
      · rw [bottom] at off off' roundedNonneg ⊢
        exact ⟨le_of_within_least roundedNonneg off enough,
          fun _ => le_of_within_least exactNonneg off' enough⟩
    · have filled : magnitude (2 ^ 52) (roundingExponent mantissa exponent) ≤
          magnitude units (roundingExponent mantissa exponent) :=
        (magnitude_le_iff _ _ _).mpr (rounded.full.resolve_right bottom)
      have filled' := full_units_le mantissa exponent positive bottom
      exact ⟨le_of_within_unit roundedNonneg filled off slack,
        fun _ => le_of_within_unit exactNonneg filled' off' slack⟩
  · rw [infinite]
    constructor
    · rw [pow_one, top_add, growth_mul_top]
      exact le_top
    · exact fun inRange => absurd rfl inRange

/-! ## Sums, products and differences -/

/-- The summands need not be numbers of the format. -/
theorem near_add_finite {mantissa mantissa' : Nat} {exponent exponent' : Int}
    (positive : 0 < mantissa) (positive' : 0 < mantissa') {slack : ENNReal}
    (enough : (-1074 ≤ exponent ∧ -1074 ≤ exponent') ∨ least ≤ slack) :
    Near 1 slack
      (ENNReal.ofReal (magnitude mantissa exponent) +
        ENNReal.ofReal (magnitude mantissa' exponent'))
      (unpackedSize (Float.Model.pack (UnpackedFloat.add Format.binary64
        (.finite .positive mantissa exponent positive)
        (.finite .positive mantissa' exponent' positive'))).unpack) := by
  simp only [UnpackedFloat.add, decreaseExponent, Nat.shiftLeft_eq, Sign.apply]
  rw [← Int.natCast_add, normalize_positive _ _ _ (by positivity),
    magnitude_at_lower mantissa (min_le_left exponent exponent'),
    magnitude_at_lower mantissa' (min_le_right exponent exponent'),
    ← ENNReal.ofReal_add (magnitude_nonneg _ _) (magnitude_nonneg _ _),
    ← magnitude_add]
  exact near_round .positive _ _ (by positivity)
    (enough.imp_left fun lowest => le_min lowest.1 lowest.2)

theorem near_add_unpacked {left right : UnpackedFloat} (storedLeft : Stored left)
    (storedRight : Stored right) (upperLeft : Upper left) (upperRight : Upper right) :
    Near 1 0 (unpackedSize left + unpackedSize right)
      (unpackedSize (Float.Model.pack (UnpackedFloat.add Format.binary64 left right)).unpack) := by
  have same : ∀ {exact result : ENNReal}, result = exact → Near 1 0 exact result := by
    rintro exact _ rfl
    exact (Near.refl _).weaken (Nat.zero_le 1) le_rfl
  rcases upperLeft with _ | sign | ⟨mantissa, exponent, positive⟩ <;>
    rcases upperRight with _ | sign' | ⟨mantissa', exponent', positive'⟩
  case finite.finite =>
    exact near_add_finite positive positive'
      (Or.inl ⟨storedLeft.1.lowest, storedRight.1.lowest⟩)
  all_goals apply same
  case zero.zero =>
    cases sign <;> cases sign' <;> simp [UnpackedFloat.add, unpack_pack_zero, unpackedSize]
  case zero.finite =>
    simp only [UnpackedFloat.add]
    rw [unpack_pack_stored _ storedRight]
    exact (zero_add _).symm
  case finite.zero =>
    simp only [UnpackedFloat.add]
    rw [unpack_pack_stored _ storedLeft]
    exact (add_zero _).symm
  all_goals simp [UnpackedFloat.add, unpack_pack_infinity, unpackedSize]

theorem near_add {left right : Float} (leftBound : 0 ≤ left) (rightBound : 0 ≤ right) :
    Near 1 0 (size left + size right) (size (left + right)) :=
  near_add_unpacked (unpack_stored left.toModel) (unpack_stored right.toModel)
    ((upper_word_iff left).mp leftBound) ((upper_word_iff right).mp rightBound)

theorem ofReal_magnitude_mul (mantissa mantissa' : Nat) (exponent exponent' : Int) :
    ENNReal.ofReal (magnitude mantissa exponent) * ENNReal.ofReal (magnitude mantissa' exponent') =
      ENNReal.ofReal (magnitude (mantissa * mantissa') (exponent + exponent')) := by
  rw [← ENNReal.ofReal_mul (magnitude_nonneg _ _)]
  congr 1
  unfold magnitude
  rw [zpow_add₀ (by norm_num : (2 : ℝ) ≠ 0)]
  push_cast
  ring

theorem round_with_accuracy_eq_round (sign : Sign) {mantissa : Nat} {exponent : Int}
    (reached : exponent ≤ roundingExponent mantissa exponent) :
    roundWithAccuracy Format.binary64 sign mantissa exponent .exact =
      UnpackedFloat.round Format.binary64 sign mantissa exponent := by
  have still : (exponent - roundingExponent mantissa exponent).toNat = 0 := by omega
  unfold Float.Model.UnpackedFloat.round
  rw [target_exponent_eq]
  simp [decreaseExponent, still]

/-- A product is rounded only where both factors are finite and above zero. -/
theorem mul_size_cases {left right : UnpackedFloat} (leftBound : Upper left)
    (rightBound : Upper right)
    (number : (Float.Model.pack (UnpackedFloat.mul Format.binary64 left right)).unpack ≠
      .notANumber) :
    (∃ mantissa exponent positive mantissa' exponent' positive',
      left = .finite .positive mantissa exponent positive ∧
        right = .finite .positive mantissa' exponent' positive') ∨
      unpackedSize (Float.Model.pack (UnpackedFloat.mul Format.binary64 left right)).unpack =
        unpackedSize left * unpackedSize right := by
  have apart : ∀ (mantissa : Nat) (exponent : Int), 0 < mantissa →
      ENNReal.ofReal (magnitude mantissa exponent) ≠ 0 := by
    intro mantissa exponent positive
    exact (ENNReal.ofReal_pos.mpr (magnitude_positive mantissa exponent positive)).ne'
  rcases leftBound with _ | sign | ⟨mantissa, exponent, positive⟩ <;>
    rcases rightBound with _ | sign' | ⟨mantissa', exponent', positive'⟩
  case finite.finite => exact Or.inl ⟨_, _, positive, _, _, positive', rfl, rfl⟩
  case infinity.zero => exact absurd unpack_pack_not_a_number number
  case zero.infinity => exact absurd unpack_pack_not_a_number number
  all_goals right
  case infinity.finite =>
    simp [UnpackedFloat.mul, unpack_pack_infinity, unpackedSize, apart _ _ positive']
  case finite.infinity =>
    simp [UnpackedFloat.mul, unpack_pack_infinity, unpackedSize, apart _ _ positive]
  all_goals simp [UnpackedFloat.mul, unpack_pack_infinity, unpack_pack_zero, unpackedSize]

theorem near_mul {left right : Float} (leftBound : 0 ≤ left) (rightBound : 0 ≤ right)
    (number : IsNumber (left * right)) :
    Near 1 least (size left * size right) (size (left * right)) := by
  rw [upper_word_iff] at leftBound rightBound
  have storedLeft := unpack_stored left.toModel
  have storedRight := unpack_stored right.toModel
  have cases := mul_size_cases leftBound rightBound number
  change Near 1 least (unpackedSize left.toModel.unpack * unpackedSize right.toModel.unpack)
    (unpackedSize (Float.Model.pack (UnpackedFloat.mul Format.binary64 left.toModel.unpack
      right.toModel.unpack)).unpack)
  generalize left.toModel.unpack = unpacked at *
  generalize right.toModel.unpack = unpacked' at *
  rcases cases with
    ⟨mantissa, exponent, positive, mantissa', exponent', positive', rfl, rfl⟩ | exact
  · have product := Nat.mul_pos positive positive'
    rw [UnpackedFloat.mul, round_with_accuracy_eq_round _
      (product_reached storedLeft.1 storedRight.1)]
    simp only [unpackedSize]
    rw [ofReal_magnitude_mul]
    exact near_round _ _ _ product (Or.inr le_rfl)
  · rw [exact]
    exact (Near.refl _).weaken (Nat.zero_le 1) zero_le

theorem normalize_negative (mantissa : Nat) (exponent : Int) (sign : Sign)
    (positive : 0 < mantissa) :
    UnpackedFloat.normalize Format.binary64 (-(mantissa : Int)) exponent sign =
      UnpackedFloat.round Format.binary64 .negative mantissa exponent := by
  have below : compare (-(mantissa : Int)) 0 = .lt := compare_lt_iff_lt.mpr (by omega)
  unfold UnpackedFloat.normalize
  rw [below, neg_neg, Int.toNat_natCast]

/-- Either number is reached from the other one by what their difference grows to. -/
theorem sub_spans_finite {mantissa mantissa' : Nat} {exponent exponent' : Int}
    (positive : 0 < mantissa) (positive' : 0 < mantissa') (lowest : -1074 ≤ exponent)
    (lowest' : -1074 ≤ exponent') {difference : ENNReal}
    (same : difference = unpackedSize (Float.Model.pack (UnpackedFloat.sub Format.binary64
      (.finite .positive mantissa exponent positive)
      (.finite .positive mantissa' exponent' positive'))).unpack) :
    ENNReal.ofReal (magnitude mantissa exponent) ≤
        ENNReal.ofReal (magnitude mantissa' exponent') + growth * difference ∧
      ENNReal.ofReal (magnitude mantissa' exponent') ≤
        ENNReal.ofReal (magnitude mantissa exponent) + growth * difference := by
  have whole : -1074 ≤ min exponent exponent' := le_min lowest lowest'
  simp only [UnpackedFloat.sub, decreaseExponent, Nat.shiftLeft_eq, Sign.apply] at same
  rw [magnitude_at_lower mantissa (min_le_left exponent exponent'),
    magnitude_at_lower mantissa' (min_le_right exponent exponent')]
  generalize min exponent exponent' = common at *
  generalize mantissa * 2 ^ (exponent - common).toNat = left at *
  generalize mantissa' * 2 ^ (exponent' - common).toNat = right at *
  -- The greater one is the lesser one and the exact difference, which is rounded once.
  have spans : ∀ lesser {gap : Nat}, 0 < gap →
      (∃ sign, difference = unpackedSize (Float.Model.pack
        (UnpackedFloat.round Format.binary64 sign gap common)).unpack) →
      ENNReal.ofReal (magnitude (lesser + gap) common) ≤
          ENNReal.ofReal (magnitude lesser common) + growth * difference ∧
        ENNReal.ofReal (magnitude lesser common) ≤
          ENNReal.ofReal (magnitude (lesser + gap) common) + growth * difference := by
    rintro lesser gap apart ⟨sign, rfl⟩
    have rounding : Near 1 0 _ _ := near_round sign gap common apart (Or.inl whole)
    have near := rounding.above
    rw [pow_one, add_zero] at near
    have ordered := (magnitude_le_iff lesser (lesser + gap) common).mpr (Nat.le_add_right _ _)
    constructor
    · rw [magnitude_add, ENNReal.ofReal_add (magnitude_nonneg _ _) (magnitude_nonneg _ _)]
      gcongr
    · exact (ENNReal.ofReal_le_ofReal ordered).trans le_self_add
  rcases lt_trichotomy left right with below | rfl | above
  · have gap : (left : Int) - right = -((right - left : Nat) : Int) := by omega
    rw [gap, normalize_negative _ _ _ (by omega)] at same
    have reached := spans left (by omega) ⟨_, same⟩
    rw [Nat.add_sub_cancel' below.le] at reached
    exact reached.symm
  · exact ⟨le_self_add, le_self_add⟩
  · have gap : (left : Int) - right = ((left - right : Nat) : Int) := by omega
    rw [gap, normalize_positive _ _ _ (by omega)] at same
    have reached := spans right (by omega) ⟨_, same⟩
    rw [Nat.add_sub_cancel' above.le] at reached
    exact reached

theorem sub_spans {left right : Float} (leftBound : 0 ≤ left) (rightBound : 0 ≤ right)
    (finite : right.isFinite = true) :
    size left ≤ size right + growth * size (left - right) ∧
      size right ≤ size left + growth * size (left - right) := by
  rw [upper_word_iff] at leftBound rightBound
  have storedLeft := unpack_stored left.toModel
  have storedRight := unpack_stored right.toModel
  have upperFinite := finite_upper_cases storedRight rightBound finite
  change unpackedSize left.toModel.unpack ≤ unpackedSize right.toModel.unpack + growth *
      unpackedSize (Float.Model.pack (UnpackedFloat.sub Format.binary64 left.toModel.unpack
        right.toModel.unpack)).unpack ∧
    unpackedSize right.toModel.unpack ≤ unpackedSize left.toModel.unpack + growth *
      unpackedSize (Float.Model.pack (UnpackedFloat.sub Format.binary64 left.toModel.unpack
        right.toModel.unpack)).unpack
  generalize left.toModel.unpack = unpacked at *
  generalize right.toModel.unpack = unpacked' at *
  have reached : ∀ {exact difference : ENNReal}, exact ≤ difference →
      exact ≤ growth * difference := fun within =>
    within.trans (le_mul_of_one_le_left' one_le_growth)
  rcases upperFinite with ⟨sign', rfl⟩ | ⟨mantissa', exponent', settled', rfl⟩ <;>
    rcases leftBound with _ | sign | ⟨mantissa, exponent, positive⟩
  · simp [UnpackedFloat.sub, unpack_pack_infinity, unpackedSize, growth_mul_top]
  · simp [unpackedSize]
  · simp only [UnpackedFloat.sub]
    rw [unpack_pack_stored _ storedLeft]
    simpa [unpackedSize] using reached le_rfl
  · simp [UnpackedFloat.sub, unpack_pack_infinity, unpackedSize, growth_mul_top]
  · have stored : Stored (.finite (-Sign.positive) mantissa' exponent' settled'.positive) :=
      storedRight
    simp only [UnpackedFloat.sub]
    rw [unpack_pack_stored _ stored]
    simpa [unpackedSize] using reached le_rfl
  · exact sub_spans_finite positive settled'.positive storedLeft.1.lowest settled'.lowest rfl

theorem size_ne_top {word : Float} (finite : word.isFinite = true) : size word ≠ ⊤ := by
  change word.toModel.unpack.isFinite = true at finite
  unfold size
  generalize word.toModel.unpack = unpacked at finite ⊢
  cases unpacked with
  | infinity sign => cases finite
  | notANumber => cases finite
  | zero sign => exact ENNReal.zero_ne_top
  | finite sign mantissa exponent positive => exact ENNReal.ofReal_ne_top

theorem extent_of_upper {unpacked : UnpackedFloat} (upper : Upper unpacked) :
    extent unpacked = (unpackedSize unpacked : EReal) := by
  cases upper with
  | infinity => rfl
  | zero sign => rfl
  | finite mantissa exponent positive =>
      have above := (magnitude_positive mantissa exponent positive).le
      simp only [extent, unpackedSize]
      rw [EReal.coe_ennreal_ofReal, max_eq_left above]

theorem size_le {lesser greater : Float} (above : 0 ≤ lesser) (below : lesser ≤ greater) :
    size lesser ≤ size greater := by
  obtain ⟨-, number, values⟩ := (le_iff lesser greater).mp below
  have atLeast : 0 ≤ value lesser := ((le_iff 0 lesser).mp above).2.2
  have upper := (upper_word_iff lesser).mp above
  have upper' := (upper_iff greater.toModel.unpack).mpr ⟨number, atLeast.trans values⟩
  unfold value at values
  rw [extent_of_upper upper, extent_of_upper upper'] at values
  exact EReal.coe_ennreal_le_coe_ennreal_iff.mp values

end EdgePlacement.Binary64
