import EdgePlacement.Proofs.Binary64.Order

/-!
# Counters of binary64 numbers

A counter starts at zero, grows by numbers that are not below zero and shrinks by them. The rounded
sum stays at or above zero, and a rounded difference that is above zero is no greater than the
number it was taken from.
-/

namespace EdgePlacement.Binary64

open Float.Model Float.Model.UnpackedFloat

set_option autoImplicit false

/-! ## Signs of results -/

inductive Signed (sign : Sign) : UnpackedFloat → Prop where
  | infinity : Signed sign (.infinity sign)
  | zero : Signed sign (.zero sign)
  | finite (mantissa : Nat) (exponent : Int) (positive : 0 < mantissa) :
      Signed sign (.finite sign mantissa exponent positive)

/-- The unpacked numbers at or above zero. -/
inductive Upper : UnpackedFloat → Prop where
  | infinity : Upper (.infinity .positive)
  | zero (sign : Sign) : Upper (.zero sign)
  | finite (mantissa : Nat) (exponent : Int) (positive : 0 < mantissa) :
      Upper (.finite .positive mantissa exponent positive)

theorem upper_iff (unpacked : UnpackedFloat) :
    Upper unpacked ↔ unpacked ≠ .notANumber ∧ 0 ≤ extent unpacked := by
  constructor
  · rintro (_ | _ | _)
    · exact ⟨nofun, le_top⟩
    · exact ⟨nofun, le_rfl⟩
    · exact ⟨nofun, (extent_finite_positive _ _ _).le⟩
  · rintro ⟨number, above⟩
    rcases unpacked with ⟨⟨⟩⟩ | _ | sign | ⟨⟨⟩, mantissa, exponent, positive⟩
    · exact absurd above (not_le.mpr EReal.bot_lt_zero)
    · exact .infinity
    · exact absurd rfl number
    · exact .zero sign
    · exact absurd above (not_le.mpr (extent_finite_negative mantissa exponent positive))
    · exact .finite mantissa exponent positive

theorem signed_number {sign : Sign} {unpacked : UnpackedFloat} (signed : Signed sign unpacked) :
    unpacked ≠ .notANumber := by
  cases signed <;> simp

theorem signed_positive_upper {unpacked : UnpackedFloat} (signed : Signed .positive unpacked) :
    Upper unpacked := by
  cases signed with
  | infinity => exact .infinity
  | zero => exact .zero .positive
  | finite mantissa exponent positive => exact .finite mantissa exponent positive

theorem signed_negative_le_zero {unpacked : UnpackedFloat} (signed : Signed .negative unpacked) :
    extent unpacked ≤ 0 := by
  cases signed with
  | infinity => exact bot_le
  | zero => exact le_rfl
  | finite mantissa exponent positive => exact (extent_finite_negative _ _ _).le

theorem packed_settled_signed (sign : Sign) {mantissa : Nat} {exponent : Int}
    (settled : Settled mantissa exponent) :
    Signed sign
      (Float.Model.pack (.finite sign mantissa exponent settled.positive)).unpack := by
  rw [unpack_pack_settled sign mantissa exponent settled.positive settled]
  split_ifs
  · exact .finite mantissa exponent settled.positive
  · exact .infinity

theorem packed_carried_signed (sign : Sign) {units : Nat} {unit : Int}
    (rounded : Rounded units unit) :
    Signed sign (Float.Model.pack (carried sign units unit)).unpack := by
  have lowest := rounded.lowest
  unfold carried
  split_ifs with zero small
  · rw [unpack_pack_zero]
    exact .zero
  · exact packed_settled_signed sign ⟨Nat.pos_of_ne_zero zero, small, lowest, rounded.full⟩
  · exact packed_settled_signed sign ⟨by decide, by decide, by omega, Or.inl le_rfl⟩

theorem round_signed (sign : Sign) (mantissa : Nat) (exponent : Int) (positive : 0 < mantissa) :
    Signed sign
      (Float.Model.pack (UnpackedFloat.round Format.binary64 sign mantissa exponent)).unpack := by
  obtain ⟨units, same, rounded, -⟩ := round_eq_carried sign mantissa exponent positive
  rw [same]
  exact packed_carried_signed sign rounded

/-- Where the carry stays in range, rounded units are packed without a loss. -/
theorem extent_carried {units : Nat} {unit : Int} (rounded : Rounded units unit)
    (inRange : unit ≤ 971) (room : units = 2 ^ 53 → unit < 971) :
    extent (Float.Model.pack (carried .positive units unit)).unpack =
      (magnitude units unit : ℝ) := by
  have lowest := rounded.lowest
  unfold carried
  split_ifs with zero small
  · rw [unpack_pack_zero, zero, magnitude_zero]
    rfl
  · have settled : Settled units unit :=
      ⟨Nat.pos_of_ne_zero zero, small, lowest, rounded.full⟩
    rw [unpack_pack_settled _ _ _ _ settled, if_pos inRange]
    rfl
  · have carry : units = 2 ^ 53 := le_antisymm rounded.bounded (not_lt.mp small)
    have settled : Settled (2 ^ 52) (unit + 1) := ⟨by decide, by decide, by omega, Or.inl le_rfl⟩
    have below := room carry
    have shift : magnitude (2 ^ 52) (unit + 1) = magnitude (2 ^ 53) unit := by
      rw [magnitude_pow, magnitude_pow]
      congr 1
      push_cast
      ring
    rw [unpack_pack_settled _ _ _ _ settled, if_pos (by omega), carry, ← shift]
    rfl

theorem rounding_exponent_le {mantissa : Nat} {exponent : Int} (positive : 0 < mantissa)
    {top : Nat} {topExponent : Int} (settled : Settled top topExponent)
    (below : magnitude mantissa exponent ≤ magnitude top topExponent) :
    roundingExponent mantissa exponent ≤ topExponent := by
  have lowest := lowest_le_rounding_exponent mantissa exponent
  by_contra above
  have raised : roundingExponent mantissa exponent ≠ -1074 := by
    have := settled.lowest
    omega
  have full := full_units_le mantissa exponent positive raised
  have filled : Settled (2 ^ 52) (roundingExponent mantissa exponent) :=
    ⟨by decide, by decide, lowest, Or.inl le_rfl⟩
  have less := magnitude_lt_of_exponent_lt settled filled (by omega)
  exact absurd (full.trans below) (not_le.mpr less)

/-- Rounding passes no number of the format: not its own magnitude, and not the range either. -/
theorem round_le_settled (mantissa : Nat) (exponent : Int) (positive : 0 < mantissa) {top : Nat}
    {topExponent : Int} (settled : Settled top topExponent) (inRange : topExponent ≤ 971)
    (below : magnitude mantissa exponent ≤ magnitude top topExponent) :
    extent (Float.Model.pack
        (UnpackedFloat.round Format.binary64 .positive mantissa exponent)).unpack ≤
      (magnitude top topExponent : ℝ) := by
  obtain ⟨units, same, rounded, least⟩ := round_eq_carried .positive mantissa exponent positive
  have reached := rounding_exponent_le positive settled below
  rw [same]
  generalize roundingExponent mantissa exponent = unit at *
  have aligned := magnitude_at_lower top reached
  have unitsBound : units ≤ top * 2 ^ (topExponent - unit).toNat := (least _).1 (aligned ▸ below)
  have room : units = 2 ^ 53 → unit < 971 := by
    intro carry
    by_contra level
    have flat : (topExponent - unit).toNat = 0 := by omega
    have topBound := settled.bounded
    rw [flat, pow_zero, mul_one] at unitsBound
    omega
  rw [extent_carried rounded (reached.trans inRange) room, aligned]
  exact EReal.coe_le_coe_iff.mpr ((magnitude_le_iff _ _ _).mpr unitsBound)

/-- Rounded units that go beyond the range make an infinity, which is above them too. -/
theorem le_extent_carried {units bound : Nat} {unit : Int} (rounded : Rounded units unit)
    (least : bound ≤ units) :
    (magnitude bound unit : ℝ) ≤
      extent (Float.Model.pack (carried .positive units unit)).unpack := by
  have ordered : ((magnitude bound unit : ℝ) : EReal) ≤ (magnitude units unit : ℝ) :=
    EReal.coe_le_coe_iff.mpr ((magnitude_le_iff bound units unit).mpr least)
  by_cases packed : unit ≤ 971 ∧ (units = 2 ^ 53 → unit < 971)
  · rw [extent_carried rounded packed.1 packed.2]
    exact ordered
  · have lowest := rounded.lowest
    unfold carried
    split_ifs with zero small
    · obtain rfl : bound = 0 := by omega
      rw [magnitude_zero, unpack_pack_zero]
      exact le_rfl
    · have settled : Settled units unit :=
        ⟨Nat.pos_of_ne_zero zero, small, lowest, rounded.full⟩
      rw [unpack_pack_settled _ _ _ _ settled, if_neg (by omega)]
      exact le_top
    · have settled : Settled (2 ^ 52) (unit + 1) :=
        ⟨by decide, by decide, by omega, Or.inl le_rfl⟩
      rw [unpack_pack_settled _ _ _ _ settled, if_neg (by omega)]
      exact le_top

theorem le_round_settled (mantissa : Nat) (exponent : Int) (positive : 0 < mantissa) {top : Nat}
    {topExponent : Int} (settled : Settled top topExponent)
    (above : magnitude top topExponent ≤ magnitude mantissa exponent) :
    (magnitude top topExponent : ℝ) ≤ extent (Float.Model.pack
      (UnpackedFloat.round Format.binary64 .positive mantissa exponent)).unpack := by
  obtain ⟨units, same, rounded, least⟩ := round_eq_carried .positive mantissa exponent positive
  rw [same]
  generalize roundingExponent mantissa exponent = unit at *
  rcases le_or_gt unit topExponent with fine | coarse
  · have aligned := magnitude_at_lower top fine
    rw [aligned]
    exact le_extent_carried rounded ((least _).2 (aligned ▸ above))
  · have filled : Settled (2 ^ 52) unit := ⟨by decide, by decide, rounded.lowest, Or.inl le_rfl⟩
    have full : 2 ^ 52 ≤ units := by
      rcases rounded.full with full | bottom
      · exact full
      · have := settled.lowest
        omega
    have below := (magnitude_lt_of_exponent_lt settled filled coarse).le
    exact (EReal.coe_le_coe_iff.mpr below).trans (le_extent_carried rounded full)

/-! ## Sums and differences -/

theorem normalize_positive (mantissa : Nat) (exponent : Int) (sign : Sign)
    (positive : 0 < mantissa) :
    UnpackedFloat.normalize Format.binary64 (mantissa : Int) exponent sign =
      UnpackedFloat.round Format.binary64 .positive mantissa exponent := by
  have above : compare (mantissa : Int) 0 = .gt := compare_gt_iff_gt.mpr (by omega)
  unfold UnpackedFloat.normalize
  rw [above, Int.toNat_natCast]

theorem normalize_not_positive (mantissa : Int) (exponent : Int) (sign : Sign)
    (belowOrZero : mantissa ≤ 0) :
    extent (Float.Model.pack
        (UnpackedFloat.normalize Format.binary64 mantissa exponent sign)).unpack ≤ 0 := by
  rcases lt_or_eq_of_le belowOrZero with below | zero
  · unfold UnpackedFloat.normalize
    rw [compare_lt_iff_lt.mpr below]
    exact signed_negative_le_zero (round_signed .negative _ _ (by omega))
  · unfold UnpackedFloat.normalize
    rw [compare_eq_iff_eq.mpr zero, unpack_pack_zero]
    exact le_rfl

theorem add_finite_upper {mantissa mantissa' : Nat} {exponent exponent' : Int}
    (positive : 0 < mantissa) (positive' : 0 < mantissa') :
    Upper (Float.Model.pack (UnpackedFloat.add Format.binary64
      (.finite .positive mantissa exponent positive)
      (.finite .positive mantissa' exponent' positive'))).unpack := by
  simp only [UnpackedFloat.add, decreaseExponent, Nat.shiftLeft_eq, Sign.apply]
  rw [← Int.natCast_add, normalize_positive _ _ _ (by positivity)]
  exact signed_positive_upper (round_signed .positive _ _ (by positivity))

theorem add_upper {left right : UnpackedFloat} (storedLeft : Stored left)
    (storedRight : Stored right) (upperLeft : Upper left) (upperRight : Upper right) :
    Upper (Float.Model.pack (UnpackedFloat.add Format.binary64 left right)).unpack := by
  rcases upperLeft with _ | sign | ⟨mantissa, exponent, positive⟩ <;>
    rcases upperRight with _ | sign' | ⟨mantissa', exponent', positive'⟩
  case finite.finite => exact add_finite_upper positive positive'
  case zero.zero =>
    cases sign <;> cases sign' <;> exact .zero _
  case zero.finite =>
    simp only [UnpackedFloat.add]
    rw [unpack_pack_stored _ storedRight]
    exact .finite mantissa' exponent' positive'
  case finite.zero =>
    simp only [UnpackedFloat.add]
    rw [unpack_pack_stored _ storedLeft]
    exact .finite mantissa exponent positive
  case infinity.infinity => exact .infinity
  all_goals
    simp only [UnpackedFloat.add]
    rw [unpack_pack_infinity]
    exact .infinity

/-- The sum is brought to the lower of the two exponents, where it is exact, and only then rounded:
it is above the first number before rounding and so is not below it afterwards. -/
theorem le_add_upper {left right : UnpackedFloat} (storedLeft : Stored left)
    (storedRight : Stored right) (upperLeft : Upper left) (upperRight : Upper right) :
    extent left ≤
      extent (Float.Model.pack (UnpackedFloat.add Format.binary64 left right)).unpack := by
  rcases upperLeft with _ | sign | ⟨mantissa, exponent, positive⟩ <;>
    rcases upperRight with _ | sign' | ⟨mantissa', exponent', positive'⟩
  case finite.finite =>
    simp only [UnpackedFloat.add, decreaseExponent, Nat.shiftLeft_eq, Sign.apply]
    rw [← Int.natCast_add, normalize_positive _ _ _ (by positivity)]
    apply le_round_settled _ _ (by positivity) storedLeft.1
    rw [magnitude_at_lower mantissa (min_le_left exponent exponent'), magnitude_le_iff]
    exact Nat.le_add_right _ _
  case zero.zero =>
    cases sign <;> cases sign' <;> exact le_rfl
  case zero.finite =>
    simp only [UnpackedFloat.add]
    rw [unpack_pack_stored _ storedRight]
    exact (extent_finite_positive mantissa' exponent' positive').le
  case finite.zero =>
    simp only [UnpackedFloat.add]
    rw [unpack_pack_stored _ storedLeft]
  all_goals
    simp only [UnpackedFloat.add]
    exact le_top

/-- The difference is brought to the lower of the two exponents, where it is exact, and only then
rounded: it is below the first number before rounding and so is not above it afterwards. -/
theorem sub_le_finite {mantissa mantissa' : Nat} {exponent exponent' : Int}
    (positive : 0 < mantissa) (positive' : 0 < mantissa')
    (stored : Stored (.finite .positive mantissa exponent positive))
    (above : 0 < extent (Float.Model.pack (UnpackedFloat.sub Format.binary64
      (.finite .positive mantissa exponent positive)
      (.finite .positive mantissa' exponent' positive'))).unpack) :
    extent (Float.Model.pack (UnpackedFloat.sub Format.binary64
        (.finite .positive mantissa exponent positive)
        (.finite .positive mantissa' exponent' positive'))).unpack ≤
      (magnitude mantissa exponent : ℝ) := by
  simp only [UnpackedFloat.sub, decreaseExponent, Nat.shiftLeft_eq, Sign.apply] at above ⊢
  generalize lower : min exponent exponent' = common at above ⊢
  have aligned := magnitude_at_lower mantissa (lower ▸ min_le_left exponent exponent')
  generalize mantissa * 2 ^ (exponent - common).toNat = left at above aligned ⊢
  generalize mantissa' * 2 ^ (exponent' - common).toNat = right at above ⊢
  have larger : right < left := by
    by_contra least
    exact absurd above (not_lt.mpr (normalize_not_positive _ _ _ (by omega)))
  have whole : (left : Int) - (right : Int) = ((left - right : Nat) : Int) := by omega
  rw [whole, normalize_positive _ _ _ (by omega)]
  apply round_le_settled _ _ (by omega) stored.1 stored.2
  rw [aligned, magnitude_le_iff]
  omega

theorem sub_le_upper {left right : UnpackedFloat} (stored : Stored left)
    (storedRight : Stored right) (upper : Upper left)
    (notBelow : right = .notANumber ∨ Upper right)
    (number : (Float.Model.pack (UnpackedFloat.sub Format.binary64 left right)).unpack ≠
      .notANumber)
    (above : 0 < extent (Float.Model.pack (UnpackedFloat.sub Format.binary64 left right)).unpack) :
    extent (Float.Model.pack (UnpackedFloat.sub Format.binary64 left right)).unpack ≤
      extent left := by
  rcases notBelow with rfl | upperRight
  · cases upper <;> exact absurd unpack_pack_not_a_number number
  · rcases upper with _ | sign | ⟨mantissa, exponent, positive⟩ <;>
      rcases upperRight with _ | sign' | ⟨mantissa', exponent', positive'⟩
    case finite.finite => exact sub_le_finite positive positive' stored above
    case finite.zero =>
      simp only [UnpackedFloat.sub]
      rw [unpack_pack_stored _ stored]
    case zero.zero =>
      cases sign <;> cases sign' <;> exact le_rfl
    case zero.finite =>
      have stored' : Stored (.finite (-Sign.positive) mantissa' exponent' positive') := storedRight
      simp only [UnpackedFloat.sub]
      rw [unpack_pack_stored _ stored']
      exact (extent_finite_negative mantissa' exponent' positive').le
    case zero.infinity =>
      simp only [UnpackedFloat.sub]
      rw [unpack_pack_infinity]
      exact bot_le
    case finite.infinity =>
      simp only [UnpackedFloat.sub]
      rw [unpack_pack_infinity]
      exact bot_le
    all_goals exact le_top

/-! ## Words -/

theorem upper_word_iff (word : Float) : 0 ≤ word ↔ Upper word.toModel.unpack := by
  rw [le_iff, value_zero, upper_iff]
  exact ⟨fun bounds => bounds.2, fun bounds => ⟨zero_is_number, bounds⟩⟩

theorem not_below_word_iff (word : Float) :
    ¬ word < 0 ↔ word.toModel.unpack = .notANumber ∨ Upper word.toModel.unpack := by
  rw [lt_iff, value_zero, upper_iff, ← not_lt]
  have number : IsNumber word ↔ word.toModel.unpack ≠ .notANumber := Iff.rfl
  have zeroNumber := zero_is_number
  have extentValue : value word = extent word.toModel.unpack := rfl
  tauto

theorem zero_le_add {left right : Float} (leftBound : 0 ≤ left) (rightBound : 0 ≤ right) :
    0 ≤ left + right := by
  rw [upper_word_iff] at leftBound rightBound ⊢
  exact add_upper (unpack_stored left.toModel) (unpack_stored right.toModel) leftBound rightBound

theorem le_add_self {left right : Float} (leftBound : 0 ≤ left) (rightBound : 0 ≤ right) :
    left ≤ left + right := by
  have sum := zero_le_add leftBound rightBound
  rw [upper_word_iff] at leftBound rightBound sum
  exact (le_iff left (left + right)).mpr ⟨((upper_iff _).mp leftBound).1, ((upper_iff _).mp sum).1,
    le_add_upper (unpack_stored left.toModel) (unpack_stored right.toModel) leftBound rightBound⟩

theorem zero_le_add_of_number {left right : Float} (leftBound : 0 ≤ left)
    (rightBound : ¬ right < 0) (number : IsNumber (left + right)) : 0 ≤ left + right := by
  rcases (not_below_word_iff right).mp rightBound with noNumber | upper
  · have lost : (left + right).toModel.unpack = .notANumber := by
      change (Float.Model.pack (UnpackedFloat.add Format.binary64 left.toModel.unpack
        right.toModel.unpack)).unpack = .notANumber
      rw [noNumber]
      cases left.toModel.unpack <;> exact unpack_pack_not_a_number
    exact absurd lost number
  · exact zero_le_add leftBound ((upper_word_iff right).mpr upper)

theorem sub_le_self {left right : Float} (leftBound : 0 ≤ left) (rightBound : ¬ right < 0)
    (above : 0 < left - right) : left - right ≤ left := by
  obtain ⟨-, number, positive⟩ := (lt_iff 0 (left - right)).mp above
  rw [upper_word_iff] at leftBound
  rw [le_iff]
  exact ⟨number, ((upper_iff _).mp leftBound).1,
    sub_le_upper (unpack_stored left.toModel) (unpack_stored right.toModel) leftBound
      ((not_below_word_iff right).mp rightBound) number positive⟩

theorem add_zero_same (unpacked : UnpackedFloat) (stored : Stored unpacked) :
    extent (Float.Model.pack (UnpackedFloat.add Format.binary64 unpacked
        (.zero .positive))).unpack = extent unpacked ∧
      ((Float.Model.pack (UnpackedFloat.add Format.binary64 unpacked
        (.zero .positive))).unpack ≠ .notANumber → unpacked ≠ .notANumber) := by
  cases unpacked with
  | infinity sign => simp [UnpackedFloat.add, unpack_pack_infinity]
  | notANumber => simp [UnpackedFloat.add, unpack_pack_not_a_number]
  | zero sign => cases sign <;> exact ⟨rfl, nofun⟩
  | finite sign mantissa exponent positive =>
      simp only [UnpackedFloat.add]
      rw [unpack_pack_stored _ stored]
      exact ⟨rfl, id⟩

theorem le_of_le_add_zero {word bound : Float} (within : word ≤ bound + 0) : word ≤ bound := by
  obtain ⟨number, number', below⟩ := (le_iff _ _).mp within
  obtain ⟨same, kept⟩ := add_zero_same bound.toModel.unpack (unpack_stored bound.toModel)
  exact (le_iff _ _).mpr ⟨number, kept number', below.trans same.le⟩

end EdgePlacement.Binary64
