import Mathlib

/-!
# Binary64 words and their unpacked form

A word unpacks to a sign, a mantissa of at most 53 bits and an exponent. Only the lowest exponent
admits a mantissa without its top bit. Numbers of this shape are packed and unpacked again without a
change; an exponent beyond the format turns them into an infinity.

The library's own lemmas on packed words belong to none of its modules but the whole, which is why
all of it is imported here.
-/

namespace EdgePlacement.Binary64

open Float.Model Float.Model.UnpackedFloat

set_option autoImplicit false

/-- Mantissa and exponent as rounding leaves them: the exponent is the lowest one, or the mantissa
fills its 53 bits. -/
structure Settled (mantissa : Nat) (exponent : Int) : Prop where
  positive : 0 < mantissa
  bounded : mantissa < 2 ^ 53
  lowest : -1074 ≤ exponent
  full : 2 ^ 52 ≤ mantissa ∨ exponent = -1074

/-- The unpacked numbers that a word can hold. -/
def Stored : UnpackedFloat → Prop
  | .finite _ mantissa exponent _ => Settled mantissa exponent ∧ exponent ≤ 971
  | _ => True

/-- Unpacking as it is read off the three fields of a word. -/
def ofFields (sign : Sign) (exponent : BitVec 11) (mantissa : BitVec 52) : UnpackedFloat :=
  if exponent.toNat = 2047 then
    if mantissa.toNat = 0 then .infinity sign else .notANumber
  else if exponent.toNat = 0 then
    if subnormal : 0 < mantissa.toNat then .finite sign mantissa.toNat (-1074) subnormal
    else .zero sign
  else .finite sign (2 ^ 52 + mantissa.toNat) (exponent.toNat - 1075) (by omega)

theorem implicit_bit (mantissa : BitVec 52) :
    (1#1 ++ mantissa).toNat = 2 ^ 52 + mantissa.toNat := by
  rw [BitVec.toNat_append, ← Nat.shiftLeft_add_eq_or_of_lt mantissa.isLt]
  rfl

theorem all_ones_iff (exponent : BitVec 11) : exponent = -1#11 ↔ exponent.toNat = 2047 := by
  rw [← BitVec.toNat_inj]
  rfl

theorem all_clear_iff {width : Nat} (bits : BitVec width) :
    bits = BitVec.ofNat width 0 ↔ bits.toNat = 0 := by
  rw [← BitVec.toNat_inj]
  simp

theorem unpack_eq_of_fields (bits : BitVec 64) :
    UnpackedFloat.unpack Format.binary64 bits =
      ofFields (Sign.ofBitVec (@unpackSign Format.binary64 bits))
        (@unpackExponent Format.binary64 bits) (@unpackMantissa Format.binary64 bits) := by
  have bias : Format.binary64.exponentBias = 1023 := rfl
  unfold UnpackedFloat.unpack ofFields
  simp only [bias, all_ones_iff, all_clear_iff, implicit_bit]
  split_ifs with ones clear noExponent zero above above
  · rfl
  · rfl
  · omega
  · rfl
  · congr 1
    rw [noExponent]
    rfl
  · omega
  · congr 1

theorem of_fields_stored (sign : Sign) (exponent : BitVec 11) (mantissa : BitVec 52) :
    Stored (ofFields sign exponent mantissa) := by
  have exponentBound := exponent.isLt
  have mantissaBound := mantissa.isLt
  unfold ofFields
  split_ifs with ones clear noExponent above
  · trivial
  · trivial
  · exact ⟨⟨above, by omega, by omega, Or.inr rfl⟩, by omega⟩
  · trivial
  · exact ⟨⟨by omega, by omega, by omega, Or.inl (by omega)⟩, by omega⟩

theorem unpack_stored (word : Float.Model) : Stored word.unpack := by
  unfold Float.Model.unpack
  rw [unpack_eq_of_fields]
  exact of_fields_stored _ _ _

theorem unpack_components (sign : Sign) (exponent : BitVec 11) (mantissa : BitVec 52) :
    UnpackedFloat.unpack Format.binary64 (packComponents Format.binary64 sign exponent mantissa) =
      ofFields sign exponent mantissa := by
  rw [unpack_eq_of_fields, unpackSign_packComponents, Sign.ofBitVec_toBitVec,
    unpackExponent_packComponents, unpackMantissa_packComponents]

theorem unpack_pack_infinity (sign : Sign) :
    (Float.Model.pack (.infinity sign)).unpack = .infinity sign :=
  unpack_components sign (-1#11) 0

theorem unpack_pack_zero (sign : Sign) : (Float.Model.pack (.zero sign)).unpack = .zero sign :=
  unpack_packedZero

theorem unpack_pack_not_a_number : (Float.Model.pack .notANumber).unpack = .notANumber :=
  unpack_packedNaN

theorem unpack_pack_settled (sign : Sign) (mantissa : Nat) (exponent : Int)
    (positive : 0 < mantissa) (settled : Settled mantissa exponent) :
    (Float.Model.pack (.finite sign mantissa exponent positive)).unpack =
      if exponent ≤ 971 then .finite sign mantissa exponent positive else .infinity sign := by
  obtain ⟨_, bounded, lowest, full⟩ := settled
  have bias : Format.binary64.exponentBias = 1023 := rfl
  have width : Format.binary64.mantissaBits = 53 := rfl
  have infinite : packedInfinity Format.binary64 sign =
      packComponents Format.binary64 sign (-1#_) 0 := rfl
  unfold Float.Model.unpack Float.Model.pack UnpackedFloat.pack
  simp only [bias, width]
  rw [infinite]
  split_ifs with overflow inRange normal inRange inRange
  · omega
  · rw [unpack_components]
    rfl
  · have logarithm : 52 ≤ mantissa.log2 := by omega
    have large : 2 ^ 52 ≤ mantissa := (Nat.le_log2 positive.ne').mp logarithm
    have exponentField : (BitVec.ofNat 11 (exponent + (1023 : Nat) + (52 : Nat)).toNat).toNat =
        (exponent + 1075).toNat := by
      rw [BitVec.toNat_ofNat]
      omega
    have mantissaField : (BitVec.ofNat 52 mantissa).toNat = mantissa - 2 ^ 52 := by
      rw [BitVec.toNat_ofNat]
      omega
    rw [unpack_components, ofFields, if_neg (by omega), if_neg (by omega)]
    congr 1 <;> omega
  · omega
  · have small : mantissa < 2 ^ 52 := by
      by_contra large
      have logarithm := (Nat.le_log2 positive.ne').mpr (Nat.not_lt.mp large)
      have above := (Nat.log2_lt positive.ne').mpr bounded
      omega
    have mantissaField : (BitVec.ofNat 52 mantissa).toNat = mantissa := by
      rw [BitVec.toNat_ofNat]
      omega
    rw [unpack_components, ofFields, if_neg (by simp), if_pos (by simp), dif_pos (by omega)]
    congr 1
    omega
  · omega

theorem unpack_pack_stored (unpacked : UnpackedFloat) (stored : Stored unpacked) :
    (Float.Model.pack unpacked).unpack = unpacked := by
  cases unpacked with
  | infinity sign => exact unpack_pack_infinity sign
  | notANumber => exact unpack_pack_not_a_number
  | zero sign => exact unpack_pack_zero sign
  | finite sign mantissa exponent positive =>
      rw [unpack_pack_settled sign mantissa exponent positive stored.1, if_pos stored.2]

end EdgePlacement.Binary64
