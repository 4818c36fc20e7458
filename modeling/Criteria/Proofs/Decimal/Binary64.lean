import Criteria.Decimal.Nearest
import Mathlib

/-!
Binary64 numbers and their bits. A number is made of its sign and its magnitude again, it is finite
if its magnitude lies below that of infinity, and a finite number equals itself.
-/

set_option autoImplicit false
set_option relaxedAutoImplicit false

namespace Criteria.Binary64

open Float.Model Float.Model.UnpackedFloat

/-! ### The fields of a number -/

/-- The bits of a binary64 number. -/
abbrev Bits :=
  BitVec Format.binary64.numBits

theorem toNat_append_eq {m n : Nat} (a : BitVec m) (b : BitVec n) :
    (a ++ b).toNat = a.toNat * 2 ^ n + b.toNat := by
  rw [BitVec.toNat_append, ← Nat.shiftLeft_add_eq_or_of_lt b.isLt, Nat.shiftLeft_eq]

theorem toNat_packComponents (sign : Sign) (exponent : BitVec 11) (mantissa : BitVec 52) :
    (packComponents Format.binary64 sign exponent mantissa).toNat =
      sign.toBitVec.toNat * 2 ^ 63 + exponent.toNat * 2 ^ 52 + mantissa.toNat := by
  unfold packComponents
  rw [toNat_append_eq, toNat_append_eq]
  omega

theorem toNat_unpackMantissa (b : Bits) : (unpackMantissa b).toNat = b.toNat % 2 ^ 52 := by
  simp [unpackMantissa]

theorem toNat_unpackExponent (b : Bits) :
    (unpackExponent b).toNat = b.toNat / 2 ^ 52 % 2 ^ 11 := by
  simp [unpackExponent, Nat.shiftRight_eq_div_pow]

theorem toNat_unpackSign (b : Bits) : (unpackSign b).toNat = b.toNat / 2 ^ 63 := by
  have hlt : b.toNat < 2 ^ 64 := b.isLt
  simp only [unpackSign, BitVec.toNat_cast, BitVec.extractLsb_toNat, Nat.shiftRight_eq_div_pow]
  omega

theorem toBitVec_ofBitVec (b : BitVec 1) : (Sign.ofBitVec b).toBitVec = b := by
  have h : ∀ b : BitVec 1, (Sign.ofBitVec b).toBitVec = b := by decide
  exact h b

/-- A number is made of its three fields. -/
theorem packComponents_unpack (b : Bits) :
    packComponents Format.binary64 (Sign.ofBitVec (unpackSign b)) (unpackExponent b)
      (unpackMantissa b) = b := by
  have hlt : b.toNat < 2 ^ 64 := b.isLt
  apply BitVec.eq_of_toNat_eq
  rw [toNat_packComponents, toBitVec_ofBitVec, toNat_unpackSign, toNat_unpackExponent,
    toNat_unpackMantissa]
  omega

/-! ### Packing what was unpacked -/

/-- A subnormal number has the exponent field zero. -/
theorem pack_subnormal {sign : Sign} {mantissa : BitVec 52} {exponent : Int}
    (hexponent : exponent = -1074) (h : 0 < mantissa.toNat) :
    UnpackedFloat.pack Format.binary64 (.finite sign mantissa.toNat exponent h) =
      packComponents Format.binary64 sign 0#11 mantissa := by
  subst hexponent
  have hlog : mantissa.toNat.log2 < 52 := (Nat.log2_lt (by omega)).mpr mantissa.isLt
  have hfew : ¬mantissa.toNat.log2 + 1 = Format.binary64.mantissaBits := by
    change ¬mantissa.toNat.log2 + 1 = 53
    omega
  rw [UnpackedFloat.pack, if_neg (by decide), if_neg hfew, BitVec.ofNat_toNat, BitVec.setWidth_eq]

/-- A normal number has its own exponent field, and a leading bit that is not written. -/
theorem pack_normal {sign : Sign} {field : BitVec 11} {mantissa : BitVec 52} {exponent : Int}
    (hfield : field ≠ -1#11) (hexponent : exponent = field.toNat - 1075)
    (h : 0 < (1#1 ++ mantissa).toNat) :
    UnpackedFloat.pack Format.binary64 (.finite sign (1#1 ++ mantissa).toNat exponent h) =
      packComponents Format.binary64 sign field mantissa := by
  have hmantissa : (1#1 ++ mantissa).toNat = 2 ^ 52 + mantissa.toNat := by
    rw [toNat_append_eq]
    simp
  have hmantissaLt := mantissa.isLt
  have hlog : (1#1 ++ mantissa).toNat.log2 = 52 := by
    rw [hmantissa, Nat.log2_eq_iff (by omega)]
    omega
  have hfieldLt : field.toNat + 1 < 2 ^ 11 := by
    have hne : field.toNat ≠ 2047 := fun heq ↦ hfield (BitVec.eq_of_toNat_eq heq)
    have hlt := field.isLt
    omega
  have hbiased : (exponent + (Format.binary64.exponentBias : Int) +
      (Format.binary64.mantissaBitsWithoutImplicit : Int)).toNat = field.toNat := by
    change (exponent + 1023 + 52).toNat = field.toNat
    omega
  have hrest : BitVec.ofNat 52 (1#1 ++ mantissa).toNat = mantissa := by
    apply BitVec.eq_of_toNat_eq
    rw [BitVec.toNat_ofNat, hmantissa]
    omega
  simp only [UnpackedFloat.pack, hbiased]
  rw [if_neg (by omega), if_pos (by rw [hlog]; rfl), hrest,
    BitVec.ofNat_toNat, BitVec.setWidth_eq]

/-- Packing undoes unpacking, if the bits of not-a-number are the chosen ones. -/
theorem pack_unpack {b : Bits} (h : Format.binary64.Valid b) :
    UnpackedFloat.pack Format.binary64 (UnpackedFloat.unpack Format.binary64 b) = b := by
  have hself := packComponents_unpack b
  unfold UnpackedFloat.unpack
  by_cases hones : unpackExponent b = -1#11
  · by_cases hzero : unpackMantissa b = 0#52
    · rw [hones, hzero] at hself
      simp only [hones, hzero, ↓reduceIte]
      exact hself
    · simp only [hones, hzero, ↓reduceIte]
      exact (h.eq_packedNaN hones hzero).symm
  · by_cases hnone : unpackExponent b = 0#11
    · by_cases hzero : unpackMantissa b = 0#52
      · rw [hnone, hzero] at hself
        simp only [hnone, hzero, ↓reduceIte, ↓reduceDIte]
        exact hself
      · simp only [hnone, hzero, ↓reduceIte, ↓reduceDIte]
        rw [hnone] at hself
        exact (pack_subnormal rfl _).trans hself
    · simp only [hones, hnone, ↓reduceIte]
      exact (pack_normal hones rfl _).trans hself

/-! ### Numbers and their bits -/

theorem ofBits_toBits (x : Float) : Float.ofBits x.toBits = x := by
  obtain ⟨bits, hvalid⟩ := x
  have hmodel : Float.Model.ofBits bits = ⟨bits, hvalid⟩ := by
    simp only [Float.Model.ofBits, Float.Model.pack, pack_unpack hvalid, UInt64.ofBitVec_toBitVec]
  exact congrArg Float.ofModel hmodel

/-- A number has the bits that it is made of, if those of not-a-number are the chosen ones. -/
theorem toBits_ofBits {bits : UInt64} (h : Format.binary64.Valid bits.toBitVec) :
    (Float.ofBits bits).toBits = bits := by
  change UInt64.ofBitVec (UnpackedFloat.pack Format.binary64
    (UnpackedFloat.unpack Format.binary64 bits.toBitVec)) = bits
  rw [pack_unpack h]

/-- The bits of a number without its sign. -/
def magnitude (x : Float) : Nat :=
  x.toBits.toNat % Nat.pow 2 63

def isNegative (x : Float) : Bool :=
  x.toBits.toNat / Nat.pow 2 63 = 1

/-- A number is its sign and its magnitude. -/
theorem signedBits_magnitude (x : Float) :
    Decimal.signedBits (isNegative x) (magnitude x) = x := by
  have hlt : x.toBits.toNat < 2 ^ 64 := x.toBits.toNat_lt
  have hpow : Nat.pow 2 63 = 2 ^ 63 := rfl
  have hbits : (if isNegative x then Nat.pow 2 63 + magnitude x else magnitude x) =
      x.toBits.toNat := by
    simp only [isNegative, magnitude, hpow, decide_eq_true_eq]
    split <;> omega
  rw [Decimal.signedBits, hbits, UInt64.ofNat_toNat]
  exact ofBits_toBits x

/-- A number with a sign has the magnitude that it was made of, below that of infinity. -/
theorem magnitude_signedBits (negative : Bool) {m : Nat} (h : m < Decimal.infinityBits) :
    magnitude (Decimal.signedBits negative m) = m := by
  have hpow : Nat.pow 2 63 = 2 ^ 63 ∧ Decimal.infinityBits = 2047 * 2 ^ 52 := ⟨rfl, rfl⟩
  rw [hpow.2] at h
  obtain ⟨bits, hbits⟩ :
      ∃ bits, bits = if negative then Nat.pow 2 63 + m else m := ⟨_, rfl⟩
  have hmod : bits % 2 ^ 63 = m ∧ bits < 2 ^ 64 := by
    rw [hbits, hpow.1]
    split <;> omega
  have hnat : (UInt64.ofNat bits).toNat = bits := UInt64.toNat_ofNat_of_lt' hmod.2
  have hvalid : Format.binary64.Valid (UInt64.ofNat bits).toBitVec := by
    refine ⟨fun hones ↦ absurd (congrArg BitVec.toNat hones) ?_⟩
    rw [toNat_unpackExponent]
    change (UInt64.ofNat bits).toNat / 2 ^ 52 % 2 ^ 11 ≠ 2047
    rw [hnat]
    omega
  rw [magnitude, Decimal.signedBits, ← hbits, toBits_ofBits hvalid, hnat, hpow.1]
  exact hmod.1

theorem isFinite_iff (x : Float) :
    x.isFinite = true ↔ magnitude x < Decimal.infinityBits := by
  have hpow : Nat.pow 2 63 = 2 ^ 63 ∧ Decimal.infinityBits = 2047 * 2 ^ 52 := ⟨rfl, rfl⟩
  have hfield : @unpackExponent Format.binary64 x.toBits.toBitVec = -1#11 ↔
      Decimal.infinityBits ≤ magnitude x := by
    have hones : (-1#11).toNat = 2047 := by decide
    rw [← BitVec.toNat_inj, toNat_unpackExponent, hones, magnitude, hpow.1, hpow.2]
    change x.toBits.toNat / 2 ^ 52 % 2 ^ 11 = 2047 ↔ _
    omega
  have hfinite : x.isFinite = true ↔
      @unpackExponent Format.binary64 x.toBits.toBitVec ≠ -1#11 := by
    change (UnpackedFloat.unpack Format.binary64 x.toBits.toBitVec).isFinite = true ↔ _
    unfold UnpackedFloat.unpack
    by_cases hones : @unpackExponent Format.binary64 x.toBits.toBitVec = -1#11
    · simp only [hones, ↓reduceIte]
      split <;> simp [UnpackedFloat.isFinite]
    · refine iff_of_true ?_ hones
      simp only [hones, ↓reduceIte]
      split
      · split <;> rfl
      · rfl
  rw [hfinite, ne_eq, hfield]
  omega

theorem isFinite_signedBits (negative : Bool) {m : Nat} (h : m < Decimal.infinityBits) :
    (Decimal.signedBits negative m).isFinite = true := by
  rwa [isFinite_iff, magnitude_signedBits negative h]

theorem beq_self_of_isFinite {x : Float} (h : x.isFinite = true) : (x == x) = true := by
  change (x.toModel.unpack.compare x.toModel.unpack == some .eq) = true
  change x.toModel.unpack.isFinite = true at h
  generalize x.toModel.unpack = u at h ⊢
  cases u with
  | infinity => simp [UnpackedFloat.isFinite] at h
  | notANumber => simp [UnpackedFloat.isFinite] at h
  | zero sign => rfl
  | finite sign mantissa exponent hpos =>
    cases sign <;> simp [UnpackedFloat.compare]

/-- What equals a finite number is finite. -/
theorem isFinite_of_beq {x y : Float} (hx : x.isFinite = true) (h : (x == y) = true) :
    y.isFinite = true := by
  change (x.toModel.unpack.compare y.toModel.unpack == some .eq) = true at h
  change x.toModel.unpack.isFinite = true at hx
  change y.toModel.unpack.isFinite = true
  generalize x.toModel.unpack = u at h hx
  generalize y.toModel.unpack = v at h ⊢
  cases v with
  | zero | finite => rfl
  | notANumber =>
    cases u <;> cases h
  | infinity sign =>
    cases u with
    | infinity => cases hx
    | notANumber => cases hx
    | zero => cases sign <;> cases h
    | finite => cases sign <;> cases h

end Criteria.Binary64
