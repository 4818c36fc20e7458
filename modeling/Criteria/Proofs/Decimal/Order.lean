import Criteria.Proofs.Decimal.Binary64

/-!
The order of finite binary64 numbers. A number that is kept canonically stands for a fraction, and
two such numbers compare as their fractions do; so the tests of finite numbers are those of the
fractions that they stand for. The infinite numbers are beyond them on either side.
-/

set_option autoImplicit false
set_option relaxedAutoImplicit false

namespace Criteria.Binary64

open Float.Model Float.Model.UnpackedFloat

/-! ### Canonical parts -/

/-- The fraction that the parts of a number stand for; infinity and not-a-number stand for none. -/
def partsValue : UnpackedFloat → ℚ
  | .finite .positive mantissa exponent _ => mantissa * 2 ^ exponent
  | .finite .negative mantissa exponent _ => -(mantissa * 2 ^ exponent)
  | _ => 0

/-- The fraction that a finite number stands for. -/
def value (x : Float) : ℚ :=
  partsValue x.toModel.unpack

/-- A mantissa that is full, or that has the least exponent. -/
structure IsCanonical (mantissa : Nat) (exponent : Int) : Prop where
  pos : 0 < mantissa
  lt : mantissa < 2 ^ 53
  least : -1074 ≤ exponent
  full : exponent = -1074 ∨ 2 ^ 52 ≤ mantissa

/-- Zero, or a number with a canonical mantissa. -/
inductive AreCanonical : UnpackedFloat → Prop
  | zero (sign : Sign) : AreCanonical (.zero sign)
  | finite (sign : Sign) {mantissa : Nat} {exponent : Int}
    (h : IsCanonical mantissa exponent) : AreCanonical (.finite sign mantissa exponent h.pos)

/-- A finite number is kept canonically. -/
theorem areCanonical_unpack {x : Float} (h : x.isFinite = true) :
    AreCanonical x.toModel.unpack := by
  change (UnpackedFloat.unpack Format.binary64 x.toModel.toBits.toBitVec).isFinite = true at h
  change AreCanonical (UnpackedFloat.unpack Format.binary64 x.toModel.toBits.toBitVec)
  obtain ⟨b, hb⟩ : ∃ b : Bits, b = x.toModel.toBits.toBitVec := ⟨_, rfl⟩
  rw [← hb] at h ⊢
  unfold UnpackedFloat.unpack at h ⊢
  by_cases hones : unpackExponent b = -1#11
  · simp only [hones, ↓reduceIte] at h
    split at h <;> simp [UnpackedFloat.isFinite] at h
  · have hmantissa : (unpackMantissa b).toNat < 2 ^ 52 := (unpackMantissa b).isLt
    by_cases hnone : unpackExponent b = 0#11
    · by_cases hzero : unpackMantissa b = 0#52
      · simp only [hnone, hzero, ↓reduceIte, ↓reduceDIte]
        exact .zero _
      · simp only [hnone, hzero, ↓reduceIte, ↓reduceDIte]
        have hpos : (unpackMantissa b).toNat ≠ 0 := fun heq ↦ hzero (BitVec.eq_of_toNat_eq heq)
        exact .finite _ ⟨by omega, by omega, by decide, .inl rfl⟩
    · simp only [hones, hnone, ↓reduceIte]
      have hexponent : (unpackExponent b).toNat ≠ 0 := fun heq ↦ hnone (BitVec.eq_of_toNat_eq heq)
      have hfull : (1#1 ++ unpackMantissa b).toNat = 2 ^ 52 + (unpackMantissa b).toNat := by
        rw [toNat_append_eq]
        simp
      refine .finite _ ⟨by omega, by omega, ?_, .inr (by omega)⟩
      change (-1074 : Int) ≤ ((unpackExponent b).toNat : Int) - (1023 + 52)
      omega

/-! ### Comparing -/

theorem partsValue_pos {mantissa : Nat} (h : 0 < mantissa) (exponent : Int) :
    (0 : ℚ) < mantissa * 2 ^ exponent := by
  have hmantissa : (0 : ℚ) < mantissa := Nat.cast_pos.mpr h
  positivity

/-- Of two canonical mantissas, the one with the larger exponent stands for more. -/
theorem IsCanonical.lt_of_exponent_lt {m n : Nat} {d e : Int} (hm : IsCanonical m d)
    (hn : IsCanonical n e) (h : d < e) : (m : ℚ) * 2 ^ d < n * 2 ^ e := by
  have hfull : (2 : ℚ) ^ (52 : Int) ≤ n := by
    have hle : 2 ^ 52 ≤ n := hn.full.resolve_left fun hleast ↦ by
      have hleast' := hm.least
      omega
    exact_mod_cast hle
  have hlt : (m : ℚ) < 2 ^ (53 : Int) := by exact_mod_cast hm.lt
  calc (m : ℚ) * 2 ^ d < 2 ^ (53 : Int) * 2 ^ d := by gcongr
    _ = 2 ^ (52 : Int) * 2 ^ (d + 1) := by
      rw [← zpow_add₀ two_ne_zero, ← zpow_add₀ two_ne_zero]
      congr 1
      omega
    _ ≤ n * 2 ^ e := by
      gcongr
      · norm_num
      · omega

/-- Exponents compare first, and mantissas after them. -/
theorem IsCanonical.compare_eq {m n : Nat} {d e : Int} (hm : IsCanonical m d)
    (hn : IsCanonical n e) :
    (compare d e).then (compare m n) = compare ((m : ℚ) * 2 ^ d) (n * 2 ^ e) := by
  rcases lt_trichotomy d e with hlt | rfl | hgt
  · rw [compare_lt_iff_lt.mpr hlt, compare_lt_iff_lt.mpr (hm.lt_of_exponent_lt hn hlt)]
    rfl
  · have hpos : (0 : ℚ) < 2 ^ d := by positivity
    rw [compare_eq_iff_eq.mpr rfl]
    rcases lt_trichotomy m n with hlt | rfl | hgt
    · rw [compare_lt_iff_lt.mpr hlt, compare_lt_iff_lt.mpr]
      · rfl
      · gcongr
    · rw [compare_eq_iff_eq.mpr rfl, compare_eq_iff_eq.mpr rfl]
      rfl
    · rw [compare_gt_iff_gt.mpr hgt, compare_gt_iff_gt.mpr]
      · rfl
      · gcongr
  · rw [compare_gt_iff_gt.mpr hgt, compare_gt_iff_gt.mpr (hn.lt_of_exponent_lt hm hgt)]
    rfl

theorem swap_compare_neg (p q : ℚ) : (compare p q).swap = compare (-p) (-q) := by
  rcases lt_trichotomy p q with hlt | rfl | hgt
  · rw [compare_lt_iff_lt.mpr hlt, compare_gt_iff_gt.mpr (neg_lt_neg hlt)]
    rfl
  · rw [compare_eq_iff_eq.mpr rfl, compare_eq_iff_eq.mpr rfl]
    rfl
  · rw [compare_gt_iff_gt.mpr hgt, compare_lt_iff_lt.mpr (neg_lt_neg hgt)]
    rfl

/-- Canonical numbers compare as the fractions that they stand for; zero has two signs, but one
value. -/
theorem AreCanonical.compare_eq {u v : UnpackedFloat} (hu : AreCanonical u)
    (hv : AreCanonical v) : u.compare v = some (compare (partsValue u) (partsValue v)) := by
  have hzero (p : ℚ) (hp : 0 < p) :
      compare p 0 = .gt ∧ compare 0 p = .lt ∧ compare (-p) 0 = .lt ∧ compare 0 (-p) = .gt :=
    ⟨compare_gt_iff_gt.mpr hp, compare_lt_iff_lt.mpr hp,
      compare_lt_iff_lt.mpr (neg_lt_zero.mpr hp), compare_gt_iff_gt.mpr (neg_lt_zero.mpr hp)⟩
  cases hu with
  | zero s =>
    cases hv with
    | zero t => exact congrArg some (compare_eq_iff_eq.mpr rfl).symm
    | @finite t n e hn =>
      obtain ⟨-, hlt, -, hgt⟩ := hzero _ (partsValue_pos hn.pos e)
      cases t with
      | negative => exact congrArg some hgt.symm
      | positive => exact congrArg some hlt.symm
  | @finite s m d hm =>
    have hmpos := partsValue_pos hm.pos d
    cases hv with
    | zero t =>
      obtain ⟨hgt, -, hlt, -⟩ := hzero _ hmpos
      cases s with
      | negative => exact congrArg some hlt.symm
      | positive => exact congrArg some hgt.symm
    | @finite t n e hn =>
      have hnpos := partsValue_pos hn.pos e
      cases s with
      | negative =>
        cases t with
        | negative =>
          have hswap := congrArg Ordering.swap (hm.compare_eq hn)
          exact congrArg some (hswap.trans (swap_compare_neg _ _))
        | positive =>
          refine congrArg some (compare_lt_iff_lt.mpr ?_).symm
          simp only [partsValue]
          linarith
      | positive =>
        cases t with
        | negative =>
          refine congrArg some (compare_gt_iff_gt.mpr ?_).symm
          simp only [partsValue]
          linarith
        | positive => exact congrArg some (hm.compare_eq hn)

/-! ### The tests of numbers -/

variable {x y : Float}

theorem compare_unpack (hx : x.isFinite = true) (hy : y.isFinite = true) :
    x.toModel.unpack.compare y.toModel.unpack = some (compare (value x) (value y)) :=
  (areCanonical_unpack hx).compare_eq (areCanonical_unpack hy)

theorem lt_iff (hx : x.isFinite = true) (hy : y.isFinite = true) :
    x < y ↔ value x < value y := by
  change decide ((x.toModel.unpack.compare y.toModel.unpack == some .lt) = true) = true ↔ _
  rw [decide_eq_true_iff, compare_unpack hx hy, beq_iff_eq, Option.some.injEq, compare_lt_iff_lt]

theorem le_iff (hx : x.isFinite = true) (hy : y.isFinite = true) :
    x ≤ y ↔ value x ≤ value y := by
  change decide ((x.toModel.unpack.compare y.toModel.unpack).any Ordering.isLE = true) = true ↔ _
  rw [decide_eq_true_iff, compare_unpack hx hy, Option.any_some, Ordering.isLE_iff_ne_gt]
  exact compare_le_iff_le

theorem beq_iff (hx : x.isFinite = true) (hy : y.isFinite = true) :
    (x == y) = true ↔ value x = value y := by
  change (x.toModel.unpack.compare y.toModel.unpack == some .eq) = true ↔ _
  rw [compare_unpack hx hy, beq_iff_eq, Option.some.injEq, compare_eq_iff_eq]

/-! ### Infinite numbers -/

/-- On which side of the finite numbers a number lies, if it is none of them. -/
def partsSide : UnpackedFloat → Int
  | .infinity .positive => 1
  | .infinity .negative => -1
  | _ => 0

def side (x : Float) : Int :=
  partsSide x.toModel.unpack

theorem isFinite_or_infinity (h : x.isNaN = false) :
    x.isFinite = true ∨ ∃ s, x.toModel.unpack = .infinity s := by
  change x.toModel.unpack.isNaN = false at h
  change x.toModel.unpack.isFinite = true ∨ _
  cases hx : x.toModel.unpack with
  | infinity s => exact Or.inr ⟨s, rfl⟩
  | notANumber =>
    rw [hx] at h
    cases h
  | zero | finite => exact Or.inl rfl

/-- There are just two infinite numbers. -/
theorem eq_of_unpack_eq_infinity {s : Sign} (h : x.toModel.unpack = .infinity s) :
    x = Float.ofModel (Float.Model.pack (.infinity s)) := by
  rw [← ofBits_toBits x, ← h]
  rfl

/-- All but not-a-number compare by their sides, and on one side as the fractions that they stand
for. -/
theorem compare_eq_side_then_value {u v : UnpackedFloat}
    (hu : AreCanonical u ∨ ∃ s, u = .infinity s) (hv : AreCanonical v ∨ ∃ s, v = .infinity s) :
    u.compare v = some ((compare (partsSide u) (partsSide v)).then
      (compare (partsValue u) (partsValue v))) := by
  rcases hu with hu | ⟨s, rfl⟩
  · rcases hv with hv | ⟨t, rfl⟩
    · rw [hu.compare_eq hv]
      cases hu <;> cases hv <;> rfl
    · cases t <;> cases hu <;> rfl
  · rcases hv with hv | ⟨t, rfl⟩
    · cases s <;> cases hv <;> rfl
    · cases s <;> cases t <;> rfl

theorem lt_iff_of_isNaN_eq_false (hx : x.isNaN = false) (hy : y.isNaN = false) :
    x < y ↔ (compare (side x) (side y)).then (compare (value x) (value y)) = .lt := by
  have hparts {z : Float} (hz : z.isNaN = false) :
      AreCanonical z.toModel.unpack ∨ ∃ s, z.toModel.unpack = .infinity s :=
    (isFinite_or_infinity hz).imp_left areCanonical_unpack
  change decide ((x.toModel.unpack.compare y.toModel.unpack == some .lt) = true) = true ↔ _
  rw [decide_eq_true_iff, compare_eq_side_then_value (hparts hx) (hparts hy), beq_iff_eq,
    Option.some.injEq]
  rfl

end Criteria.Binary64
