/-!
Decimal fractions and the binary64 number nearest to one. All rounding is done on natural numbers:
a positive binary64 number is named by its bits without the sign, which order as the numbers do.
-/

set_option autoImplicit false
set_option relaxedAutoImplicit false

namespace Criteria

/-- The fraction `digits * 10 ^ exponent`. -/
structure Decimal where
  digits : Nat
  exponent : Int
  deriving DecidableEq, Repr

namespace Decimal

/-- Moves factors of ten out of `n` into the exponent. -/
def strip (n : Nat) (exponent : Int) : Decimal :=
  if h : n ≠ 0 ∧ n % 10 = 0 then strip (n / 10) (exponent + 1) else ⟨n, exponent⟩
termination_by n
decreasing_by omega

/-- The same fraction with the fewest digits. -/
def normal (d : Decimal) : Decimal :=
  strip d.digits d.exponent

/-- The quotient rounded to the nearest integer, a half to the even neighbour. -/
def roundHalfEven (num den : Nat) : Nat :=
  let floor := num / den
  let rest := 2 * (num % den)
  if rest < den then floor
  else if den < rest then floor + 1
  else if floor % 2 = 0 then floor
  else floor + 1

/-- The integer `e` with `2 ^ e ≤ num / den < 2 ^ (e + 1)`, for positive `num` and `den`. -/
def binaryOrder (num den : Nat) : Int :=
  let e : Int := (Nat.log2 num : Int) - (Nat.log2 den : Int)
  if den * Nat.pow 2 e.toNat ≤ num * Nat.pow 2 (-e).toNat then e else e - 1

/-- The bits of positive infinity, one above those of the largest finite number. -/
def infinityBits : Nat :=
  2047 * Nat.pow 2 52

/-- The bits of the binary64 number nearest to `num / den`, a tie going to the even mantissa and a
quotient beyond the largest number to infinity. The mantissa has 53 bits, or fewer where its last
bit would stand for less than `2 ^ (-1074)`; a mantissa that rounds up to 54 bits carries into the
exponent field. -/
def nearestBits (num den : Nat) : Nat :=
  if num = 0 then 0
  else
    let scale : Int := max (binaryOrder num den - 52) (-1074)
    let mantissa := roundHalfEven (num * Nat.pow 2 (-scale).toNat) (den * Nat.pow 2 scale.toNat)
    min ((scale + 1074).toNat * Nat.pow 2 52 + mantissa) infinityBits

/-- How many decimal digits `n` has. -/
def digitCount (n : Nat) : Nat :=
  (Nat.toDigits 10 n).length

/-- The bits of the binary64 number nearest to a fraction. A fraction of 10^310 or more is
infinite and one below 10^(-330) is zero, so that no larger powers of ten are ever formed. -/
def bits (d : Decimal) : Nat :=
  let r := d.normal
  let order : Int := r.exponent + digitCount r.digits
  if r.digits = 0 ∨ order < -330 then 0
  else if 311 ≤ order then infinityBits
  else nearestBits (r.digits * Nat.pow 10 r.exponent.toNat) (Nat.pow 10 (-r.exponent).toNat)

/-- The number with this sign and these bits. -/
def signedBits (negative : Bool) (magnitude : Nat) : Float :=
  Float.ofBits (UInt64.ofNat (if negative then Nat.pow 2 63 + magnitude else magnitude))

def toFloat (negative : Bool) (d : Decimal) : Float :=
  signedBits negative d.bits

end Decimal

end Criteria
