import Criteria.Decimal.Nearest

/-!
The shortest decimal that reads back to a given binary64 number. With 1, 2, … 17 digits the two
decimals beside the number are tried; the first length with a hit wins, and of two hits the nearer.
-/

set_option autoImplicit false
set_option relaxedAutoImplicit false

namespace Criteria.Decimal

/-- Which of two equally near decimals is taken: the larger, or the one with the even last digit. -/
inductive Tie where
  | up
  | even
  deriving DecidableEq, Repr

/-- Mantissa and binary exponent of the finite number with these bits. -/
def mantissaExponent (magnitude : Nat) : Nat × Int :=
  let field : Nat := magnitude / Nat.pow 2 52
  let fraction : Nat := magnitude % Nat.pow 2 52
  if field = 0 then (fraction, -1074) else (fraction + Nat.pow 2 52, (field : Int) - 1075)

/-- The integer `p` with `10 ^ (p - 1) ≤ num / den < 10 ^ p`, for positive `num` and `den`. -/
def decimalOrder (num den : Nat) : Int :=
  let p : Int := (digitCount num : Int) - (digitCount den : Int)
  if den * Nat.pow 10 p.toNat ≤ num * Nat.pow 10 (-p).toNat then p + 1 else p

/-- The nearer of the decimals `floor` and `floor + 1` on the grid of `10 ^ grid` that reads back
to `magnitude`, if either does. The number lies `rest / step` above `floor`. -/
def nearerHit (tie : Tie) (magnitude floor rest step : Nat) (grid : Int) : Option Decimal :=
  let below : Decimal := ⟨floor, grid⟩
  let above : Decimal := ⟨floor + 1, grid⟩
  let upper : Bool :=
    if 2 * rest < step then false
    else if step < 2 * rest then true
    else
      match tie with
      | .up => true
      | .even => floor % 2 = 1
  match below.bits == magnitude, above.bits == magnitude with
  | true, true => some (if upper then above else below)
  | true, false => some below
  | false, true => some above
  | false, false => none

/-- The first hit with at most 17 digits, from `17 - fuel + 1` digits on. -/
def firstHit (tie : Tie) (magnitude num den : Nat) (order : Int) : Nat → Option Decimal
  | 0 => none
  | fuel + 1 =>
    let grid : Int := order - (17 - fuel : Nat)
    let step := den * Nat.pow 10 grid.toNat
    let scaled := num * Nat.pow 10 (-grid).toNat
    match nearerHit tie magnitude (scaled / step) (scaled % step) step grid with
    | some d => some d
    | none => firstHit tie magnitude num den order fuel

/-- The number itself, all its digits written out. -/
def exact (mantissa : Nat) (exponent : Int) : Decimal :=
  ⟨mantissa * Nat.pow 2 exponent.toNat * Nat.pow 5 (-exponent).toNat, min exponent 0⟩

/-- The shortest decimal that reads back to the positive finite number with these bits. -/
def shortest (tie : Tie) (magnitude : Nat) : Decimal :=
  let (mantissa, exponent) := mantissaExponent magnitude
  let num := mantissa * Nat.pow 2 exponent.toNat
  let den := Nat.pow 2 (-exponent).toNat
  ((firstHit tie magnitude num den (decimalOrder num den) 17).getD (exact mantissa exponent)).normal

end Criteria.Decimal
