import Criteria.Decimal.Shortest

/-!
How a binary64 number is written. Every layout uses the shortest digits that read back; layouts
differ in where an exponent appears and in whether a whole number keeps a decimal place.
-/

set_option autoImplicit false
set_option relaxedAutoImplicit false

namespace Criteria

/-- How a number is written. -/
structure Layout where
  tie : Decimal.Tie
  /-- Bounds of the decimal order between which no exponent is written; without bounds none is. -/
  positional : Option (Int × Int)
  /-- Whether a whole number ends in `.0`. -/
  decimalPlace : Bool
  deriving DecidableEq, Repr

namespace Layout

/-- Rule texts, traces and field values: never an exponent, and a whole number is its digits. -/
def plain : Layout :=
  ⟨.up, none, false⟩

/-- JSON texts: no exponent from 0.00001 up to, but not including, 10^16. -/
def json : Layout :=
  ⟨.even, some (-4, 16), true⟩

/-- The digits with the point after the first `order` of them, zeros filling the gap. -/
def positionalChars (decimalPlace : Bool) (digits : List Char) (order : Int) : List Char :=
  if order ≤ 0 then '0' :: '.' :: (List.replicate (-order).toNat '0' ++ digits)
  else if order.toNat < digits.length then
    digits.take order.toNat ++ '.' :: digits.drop order.toNat
  else
    digits ++ List.replicate (order.toNat - digits.length) '0' ++
      (if decimalPlace then ['.', '0'] else [])

/-- One digit before the point, and the power of ten with its sign. -/
def scientificChars (digits : List Char) (order : Int) : List Char :=
  let power := order - 1
  digits.take 1 ++ (if digits.length = 1 then [] else '.' :: digits.drop 1) ++
    'e' :: (if power < 0 then '-' else '+') :: Nat.toDigits 10 power.natAbs

/-- The number `d`, which is not zero. -/
def decimalChars (l : Layout) (d : Decimal) : List Char :=
  let digits := Nat.toDigits 10 d.digits
  let order : Int := d.exponent + digits.length
  match l.positional with
  | none => positionalChars l.decimalPlace digits order
  | some (least, most) =>
    if least ≤ order ∧ order ≤ most then positionalChars l.decimalPlace digits order
    else scientificChars digits order

/-- The positive number with these bits. -/
def magnitudeChars (l : Layout) (magnitude : Nat) : List Char :=
  if magnitude = 0 then '0' :: (if l.decimalPlace then ['.', '0'] else [])
  else if magnitude = Decimal.infinityBits then ['i', 'n', 'f']
  else l.decimalChars (Decimal.shortest l.tie magnitude)

/-- Not-a-number has no sign; every other number has one, zero too. -/
def chars (l : Layout) (x : Float) : List Char :=
  let bits := x.toBits.toNat
  let magnitude := bits % Nat.pow 2 63
  if Decimal.infinityBits < magnitude then ['N', 'a', 'N']
  else if bits / Nat.pow 2 63 = 1 then '-' :: l.magnitudeChars magnitude
  else l.magnitudeChars magnitude

def write (l : Layout) (x : Float) : String :=
  String.ofList (l.chars x)

end Layout

end Criteria
