import Criteria.Decimal.Nearest

/-!
Numerals as field values and rule literals write them: an optional sign, ASCII digits with an
optional point, an optional power of ten; or the names of infinity and not-a-number. Integers and
natural numbers of 64 bits have digits only.
-/

set_option autoImplicit false
set_option relaxedAutoImplicit false

namespace Criteria

namespace Decimal

def isAsciiDigit (c : Char) : Bool :=
  '0' ≤ c && c ≤ '9'

/-- The number that a run of ASCII digits spells. -/
def ofDigits (cs : List Char) : Nat :=
  cs.foldl (fun n c ↦ 10 * n + (c.toNat - '0'.toNat)) 0

/-- Takes the sign off a text; without one the text is positive. -/
def splitSign : List Char → Bool × List Char
  | '-' :: rest => (true, rest)
  | '+' :: rest => (false, rest)
  | cs => (false, cs)

/-- The power of ten after the digits: nothing, or `e` and a signed integer, up to the end. -/
def exponent? : List Char → Option Int
  | [] => some 0
  | c :: rest =>
    if c = 'e' ∨ c = 'E' then
      let (negative, digits) := splitSign rest
      if digits ≠ [] ∧ digits.all isAsciiDigit then
        some (if negative then -(ofDigits digits : Int) else ofDigits digits)
      else none
    else none

/-- What stands after the digits before the point: the digits behind it, and the rest. -/
def splitFraction : List Char → List Char × List Char
  | '.' :: rest => (rest.takeWhile isAsciiDigit, rest.dropWhile isAsciiDigit)
  | cs => ([], cs)

/-- The fraction that an unsigned numeral spells; at least one digit stands before or behind the
point. -/
def ofChars? (cs : List Char) : Option Decimal :=
  let whole := cs.takeWhile isAsciiDigit
  let (fraction, rest) := splitFraction (cs.dropWhile isAsciiDigit)
  if whole = [] ∧ fraction = [] then none
  else
    (exponent? rest).map fun e ↦
      ⟨ofDigits (whole ++ fraction), e - (fraction.length : Int)⟩

end Decimal

/-- The number that a text spells, if it is a numeral. -/
def numeral? (cs : List Char) : Option Float :=
  let (negative, body) := Decimal.splitSign cs
  let name := String.ofList (body.map Char.toLower)
  if name = "inf" ∨ name = "infinity" then
    some (Decimal.signedBits negative Decimal.infinityBits)
  else if name = "nan" then some (Float.ofBits 0x7FF8000000000000)
  else (Decimal.ofChars? body).map (Decimal.toFloat negative)

/-- The number that a text spells, if it is a numeral of a finite number. -/
def finiteNumeral? (cs : List Char) : Option Float :=
  (numeral? cs).filter Float.isFinite

/-- The number that a text spells, if it is an integer of 64 bits. -/
def integer? (cs : List Char) : Option Int :=
  let (negative, digits) := Decimal.splitSign cs
  let n := Decimal.ofDigits digits
  if digits = [] ∨ ¬digits.all Decimal.isAsciiDigit then none
  else if negative then if n ≤ Nat.pow 2 63 then some (-(n : Int)) else none
  else if n < Nat.pow 2 63 then some n else none

/-- The number that a text spells, if it is a natural number of 64 bits. A plus may stand in
front. -/
def natural? (cs : List Char) : Option Nat :=
  let digits := match cs with
    | '+' :: rest => rest
    | cs => cs
  let n := Decimal.ofDigits digits
  if digits ≠ [] ∧ digits.all Decimal.isAsciiDigit ∧ n < Nat.pow 2 64 then some n else none

end Criteria
