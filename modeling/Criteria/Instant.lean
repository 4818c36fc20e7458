import Criteria.Calendar

/-!
Moments in universal time, to the nanosecond, and their text. A moment inside a leap second belongs
to the second before it and counts a thousand million nanoseconds or more.
-/

set_option autoImplicit false
set_option relaxedAutoImplicit false

namespace Criteria

structure Instant where
  /-- Seconds since the beginning of 1970. -/
  seconds : Int
  nanos : Nat
  deriving DecidableEq, Repr

namespace Instant

/-- Whether the first moment comes before the second. -/
def before (a b : Instant) : Bool :=
  a.seconds < b.seconds || (a.seconds = b.seconds && a.nanos < b.nanos)

/-- The moment that comes some nanoseconds later. -/
def later (t : Instant) (nanos : Nat) : Instant :=
  ⟨t.seconds + ((t.nanos + nanos) / 1000000000 : Nat), (t.nanos + nanos) % 1000000000⟩

/-- The number in decimal, zeros in front up to `width` digits. -/
def padded (width n : Nat) : List Char :=
  let digits := Nat.toDigits 10 n
  List.replicate (width - digits.length) '0' ++ digits

/-- Four digits; a year that does not fit has a sign in front. -/
def yearChars (year : Int) : List Char :=
  if 0 ≤ year ∧ year ≤ 9999 then padded 4 year.toNat
  else (if year < 0 then '-' else '+') :: padded 4 year.natAbs

/-- No decimal places, or three, six or nine: the fewest that are exact. -/
def fractionChars (nanos : Nat) : List Char :=
  if nanos = 0 then []
  else if nanos % 1000000 = 0 then '.' :: padded 3 (nanos / 1000000)
  else if nanos % 1000 = 0 then '.' :: padded 6 (nanos / 1000)
  else '.' :: padded 9 nanos

def chars (t : Instant) : List Char :=
  let date := Date.ofDays (t.seconds / 86400)
  let time := (t.seconds % 86400).toNat
  let leap := t.nanos / 1000000000
  yearChars date.year ++ '-' :: padded 2 date.month ++ '-' :: padded 2 date.day ++
    'T' :: padded 2 (time / 3600) ++ ':' :: padded 2 (time / 60 % 60) ++
    ':' :: padded 2 (time % 60 + leap) ++ fractionChars (t.nanos % 1000000000) ++ ['Z']

def write (t : Instant) : String :=
  String.ofList t.chars

end Instant

end Criteria
