/-!
The calendar: days counted from the first day of 1970, and dates. A year lasts 365 days, or 366 if
four divides it and a hundred does not, or four hundred does; the rule holds for all years.
-/

set_option autoImplicit false
set_option relaxedAutoImplicit false

namespace Criteria

structure Date where
  year : Int
  month : Nat
  day : Nat
  deriving DecidableEq, Repr

namespace Date

def isLeap (year : Int) : Bool :=
  year % 4 = 0 && (year % 100 ≠ 0 || year % 400 = 0)

def monthLengths (year : Int) : List Nat :=
  [31, if isLeap year then 29 else 28, 31, 30, 31, 30, 31, 31, 30, 31, 30, 31]

/-- The days from the first day of year 1 to the first day of `year`. -/
def daysBefore (year : Int) : Int :=
  365 * (year - 1) + (year - 1) / 4 - (year - 1) / 100 + (year - 1) / 400

/-- The year of the day that comes `n` days after the first day of year 1. The quotient misses it
by one year at most. -/
def yearOf (n : Int) : Int :=
  let near := 400 * n / 146097 + 1
  if n < daysBefore near then near - 1
  else if daysBefore (near + 1) ≤ n then near + 1
  else near

/-- The month and day that come `n` days after the first day of `month`, given the lengths of the
months from there on. -/
def monthDay (month n : Nat) : List Nat → Nat × Nat
  | [] => (month, n + 1)
  | length :: lengths =>
    if n < length then (month, n + 1) else monthDay (month + 1) (n - length) lengths

/-- The first day of 1970, counted from the first day of year 1. -/
def epoch : Int :=
  719162

def ofDays (days : Int) : Date :=
  let n := days + epoch
  let year := yearOf n
  let (month, day) := monthDay 1 (n - daysBefore year).toNat (monthLengths year)
  ⟨year, month, day⟩

def isValid (d : Date) : Bool :=
  match d.month with
  | 0 => false
  | m + 1 =>
    match (monthLengths d.year)[m]? with
    | none => false
    | some length => 1 ≤ d.day && d.day ≤ length

def toDays (d : Date) : Int :=
  let inYear : Nat := ((monthLengths d.year).take (d.month - 1)).foldr (· + ·) d.day
  daysBefore d.year + inYear - 1 - epoch

end Date

end Criteria
