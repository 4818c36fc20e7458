import Criteria.Decimal.Numeral
import Criteria.Instant

/-!
Dates and times of day in configuration files, and their text. Of a moment the date, the time, the
seconds and the distance from universal time may be missing; what is given is kept as it is, except
that a fraction loses what is beyond nanoseconds and the zeros at its end.
-/

set_option autoImplicit false
set_option relaxedAutoImplicit false

namespace Criteria.Settings.Toml

/-- A time of day. The fraction is in nanoseconds. -/
structure Clock where
  hour : Nat
  minute : Nat
  second : Option Nat
  fraction : Option Nat
  deriving DecidableEq, Repr

/-- The distance of a clock from universal time, in minutes if it is given as a number. -/
inductive Zone where
  | universal
  | ahead (minutes : Int)
  deriving DecidableEq, Repr

structure Moment where
  date : Option Date
  clock : Option Clock
  zone : Option Zone
  deriving DecidableEq, Repr

/-- A number of exactly `width` digits, and the rest. -/
def digits? (width : Nat) (cs : List Char) : Option (Nat × List Char) :=
  if (cs.takeWhile Decimal.isAsciiDigit).length = width then
    some (Decimal.ofDigits (cs.take width), cs.drop width)
  else none

/-- The number behind a mark. -/
def marked? (mark : Char) (width : Nat) (cs : List Char) : Option (Nat × List Char) :=
  if cs.head? = some mark then digits? width (cs.drop 1) else none

def date? (cs : List Char) : Option (Date × List Char) := do
  let (year, cs) ← digits? 4 cs
  let (month, cs) ← marked? '-' 2 cs
  let (day, cs) ← marked? '-' 2 cs
  if (Date.mk year month day).isValid then some (⟨year, month, day⟩, cs) else none

namespace Clock

/-- The nanoseconds behind a point, and the rest. -/
def fraction? : List Char → Option (Option Nat × List Char)
  | '.' :: cs =>
    let digits := cs.takeWhile Decimal.isAsciiDigit
    let nanos := (digits ++ List.replicate 9 '0').take 9
    if digits = [] then none else some (some (Decimal.ofDigits nanos), cs.drop digits.length)
  | cs => some (none, cs)

/-- The seconds of a time of day with their fraction, and the rest. -/
def seconds? (cs : List Char) : Option (Option Nat × Option Nat × List Char) :=
  if cs.head? = some ':' then do
    let (second, cs) ← marked? ':' 2 cs
    let (fraction, cs) ← fraction? cs
    return (some second, fraction, cs)
  else some (none, none, cs)

def read? (cs : List Char) : Option (Clock × List Char) := do
  let (hour, cs) ← digits? 2 cs
  let (minute, cs) ← marked? ':' 2 cs
  let (second, fraction, cs) ← seconds? cs
  if hour ≤ 23 ∧ minute ≤ 59 ∧ second.all (· ≤ 60) then
    some (⟨hour, minute, second, fraction⟩, cs)
  else none

/-- The digits of a fraction without the zeros at its end, of which one is left if there is nothing
else. -/
def fractionChars (nanos : Nat) : List Char :=
  let digits := ((Instant.padded 9 nanos).reverse.dropWhile (· = '0')).reverse
  if digits = [] then ['0'] else digits

def chars (c : Clock) : List Char :=
  Instant.padded 2 c.hour ++ ':' :: Instant.padded 2 c.minute ++
    c.second.elim [] (fun n ↦ ':' :: Instant.padded 2 n) ++
    c.fraction.elim [] (fun n ↦ '.' :: fractionChars n)

end Clock

namespace Zone

/-- The distance that a text spells, up to its end. -/
def read? : List Char → Option (Option Zone)
  | [] => some none
  | [c] => if c = 'Z' ∨ c = 'z' then some (some .universal) else none
  | sign :: cs => do
    let (hours, cs) ← digits? 2 cs
    let (minutes, cs) ← marked? ':' 2 cs
    let ahead : Int := hours * 60 + minutes
    if cs ≠ [] ∨ 23 < hours ∨ 59 < minutes then none
    else if sign = '+' then some (some (.ahead ahead))
    else if sign = '-' then some (some (.ahead (-ahead)))
    else none

def chars : Zone → List Char
  | .universal => ['Z']
  | .ahead minutes =>
    (if minutes < 0 then '-' else '+') ::
      Instant.padded 2 (minutes.natAbs / 60) ++ ':' :: Instant.padded 2 (minutes.natAbs % 60)

end Zone

namespace Moment

/-- What stands behind a date: nothing, or a time with or without its zone. -/
def afterDate? (date : Date) : List Char → Option Moment
  | [] => some ⟨some date, none, none⟩
  | c :: cs => do
    if c ≠ 'T' ∧ c ≠ 't' ∧ c ≠ ' ' then none
    let (clock, cs) ← Clock.read? cs
    return ⟨some date, some clock, ← Zone.read? cs⟩

/-- The moment that a text spells. Without a date there is no zone either. -/
def read? (cs : List Char) : Option Moment :=
  match date? cs with
  | some (date, cs) => afterDate? date cs
  | none => do
    let (clock, cs) ← Clock.read? cs
    if cs = [] then some ⟨none, some clock, none⟩ else none

def chars (m : Moment) : List Char :=
  let date := m.date.elim [] fun d ↦
    Instant.padded 4 d.year.toNat ++ '-' :: Instant.padded 2 d.month ++
      '-' :: Instant.padded 2 d.day
  let between := if m.date.isSome ∧ m.clock.isSome then ['T'] else []
  date ++ between ++ m.clock.elim [] Clock.chars ++ m.zone.elim [] Zone.chars

def write (m : Moment) : String :=
  String.ofList m.chars

end Moment

end Criteria.Settings.Toml
