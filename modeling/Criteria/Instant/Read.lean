import Criteria.Decimal.Numeral
import Criteria.Instant
import Criteria.Text.Class

/-!
Moments read from text: a date, a time of day and its distance from universal time. Blanks may
stand between the parts, and numbers need not be padded.
-/

set_option autoImplicit false
set_option relaxedAutoImplicit false

namespace Criteria

/-- Why a text is no moment. -/
inductive InstantFault where
  | tooShort
  | tooLong
  | invalid
  | outOfRange
  | impossible
  deriving DecidableEq, Repr

def InstantFault.message : InstantFault → String
  | .tooShort => "premature end of input"
  | .tooLong => "trailing input"
  | .invalid => "input contains invalid characters"
  | .outOfRange => "input is out of range"
  | .impossible => "no possible date and time matching input"

namespace Instant

/-- A part of a text read from its head: what it says, and the rest. -/
abbrev Part (α : Type) : Type :=
  StateT (List Char) (Except InstantFault) α

def skipBlanks : Part Unit :=
  modify fun cs ↦ cs.dropWhile Text.isBlank

/-- A number of at most `width` digits. -/
def digits (width : Nat) : Part Nat := do
  match ← get with
  | [] => throw .tooShort
  | c :: rest =>
    if Decimal.isAsciiDigit c then
      let run := ((c :: rest).take width).takeWhile Decimal.isAsciiDigit
      set ((c :: rest).drop run.length)
      return Decimal.ofDigits run
    else throw .invalid

/-- A number of at most two digits, which lies between the bounds. -/
def within (least most : Nat) : Part Nat := do
  skipBlanks
  let n ← digits 2
  if least ≤ n ∧ n ≤ most then return n else throw .outOfRange

def mark (c : Char) : Part Unit := do
  skipBlanks
  match ← get with
  | [] => throw .tooShort
  | d :: rest => if c = d then set rest else throw .invalid

/-- A year of at most four digits, or of any number of them after a sign. -/
def signedYear : Part Int := do
  match ← get with
  | '-' :: rest =>
    set rest
    return -(← digits rest.length : Int)
  | '+' :: rest =>
    set rest
    return (← digits rest.length : Int)
  | _ => return (← digits 4 : Int)

def year : Part Int := do
  skipBlanks
  let y ← signedYear
  let bound : Int := Nat.pow 2 31
  if -bound ≤ y ∧ y < bound then return y else throw .outOfRange

/-- The nanoseconds of a second, of which digits beyond the ninth are dropped. -/
def fraction : Part Nat := do
  match ← get with
  | '.' :: rest => do
    set rest
    let n ← digits 9
    let used := rest.length - (← get).length
    modify fun cs ↦ cs.dropWhile Decimal.isAsciiDigit
    return n * Nat.pow 10 (9 - used)
  | _ => return 0

/-- Two digits of a distance from universal time. -/
def digitPair : Part (Nat × Nat) := do
  match ← get with
  | [] => throw .tooShort
  | [c] => if c.toNat < 0x80 then throw .tooShort else throw .invalid
  | a :: b :: rest =>
    if Decimal.isAsciiDigit a ∧ Decimal.isAsciiDigit b then
      set rest
      return (a.toNat - '0'.toNat, b.toNat - '0'.toNat)
    else throw .invalid

/-- A distance from universal time after its sign, in seconds. -/
def signedOffset (negative : Bool) : Part Int := do
  let (h, k) ← digitPair
  modify fun cs ↦ cs.dropWhile fun c ↦ c == ':' || Text.isBlank c
  let (m, n) ← digitPair
  if 6 ≤ m then throw .outOfRange
  let total : Int := (h * 10 + k) * 3600 + (m * 10 + n) * 60
  return if negative then -total else total

/-- The distance from universal time, in seconds: none, or hours and minutes after a sign. -/
def offset : Part Int := do
  skipBlanks
  let cs ← get
  if (cs.take 3).map Char.toLower = ['u', 't', 'c'] then
    set (cs.drop 3)
    return 0
  match cs with
  | [] => throw .tooShort
  | c :: rest =>
    set rest
    if c = 'Z' ∨ c = 'z' then return 0
    else if c = '+' then signedOffset false
    else if c = '-' ∨ c = '−' then signedOffset true
    else throw .invalid

/-- The years between which dates are kept. -/
def yearBounds : Int × Int :=
  (-262143, 262142)

/-- The moment at which clocks so many seconds ahead show a date and a time. Both the date that they
show and the moment have to lie between the bounds. -/
def ofClock (date : Date) (hour minute second nanos : Nat) (ahead : Int) :
    Except InstantFault Instant :=
  let leap := second / 60
  let seconds := date.toDays * 86400 + hour * 3600 + minute * 60 + (second - leap : Nat) - ahead
  let first := (⟨yearBounds.1, 1, 1⟩ : Date).toDays * 86400
  let last := (⟨yearBounds.2 + 1, 1, 1⟩ : Date).toDays * 86400
  if ¬date.isValid ∨ date.year < yearBounds.1 ∨ yearBounds.2 < date.year ∨ 86400 ≤ ahead.natAbs then
    .error .outOfRange
  else if seconds < first ∨ last ≤ seconds then .error .impossible
  else .ok ⟨seconds, nanos + leap * 1000000000⟩

def parts : Part Instant := do
  let y ← year
  mark '-'
  let month ← within 1 12
  mark '-'
  let day ← within 1 31
  match ← get with
  | [] => throw .tooShort
  | c :: rest => if c = 'T' ∨ c = 't' ∨ c = ' ' then set rest else throw .invalid
  let hour ← within 0 23
  mark ':'
  let minute ← within 0 59
  mark ':'
  let second ← within 0 60
  let nanos ← fraction
  let ahead ← offset
  skipBlanks
  unless (← get) = [] do throw .tooLong
  ofClock ⟨y, month, day⟩ hour minute second nanos ahead

def read (s : String) : Except InstantFault Instant :=
  (parts.run s.toList).map Prod.fst

end Instant

end Criteria
