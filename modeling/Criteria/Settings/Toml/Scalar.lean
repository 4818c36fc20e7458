import Criteria.Settings.Toml.Moment
import Criteria.Settings.Tree
import Criteria.Text.Class

/-!
What a word of a configuration file amounts to where a value is wanted: a truth value, a number or a
moment. Moments become texts.
-/

set_option autoImplicit false
set_option relaxedAutoImplicit false

namespace Criteria.Settings.Toml

/-- Whether every underscore stands between digits, where one has just been read or not. -/
def isSpaced (isDigit : Char → Bool) (afterDigit : Bool) : List Char → Bool
  | [] => true
  | '_' :: c :: rest => afterDigit && isDigit c && isSpaced isDigit true rest
  | ['_'] => false
  | c :: rest => isSpaced isDigit (isDigit c) rest

/-- A numeral without the underscores between its digits. -/
def unspaced? (isDigit : Char → Bool) (cs : List Char) : Option (List Char) :=
  if isSpaced isDigit false cs then some (cs.filter (· ≠ '_')) else none

/-- Whether a run of digits is a number without zeros in front. -/
def isWhole (cs : List Char) : Bool :=
  cs = ['0'] || (cs ≠ [] && cs.all Decimal.isAsciiDigit && cs.head? ≠ some '0')

/-- The number that a run of digits spells to a base. -/
def ofBase? (base : Nat) (cs : List Char) : Option Int := do
  let digits ← unspaced? (fun c ↦ (Text.hexValue? c).isSome) cs
  if digits = [] then none
  let n ← digits.foldlM (fun n c ↦ do
    let digit ← Text.hexValue? c
    if digit < base then some (n * base + digit) else none) 0
  if n < Nat.pow 2 63 then some (n : Int) else none

/-- The number that a decimal numeral spells. A point stands between digits. -/
def ofDecimal? (cs : List Char) : Option Tree :=
  let body := (Decimal.splitSign cs).2
  let whole := body.takeWhile Decimal.isAsciiDigit
  if body = ['i', 'n', 'f'] ∨ body = ['n', 'a', 'n'] then (numeral? cs).map .real
  else if ¬isWhole whole then none
  else if body = whole then (integer? cs).map .integer
  else
    match body.drop whole.length with
    | ['.'] => none
    | '.' :: c :: _ => if Decimal.isAsciiDigit c then (finiteNumeral? cs).map .real else none
    | _ => (finiteNumeral? cs).map .real

def number? : List Char → Option Tree
  | '0' :: 'x' :: digits => (ofBase? 16 digits).map .integer
  | '0' :: 'o' :: digits => (ofBase? 8 digits).map .integer
  | '0' :: 'b' :: digits => (ofBase? 2 digits).map .integer
  | cs => (unspaced? Decimal.isAsciiDigit cs).bind ofDecimal?

/-- The value of a word. -/
def value? (cs : List Char) : Option Tree :=
  if cs = "true".toList then some (.flag true)
  else if cs = "false".toList then some (.flag false)
  else
    match Moment.read? cs with
    | some m => some (.text m.write)
    | none => number? cs

end Criteria.Settings.Toml
