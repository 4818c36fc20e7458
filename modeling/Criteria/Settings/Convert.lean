import Criteria.Decimal.Layout
import Criteria.Settings.Environment

/-!
What a leaf of the settings amounts to where a number, a truth value or a text is wanted. Leaves of
the other kinds are converted where they can be meant; tables and lists never are.
-/

set_option autoImplicit false
set_option relaxedAutoImplicit false

namespace Criteria.Settings

/-- The truth value that a word stands for, in letters of any size. -/
def switch? (s : String) : Option Bool :=
  match s.toLower with
  | "true" | "on" | "yes" => some true
  | "false" | "off" | "no" => some false
  | _ => none

namespace Tree

/-- A number below the bound. A real number is rounded, one beyond the range to its end. -/
def asNat? (bound : Nat) (v : Tree) : Option Nat :=
  let n : Option Nat :=
    match v with
    | .flag b => some b.toNat
    | .integer n => if 0 ≤ n then some n.toNat else none
    | .real x => some x.round.toUInt64.toNat
    | .text s =>
      match switch? s with
      | some b => some b.toNat
      | none => natural? s.toList
    | _ => none
  n.filter (· < bound)

def asBool? : Tree → Option Bool
  | .flag b => some b
  | .integer n => some (n ≠ 0)
  | .real x => some (x != 0)
  | .text "1" => some true
  | .text "0" => some false
  | .text s => switch? s
  | _ => none

def asText? : Tree → Option String
  | .flag b => some (if b then "true" else "false")
  | .integer n => some (toString n)
  | .real x => some (Layout.plain.write x)
  | .text s => some s
  | _ => none

end Tree

end Criteria.Settings
