import Criteria.Decimal.Layout
import Criteria.Decimal.Numeral

/-!
The constants that fields are compared with. A quoted token is a text, and a token that spells a
finite number is that number; any other token is a text as it stands.
-/

set_option autoImplicit false
set_option relaxedAutoImplicit false

namespace Criteria

inductive Literal where
  | number (x : Float)
  | text (s : String)
  deriving BEq, Repr

namespace Literal

/-- What stands between a single quote at each end. -/
def unquote? : List Char → Option (List Char)
  | '\'' :: rest => if rest.getLast? = some '\'' then some rest.dropLast else none
  | _ => none

def ofTokenText (raw : String) : Literal :=
  match unquote? raw.toList with
  | some inner => .text (String.ofList inner)
  | none =>
    match finiteNumeral? raw.toList with
    | some x => .number x
    | none => .text raw

/-- Whether the literal is a text with a single quote, which no rule text can write. -/
def hasQuote : Literal → Bool
  | .text s => s.toList.contains '\''
  | .number _ => false

/-- The literal as rule texts write it. -/
def write : Literal → String
  | .number x => Layout.plain.write x
  | .text s => "'" ++ s ++ "'"

end Literal

end Criteria
