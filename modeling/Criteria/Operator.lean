/-!
The operators of rules: six comparisons of a field with a literal, and two connectives between
conditions, which bind equally.
-/

set_option autoImplicit false
set_option relaxedAutoImplicit false

namespace Criteria

inductive Comparison where
  | above
  | below
  | atLeast
  | atMost
  | equal
  | different
  deriving DecidableEq, Repr

namespace Comparison

def symbol : Comparison → String
  | .above => ">"
  | .below => "<"
  | .atLeast => ">="
  | .atMost => "<="
  | .equal => "="
  | .different => "!="

/-- Reads a comparison. Equality may also be written with two signs. -/
def ofSymbol? : String → Option Comparison
  | ">" => some .above
  | "<" => some .below
  | ">=" => some .atLeast
  | "<=" => some .atMost
  | "=" => some .equal
  | "==" => some .equal
  | "!=" => some .different
  | _ => none

/-- Whether the comparison asks for an order, and so for two numbers. -/
def isOrdering : Comparison → Bool
  | .equal | .different => false
  | _ => true

/-- Whether two numbers stand in the relation; not-a-number is only different from others. -/
def ofNumbers : Comparison → Float → Float → Bool
  | .above, x, y => y < x
  | .below, x, y => x < y
  | .atLeast, x, y => y ≤ x
  | .atMost, x, y => x ≤ y
  | .equal, x, y => x == y
  | .different, x, y => x != y

/-- Whether two texts stand in the relation. Texts have no order. -/
def ofTexts : Comparison → String → String → Bool
  | .equal, s, t => s == t
  | .different, s, t => s != t
  | _, _, _ => false

end Comparison

inductive Connective where
  | and
  | or
  deriving DecidableEq, Repr

namespace Connective

def symbol : Connective → String
  | .and => "AND"
  | .or => "OR"

def ofSymbol? : String → Option Connective
  | "AND" => some .and
  | "OR" => some .or
  | _ => none

def apply : Connective → Bool → Bool → Bool
  | .and, p, q => p && q
  | .or, p, q => p || q

end Connective

end Criteria
