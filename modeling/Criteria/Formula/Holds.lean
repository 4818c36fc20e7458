import Criteria.Formula
import Criteria.Record

/-!
Whether a record meets a formula. A condition on a field that is absent or null fails; a number
literal asks for numbers where the field has one, and everything else is compared as text.
-/

set_option autoImplicit false
set_option relaxedAutoImplicit false

namespace Criteria

/-- Whether a value that is not null stands in the relation to the literal. -/
def Comparison.ofValue (op : Comparison) (v : Value) : Literal → Bool
  | .text s => op.ofTexts v.write s
  | .number n =>
    match v.number? with
    | some x => op.ofNumbers x n
    | none => op.ofTexts v.write (Layout.plain.write n)

/-- Whether a field with this value, or without one, stands in the relation to the literal. -/
def Comparison.ofField (op : Comparison) (v : Option Value) (literal : Literal) : Bool :=
  match v with
  | none => false
  | some v => !v.isNull && op.ofValue v literal

def Condition.holds (c : Condition) (r : Record) : Bool :=
  c.comparison.ofField (r.get? c.field) c.literal

def Formula.holds : Formula → Record → Bool
  | .test c, r => c.holds r
  | .join connective left right, r => connective.apply (left.holds r) (right.holds r)

end Criteria
