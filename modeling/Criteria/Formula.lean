import Criteria.Literal
import Criteria.Operator

/-!
What a rule says: conditions on fields, joined two at a time. The written form of a formula reads
from left to right without precedence, so that only joined right operands stand in parentheses.
-/

set_option autoImplicit false
set_option relaxedAutoImplicit false

namespace Criteria

structure Condition where
  field : String
  comparison : Comparison
  literal : Literal
  deriving BEq, Repr

def Condition.write (c : Condition) : String :=
  c.field ++ " " ++ c.comparison.symbol ++ " " ++ c.literal.write

inductive Formula where
  | test (condition : Condition)
  | join (connective : Connective) (left right : Formula)
  deriving BEq, Repr

namespace Formula

/-- The conditions from left to right. -/
def conditions : Formula → List Condition
  | .test c => [c]
  | .join _ left right => left.conditions ++ right.conditions

def size : Formula → Nat
  | .test _ => 1
  | .join _ left right => left.size + right.size

def depth : Formula → Nat
  | .test _ => 1
  | .join _ left right => max left.depth right.depth + 1

def isJoin : Formula → Bool
  | .test _ => false
  | .join .. => true

def write : Formula → String
  | .test c => c.write
  | .join connective left right =>
    left.write ++ " " ++ connective.symbol ++ " " ++
      (if right.isJoin then "(" ++ right.write ++ ")" else right.write)

/-- The names that the conditions mention, each once. -/
def fieldNames (f : Formula) : List String :=
  (f.conditions.map Condition.field).eraseDups

theorem size_pos (f : Formula) : 0 < f.size := by
  induction f with
  | test c => exact Nat.one_pos
  | join _ left right hl hr => exact Nat.add_pos_left hl _

end Formula

end Criteria
