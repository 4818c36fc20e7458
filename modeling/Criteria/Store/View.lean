import Criteria.Store

/-!
The rules in force seen as a whole: the list of them, latest first, and counts over them.
-/

set_option autoImplicit false
set_option relaxedAutoImplicit false

namespace Criteria

/-- Whether a rule stands before another in a list, or at the same place: it was made later, or at
the same moment with an identifier that is not smaller. -/
def Rule.listedBefore (a b : Rule) : Bool :=
  b.createdAt.before a.createdAt || (a.createdAt == b.createdAt && decide (b.id ≤ a.id))

/-- Counts over the rules in force. -/
structure Census where
  rules : Nat
  fields : Nat
  conditions : Nat
  deriving DecidableEq, Repr

/-- How many fields a rule mentions, on the average; none if there is no rule. -/
def Census.fieldsPerRule (c : Census) : Float :=
  if c.rules = 0 then 0 else c.fields.toFloat / c.rules.toFloat

namespace Store

def toList (s : Store) : List Rule :=
  (s.entries.map Compiled.toRule).mergeSort Rule.listedBefore

def census (s : Store) : Census :=
  s.entries.foldr (fun c n ↦
    ⟨n.rules + 1, n.fields + c.fieldNames.length, n.conditions + c.formula.size⟩) ⟨0, 0, 0⟩

end Store

end Criteria
